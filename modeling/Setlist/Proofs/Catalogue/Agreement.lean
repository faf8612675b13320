import Setlist.Proofs.Catalogue.Paging

/-! # Songs that evaluate alike

An evaluation sees of a song the fields that the expression reads and the one that is sorted
by. Songs that are alike in these fields in two catalogues are matched in both or in neither,
and those that are matched stand in one order.
-/

namespace Setlist

def Expression.Reads (e : Expression) (field : Field) : Prop :=
  ∃ group ∈ e.groups, ∃ p ∈ group, p.field = field

/-- The fields that are read are alike in both rows. -/
def Row.Agree (e : Expression) (order : SortOrder) (a b : Row) : Prop :=
  ∀ field, e.Reads field ∨ order.field = field → a.cell field = b.cell field

theorem Row.cell_restrict_congr (a b : Row) {field : Field} (hsong : a.song = b.song)
    (h : a.cell field = b.cell field) (joins : Joins) :
    (a.restrict joins).cell field = (b.restrict joins).cell field := by
  have hcases : (∀ row : Row, (row.restrict joins).cell field = row.cell field) ∨
      ∀ row : Row, (row.restrict joins).cell field = (Row.ofSong row.song).cell field := by
    obtain ⟨album, artist, interaction⟩ := joins
    cases field with
    | albumName => cases album <;> simp [cell, restrict, ofSong]
    | artistName => cases artist <;> simp [cell, restrict, ofSong]
    | playCount | playedAt => cases interaction <;> simp [cell, restrict, ofSong]
    | _ => exact .inl fun _ => rfl
  rcases hcases with hkept | hdropped
  · rw [hkept, hkept, h]
  · rw [hdropped, hdropped, hsong]

namespace Catalogue

open Selection

variable {c d : Catalogue} {e : Expression} {order : SortOrder} {now : Instant} {song : SongRow}

theorem mem_fields_ofExpression {joins : Joins} {field : Field}
    (h : field ∈ (ofExpression e joins order now).fields) :
    e.Reads field ∨ order.field = field := by
  rcases List.mem_cons.mp h with rfl | h
  · exact .inr rfl
  · obtain ⟨conditions, hconditions, h⟩ := List.mem_flatMap.mp h
    obtain ⟨condition, hcondition, h⟩ := List.mem_flatMap.mp h
    obtain ⟨group, hgroup, rfl⟩ := List.mem_map.mp hconditions
    obtain ⟨p, hp, rfl⟩ := List.mem_map.mp hcondition
    exact .inl ⟨group, hgroup, p, hp, (p.eq_of_mem_fields now field h).symm⟩

theorem matches_congr (h : (c.view e.user song).Agree e order (d.view e.user song)) :
    e.Matches c now song ↔ e.Matches d now song := by
  refine exists_congr fun group => and_congr_right fun hgroup => and_congr_right fun _ =>
    forall₂_congr fun p hp => ?_
  rw [Predicate.truth_congr (h p.field (.inl ⟨group, hgroup, p, hp, rfl⟩)) now]

section Agreement

variable (hc : c.Invariant) (hd : d.Invariant) (he : e.CoveredBy e.joins)
  (hsongs : d.songs = c.songs)

include hc hd hsongs

theorem sortKey_congr (hsong : song ∈ c.songs)
    (h : (c.view e.user song).Agree e order (d.view e.user song)) :
    c.sortKey e.user order.field song = d.sortKey e.user order.field song := by
  rw [sortKey_eq hc hsong, sortKey_eq hd (hsongs ▸ hsong), h order.field (.inr rfl)]

include he in
/-- Songs that are alike in both catalogues are found in one order, whatever other songs are
found in between. -/
theorem filter_ranking_congr {kept : SongRow → Bool}
    (halike : ∀ song ∈ c.songs, kept song = true →
      (c.view e.user song).Agree e order (d.view e.user song)) :
    (c.ranking e order now).filter kept = (d.ranking e order now).filter kept := by
  have hranks : c.Ranks e order now (c.ranking e order now) := ranks_ranking hc he
  have hranks' : d.Ranks e order now (d.ranking e order now) := ranks_ranking hd he
  have hordered : ((d.ranking e order now).filter kept).Pairwise (c.Precedes e.user order) := by
    refine (hranks'.ordered.filter kept).imp_of_mem fun {a b} ha hb hprecedes => ?_
    have hkey : ∀ song ∈ (d.ranking e order now).filter kept,
        c.sortKey e.user order.field song = d.sortKey e.user order.field song := by
      intro song hmem
      obtain ⟨hsong, hkept⟩ := List.mem_filter.mp hmem
      have hstored : song ∈ c.songs := hsongs ▸ ((hranks'.complete song).mp hsong).1
      exact sortKey_congr hc hd hsongs hstored (halike song hstored hkept)
    rwa [Precedes, hkey a ha, hkey b hb]
  refine eq_of_precedes (hranks.nodup.of_map.filter _) (hranks'.nodup.of_map.filter _)
    (hranks.ordered.filter kept) hordered fun song => ?_
  rw [List.mem_filter, List.mem_filter, hranks.complete, hranks'.complete, hsongs]
  exact and_congr_left fun hkept => and_congr_right fun hsong =>
    matches_congr (halike song hsong hkept)

include he in
theorem filter_ids_congr {kept : String → Bool}
    (halike : ∀ song ∈ c.songs, kept song.id = true →
      (c.view e.user song).Agree e order (d.view e.user song)) :
    ((listing e order now).ids c).filter kept = ((listing e order now).ids d).filter kept := by
  rw [← map_id_ranking, ← map_id_ranking, List.filter_map, List.filter_map]
  exact congrArg _ (filter_ranking_congr hc hd he hsongs halike)

section All

variable (halike : ∀ song ∈ c.songs, (c.view e.user song).Agree e order (d.view e.user song))

include halike

include he in
theorem ids_congr : (listing e order now).ids c = (listing e order now).ids d := by
  have hall : ((listing e order now).ids c).filter (fun _ => true) =
      ((listing e order now).ids d).filter fun _ => true :=
    filter_ids_congr hc hd he hsongs fun song hsong _ => halike song hsong
  simpa only [List.filter_true] using hall

theorem seesAlike (hartists : d.artists = c.artists) (halbums : d.albums = c.albums)
    (joins : Joins) : (ofExpression e joins order now).SeesAlike c d := by
  refine ⟨hartists.symm, halbums.symm, hsongs.symm, ?_⟩
  rw [joined_eq hc, joined_eq hd, hsongs, List.map_map, List.map_map]
  refine List.map_congr_left fun song hsong => Prod.ext rfl ?_
  exact List.map_congr_left fun field hfield =>
    Row.cell_restrict_congr (c.view e.user song) (d.view e.user song) rfl
      (halike song hsong field (mem_fields_ofExpression hfield)) joins

include he in
/-- Evaluations differ no more than the songs that are handed out. -/
theorem evaluate_congr {change : Song → Song} (hartists : d.artists = c.artists)
    (halbums : d.albums = c.albums)
    (hmany : ∀ ids : List String, ids.Nodup →
      Songs.many d e.user ids = (Songs.many c e.user ids).map (·.map change))
    (plan : Plan) (page : PageRequest) :
    d.evaluate plan e order page now = (c.evaluate plan e order page now).map fun answer =>
      { answer with songs := answer.songs.map change } := by
  have hids : (listing e order now).ids c = (listing e order now).ids d :=
    ids_congr hc hd he hsongs halike
  have hcount : (counting e order now).count c = (counting e order now).count d := by
    rw [count_counting hc he, count_counting hd he, ← (ids_listing hc he order now).length_eq,
      ← (ids_listing hd he order now).length_eq, hids]
  have hcounting : (counting e order now).fault? plan none c =
      (counting e order now).fault? plan none d :=
    fault?_congr (seesAlike hc hd hsongs halike hartists halbums _) plan none
  have hlisting : (listing e order now).fault? plan (some page) c =
      (listing e order now).fault? plan (some page) d :=
    fault?_congr (seesAlike hc hd hsongs halike hartists halbums _) plan (some page)
  have hpage : (((listing e order now).ids c).drop page.offset |>.take page.limit).Nodup :=
    (nodup_ids hc _).drop.take
  simp only [evaluate, ← hids, ← hcount, ← hcounting, ← hlisting, hmany _ hpage]
  split
  case isTrue => rfl
  case isFalse =>
    cases ((counting e order now).fault? plan none c).or
        ((listing e order now).fault? plan (some page) c) with
    | some fault => rfl
    | none =>
      cases Songs.many c e.user (((listing e order now).ids c).drop page.offset
        |>.take page.limit) <;> rfl

end All

end Agreement

end Catalogue

end Setlist
