import Setlist.Proofs.Catalogue.Evaluation
import Setlist.Proofs.Catalogue.Isolation
import Setlist.Proofs.Catalogue.Substrings

/-! # Paging

The songs that an expression matches stand in one order, which the songs and the sort alone
determine. Every page is cut out of it, so the pages of a size put together are all of it.
-/

namespace Setlist

namespace Catalogue

open Selection

variable {c : Catalogue} {plan : Plan} {e : Expression} {order : SortOrder} {now : Instant}

/-- What a song is sorted by: a text by its folded form, and any other value as it is. -/
def sortKey (c : Catalogue) (user : Int) (field : Field) (song : SongRow) :
    WithBot (ℤ ⊕ₗ List ℕ) :=
  match (c.view user song).display? field with
  | some text => (Datum.text (Text.fold text)).rank
  | none => ((c.view user song).cell field).rank

/-- One song comes before another, by its key in the direction of the order and else by its id. -/
def Precedes (c : Catalogue) (user : Int) (order : SortOrder) (a b : SongRow) : Prop :=
  order.direction.Before (c.sortKey user order.field a, a.id) (c.sortKey user order.field b, b.id)

/-- The songs that match, each once and each before the next. -/
structure Ranks (c : Catalogue) (e : Expression) (order : SortOrder) (now : Instant)
    (ranked : List SongRow) : Prop where
  nodup : (ranked.map (·.id)).Nodup
  ordered : ranked.Pairwise (c.Precedes e.user order)
  complete : ∀ song, song ∈ ranked ↔ song ∈ c.songs ∧ e.Matches c now song

theorem eq_of_precedes {user : Int} {songs others : List SongRow} (hsongs : songs.Nodup)
    (hothers : others.Nodup) (hordered : songs.Pairwise (c.Precedes user order))
    (hordered' : others.Pairwise (c.Precedes user order))
    (hmem : ∀ song, song ∈ songs ↔ song ∈ others) : songs = others :=
  ((List.perm_ext_iff_of_nodup hsongs hothers).mpr hmem).eq_of_pairwise
    (fun _ _ _ _ hab hba => absurd hba hab.asymm) hordered hordered'

theorem Ranks.unique {ranked others : List SongRow} (h : c.Ranks e order now ranked)
    (h' : c.Ranks e order now others) : ranked = others :=
  eq_of_precedes h.nodup.of_map h'.nodup.of_map h.ordered h'.ordered fun song => by
    rw [h.complete, h'.complete]

theorem sortKey_eq (hc : c.Invariant) {user : Int} {song : SongRow} (hsong : song ∈ c.songs)
    (field : Field) : c.sortKey user field song = ((c.view user song).cell field).rank := by
  unfold sortKey
  split
  case h_1 text htext => rw [(cell_of_display hc hsong htext).2, Cell.rank]
  case h_2 => rfl

def ranking (c : Catalogue) (e : Expression) (order : SortOrder) (now : Instant) : List SongRow :=
  ((listing e order now).sorted c).map (·.song)

theorem map_id_ranking : (c.ranking e order now).map (·.id) = (listing e order now).ids c := by
  rw [ranking, List.map_map]
  rfl

theorem mem_sorted (hc : c.Invariant) (he : e.CoveredBy e.joins) {row : Row} :
    row ∈ (listing e order now).sorted c ↔ ∃ song ∈ c.songs, e.Matches c now song ∧
      (c.view e.user song).restrict (listing e order now).joins = row := by
  classical
  rw [sorted, List.mem_mergeSort, listing, rows_eq hc (he.union _), List.mem_map]
  simp only [List.mem_filter, decide_eq_true_iff, and_assoc]
  rfl

/-- The listing query puts the songs that match in order. -/
theorem ranks_ranking (hc : c.Invariant) (he : e.CoveredBy e.joins) :
    c.Ranks e order now (c.ranking e order now) := by
  have hnodup : ((c.ranking e order now).map (·.id)).Nodup := by
    rw [map_id_ranking]
    exact nodup_ids hc _
  refine ⟨hnodup, ?_, fun song => ?_⟩
  · have hdistinct : ((listing e order now).sorted c).Pairwise (·.song.id ≠ ·.song.id) := by
      rw [ranking, List.map_map] at hnodup
      exact List.pairwise_map.mp hnodup
    have hsorted := pairwise_mergeSort (Row.transCmp order) ((listing e order now).rows c)
    rw [ranking, List.pairwise_map]
    refine (hsorted.and hdistinct).imp_of_mem fun {a b} ha hb ⟨hle, hne⟩ => ?_
    have hlt : a.compare order b = .lt := by
      cases hcompare : a.compare order b with
      | lt => rfl
      | eq => exact absurd (Row.id_eq_of_compare hcompare) hne
      | gt => rw [hcompare] at hle; cases hle
    have hkey : ∀ row ∈ (listing e order now).sorted c,
        c.sortKey e.user order.field row.song = (row.cell order.field).rank := by
      intro row hrow
      obtain ⟨song, hsong, -, rfl⟩ := (mem_sorted hc he).mp hrow
      have hcovers : (listing e order now).joins.Covers order.field := fun relation hrelation =>
        Joins.has_union.mpr (.inr (Joins.covers_ofOption order.field relation hrelation))
      rw [Row.cell_restrict hcovers]
      exact sortKey_eq hc hsong order.field
    rw [Precedes, hkey a ha, hkey b hb]
    exact Row.compare_eq_lt.mp hlt
  · rw [ranking, List.mem_map]
    constructor
    · rintro ⟨row, hrow, rfl⟩
      obtain ⟨song, hsong, hmatches, rfl⟩ := (mem_sorted hc he).mp hrow
      exact ⟨hsong, hmatches⟩
    · rintro ⟨hsong, hmatches⟩
      exact ⟨_, (mem_sorted hc he).mpr ⟨song, hsong, hmatches, rfl⟩, rfl⟩

section Pages

variable {shown : List Song}

end Pages

/-- Rows in another order are evaluated alike, where the queries are run on both. -/
theorem Rearranged.evaluate_eq {d : Catalogue} (h : Rearranged e.user c d) (hc : c.Invariant)
    (hd : d.Invariant) (plan : Plan) (order : SortOrder) (page : PageRequest) (now : Instant) :
    c.IsRefused plan e order page now ∨ d.IsRefused plan e order page now ∨
      c.evaluate plan e order page now = d.evaluate plan e order page now := by
  have hslice : c.slice e order page now = d.slice e order page now := by
    rw [slice, slice, (run_congr (s := listing e order now) hc (h.joined_perm hc hd _)).1]
  have hnodup := (slice_sublist page).nodup (nodup_ids hd (listing e order now))
  refine refused_or_evaluate_eq rfl ?_ ?_ plan
  · exact (run_congr (s := counting e order now) hc (h.joined_perm hc hd _)).2
  · rw [hslice, h.many_eq hc hd hnodup]

end Catalogue

end Setlist
