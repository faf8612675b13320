import Setlist.Catalogue.Evaluate
import Setlist.Proofs.Catalogue.Joins
import Setlist.Proofs.Rule.Batches

/-! # The songs that an expression matches

An expression needs the relations of the fields it reads, and its selection joins them all.
Joining more changes nothing, so a song matches by itself and its view alone: some nonempty
group must have all of its predicates hold.
-/

namespace Setlist

/-- Whatever the field is read from is joined. -/
def Joins.Covers (joins : Joins) (field : Field) : Prop :=
  ∀ relation ∈ field.relation, joins.has relation = true

namespace Joins

def Within (a b : Joins) : Prop := ∀ relation, a.has relation = true → b.has relation = true

theorem within_union (a b : Joins) : a.Within (a.union b) := fun _ h => has_union.mpr (.inl h)

theorem covers_ofOption (field : Field) : (ofOption field.relation).Covers field :=
  fun _ hrelation => has_ofOption.mpr hrelation

end Joins

theorem Row.cell_restrict {joins : Joins} {field : Field} (h : joins.Covers field) (row : Row) :
    (row.restrict joins).cell field = row.cell field := by
  cases field with
  | albumName =>
    have halbum : joins.album = true := h .album rfl
    simp [cell, restrict, halbum]
  | artistName =>
    have hartist : joins.artist = true := h .artist rfl
    simp [cell, restrict, hartist]
  | playCount | playedAt =>
    have hinteraction : joins.interaction = true := h .interaction rfl
    simp [cell, restrict, hinteraction]
  | _ => rfl

namespace Expression

/-- The relations cover every field that the expression reads. -/
def CoveredBy (e : Expression) (joins : Joins) : Prop :=
  ∀ group ∈ e.groups, ∀ p ∈ group, joins.Covers p.field

theorem CoveredBy.mono {e : Expression} {joins more : Joins} (h : e.CoveredBy joins)
    (hjoins : joins.Within more) : e.CoveredBy more :=
  fun group hgroup p hp relation hrelation =>
    hjoins relation (h group hgroup p hp relation hrelation)

theorem CoveredBy.union {e : Expression} {joins : Joins} (h : e.CoveredBy joins)
    (more : Joins) : e.CoveredBy (joins.union more) := h.mono (joins.within_union more)

/-- Some nonempty group has all of its predicates hold of the song. -/
def Matches (e : Expression) (c : Catalogue) (now : Instant) (song : SongRow) : Prop :=
  ∃ group ∈ e.groups, group ≠ [] ∧
    ∀ p ∈ group, (p.condition now).truth (c.view e.user song).cell = some true

theorem matches_single {user : Int} {p : Predicate} {c : Catalogue} {now : Instant}
    {song : SongRow} : (ofGroups user [[p]]).Matches c now song ↔
      (p.condition now).truth (c.view user song).cell = some true := by
  simp [Matches, ofGroups]

end Expression

namespace GroupRecord

theorem coveredBy_compile (user : Int) (groups : List GroupRecord) :
    (compile user groups).1.CoveredBy (compile user groups).1.joins :=
  fun ps hps p hp relation hrelation =>
    ((batch_compile user groups).joins relation).mpr ⟨ps, hps, p, hp, hrelation⟩

theorem coveredBy_of_compileStrict {user : Int} {groups : List GroupRecord} {e : Expression}
    (h : compileStrict user groups = .ok e) : e.CoveredBy e.joins := by
  obtain ⟨-, rfl⟩ := compileStrict_eq_ok.mp h
  exact coveredBy_compile user groups

end GroupRecord

namespace Catalogue

variable {c : Catalogue} {e : Expression} {joins : Joins} {order : SortOrder} {now : Instant}

open Selection

theorem admits_restrict (h : e.CoveredBy joins) (song : SongRow) :
    (ofExpression e joins order now).admits ((c.view e.user song).restrict joins) = true ↔
      e.Matches c now song := by
  have htruth : ∀ group ∈ e.groups, ∀ p ∈ group,
      (p.condition now).truth ((c.view e.user song).restrict joins).cell =
        (p.condition now).truth (c.view e.user song).cell :=
    fun group hgroup p hp =>
      Predicate.truth_congr (Row.cell_restrict (h group hgroup p hp) _) now
  rw [admits_iff, Expression.Matches]
  constructor
  · rintro ⟨_, hmem, hne, hall⟩
    obtain ⟨group, hgroup, rfl⟩ := List.mem_map.mp hmem
    refine ⟨group, hgroup, fun h => hne (by rw [h, List.map_nil]), fun p hp => ?_⟩
    rw [← htruth group hgroup p hp]
    exact hall _ (List.mem_map_of_mem hp)
  · rintro ⟨group, hgroup, hne, hall⟩
    refine ⟨_, List.mem_map_of_mem hgroup, fun h => hne (List.map_eq_nil_iff.mp h), ?_⟩
    intro condition hcondition
    obtain ⟨p, hp, rfl⟩ := List.mem_map.mp hcondition
    rw [htruth group hgroup p hp]
    exact hall p hp

/-- The ids of the songs that the query of an expression returns, in no particular order. -/
def matched (c : Catalogue) (e : Expression) (now : Instant) : List String :=
  ((counting e .byTitle now).rows c).map (·.song.id)

open Classical in
/-- A selection with all that it reads returns the row of each song that matches, once. -/
theorem rows_eq (hc : c.Invariant) (h : e.CoveredBy joins) (order : SortOrder) (now : Instant) :
    (ofExpression e joins order now).rows c =
      (c.songs.filter fun song => decide (e.Matches c now song)).map fun song =>
        (c.view e.user song).restrict joins := by
  rw [rows, show (ofExpression e joins order now).joins = joins from rfl,
    show (ofExpression e joins order now).user = e.user from rfl, joined_eq hc, List.filter_map]
  refine congrArg (List.map _) (List.filter_congr fun song _ => ?_)
  rw [Function.comp, Bool.eq_iff_iff, decide_eq_true_iff, admits_restrict h]

open Classical in
theorem rows_ids (hc : c.Invariant) (h : e.CoveredBy joins) (order : SortOrder) (now : Instant) :
    ((ofExpression e joins order now).rows c).map (·.song.id) =
      (c.songs.filter fun song => decide (e.Matches c now song)).map (·.id) := by
  rw [rows_eq hc h, List.map_map]
  rfl

theorem mem_matched (hc : c.Invariant) (h : e.CoveredBy e.joins) {id : String} :
    id ∈ c.matched e now ↔ ∃ song ∈ c.songs, song.id = id ∧ e.Matches c now song := by
  classical
  rw [matched, counting, rows_ids hc h, List.mem_map]
  simp only [List.mem_filter, decide_eq_true_iff]
  constructor
  · rintro ⟨song, ⟨hsong, hmatches⟩, hid⟩
    exact ⟨song, hsong, hid, hmatches⟩
  · rintro ⟨song, hsong, hid, hmatches⟩
    exact ⟨song, ⟨hsong, hmatches⟩, hid⟩

theorem song_mem_matched (hc : c.Invariant) (h : e.CoveredBy e.joins) {song : SongRow}
    (hsong : song ∈ c.songs) : song.id ∈ c.matched e now ↔ e.Matches c now song := by
  rw [mem_matched hc h]
  constructor
  · rintro ⟨other, hother, hid, hmatches⟩
    rwa [← List.inj_on_of_nodup_map hc.distinct.songs hother hsong hid]
  · exact fun hmatches => ⟨song, hsong, rfl, hmatches⟩

theorem nodup_matched (hc : c.Invariant) (h : e.CoveredBy e.joins) : (c.matched e now).Nodup := by
  classical
  rw [matched, counting, rows_ids hc h]
  exact (List.filter_sublist.map _).nodup hc.distinct.songs

theorem count_counting (hc : c.Invariant) (h : e.CoveredBy e.joins) :
    (counting e order now).count c = (c.matched e now).length := by
  have hids := (rows_ids hc h order now).trans (rows_ids hc h .byTitle now).symm
  rw [count, matched, counting, counting, ← hids, List.length_map]

/-- The listing query returns the songs that the counting query counts. -/
theorem ids_listing (hc : c.Invariant) (h : e.CoveredBy e.joins) (order : SortOrder)
    (now : Instant) :
    ((listing e order now).ids c).Perm (c.matched e now) := by
  have hsorted : ((listing e order now).ids c).Perm
      (((listing e order now).rows c).map (·.song.id)) := (List.mergeSort_perm _ _).map _
  rw [listing, rows_ids hc (h.union _)] at hsorted
  rwa [matched, counting, rows_ids hc h]

end Catalogue

end Setlist
