import Setlist.Proofs.Query.Limits
import Setlist.Proofs.Query.Truth
import Setlist.Proofs.Rule.Accepted

/-! # Groups without conditions

A group without conditions admits no row and binds no value. Without such groups a selection has
the same rows, and its query is within the limits wherever it was with them.
-/

namespace Setlist

/-- The same groups in the same order, but for some that are empty. -/
inductive Thins {α : Type} : List (List α) → List (List α) → Prop where
  | nil : Thins [] []
  | keep (group : List α) {groups fewer : List (List α)} : Thins groups fewer →
      Thins (group :: groups) (group :: fewer)
  | drop {groups fewer : List (List α)} : Thins groups fewer → Thins ([] :: groups) fewer

namespace Thins

variable {α β : Type} {groups fewer : List (List α)}

theorem map (h : Thins groups fewer) (f : α → β) :
    Thins (groups.map (List.map f)) (fewer.map (List.map f)) := by
  induction h with
  | nil => exact .nil
  | keep group _ ih => exact .keep _ ih
  | drop _ ih => exact .drop ih

theorem of_filter {items : List β} {make : β → List α} {keep : β → Bool}
    (h : ∀ item ∈ items, keep item = false → make item = []) :
    Thins (items.map make) ((items.filter keep).map make) := by
  induction items with
  | nil => exact .nil
  | cons item rest ih =>
    obtain ⟨hitem, hrest⟩ := List.forall_mem_cons.mp h
    cases hkeep : keep item with
    | true =>
      rw [List.filter_cons_of_pos hkeep]
      exact .keep _ (ih hrest)
    | false =>
      rw [List.filter_cons_of_neg (by simp [hkeep]), List.map_cons, hitem hkeep]
      exact .drop (ih hrest)

theorem flatten_eq (h : Thins groups fewer) : groups.flatten = fewer.flatten := by
  induction h with
  | nil => rfl
  | keep group _ ih => rw [List.flatten_cons, List.flatten_cons, ih]
  | drop _ ih => exact ih

theorem all_isEmpty_eq (h : Thins groups fewer) :
    groups.all (·.isEmpty) = fewer.all (·.isEmpty) := by
  induction h with
  | nil => rfl
  | keep group _ ih => rw [List.all_cons, List.all_cons, ih]
  | drop _ ih => exact ih

theorem total_eq (h : Thins groups fewer) {count : List α → Nat} (hblank : count [] = 0) :
    Selection.total (groups.map count) = Selection.total (fewer.map count) := by
  induction h with
  | nil => rfl
  | keep group _ ih => exact congrArg (count group + ·) ih
  | drop _ ih =>
    rw [← ih]
    change count [] + _ = _
    rw [hblank, Nat.zero_add]
    rfl

theorem foldl_depth_le (h : Thins groups fewer) (depth : List α → Nat) :
    ∀ {start later : Nat}, start ≤ later →
      (fewer.map depth).foldl (fun depth operand => max depth operand + 1) start ≤
        (groups.map depth).foldl (fun depth operand => max depth operand + 1) later := by
  induction h with
  | nil => exact id
  | keep group _ ih =>
    intro start later hstart
    have hnext : max start (depth group) + 1 ≤ max later (depth group) + 1 := by omega
    exact ih hnext
  | drop _ ih =>
    intro start later hstart
    have hnext : start ≤ max later (depth []) + 1 := by omega
    exact ih hnext

theorem chainDepth_le_foldl (h : Thins groups fewer) (depth : List α → Nat) :
    ∀ {start : Nat}, 0 < start → Selection.chainDepth (fewer.map depth) ≤
      (groups.map depth).foldl (fun depth operand => max depth operand + 1) start := by
  induction h with
  | nil => exact id
  | keep group hrest _ =>
    intro start _
    have hnext : depth group ≤ max start (depth group) + 1 := by omega
    exact hrest.foldl_depth_le depth hnext
  | drop _ ih => exact fun _ => ih (Nat.succ_pos _)

theorem chainDepth_le (h : Thins groups fewer) (depth : List α → Nat) (hblank : 0 < depth []) :
    Selection.chainDepth (fewer.map depth) ≤ Selection.chainDepth (groups.map depth) := by
  cases h with
  | nil => exact Nat.le_refl _
  | keep group hrest => exact hrest.foldl_depth_le depth (Nat.le_refl _)
  | drop hrest => exact hrest.chainDepth_le_foldl depth hblank

end Thins

namespace Selection

variable {s : Selection} {fewer : List (List Condition)}

theorem truth_of_thins (h : Thins s.groups fewer) (row : Row) :
    { s with groups := fewer }.truth row = s.truth row := by
  rw [truth, truth]
  generalize s.groups = groups at h
  induction h with
  | nil => rfl
  | keep group _ ih => rw [List.foldr_cons, List.foldr_cons, ← ih]
  | drop _ ih =>
    rw [List.foldr_cons, ← ih]
    exact (Truth.false_or _).symm

theorem rows_of_thins (h : Thins s.groups fewer) (c : Catalogue) :
    { s with groups := fewer }.rows c = s.rows c := by
  refine List.filter_congr fun row _ => ?_
  rw [admits, admits, truth_of_thins h]

/-- A query still fits when groups without conditions are left out. -/
theorem fits_of_thins (h : Thins s.groups fewer) {page : Option PageRequest} (hfits : s.Fits page) :
    { s with groups := fewer }.Fits page := by
  obtain ⟨hvalues, hdepth⟩ := hfits
  constructor
  · rw [values, h.total_eq rfl] at hvalues
    exact hvalues
  · have hchain := h.chainDepth_le
      (fun group => chainDepth (group.map (·.depth))) (Nat.succ_pos 0)
    exact Nat.le_trans (Nat.add_le_add_right hchain _) hdepth

end Selection

end Setlist
