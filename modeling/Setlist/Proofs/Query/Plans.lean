import Setlist.Proofs.Query.Truth
import Setlist.Query.Plan

/-! # A plan row by row

There is a plan for every query: each row is tested in turn, and the conditions from left to
right, as long as the answer is open.
-/

namespace Setlist

namespace Selection

variable {s : Selection} {a b : Row}

/-- Conditions are tested in order, up to the first that does not hold. -/
def groupFails (row : Row) : List Condition → Bool
  | [] => false
  | condition :: rest =>
    condition.fails row.cell ||
      (condition.truth row.cell == some true && groupFails row rest)

/-- Groups are tested in order, up to the first that holds. -/
def failsFrom (row : Row) : List (List Condition) → Bool
  | [] => false
  | group :: rest =>
    groupFails row group || (groupTruth row group != some true && failsFrom row rest)

theorem exists_fails_of_groupFails {row : Row} {group : List Condition}
    (h : groupFails row group = true) :
    ∃ condition ∈ group, condition.fails row.cell = true := by
  induction group with
  | nil => cases h
  | cons condition rest ih =>
    rw [groupFails, Bool.or_eq_true, Bool.and_eq_true] at h
    rcases h with hfails | ⟨-, hrest⟩
    · exact ⟨condition, List.mem_cons_self, hfails⟩
    · obtain ⟨later, hmem, hfails⟩ := ih hrest
      exact ⟨later, List.mem_cons_of_mem _ hmem, hfails⟩

theorem exists_fails_of_failsFrom {row : Row} {groups : List (List Condition)}
    (h : failsFrom row groups = true) :
    ∃ group ∈ groups, ∃ condition ∈ group, condition.fails row.cell = true := by
  induction groups with
  | nil => cases h
  | cons group rest ih =>
    rw [failsFrom, Bool.or_eq_true, Bool.and_eq_true] at h
    rcases h with hfails | ⟨-, hrest⟩
    · exact ⟨group, List.mem_cons_self, exists_fails_of_groupFails hfails⟩
    · obtain ⟨later, hmem, hfails⟩ := ih hrest
      exact ⟨later, List.mem_cons_of_mem _ hmem, hfails⟩

theorem groupTruth_congr : ∀ {group : List Condition},
    (∀ condition ∈ group, ∀ field ∈ condition.fields, a.cell field = b.cell field) →
      groupTruth a group = groupTruth b group
  | [], _ => rfl
  | [condition], h => Condition.truth_congr (h condition List.mem_cons_self)
  | condition :: next :: rest, h => by
    obtain ⟨hfirst, hrest⟩ := List.forall_mem_cons.mp h
    rw [groupTruth, groupTruth, Condition.truth_congr hfirst, groupTruth_congr hrest]

theorem groupFails_congr {group : List Condition}
    (h : ∀ condition ∈ group, ∀ field ∈ condition.fields, a.cell field = b.cell field) :
    groupFails a group = groupFails b group := by
  induction group with
  | nil => rfl
  | cons condition rest ih =>
    obtain ⟨hfirst, hrest⟩ := List.forall_mem_cons.mp h
    rw [groupFails, groupFails, Condition.truth_congr hfirst, Condition.fails_congr hfirst,
      ih hrest]

theorem failsFrom_congr {groups : List (List Condition)}
    (h : ∀ group ∈ groups, ∀ condition ∈ group, ∀ field ∈ condition.fields,
      a.cell field = b.cell field) : failsFrom a groups = failsFrom b groups := by
  induction groups with
  | nil => rfl
  | cons group rest ih =>
    obtain ⟨hfirst, hrest⟩ := List.forall_mem_cons.mp h
    rw [failsFrom, failsFrom, groupFails_congr hfirst, groupTruth_congr hfirst, ih hrest]

theorem failsFrom_of_sight (h : s.sight a = s.sight b) :
    failsFrom a s.groups = failsFrom b s.groups := by
  have hcells : s.fields.map a.cell = s.fields.map b.cell := congrArg Prod.snd h
  refine failsFrom_congr fun group hgroup condition hcondition field hfield => ?_
  refine List.map_inj_left.mp hcells field (List.mem_cons_of_mem _ ?_)
  exact List.mem_flatMap.mpr ⟨group, hgroup, List.mem_flatMap.mpr ⟨condition, hcondition, hfield⟩⟩

theorem any_congr_of_map_eq {α β : Type} {f : α → β} {test : α → Bool}
    (h : ∀ a b, f a = f b → test a = test b) : ∀ {items others : List α},
      items.map f = others.map f → items.any test = others.any test
  | [], [], _ => rfl
  | [], _ :: _, hmap | _ :: _, [], hmap => nomatch hmap
  | a :: items, b :: others, hmap => by
    obtain ⟨hfirst, hrest⟩ := List.cons.inj hmap
    rw [List.any_cons, List.any_cons, h a b hfirst, any_congr_of_map_eq h hrest]

end Selection

open Selection

/-- Every row is tested, group by group. -/
def Plan.byRows : Plan where
  meets s _ c := (c.joined s.joins s.user).any fun row => failsFrom row s.groups
  overlong h := by
    obtain ⟨row, -, hrow⟩ := List.any_eq_true.mp h
    obtain ⟨group, hgroup, condition, hcondition, hfails⟩ := exists_fails_of_failsFrom hrow
    exact ⟨group, hgroup, condition, hcondition, row.cell, hfails⟩
  alike h := any_congr_of_map_eq (fun _ _ => failsFrom_of_sight) h.rows
  tested hgroups hrow hfails := by
    refine List.any_eq_true.mpr ⟨_, hrow, ?_⟩
    simp [hgroups, failsFrom, groupFails, hfails]

end Setlist
