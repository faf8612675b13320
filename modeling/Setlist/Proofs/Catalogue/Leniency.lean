import Setlist.Proofs.Catalogue.Evaluation
import Setlist.Proofs.Query.Blanks

/-! # Groups at fault are left out

A group with a faulty rule compiles to an empty one. So what is matched in spite of faults is what
the groups without a fault match by themselves.
-/

namespace Setlist

namespace Expression

variable {groups fewer : List (List Predicate)}

theorem ofGroups_of_thins (h : Thins groups fewer) (user : Int) :
    ofGroups user fewer = { ofGroups user groups with groups := fewer } := by
  rw [ofGroups, ofGroups, h.flatten_eq]

theorem matchesNothing_of_thins {e : Expression} (h : Thins e.groups fewer) :
    { e with groups := fewer }.matchesNothing = e.matchesNothing := h.all_isEmpty_eq.symm

end Expression

namespace Catalogue

open Selection

variable {e : Expression} {fewer : List (List Predicate)}

theorem matched_of_thins (h : Thins e.groups fewer) (c : Catalogue) (now : Instant) :
    c.matched { e with groups := fewer } now = c.matched e now :=
  congrArg _ (rows_of_thins (s := counting e .byTitle now) (h.map _) c)

theorem slice_of_thins (h : Thins e.groups fewer) (c : Catalogue) (order : SortOrder)
    (page : PageRequest) (now : Instant) :
    c.slice { e with groups := fewer } order page now = c.slice e order page now := by
  have hrows := rows_of_thins (s := listing e order now) (h.map _) c
  unfold slice ids sorted
  rw [← hrows]
  rfl

theorem fits_of_thins (h : Thins e.groups fewer) {order : SortOrder} {page : PageRequest}
    {now : Instant} (hfits : e.Fits order page now) :
    { e with groups := fewer }.Fits order page now :=
  ⟨Selection.fits_of_thins (s := counting e order now) (h.map _) hfits.1,
    Selection.fits_of_thins (s := listing e order now) (h.map _) hfits.2⟩

/-- Without its empty groups an expression is evaluated alike, where the queries are run. -/
theorem evaluate_of_thins (h : Thins e.groups fewer) (c : Catalogue) (plan : Plan)
    (order : SortOrder) (page : PageRequest) (now : Instant) :
    c.IsRefused plan e order page now ∨
      c.IsRefused plan { e with groups := fewer } order page now ∨
        c.evaluate plan e order page now =
          c.evaluate plan { e with groups := fewer } order page now := by
  have hcount : (counting { e with groups := fewer } order now).count c =
      (counting e order now).count c :=
    congrArg List.length (rows_of_thins (s := counting e order now) (h.map _) c)
  refine refused_or_evaluate_eq (Expression.matchesNothing_of_thins h).symm hcount.symm ?_ plan
  rw [slice_of_thins h]

end Catalogue

namespace GroupRecord

open Catalogue

/-- What is compiled in spite of faults has the groups without a fault, and blanks for the rest. -/
theorem compileStrict_filter_isValid (user : Int) (groups : List GroupRecord) :
    Thins (compile user groups).1.groups ((groups.filter isValid).map predicates) ∧
      compileStrict user (groups.filter isValid) = .ok { (compile user groups).1 with
        groups := (groups.filter isValid).map predicates } := by
  have hthins : Thins (groups.map predicates) ((groups.filter isValid).map predicates) :=
    .of_filter fun group _ hnot => group.compilesTo_predicates.eq_nil hnot
  refine ⟨hthins, compileStrict_eq_ok.mpr ⟨accepted_filter_isValid groups, ?_⟩⟩
  exact (Expression.ofGroups_of_thins hthins user).symm

/-- Compiling reports each rule at fault and no other, keeps the groups without a fault, and makes
of each group what it makes of it alone. So what is compiled in spite of faults matches the songs
that the groups without a fault match, and no others. Its blank groups can only make a query too
large that would fit without them. -/
theorem compile_batch (user : Int) (groups more : List GroupRecord) :
    (∀ e faults, compile user groups = (e, faults) ↔ Batch user groups e faults) ∧
    (∀ e, compileStrict user groups = .ok e ↔ compile user groups = (e, [])) ∧
    (∀ faults, compileStrict user groups = .error faults ↔
      faults ≠ [] ∧ ∃ e, compile user groups = (e, faults)) ∧
    compile user (groups ++ more) =
      (⟨user, (compile user groups).1.groups ++ (compile user more).1.groups,
        (compile user groups).1.joins.union (compile user more).1.joins⟩,
        (compile user groups).2 ++ (compile user more).2.map (.shift groups.length)) ∧
    ∃ strict, compileStrict user (groups.filter isValid) = .ok strict ∧ ∀ (c : Catalogue) now,
      c.matched (compile user groups).1 now = c.matched strict now ∧ ∀ plan order page,
        ((compile user groups).1.Fits order page now → strict.Fits order page now) ∧
        (c.IsRefused plan (compile user groups).1 order page now ∨
          c.IsRefused plan strict order page now ∨
            c.evaluate plan (compile user groups).1 order page now =
              c.evaluate plan strict order page now) := by
  obtain ⟨hok, herror⟩ := compileStrict_iff user groups
  obtain ⟨hthins, hstrict⟩ := compileStrict_filter_isValid user groups
  exact ⟨fun _ _ => compile_eq_iff_batch, hok, herror, compile_append user groups more,
    _, hstrict, fun c now => ⟨(matched_of_thins hthins c now).symm,
      fun plan order page =>
        ⟨fits_of_thins hthins, evaluate_of_thins hthins c plan order page now⟩⟩⟩

end GroupRecord

end Setlist
