import Mathlib.Data.Int.ConditionallyCompleteOrder
import Mathlib.Data.Sum.Order
import Mathlib.Order.WithBot
import Setlist.Proofs.Calendar.Order
import Setlist.Proofs.Text.Octets
import Setlist.Query.Selection

/-! # The order of rows

Values take ranks in one linear order: no value at all, then numbers by their size, then texts
by their bytes. A sort order compares rows by the ranks of a field, either way round, and else
by the bytes of their ids.
-/

namespace Setlist

/-- Numbers are counted in the least unit of a double. -/
def Datum.rank : Datum → ℤ ⊕ₗ List ℕ
  | .integer value => Sum.inlₗ (value * 2 ^ 1074)
  | .real value => Sum.inlₗ value.units
  | .text value => Sum.inrₗ (Text.octets value)

def Cell.rank : Cell → WithBot (ℤ ⊕ₗ List ℕ)
  | none => ⊥
  | some value => value.rank

theorem Datum.compare_eq (a b : Datum) : a.compare b = Ord.compare a.rank b.rank := by
  have hscale {x y : ℤ} : x < y ↔ x * 2 ^ 1074 < y * 2 ^ 1074 :=
    (mul_lt_mul_iff_left₀ (by positivity)).symm
  cases a <;> cases b <;> simp only [compare, rank]
  case integer.integer a b =>
    exact compare_congr (hscale.trans Sum.Lex.inl_lt_inl_iff.symm)
      (hscale.trans Sum.Lex.inl_lt_inl_iff.symm)
  case integer.real | real.integer | real.real =>
    exact compare_congr Sum.Lex.inl_lt_inl_iff.symm Sum.Lex.inl_lt_inl_iff.symm
  case integer.text | real.text =>
    exact (compare_lt_iff_lt.mpr (Sum.Lex.inl_lt_inr _ _)).symm
  case text.integer | text.real =>
    exact (compare_gt_iff_gt.mpr (Sum.Lex.inl_lt_inr _ _)).symm
  case text.text a b =>
    have hlt {x y : String} : Sum.inrₗ (Text.octets x) < (Sum.inrₗ (Text.octets y) : ℤ ⊕ₗ List ℕ) ↔
        Ord.compare x y = .lt := Sum.Lex.inr_lt_inr_iff.trans Text.octets_lt_iff
    cases hab : Ord.compare a b with
    | lt => exact (compare_lt_iff_lt.mpr (hlt.mpr hab)).symm
    | eq =>
      obtain rfl := Std.LawfulEqOrd.eq_of_compare hab
      exact Std.compare_self.symm
    | gt => exact (compare_gt_iff_gt.mpr (hlt.mpr (Std.OrientedCmp.lt_of_gt hab))).symm

theorem Cell.compare_eq (a b : Cell) : Cell.compare a b = Ord.compare a.rank b.rank := by
  cases a <;> cases b <;> simp only [compare, rank]
  case none.none => exact Std.compare_self.symm
  case none.some => exact (compare_lt_iff_lt.mpr (WithBot.bot_lt_coe _)).symm
  case some.none => exact (compare_gt_iff_gt.mpr (WithBot.bot_lt_coe _)).symm
  case some.some a b =>
    rw [Datum.compare_eq]
    exact compare_congr WithBot.coe_lt_coe.symm WithBot.coe_lt_coe.symm

/-- One key comes before another: by its rank, in the direction, and else by the bytes of its id. -/
def Direction.Before (direction : Direction) (a b : WithBot (ℤ ⊕ₗ List ℕ) × String) : Prop :=
  (match direction with
    | ascending => a.1 < b.1
    | descending => b.1 < a.1) ∨
  a.1 = b.1 ∧ Text.octets a.2 < Text.octets b.2

theorem Direction.Before.asymm {direction : Direction} {a b : WithBot (ℤ ⊕ₗ List ℕ) × String}
    (h : direction.Before a b) : ¬direction.Before b a := by
  rcases h with h | ⟨hsame, h⟩ <;> rintro (h' | ⟨hsame', h'⟩)
  · cases direction <;> exact lt_asymm h h'
  · rw [hsame'] at h
    cases direction <;> exact lt_irrefl _ h
  · rw [hsame] at h'
    cases direction <;> exact lt_irrefl _ h'
  · exact lt_asymm h h'

namespace Row

theorem compare_eq_lt {order : SortOrder} {a b : Row} : a.compare order b = .lt ↔
    order.direction.Before ((a.cell order.field).rank, a.song.id)
      ((b.cell order.field).rank, b.song.id) := by
  simp only [compare, Direction.Before, Ordering.then_eq_lt, Cell.compare_eq, Text.octets_lt_iff]
  cases order.direction <;> simp [compare_lt_iff_lt, compare_gt_iff_gt, compare_eq_iff_eq]

theorem transCmp (order : SortOrder) : Std.TransCmp (Row.compare order) := by
  have hcells : Std.TransCmp fun a b : Row =>
      Cell.compare (a.cell order.field) (b.cell order.field) := by
    simp only [Cell.compare_eq]
    exact inferInstanceAs (Std.TransCmp (compareOn fun row : Row => (row.cell order.field).rank))
  obtain ⟨field, direction⟩ := order
  cases direction with
  | ascending =>
    exact inferInstanceAs (Std.TransCmp (compareLex _ (compareOn fun row : Row => row.song.id)))
  | descending =>
    have hopposite : Std.TransCmp fun a b : Row => Cell.compare (b.cell field) (a.cell field) :=
      .opposite
    have hswap (a b : Row) : (Cell.compare (a.cell field) (b.cell field)).swap =
        Cell.compare (b.cell field) (a.cell field) := (hcells.eq_swap (a := b) (b := a)).symm
    have hswapped : Std.TransCmp fun a b : Row =>
        (Cell.compare (a.cell field) (b.cell field)).swap := by
      simpa only [hswap] using hopposite
    exact inferInstanceAs (Std.TransCmp (compareLex _ (compareOn fun row : Row => row.song.id)))

theorem id_eq_of_compare {order : SortOrder} {a b : Row} (h : a.compare order b = .eq) :
    a.song.id = b.song.id :=
  Std.LawfulEqOrd.eq_of_compare (Ordering.then_eq_eq.mp h).2

end Row

end Setlist
