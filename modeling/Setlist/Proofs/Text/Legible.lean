import Setlist.Proofs.Text.Matching

/-! # Legible text

Matching sees all of a text and sees it as it is, if the text has no NUL and none of the two
code points that read as another. Folding makes none of them, so among such texts a literal is
found just where it stands when both are folded.
-/

namespace Setlist.Text

open LikePattern

theorem lowercaseRuns_characters : ∀ run ∈ lowercaseRuns,
    run.last + run.shift < 0xFFFE ∨ 0xFFFF < run.first + run.shift := by
  decide +kernel

/-- Seen as what it is, and so is what comes after it. -/
def IsLegible (c : Char) : Prop := c ≠ '\x00' ∧ c ≠ '\ufffe' ∧ c ≠ '\uffff'

theorem IsLegible.replaced_eq {c : Char} (h : IsLegible c) : replaced c = c := by
  simp [replaced, h.2.1, h.2.2]

theorem isLegible_of_toNat {c : Char} (hlow : 0x61 ≤ c.toNat)
    (h : c.toNat < 0xFFFE ∨ 0xFFFF < c.toNat) : IsLegible c := by
  refine ⟨?_, ?_, ?_⟩ <;> rintro rfl <;> revert hlow h <;> decide

theorem isLegible_lowerLetter {c : Char} (h : IsLegible c) : IsLegible (lowerLetter c) := by
  rcases lowerLetter_run c with hsame | ⟨run, hrun, ⟨hfirst, hlast, -⟩, hform⟩
  · rwa [hsame]
  · have hlow := (lowercaseRuns_shift run hrun).1
    have hpast := lowercaseRuns_characters run hrun
    exact isLegible_of_toNat (by omega) (by omega)

theorem isLegible_lowerForm {c : Char} (h : IsLegible c) : ∀ d ∈ lowerForm c, IsLegible d := by
  unfold lowerForm
  split
  case isTrue => simp [IsLegible]
  case isFalse => simpa using isLegible_lowerLetter h

theorem isLegible_foldChars {text : List Char} (h : ∀ c ∈ text, IsLegible c) :
    ∀ d ∈ foldChars text, IsLegible d := by
  have hfold : ∀ before, ∀ d ∈ foldBetween before [] text, IsLegible d := by
    induction text with
    | nil => simp [foldBetween]
    | cons c rest ih =>
      obtain ⟨hc, hrest⟩ := List.forall_mem_cons.mp h
      intro before d hd
      rw [foldBetween, List.mem_append] at hd
      rcases hd with hform | hlater
      · split at hform
        case isTrue =>
          rw [List.mem_singleton.mp hform]
          rcases sigmaForm_cases before (rest ++ []) with hsigma | hsigma <;> rw [hsigma] <;>
            simp [IsLegible]
        case isFalse => exact isLegible_lowerForm hc d hform
      · exact ih hrest (c :: before) d hlater
  rw [foldChars, foldAfter_eq_foldBetween]
  exact hfold []

theorem isWhole_of_legible {text : List Char} (h : ∀ c ∈ text, IsLegible c) : IsWhole text :=
  fun hnul => (h _ hnul).1 rfl

theorem visible_fold_of_legible {text : String} (h : ∀ c ∈ text.toList, IsLegible c) :
    visible (fold text) = (fold text).toList := by
  rw [visible_fold, (isWhole_of_legible h).seen_eq, fold, String.toList_ofList]
  exact (List.map_congr_left fun d hd => (isLegible_foldChars h d hd).replaced_eq).trans
    (List.map_id _)

/-- Among legible texts, a literal is found where it stands when both are folded. -/
theorem finds_iff_stands {literal text : String} (hliteral : ∀ c ∈ literal.toList, IsLegible c)
    (htext : ∀ c ∈ text.toList, IsLegible c) (kind : MatchKind) :
    kind.Finds literal text ↔ kind.Stands (fold literal).toList (fold text).toList := by
  rw [MatchKind.Finds, if_pos (isWhole_of_legible hliteral), visible_fold_of_legible hliteral,
    visible_fold_of_legible htext]

theorem fold_ofLiteral (kind : MatchKind) (literal : String) :
    fold (ofLiteral kind literal).text = (ofLiteral kind (fold literal)).text := by
  rw [fold, ofLiteral, ofLiteral, fold, String.toList_ofList, String.toList_ofList, foldChars_wrap]

end Setlist.Text
