import Setlist.Proofs.Text.Legible

/-! # Folding again

No lowercase form has another one, and folding leaves no capital sigma whose form could depend
on what stands around it. So a folded text is its own folded form, character by character.
-/

namespace Setlist.Text

/-- The character stays as it is, wherever it stands. -/
def IsFolded (c : Char) : Prop := lowerForm c = [c]

instance (c : Char) : Decidable (IsFolded c) := inferInstanceAs (Decidable (_ = _))

/-- The forms of one run lie before another, after it, or in its gaps. -/
def CaseRun.misses (run other : CaseRun) : Bool :=
  Nat.blt (run.last + run.shift).toNat other.first ||
  Nat.blt other.last (run.first + run.shift).toNat ||
  (Nat.beq other.step 2 && (Nat.beq run.step 2 || Nat.beq run.first run.last) &&
    Nat.beq (((run.first + run.shift).toNat + other.first) % 2) 1)

theorem lowercaseRuns_misses :
    (lowercaseRuns.all fun run => lowercaseRuns.all fun other => run.misses other) = true := by
  decide +kernel

/-- None leads to the one letter whose form is two. -/
theorem lowercaseRuns_dotted : ∀ run ∈ lowercaseRuns,
    run.last + run.shift < 0x130 ∨ 0x130 < run.first + run.shift := by
  decide +kernel

theorem CaseRun.Moves.not_of_misses {run other : CaseRun} {code form : Nat}
    (hmoves : run.Moves code) (hmisses : run.misses other = true)
    (hlow : 0 ≤ run.first + run.shift) (hform : (form : Int) = code + run.shift) :
    ¬ other.Moves form := by
  obtain ⟨hfirst, hlast, hstep⟩ := hmoves
  rintro ⟨hfrom, hto, hgap⟩
  simp only [misses, Bool.or_eq_true, Bool.and_eq_true, Nat.blt_eq, Nat.beq_eq] at hmisses
  rcases hmisses with (hbefore | hafter) | ⟨⟨htwo, heven⟩, hodd⟩
  · omega
  · omega
  · rw [htwo] at hgap
    rcases heven with heven | hsingle
    · rw [heven] at hstep
      omega
    · omega

theorem lowerLetter_of_not_moves {c : Char} (h : ∀ run ∈ lowercaseRuns, ¬ run.Moves c.toNat) :
    lowerLetter c = c := by
  unfold lowerLetter
  split
  case h_2 => rfl
  case h_1 run hrun =>
    have hlast : c.toNat ≤ run.last := by simpa using List.find?_some hrun
    exact if_neg fun hin => h run (List.mem_of_find?_eq_some hrun) ⟨hin.1, hlast, hin.2⟩

theorem IsFolded.ne_sigma {c : Char} (h : IsFolded c) : c ≠ 'Σ' := by
  rintro rfl
  exact absurd h (by decide +kernel)

theorem isFolded_lowerLetter {c : Char} (hc : c ≠ 'İ') : IsFolded (lowerLetter c) := by
  rcases lowerLetter_run c with hsame | ⟨run, hrun, hmoves, hform⟩
  · rw [IsFolded, lowerForm, hsame, if_neg hc, hsame]
  · have hlow : 0 ≤ run.first + run.shift := by
      have := (lowercaseRuns_shift run hrun).1
      omega
    have hmisses := List.all_eq_true.mp (List.all_eq_true.mp lowercaseRuns_misses run hrun)
    have hagain : lowerLetter (lowerLetter c) = lowerLetter c := lowerLetter_of_not_moves
      fun other hother => hmoves.not_of_misses (hmisses other hother) hlow hform
    have hne : lowerLetter c ≠ 'İ' := by
      intro heq
      have hcode : (lowerLetter c).toNat = 0x130 := by rw [heq]; rfl
      have hdotted := lowercaseRuns_dotted run hrun
      obtain ⟨hfirst, hlast, -⟩ := hmoves
      omega
    rw [IsFolded, lowerForm, if_neg hne, hagain]

theorem isFolded_of_mem_lowerForm {c d : Char} (h : d ∈ lowerForm c) : IsFolded d := by
  unfold lowerForm at h
  split at h
  case isTrue =>
    have hforms : IsFolded 'i' ∧ IsFolded '\u0307' := by decide +kernel
    obtain rfl | rfl : d = 'i' ∨ d = '\u0307' := by simpa using h
    exacts [hforms.1, hforms.2]
  case isFalse hne =>
    rw [List.mem_singleton.mp h]
    exact isFolded_lowerLetter hne

theorem isFolded_sigmaForm (before after : List Char) : IsFolded (sigmaForm before after) := by
  have hforms : IsFolded 'ς' ∧ IsFolded 'σ' := by decide +kernel
  rcases sigmaForm_cases before after with hform | hform <;> rw [hform]
  exacts [hforms.1, hforms.2]

theorem isFolded_foldBetween {before after text : List Char} {d : Char}
    (h : d ∈ foldBetween before after text) : IsFolded d := by
  induction text generalizing before with
  | nil => cases h
  | cons c rest ih =>
    rw [foldBetween, List.mem_append] at h
    rcases h with hform | hrest
    · split at hform
      case isTrue =>
        rw [List.mem_singleton.mp hform]
        exact isFolded_sigmaForm _ _
      case isFalse => exact isFolded_of_mem_lowerForm hform
    · exact ih hrest

theorem foldBetween_of_folded {text : List Char} (h : ∀ c ∈ text, IsFolded c)
    (before after : List Char) : foldBetween before after text = text := by
  induction text generalizing before with
  | nil => rfl
  | cons c rest ih =>
    obtain ⟨hc, hrest⟩ := List.forall_mem_cons.mp h
    rw [foldBetween, if_neg hc.ne_sigma, ih hrest, hc]
    rfl

theorem fold_fold (text : String) : fold (fold text) = fold text := by
  have hfolded : ∀ d ∈ foldChars text.toList, IsFolded d := by
    intro d hd
    rw [foldChars, foldAfter_eq_foldBetween] at hd
    exact isFolded_foldBetween hd
  have hagain : foldChars (foldChars text.toList) = foldChars text.toList := by
    rw [foldChars, foldAfter_eq_foldBetween, foldBetween_of_folded hfolded]
  rw [fold, fold, String.toList_ofList, hagain]

end Setlist.Text
