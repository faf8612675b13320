import Setlist.Text.Like

/-! # Folding in pieces

A piece of a text folds as it does alone, but for its capital sigmas, whose forms depend on
what stands before and after the piece. Folding leaves no capital of ASCII, and neither makes
nor removes a wildcard.
-/

namespace Setlist.Text

/-- No run of letters leads to below the small letters of ASCII, or out of the code points. -/
theorem lowercaseRuns_shift : ∀ run ∈ lowercaseRuns,
    0x61 ≤ run.first + run.shift ∧ (run.last + run.shift < 0xD800 ∨
      0xDFFF < run.first + run.shift ∧ run.last + run.shift < 0x110000) := by
  decide +kernel

def CaseRun.Moves (run : CaseRun) (code : Nat) : Prop :=
  run.first ≤ code ∧ code ≤ run.last ∧ (code - run.first) % run.step = 0

/-- A letter is its own lowercase form, or some run of letters leads to that form. -/
theorem lowerLetter_run (c : Char) : lowerLetter c = c ∨ ∃ run ∈ lowercaseRuns,
    run.Moves c.toNat ∧ ((lowerLetter c).toNat : Int) = c.toNat + run.shift := by
  unfold lowerLetter
  split
  case h_2 => exact .inl rfl
  case h_1 run hrun =>
    split
    case isFalse => exact .inl rfl
    case isTrue hin =>
      have hmem := List.mem_of_find?_eq_some hrun
      obtain ⟨hlow, hvalid⟩ := lowercaseRuns_shift run hmem
      have hlast : c.toNat ≤ run.last := by simpa using List.find?_some hrun
      have hcode : ((c.toNat + run.shift).toNat).isValidChar := by
        rcases hvalid with hvalid | hvalid
        · exact .inl (by omega)
        · exact .inr ⟨by omega, by omega⟩
      refine .inr ⟨run, hmem, ⟨hin.1, hlast, hin.2⟩, ?_⟩
      rw [Char.ofNat, dif_pos hcode]
      exact Int.toNat_of_nonneg (by omega)

theorem lowerLetter_cases (c : Char) : lowerLetter c = c ∨ 0x61 ≤ (lowerLetter c).toNat := by
  rcases lowerLetter_run c with hsame | ⟨run, hrun, ⟨hfirst, -⟩, hform⟩
  · exact .inl hsame
  · have hlow := (lowercaseRuns_shift run hrun).1
    exact .inr (by omega)

theorem lowerLetter_capital {c : Char} (hlow : 0x41 ≤ c.toNat) (hhigh : c.toNat ≤ 0x5A) :
    0x61 ≤ (lowerLetter c).toNat := by
  have hrun : lowercaseRuns.find? (c.toNat ≤ ·.last) = some ⟨0x0041, 0x005A, 1, 32⟩ :=
    List.find?_cons_of_pos (decide_eq_true hhigh)
  have hcode : ((c.toNat + 32 : Int).toNat).isValidChar := .inl (by omega)
  rw [lowerLetter, hrun]
  dsimp only
  rw [if_pos ⟨hlow, Nat.mod_one _⟩, Char.ofNat, dif_pos hcode]
  exact show 0x61 ≤ (c.toNat + 32 : Int).toNat by omega

/-- No capital of ASCII, which a pattern would match with its small letter. -/
def IsSmall (c : Char) : Prop := c.toNat < 0x41 ∨ 0x5A < c.toNat

theorem mem_lowerForm {c d : Char} (h : d ∈ lowerForm c) :
    0x61 ≤ d.toNat ∨ d = c ∧ lowerForm c = [c] ∧ IsSmall c := by
  unfold lowerForm at h ⊢
  split at h
  case isTrue =>
    left
    rcases List.mem_cons.mp h with rfl | h
    · decide
    · rw [List.mem_singleton.mp h]
      decide
  case isFalse hne =>
    rw [List.mem_singleton.mp h, if_neg hne]
    rcases lowerLetter_cases c with hsame | hpast
    · by_cases hcapital : 0x41 ≤ c.toNat ∧ c.toNat ≤ 0x5A
      · exact .inl (lowerLetter_capital hcapital.1 hcapital.2)
      · rw [hsame]
        exact .inr ⟨rfl, rfl, by unfold IsSmall; omega⟩
    · exact .inl hpast

theorem LikePattern.special_cases {c : Char} (h : isSpecial c = true) :
    c = '%' ∨ c = '_' ∨ c = '\\' := by
  simpa [isSpecial, or_assoc] using h

theorem not_transparent_of_special {c : Char} (h : LikePattern.isSpecial c = true) :
    isTransparent c = false ∧ isCased c = false ∧ lowerForm c = [c] := by
  rcases LikePattern.special_cases h with rfl | rfl | rfl <;> decide +kernel

theorem not_special_of_mem_lowerForm {c d : Char} (hc : LikePattern.isSpecial c = false)
    (hd : d ∈ lowerForm c) : LikePattern.isSpecial d = false := by
  rcases mem_lowerForm hd with hpast | ⟨rfl, -, -⟩
  · apply Bool.eq_false_iff.mpr
    intro hspecial
    rcases LikePattern.special_cases hspecial with rfl | rfl | rfl <;>
      exact absurd hpast (by decide)
  · exact hc

/-! ## Contexts -/

theorem meetsCased_cons (c : Char) (side : List Char) :
    meetsCased (c :: side) = if isTransparent c then meetsCased side else isCased c := by
  cases htransparent : isTransparent c <;> simp [meetsCased, htransparent]

theorem meetsCased_append_congr (side : List Char) {beyond beyond' : List Char}
    (h : meetsCased beyond = meetsCased beyond') :
    meetsCased (side ++ beyond) = meetsCased (side ++ beyond') := by
  induction side with
  | nil => exact h
  | cons c rest ih => rw [List.cons_append, List.cons_append, meetsCased_cons, meetsCased_cons, ih]

/-- The form of a capital sigma, given the reverse of what stands before it and what follows. -/
def sigmaForm (before after : List Char) : Char :=
  if meetsCased before && !meetsCased after then 'ς' else 'σ'

theorem sigmaForm_cases (before after : List Char) :
    sigmaForm before after = 'ς' ∨ sigmaForm before after = 'σ' := by
  unfold sigmaForm
  split
  · exact .inl rfl
  · exact .inr rfl

/-- Folds a piece that stands between two others, the first of them reversed. -/
def foldBetween (before after : List Char) : List Char → List Char
  | [] => []
  | c :: rest =>
    (if c = 'Σ' then [sigmaForm before (rest ++ after)] else lowerForm c) ++
      foldBetween (c :: before) after rest

theorem foldAfter_append (before piece after : List Char) : foldAfter before (piece ++ after) =
    foldBetween before after piece ++ foldAfter (piece.reverse ++ before) after := by
  induction piece generalizing before with
  | nil => rfl
  | cons c rest ih =>
    rw [List.cons_append, foldAfter, foldBetween, ih, List.reverse_cons]
    simp only [sigmaForm, List.append_assoc, List.singleton_append]

theorem foldAfter_eq_foldBetween (before text : List Char) :
    foldAfter before text = foldBetween before [] text := by
  have happend := foldAfter_append before text []
  simpa [foldAfter] using happend

theorem foldBetween_congr {before before' after after' : List Char} (piece : List Char)
    (hbefore : meetsCased before = meetsCased before')
    (hafter : meetsCased after = meetsCased after') :
    foldBetween before after piece = foldBetween before' after' piece := by
  induction piece generalizing before before' with
  | nil => rfl
  | cons c rest ih =>
    have hnext : meetsCased (c :: before) = meetsCased (c :: before') := by
      rw [meetsCased_cons, meetsCased_cons, hbefore]
    rw [foldBetween, foldBetween, ih hnext, sigmaForm, sigmaForm, hbefore,
      meetsCased_append_congr rest hafter]

theorem foldChars_append (front piece back : List Char) : foldChars (front ++ piece ++ back) =
    foldBetween [] (piece ++ back) front ++ foldBetween front.reverse back piece ++
      foldAfter (piece.reverse ++ front.reverse) back := by
  rw [foldChars, List.append_assoc, foldAfter_append, List.append_nil, foldAfter_append,
    List.append_assoc]

/-! ## Sigmas -/

/-- Each capital sigma of a piece folds in the whole text as it does in the piece alone. -/
def Settled (front piece back : List Char) : Prop :=
  ∀ left right, piece = left ++ 'Σ' :: right →
    sigmaForm (left.reverse ++ front.reverse) (right ++ back) = sigmaForm left.reverse right

theorem forall_split_cons {c : Char} {rest : List Char} {P : List Char → List Char → Prop} :
    (∀ left right, c :: rest = left ++ 'Σ' :: right → P left right) ↔
      (c = 'Σ' → P [] rest) ∧ ∀ left right, rest = left ++ 'Σ' :: right → P (c :: left) right := by
  constructor
  · intro h
    exact ⟨fun hc => h [] rest (by rw [hc]; rfl), fun left right hrest =>
      h (c :: left) right (by rw [hrest]; rfl)⟩
  · rintro ⟨hhead, htail⟩ left right heq
    cases left with
    | nil =>
      obtain ⟨rfl, rfl⟩ := List.cons.inj heq
      exact hhead rfl
    | cons d left =>
      obtain ⟨rfl, rfl⟩ := List.cons.inj heq
      exact htail left right rfl

theorem length_foldBetween (before before' after after' piece : List Char) :
    (foldBetween before after piece).length = (foldBetween before' after' piece).length := by
  induction piece generalizing before before' with
  | nil => rfl
  | cons c rest ih =>
    rw [foldBetween, foldBetween, List.length_append, List.length_append, ih (c :: before)
      (c :: before')]
    split <;> rfl

/-- In two contexts a piece folds alike when each of its capital sigmas does. -/
theorem map_foldBetween_eq_iff {f : Char → Char} (hf : f 'ς' ≠ f 'σ')
    {before before' after after' : List Char} {piece : List Char} :
    (foldBetween before after piece).map f = (foldBetween before' after' piece).map f ↔
      ∀ left right, piece = left ++ 'Σ' :: right →
        sigmaForm (left.reverse ++ before) (right ++ after) =
          sigmaForm (left.reverse ++ before') (right ++ after') := by
  have hform : ∀ b a b' a', f (sigmaForm b a) = f (sigmaForm b' a') ↔
      sigmaForm b a = sigmaForm b' a' := by
    intro b a b' a'
    refine ⟨fun h => ?_, congrArg f⟩
    rcases sigmaForm_cases b a with hform | hform <;>
      rcases sigmaForm_cases b' a' with hform' | hform' <;> simp_all
  induction piece generalizing before before' with
  | nil => simp [foldBetween]
  | cons c rest ih =>
    rw [forall_split_cons, foldBetween, foldBetween, List.map_append, List.map_append]
    simp only [List.reverse_cons, List.append_assoc, List.singleton_append, List.reverse_nil,
      List.nil_append]
    refine Iff.trans ?_ (and_congr_right fun _ => @ih (c :: before) (c :: before'))
    constructor
    · intro h
      obtain ⟨hhead, htail⟩ := List.append_inj h (by split <;> rfl)
      refine ⟨?_, htail⟩
      rintro rfl
      simpa [hform] using hhead
    · rintro ⟨hhead, htail⟩
      rw [htail]
      congr 1
      split
      case isTrue hc => rw [hhead hc]
      case isFalse => rfl

/-! ## Patterns -/

namespace LikePattern

theorem escape_cons (c : Char) (rest : List Char) :
    escape (c :: rest) = (if isSpecial c then ['\\', c] else [c]) ++ escape rest :=
  List.flatMap_cons

theorem escape_append (a b : List Char) : escape (a ++ b) = escape a ++ escape b :=
  List.flatMap_append

theorem escape_of_plain {text : List Char} (h : ∀ c ∈ text, isSpecial c = false) :
    escape text = text := by
  induction text with
  | nil => rfl
  | cons c rest ih =>
    obtain ⟨hc, hrest⟩ := List.forall_mem_cons.mp h
    rw [escape_cons, ih hrest, hc]
    rfl

theorem meetsCased_escape (text after : List Char) :
    meetsCased (escape text ++ after) = meetsCased (text ++ after) := by
  induction text with
  | nil => rfl
  | cons c rest ih =>
    rw [escape_cons, List.cons_append, meetsCased_cons]
    cases hspecial : isSpecial c with
    | true =>
      obtain ⟨htransparent, hcased, -⟩ := not_transparent_of_special hspecial
      have hescape : isSpecial '\\' = true := rfl
      obtain ⟨htransparent', hcased', -⟩ := not_transparent_of_special hescape
      rw [if_pos rfl, List.append_assoc, List.cons_append, meetsCased_cons, htransparent,
        htransparent', hcased, hcased', if_neg Bool.false_ne_true, if_neg Bool.false_ne_true]
    | false =>
      rw [if_neg Bool.false_ne_true, List.append_assoc, List.singleton_append, meetsCased_cons, ih]

theorem isSpecial_sigmaForm (before after : List Char) :
    isSpecial (sigmaForm before after) = false := by
  rcases sigmaForm_cases before after with h | h <;> rw [h] <;> rfl

theorem foldBetween_special {c : Char} (h : isSpecial c = true) (before after rest : List Char) :
    foldBetween before after (c :: rest) = c :: foldBetween (c :: before) after rest := by
  obtain ⟨-, -, hform⟩ := not_transparent_of_special h
  have hne : c ≠ 'Σ' := by
    rintro rfl
    cases h
  rw [foldBetween, if_neg hne, hform]
  rfl

/-- A text is escaped alike before and after it is folded. -/
theorem foldBetween_escape (before after text : List Char) :
    foldBetween before after (escape text) = escape (foldBetween before after text) := by
  induction text generalizing before with
  | nil => rfl
  | cons c rest ih =>
    cases hspecial : isSpecial c with
    | true =>
      obtain ⟨htransparent, hcased, -⟩ := not_transparent_of_special hspecial
      have hcontext : meetsCased (c :: '\\' :: before) = meetsCased (c :: before) := by
        rw [meetsCased_cons, meetsCased_cons c before, htransparent]
        rfl
      have hescape : escape (c :: rest) = '\\' :: c :: escape rest := by
        rw [escape_cons, hspecial]
        rfl
      rw [hescape, foldBetween_special rfl, foldBetween_special hspecial,
        foldBetween_congr _ hcontext rfl, ih, foldBetween_special hspecial, escape_cons, hspecial]
      rfl
    | false =>
      have hescape : escape (c :: rest) = c :: escape rest := by
        rw [escape_cons, hspecial]
        rfl
      rw [hescape, foldBetween, foldBetween, ih, escape_append, sigmaForm, meetsCased_escape,
        ← sigmaForm]
      congr 1
      refine (escape_of_plain fun d hd => ?_).symm
      split at hd
      case isTrue =>
        rw [List.mem_singleton.mp hd]
        exact isSpecial_sigmaForm before (rest ++ after)
      case isFalse => exact not_special_of_mem_lowerForm hspecial hd

theorem foldChars_escape (text : List Char) :
    foldChars (escape text) = escape (foldChars text) := by
  rw [foldChars, foldChars, foldAfter_eq_foldBetween, foldAfter_eq_foldBetween, foldBetween_escape]

theorem foldChars_wrap (kind : MatchKind) (text : List Char) :
    foldChars (wrap kind (escape text)) = wrap kind (escape (foldChars text)) := by
  have hrun : isSpecial '%' = true := rfl
  have hplain : meetsCased ['%'] = meetsCased [] := by decide +kernel
  have hbody : ∀ before after, meetsCased before = meetsCased [] →
      meetsCased after = meetsCased [] →
        foldBetween before after (escape text) = escape (foldChars text) := by
    intro before after hbefore hafter
    rw [foldBetween_congr _ hbefore hafter, ← foldChars_escape, foldChars,
      foldAfter_eq_foldBetween]
  have hend : ∀ before, foldAfter before ['%'] = ['%'] := by
    intro before
    rw [foldAfter_eq_foldBetween, foldBetween_special hrun]
    rfl
  cases kind with
  | contains =>
    rw [wrap, foldChars, foldAfter_eq_foldBetween, foldBetween_special hrun,
      ← foldAfter_eq_foldBetween, foldAfter_append, hbody _ _ hplain hplain, hend]
    rfl
  | beginning =>
    rw [wrap, foldChars, foldAfter_append, hbody _ _ rfl hplain, hend]
    rfl
  | ending =>
    rw [wrap, foldChars, foldAfter_eq_foldBetween, foldBetween_special hrun, hbody _ _ hplain rfl]
    rfl

end LikePattern

end Setlist.Text
