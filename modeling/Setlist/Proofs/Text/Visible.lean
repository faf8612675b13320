import Mathlib.Data.List.TakeWhile
import Setlist.Proofs.Text.Folding

/-! # What matching sees

Matching reads a pattern and a text up to the first NUL, where a pattern may lose the wildcard
at its end. A NUL is no letter, so what is seen of a text folds as it does in the whole.
-/

namespace Setlist.Text.LikePattern

/-- What stands before the first NUL. -/
def seen (text : List Char) : List Char := text.takeWhile (· != '\x00')

def unseen (text : List Char) : List Char := text.dropWhile (· != '\x00')

def IsWhole (text : List Char) : Prop := '\x00' ∉ text

instance (text : List Char) : Decidable (IsWhole text) :=
  inferInstanceAs (Decidable ('\x00' ∉ text))

theorem seen_nil : seen [] = [] := rfl

theorem isWhole_cons {c : Char} {rest : List Char} :
    IsWhole (c :: rest) ↔ c ≠ '\x00' ∧ IsWhole rest := by
  simp [IsWhole, eq_comm]

theorem isWhole_append {front rest : List Char} :
    IsWhole (front ++ rest) ↔ IsWhole front ∧ IsWhole rest := by
  simp [IsWhole]

theorem isWhole_seen (text : List Char) : IsWhole (seen text) := by
  intro hmem
  have hbefore := List.mem_takeWhile_imp (p := (· != '\x00')) hmem
  exact bne_iff_ne.mp hbefore rfl

theorem seen_cons {c : Char} (h : c ≠ '\x00') (rest : List Char) :
    seen (c :: rest) = c :: seen rest :=
  List.takeWhile_cons_of_pos (bne_iff_ne.mpr h)

theorem unseen_cons {c : Char} (h : c ≠ '\x00') (rest : List Char) :
    unseen (c :: rest) = unseen rest :=
  List.dropWhile_cons_of_pos (bne_iff_ne.mpr h)

theorem seen_append (front rest : List Char) :
    seen (front ++ rest) = seen front ++ seen (unseen front ++ rest) := by
  induction front with
  | nil => rfl
  | cons c front ih =>
    by_cases hnul : c = '\x00'
    · subst hnul
      rfl
    · rw [List.cons_append, seen_cons hnul, seen_cons hnul, unseen_cons hnul, ih, List.cons_append]

theorem IsWhole.seen_eq {text : List Char} (h : IsWhole text) : seen text = text := by
  induction text with
  | nil => rfl
  | cons c rest ih =>
    obtain ⟨hc, hrest⟩ := isWhole_cons.mp h
    rw [seen_cons hc, ih hrest]

theorem IsWhole.unseen_eq {text : List Char} (h : IsWhole text) : unseen text = [] := by
  induction text with
  | nil => rfl
  | cons c rest ih =>
    obtain ⟨hc, hrest⟩ := isWhole_cons.mp h
    rw [unseen_cons hc, ih hrest]

theorem seen_unseen_append {text : List Char} (h : ¬IsWhole text) (rest : List Char) :
    seen (unseen text ++ rest) = [] := by
  induction text with
  | nil => exact absurd List.not_mem_nil h
  | cons c text ih =>
    by_cases hnul : c = '\x00'
    · subst hnul
      rfl
    · rw [unseen_cons hnul]
      exact ih fun hwhole => h (isWhole_cons.mpr ⟨hnul, hwhole⟩)

theorem seen_unseen (text : List Char) : seen (unseen text) = [] := by
  by_cases hwhole : IsWhole text
  · rw [hwhole.unseen_eq, seen_nil]
  · rw [← List.append_nil (unseen text), seen_unseen_append hwhole]

theorem visible_ofList (text : List Char) :
    visible (String.ofList text) = (seen text).map replaced := by
  rw [visible, String.toList_ofList, seen]

/-! ## Folding -/

theorem meetsCased_seen (text : List Char) : meetsCased (seen text) = meetsCased text := by
  induction text with
  | nil => rfl
  | cons c rest ih =>
    by_cases hnul : c = '\x00'
    · subst hnul
      have hplain : isTransparent '\x00' = false ∧ isCased '\x00' = false := by decide +kernel
      rw [meetsCased_cons, hplain.1, hplain.2]
      rfl
    · rw [seen_cons hnul, meetsCased_cons, meetsCased_cons, ih]

theorem mem_foldBetween {before after text : List Char} {d : Char}
    (h : d ∈ foldBetween before after text) : 0x61 ≤ d.toNat ∨ d ∈ text ∧ IsSmall d := by
  induction text generalizing before with
  | nil => cases h
  | cons c rest ih =>
    rw [foldBetween, List.mem_append] at h
    rcases h with hform | hrest
    · split at hform
      case isTrue =>
        left
        rw [List.mem_singleton.mp hform]
        rcases sigmaForm_cases before (rest ++ after) with h | h <;> rw [h] <;> decide
      case isFalse =>
        rcases mem_lowerForm hform with hpast | ⟨rfl, -, hsmall⟩
        exacts [.inl hpast, .inr ⟨List.mem_cons_self, hsmall⟩]
    · rcases ih hrest with hpast | ⟨hmem, hsmall⟩
      exacts [.inl hpast, .inr ⟨List.mem_cons_of_mem _ hmem, hsmall⟩]

theorem IsWhole.foldBetween {text : List Char} (h : IsWhole text) (before after : List Char) :
    IsWhole (foldBetween before after text) := by
  intro hmem
  rcases mem_foldBetween hmem with hpast | ⟨hmem, -⟩
  exacts [absurd hpast (by decide), h hmem]

theorem seen_foldAfter_unseen (before text : List Char) :
    seen (foldAfter before (unseen text)) = [] := by
  induction text with
  | nil => rfl
  | cons c rest ih =>
    by_cases hnul : c = '\x00'
    · subst hnul
      have hform : lowerForm '\x00' = ['\x00'] := by decide +kernel
      have hunseen : unseen ('\x00' :: rest) = '\x00' :: rest := rfl
      rw [hunseen, foldAfter, if_neg (by decide), hform]
      rfl
    · rw [unseen_cons hnul, ih]

theorem seen_append_unseen (text : List Char) : seen text ++ unseen text = text :=
  List.takeWhile_append_dropWhile

theorem meetsCased_unseen (text : List Char) : meetsCased (unseen text) = meetsCased [] := by
  rw [← meetsCased_seen, seen_unseen]

theorem seen_foldChars (text : List Char) : seen (foldChars text) = foldChars (seen text) := by
  have hwhole := (isWhole_seen text).foldBetween [] (unseen text)
  have hsplit : foldChars text = foldBetween [] (unseen text) (seen text) ++
      foldAfter ((seen text).reverse ++ []) (unseen text) := by
    rw [← foldAfter_append, seen_append_unseen, foldChars]
  rw [hsplit, seen_append, hwhole.seen_eq, hwhole.unseen_eq, List.nil_append,
    seen_foldAfter_unseen, List.append_nil, foldBetween_congr _ rfl (meetsCased_unseen text),
    ← foldAfter_eq_foldBetween, foldChars]

theorem visible_fold (text : String) :
    visible (fold text) = (foldChars (seen text.toList)).map replaced := by
  rw [fold, visible_ofList, seen_foldChars]

theorem isSmall_visible_fold (text : String) : ∀ c ∈ visible (fold text), IsSmall c := by
  intro c hc
  rw [visible_fold, foldChars, foldAfter_eq_foldBetween] at hc
  obtain ⟨d, hd, rfl⟩ := List.mem_map.mp hc
  have hsmall : IsSmall d := by
    rcases mem_foldBetween hd with hpast | ⟨-, hsmall⟩
    · exact .inr (by omega)
    · exact hsmall
  unfold replaced
  split
  case isTrue => exact .inr (by decide)
  case isFalse => exact hsmall

/-! ## Patterns -/

theorem isSpecial_replaced (c : Char) : isSpecial (replaced c) = isSpecial c := by
  unfold replaced
  split
  case isTrue h =>
    rcases Bool.or_eq_true_iff.mp h with h | h <;> rw [beq_iff_eq.mp h] <;> rfl
  case isFalse => rfl

theorem replaced_of_special {c : Char} (h : isSpecial c = true) : replaced c = c := by
  rcases special_cases h with rfl | rfl | rfl <;> rfl

theorem map_replaced_escape (text : List Char) :
    (escape text).map replaced = escape (text.map replaced) := by
  induction text with
  | nil => rfl
  | cons c rest ih =>
    rw [escape_cons, List.map_append, ih, List.map_cons, escape_cons, isSpecial_replaced]
    cases hspecial : isSpecial c with
    | true =>
      rw [if_pos rfl, List.map_cons, List.map_singleton, replaced_of_special hspecial]
      rfl
    | false => rfl

theorem seen_escape (text : List Char) : seen (escape text) = escape (seen text) := by
  induction text with
  | nil => rfl
  | cons c rest ih =>
    by_cases hnul : c = '\x00'
    · subst hnul
      rfl
    · rw [seen_cons hnul, escape_cons, escape_cons, ← ih]
      cases isSpecial c with
      | true =>
        rw [if_pos rfl, List.cons_append, seen_cons (by decide), List.singleton_append,
          seen_cons hnul]
        rfl
      | false =>
        rw [if_neg Bool.false_ne_true, List.singleton_append, seen_cons hnul]
        rfl

theorem isWhole_escape {text : List Char} : IsWhole (escape text) ↔ IsWhole text := by
  induction text with
  | nil => exact Iff.rfl
  | cons c rest ih =>
    have hnil : IsWhole [] := List.not_mem_nil
    have hescape : '\\' ≠ '\x00' := by decide
    rw [escape_cons, isWhole_append, isWhole_cons, ih]
    apply and_congr_left
    intro _
    cases isSpecial c with
    | true =>
      rw [if_pos rfl, isWhole_cons, isWhole_cons]
      exact ⟨fun h => h.2.1, fun h => ⟨hescape, h, hnil⟩⟩
    | false =>
      rw [if_neg Bool.false_ne_true, isWhole_cons]
      exact ⟨And.left, fun h => ⟨h, hnil⟩⟩

/-- What is left of a pattern when the end of its literal is not seen. -/
def wrapCut : MatchKind → List Char → List Char
  | .beginning, body => body
  | _, body => '%' :: body

/-- The pattern that is seen of a literal's. -/
def wrapSeen (kind : MatchKind) (literal body : List Char) : List Char :=
  if IsWhole literal then wrap kind body else wrapCut kind body

theorem seen_wrap (kind : MatchKind) (literal : List Char) :
    seen (wrap kind (escape literal)) = wrapSeen kind literal (escape (seen literal)) := by
  have hrun : '%' ≠ '\x00' := by decide
  unfold wrapSeen
  split
  case isTrue hwhole =>
    have hescape := isWhole_escape.mpr hwhole
    have hend : IsWhole (escape literal ++ ['%']) := isWhole_append.mpr ⟨hescape, by decide⟩
    rw [hwhole.seen_eq]
    cases kind with
    | contains => exact (isWhole_cons.mpr ⟨hrun, hend⟩).seen_eq
    | beginning => exact hend.seen_eq
    | ending => exact (isWhole_cons.mpr ⟨hrun, hescape⟩).seen_eq
  case isFalse hcut =>
    have hescape : ¬IsWhole (escape literal) := fun h => hcut (isWhole_escape.mp h)
    have hend : seen (escape literal ++ ['%']) = escape (seen literal) := by
      rw [seen_append, seen_unseen_append hescape, List.append_nil, seen_escape]
    cases kind with
    | contains => exact (seen_cons hrun _).trans (congrArg _ hend)
    | beginning => exact hend
    | ending => exact (seen_cons hrun _).trans (congrArg _ (seen_escape literal))

theorem foldChars_wrapSeen (kind : MatchKind) (literal body : List Char) :
    foldChars (wrapSeen kind literal (escape body)) =
      wrapSeen kind literal (escape (foldChars body)) := by
  unfold wrapSeen
  split
  case isTrue => exact foldChars_wrap kind body
  case isFalse =>
    cases kind with
    | beginning => exact foldChars_escape body
    | contains | ending => exact foldChars_wrap .ending body

theorem map_replaced_wrapSeen (kind : MatchKind) (literal body : List Char) :
    (wrapSeen kind literal (escape body)).map replaced =
      wrapSeen kind literal (escape (body.map replaced)) := by
  have hrun : replaced '%' = '%' := rfl
  unfold wrapSeen
  split <;> cases kind <;> simp [wrap, wrapCut, map_replaced_escape, hrun]

/-- Folded, a pattern is seen as the pattern of what is seen of its folded literal. -/
theorem visible_fold_ofLiteral (kind : MatchKind) (literal : String) :
    visible (fold (ofLiteral kind literal).text) =
      wrapSeen kind literal.toList (escape (visible (fold literal))) := by
  rw [visible_fold, visible_fold, ofLiteral, String.toList_ofList, seen_wrap, foldChars_wrapSeen,
    map_replaced_wrapSeen]

end Setlist.Text.LikePattern
