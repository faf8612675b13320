import Setlist.Proofs.Text.Visible

/-! # What a pattern matches

A folded pattern matches a folded text when the folded literal stands in it where the pattern
looks for it: anywhere, at the beginning or at the end. Escapes make a literal of everything,
and no letter is left that would match another.
-/

namespace Setlist.Text

open LikePattern

/-- A part stands in a whole as a kind of match asks for. -/
def MatchKind.Stands : MatchKind → List Char → List Char → Prop
  | contains, part, whole => part <:+: whole
  | beginning, part, whole => part <+: whole
  | ending, part, whole => part <:+ whole

instance (kind : MatchKind) (part whole : List Char) : Decidable (kind.Stands part whole) :=
  match kind with
  | .contains => inferInstanceAs (Decidable (part <:+: whole))
  | .beginning => inferInstanceAs (Decidable (part <+: whole))
  | .ending => inferInstanceAs (Decidable (part <:+ whole))

/-- A part whose end is not seen loses the wildcard behind it. -/
def MatchKind.StandsCut : MatchKind → List Char → List Char → Prop
  | beginning, part, whole => part = whole
  | _, part, whole => part <:+ whole

instance (kind : MatchKind) (part whole : List Char) : Decidable (kind.StandsCut part whole) :=
  match kind with
  | .beginning => inferInstanceAs (Decidable (part = whole))
  | .contains | .ending => inferInstanceAs (Decidable (part <:+ whole))

/-- As far as each is seen, the folded literal stands in the folded text as the kind of match
asks for. -/
def MatchKind.Finds (kind : MatchKind) (literal text : String) : Prop :=
  if IsWhole literal.toList then kind.Stands (visible (fold literal)) (visible (fold text))
  else kind.StandsCut (visible (fold literal)) (visible (fold text))

instance (kind : MatchKind) (literal text : String) : Decidable (kind.Finds literal text) :=
  inferInstanceAs (Decidable (if IsWhole literal.toList then _ else _))

namespace LikePattern

theorem sameLetter_iff {c d : Char} (hc : IsSmall c) (hd : IsSmall d) :
    sameLetter c d = true ↔ c = d := by
  have hlower : ∀ {e : Char}, IsSmall e → e.toLower = e := by
    intro e he
    apply dif_neg
    intro hcapital
    have hlow : 0x41 ≤ e.toNat := UInt32.le_iff_toNat_le.mp hcapital.1
    have hhigh : e.toNat ≤ 0x5A := UInt32.le_iff_toNat_le.mp hcapital.2
    rcases he with he | he <;> omega
  rw [sameLetter, hlower hc, hlower hd, beq_iff_eq]

theorem anySuffix_eq_true {test : List Char → Bool} {text : List Char} :
    anySuffix test text = true ↔ ∃ rest, rest <:+ text ∧ test rest = true := by
  induction text with
  | nil => simp [anySuffix]
  | cons c text ih =>
    rw [anySuffix, Bool.or_eq_true, ih]
    constructor
    · rintro (hwhole | ⟨rest, hsuffix, hrest⟩)
      · exact ⟨_, List.suffix_rfl, hwhole⟩
      · exact ⟨rest, hsuffix.trans (List.suffix_cons c text), hrest⟩
    · rintro ⟨rest, hsuffix, hrest⟩
      rcases List.suffix_cons_iff.mp hsuffix with rfl | hsuffix
      exacts [.inl hrest, .inr ⟨rest, hsuffix, hrest⟩]

theorem accepts_exactly {part whole : List Char} {more : List Token}
    (hpart : ∀ c ∈ part, IsSmall c) (hwhole : ∀ c ∈ whole, IsSmall c) :
    accepts (part.map .exactly ++ more) whole = true ↔
      ∃ rest, whole = part ++ rest ∧ accepts more rest = true := by
  induction part generalizing whole with
  | nil => simp
  | cons c part ih =>
    obtain ⟨hc, hpart⟩ := List.forall_mem_cons.mp hpart
    cases whole with
    | nil => simp [accepts]
    | cons d whole =>
      obtain ⟨hd, hwhole⟩ := List.forall_mem_cons.mp hwhole
      rw [List.map_cons, List.cons_append, accepts, Bool.and_eq_true, sameLetter_iff hc hd,
        ih hpart hwhole]
      constructor
      · rintro ⟨rfl, rest, rfl, hrest⟩
        exact ⟨rest, rfl, hrest⟩
      · rintro ⟨rest, heq, hrest⟩
        obtain ⟨rfl, rfl⟩ := List.cons.inj heq
        exact ⟨rfl, rest, rfl, hrest⟩

theorem tokens_cons {c : Char} (h : isSpecial c = false) (rest : List Char) :
    tokens (c :: rest) = (tokens rest).map (.exactly c :: ·) := by
  simp only [isSpecial, Bool.or_eq_false_iff, beq_eq_false_iff_ne] at h
  obtain ⟨⟨hrun, hone⟩, hescape⟩ := h
  rw [tokens] <;> simp_all

theorem tokens_escape (text rest : List Char) :
    tokens (escape text ++ rest) = (tokens rest).map (text.map .exactly ++ ·) := by
  induction text with
  | nil => simp [escape]
  | cons c text ih =>
    rw [escape_cons, List.append_assoc]
    cases hspecial : isSpecial c with
    | true =>
      rw [if_pos rfl, List.cons_append, List.singleton_append, tokens, ih, Option.map_map]
      rfl
    | false =>
      rw [if_neg Bool.false_ne_true, List.singleton_append, tokens_cons hspecial, ih,
        Option.map_map]
      rfl

/-! ## Patterns in pieces -/

/-- The rest of a pattern matches the rest of a text. -/
def accepted (pattern text : List Char) : Bool :=
  match tokens pattern with
  | some steps => accepts steps text
  | none => false

theorem admits_eq_accepted (pattern text : String) :
    admits pattern text = accepted (visible pattern) (visible text) := rfl

theorem accepted_nil {text : List Char} : accepted [] text = true ↔ text = [] :=
  List.isEmpty_iff

theorem accepted_end (text : List Char) : accepted ['%'] text = true :=
  anySuffix_eq_true.mpr ⟨[], List.nil_suffix, rfl⟩

theorem accepted_run {pattern text : List Char} :
    accepted ('%' :: pattern) text = true ↔
      ∃ rest, rest <:+ text ∧ accepted pattern rest = true := by
  rw [accepted, tokens]
  cases hpattern : tokens pattern with
  | none => simp [accepted, hpattern]
  | some steps =>
    rw [Option.map_some]
    dsimp only
    rw [accepts, anySuffix_eq_true]
    simp only [accepted, hpattern]

theorem accepted_escape {part text pattern : List Char} (hpart : ∀ c ∈ part, IsSmall c)
    (htext : ∀ c ∈ text, IsSmall c) : accepted (escape part ++ pattern) text = true ↔
      ∃ rest, text = part ++ rest ∧ accepted pattern rest = true := by
  rw [accepted, tokens_escape]
  cases hpattern : tokens pattern with
  | none => simp [accepted, hpattern]
  | some steps =>
    rw [Option.map_some]
    dsimp only
    rw [accepts_exactly hpart htext]
    simp only [accepted, hpattern]

section Wrapped

variable {part whole : List Char} (hpart : ∀ c ∈ part, IsSmall c) (hwhole : ∀ c ∈ whole, IsSmall c)

include hpart hwhole

theorem accepted_escape_iff : accepted (escape part) whole = true ↔ part = whole := by
  rw [← List.append_nil (escape part), accepted_escape hpart hwhole]
  constructor
  · rintro ⟨rest, rfl, hrest⟩
    rw [accepted_nil.mp hrest, List.append_nil]
  · rintro rfl
    exact ⟨[], (List.append_nil part).symm, rfl⟩

theorem accepted_wrap (kind : MatchKind) :
    accepted (wrap kind (escape part)) whole = true ↔ kind.Stands part whole := by
  have hsuffix : ∀ tail, tail <:+ whole → ∀ c ∈ tail, IsSmall c :=
    fun tail htail c hc => hwhole c (htail.subset hc)
  cases kind with
  | contains =>
    rw [wrap, accepted_run, MatchKind.Stands, List.infix_iff_prefix_suffix]
    apply exists_congr
    intro tail
    rw [and_comm]
    apply and_congr_left
    intro htail
    rw [accepted_escape hpart (hsuffix tail htail)]
    simp [accepted_end, List.IsPrefix, eq_comm]
  | beginning =>
    rw [wrap, accepted_escape hpart hwhole]
    simp [accepted_end, MatchKind.Stands, List.IsPrefix, eq_comm]
  | ending =>
    rw [wrap, accepted_run, MatchKind.Stands]
    constructor
    · rintro ⟨tail, htail, hmatch⟩
      rwa [(accepted_escape_iff hpart (hsuffix tail htail)).mp hmatch]
    · intro htail
      exact ⟨part, htail, (accepted_escape_iff hpart hpart).mpr rfl⟩

theorem accepted_wrapCut (kind : MatchKind) :
    accepted (wrapCut kind (escape part)) whole = true ↔ kind.StandsCut part whole := by
  cases kind with
  | beginning => exact accepted_escape_iff hpart hwhole
  | contains | ending => exact accepted_wrap hpart hwhole .ending

end Wrapped

/-- A folded pattern matches a folded text just when it finds the literal there. -/
theorem admits_fold_iff (kind : MatchKind) (literal text : String) :
    admits (fold (ofLiteral kind literal).text) (fold text) = true ↔ kind.Finds literal text := by
  have hpart := isSmall_visible_fold literal
  have hwhole := isSmall_visible_fold text
  rw [admits_eq_accepted, visible_fold_ofLiteral, wrapSeen, MatchKind.Finds]
  split
  case isTrue => exact accepted_wrap hpart hwhole kind
  case isFalse => exact accepted_wrapCut hpart hwhole kind

/-! ## Pieces of a text -/

/-- Each capital sigma that is seen of a literal folds in the text as it does in the literal. -/
def SettledIn (front literal back : String) : Prop :=
  Settled front.toList (seen literal.toList) (unseen literal.toList ++ back.toList)

variable {front literal back : String}

/-- What is seen of the literal, folded where it stands in the text. -/
def foldedPiece (front literal back : String) : List Char :=
  (foldBetween front.toList.reverse (unseen literal.toList ++ back.toList)
    (seen literal.toList)).map replaced

theorem visible_fold_eq_piece_iff :
    visible (fold literal) = foldedPiece front literal back ↔ SettledIn front literal back := by
  rw [visible_fold, foldedPiece, eq_comm, foldChars, foldAfter_eq_foldBetween,
    map_foldBetween_eq_iff (by decide), SettledIn, Settled]
  simp only [List.append_nil]

theorem length_visible_fold (front literal back : String) :
    (visible (fold literal)).length = (foldedPiece front literal back).length := by
  rw [visible_fold, foldedPiece, List.length_map, List.length_map, foldChars,
    foldAfter_eq_foldBetween]
  exact length_foldBetween _ _ _ _ _

/-- A literal is seen with what stands before it, and with what follows if its end is seen. -/
theorem exists_visible_fold (hfront : IsWhole front.toList) (literal back : String) :
    ∃ before after, visible (fold (front ++ literal ++ back)) =
        before ++ foldedPiece front literal back ++ after ∧
      (front = "" → before = []) ∧
      (seen (unseen literal.toList ++ back.toList) = [] → after = []) := by
  have hseen : seen (front ++ literal ++ back).toList = front.toList ++ seen literal.toList ++
      seen (unseen literal.toList ++ back.toList) := by
    rw [String.toList_append, String.toList_append, List.append_assoc, seen_append,
      hfront.seen_eq, hfront.unseen_eq, List.nil_append, seen_append, ← List.append_assoc]
  have hpiece : foldBetween front.toList.reverse (seen (unseen literal.toList ++ back.toList))
      (seen literal.toList) = foldBetween front.toList.reverse
        (unseen literal.toList ++ back.toList) (seen literal.toList) :=
    foldBetween_congr _ rfl (meetsCased_seen _)
  rw [visible_fold, hseen, foldChars_append, hpiece, List.map_append, List.map_append]
  refine ⟨_, _, rfl, ?_, ?_⟩
  · rintro rfl
    rfl
  · intro hnone
    rw [hnone]
    rfl

theorem finds_of_settled (hfront : IsWhole front.toList) (hsettled : SettledIn front literal back) :
    MatchKind.contains.Finds literal (front ++ literal ++ back) := by
  obtain ⟨before, after, htext, -, hafter⟩ := exists_visible_fold hfront literal back
  rw [← visible_fold_eq_piece_iff.mpr hsettled] at htext
  unfold MatchKind.Finds
  split
  case isTrue => exact ⟨before, after, htext.symm⟩
  case isFalse hcut =>
    rw [hafter (seen_unseen_append hcut _), List.append_nil] at htext
    exact ⟨before, htext.symm⟩

theorem finds_beginning_iff :
    MatchKind.beginning.Finds literal (literal ++ back) ↔ SettledIn "" literal back := by
  have hfront : IsWhole "".toList := List.not_mem_nil
  obtain ⟨before, after, htext, hbefore, hafter⟩ := exists_visible_fold hfront literal back
  rw [String.empty_append, hbefore rfl, List.nil_append] at htext
  rw [MatchKind.Finds, htext, ← visible_fold_eq_piece_iff]
  have hlength := length_visible_fold "" literal back
  split
  case isTrue =>
    constructor
    · rintro ⟨rest, heq⟩
      exact (List.append_inj heq hlength).1
    · intro heq
      rw [heq]
      exact List.prefix_append _ after
  case isFalse hcut =>
    rw [hafter (seen_unseen_append hcut _), List.append_nil]
    exact Iff.rfl

theorem finds_ending_iff (hfront : IsWhole front.toList) :
    MatchKind.ending.Finds literal (front ++ literal) ↔ SettledIn front literal "" := by
  obtain ⟨before, after, htext, -, hafter⟩ := exists_visible_fold hfront literal ""
  have hnone : seen (unseen literal.toList ++ "".toList) = [] :=
    (congrArg seen (List.append_nil _)).trans (seen_unseen _)
  rw [String.append_empty, hafter hnone, List.append_nil] at htext
  have hsuffix : visible (fold literal) <:+ visible (fold (front ++ literal)) ↔
      SettledIn front literal "" := by
    rw [htext, ← visible_fold_eq_piece_iff]
    constructor
    · rintro ⟨rest, heq⟩
      exact (List.append_inj' heq (length_visible_fold front literal "")).2
    · intro heq
      rw [heq]
      exact List.suffix_append before _
  unfold MatchKind.Finds
  split <;> exact hsuffix

end LikePattern

end Setlist.Text
