import Setlist.Json.Outline
import Setlist.Proofs.Json.Numbers

/-! # Reading written tokens

The text of a value is scanned into the tokens of the value. A word is a token only once
something else follows it, so two states of the scanner are compared by what comes after them.
-/

namespace Setlist

namespace Json

mutual

/-- Every number in the value is one that a JSON text can give. -/
def IsValid : Json → Prop
  | number value => value.IsValid
  | array items => AllValid items
  | object members => MembersValid members
  | _ => True

def AllValid : List Json → Prop
  | [] => True
  | item :: rest => item.IsValid ∧ AllValid rest

def MembersValid : List (String × Json) → Prop
  | [] => True
  | (_, value) :: rest => value.IsValid ∧ MembersValid rest

end

mutual

def tokens : Json → List Token
  | null => [.scalar (some .null)]
  | bool value => [.scalar (some (.bool value))]
  | number value => [.scalar (some (.number value))]
  | string value => [.quoted (some value)]
  | array items => .mark '[' :: (itemTokens items ++ [.mark ']'])
  | object members => .mark '\x7b' :: (memberTokens members ++ [.mark '\x7d'])

def itemTokens : List Json → List Token
  | [] => []
  | [item] => tokens item
  | item :: next :: rest => tokens item ++ .mark ',' :: itemTokens (next :: rest)

def memberTokens : List (String × Json) → List Token
  | [] => []
  | [(key, value)] => .quoted (some key) :: .mark ':' :: tokens value
  | (key, value) :: next :: rest =>
    .quoted (some key) :: .mark ':' :: (tokens value ++ .mark ',' :: memberTokens (next :: rest))

end

def endsWord (c : Char) : Bool := isSpace c || isMark c || c == '"'

namespace Scanner

/-- Whatever may follow, a scanner goes on as if it had read some tokens, in reverse, and
nothing else. -/
structure Settled (s : Scanner) (tokens : List Token) : Prop where
  step : ∀ c, endsWord c → s.step c = some (begin tokens c)
  finish : s.finish = some tokens.reverse

theorem settled_between (tokens : List Token) : Settled ⟨tokens, .between⟩ tokens :=
  ⟨fun _ _ => rfl, rfl⟩

theorem settled_word {tokens : List Token} {done : List Char} {token : Token}
    (h : scalarOfWord done.reverse = some token) :
    Settled ⟨tokens, .word done⟩ (token :: tokens) where
  step c hc := by
    rw [endsWord] at hc
    simp [Scanner.step, hc, h]
  finish := by simp [Scanner.finish, h]

theorem foldlM_word {tokens : List Token} {word : List Char} (h : ∀ c ∈ word, endsWord c = false)
    (done : List Char) : word.foldlM step ⟨tokens, .word done⟩ =
      some ⟨tokens, .word (word.reverse ++ done)⟩ := by
  induction word generalizing done with
  | nil => rfl
  | cons c word ih =>
    have hc := h c List.mem_cons_self
    rw [endsWord] at hc
    have hstep : step ⟨tokens, .word done⟩ c = some ⟨tokens, .word (c :: done)⟩ := by
      simp [step, hc]
    rw [List.foldlM_cons, hstep]
    simpa using ih (fun d hd => h d (List.mem_cons_of_mem _ hd)) (c :: done)

theorem scan_word (tokens : List Token) {word : List Char} {token : Token}
    (h : ∀ c ∈ word, endsWord c = false) (hne : word ≠ []) (ht : scalarOfWord word = some token) :
    ∃ s, word.foldlM step ⟨tokens, .between⟩ = some s ∧ s.Settled (token :: tokens) := by
  obtain ⟨c, rest, rfl⟩ := List.exists_cons_of_ne_nil hne
  have hc := h c List.mem_cons_self
  simp only [endsWord, Bool.or_eq_false_iff, beq_eq_false_iff_ne, ne_eq] at hc
  have hbegin : step ⟨tokens, .between⟩ c = some ⟨tokens, .word [c]⟩ := by
    simp [step, begin, hc]
  refine ⟨⟨tokens, .word (rest.reverse ++ [c])⟩, ?_, settled_word (by simpa using ht)⟩
  rw [List.foldlM_cons, hbegin]
  exact foldlM_word (fun d hd => h d (List.mem_cons_of_mem _ hd)) [c]

theorem hexValue_digitChar : ∀ n < 16, hexValue (Nat.digitChar n) = some n := by decide

theorem foldlM_escapeChar (tokens : List Token) (done : List Nat) (c : Char) :
    (escapeChar c).foldlM step ⟨tokens, .quoted done⟩ =
      some ⟨tokens, .quoted (c.toNat :: done)⟩ := by
  unfold escapeChar
  split
  case h_8 hquote hback _ _ _ _ _ =>
    split
    case isTrue hcontrol =>
      have hhigh := hexValue_digitChar (c.toNat / 16) (by omega)
      have hlow := hexValue_digitChar (c.toNat % 16) (by omega)
      have hcode : 16 * (c.toNat / 16) + c.toNat % 16 = c.toNat := Nat.div_add_mod _ _
      have hzero : hexValue '0' = some 0 := rfl
      simp [hexPair, step, hhigh, hlow, hzero, hcode]
    case isFalse hplain =>
      have hquote : c ≠ '"' := hquote
      have hback : c ≠ '\\' := hback
      simp [step, hquote, hback, hplain]
  all_goals rfl

theorem foldlM_escaped (tokens : List Token) (text : List Char) (done : List Nat) :
    (text.flatMap escapeChar).foldlM step ⟨tokens, .quoted done⟩ =
      some ⟨tokens, .quoted ((text.map Char.toNat).reverse ++ done)⟩ := by
  induction text generalizing done with
  | nil => rfl
  | cons c text ih =>
    rw [List.flatMap_cons, List.foldlM_append, foldlM_escapeChar]
    simpa using ih (c.toNat :: done)

end Scanner

theorem isHighHalf_toNat (c : Char) : isHighHalf c.toNat = false := by
  have h := c.valid
  simp only [UInt32.isValidChar, Nat.isValidChar] at h
  simp only [isHighHalf, Bool.and_eq_false_iff, decide_eq_false_iff_not, Char.toNat]
  omega

theorem isLowHalf_toNat (c : Char) : isLowHalf c.toNat = false := by
  have h := c.valid
  simp only [UInt32.isValidChar, Nat.isValidChar] at h
  simp only [isLowHalf, Bool.and_eq_false_iff, decide_eq_false_iff_not, Char.toNat]
  omega

/-- No character of a text is half of a pair. -/
theorem assemble_toNat (text : List Char) : assemble (text.map Char.toNat) = some text := by
  induction text with
  | nil => rfl
  | cons c rest ih =>
    cases rest with
    | nil => simp [assemble, isHighHalf_toNat, isLowHalf_toNat, Char.ofNat_toNat]
    | cons d rest =>
      simp only [List.map_cons] at ih ⊢
      rw [assemble]
      simp [isHighHalf_toNat, isLowHalf_toNat, Char.ofNat_toNat, ih]

namespace Scanner

theorem scan_quote (tokens : List Token) (text : String) :
    (quote text).foldlM step ⟨tokens, .between⟩ =
      some ⟨.quoted (some text) :: tokens, .between⟩ := by
  have hbegin : step ⟨tokens, .between⟩ '"' = some ⟨tokens, .quoted []⟩ := rfl
  have hend : step ⟨tokens, .quoted ((text.toList.map Char.toNat).reverse ++ [])⟩ '"' =
      some ⟨.quoted (some text) :: tokens, .between⟩ := by
    simp [step, ← List.map_reverse, assemble_toNat]
  rw [quote, List.foldlM_cons, hbegin]
  show ((text.toList.flatMap escapeChar ++ ['"']).foldlM step ⟨tokens, .quoted []⟩) = _
  rw [List.foldlM_append, foldlM_escaped]
  simpa using hend

end Scanner

def isNumberChar (c : Char) : Bool := c.isDigit || c == '-' || c == '+' || c == '.' || c == 'e'

theorem endsWord_eq_false {c : Char} (h : isNumberChar c) : endsWord c = false := by
  rw [Bool.eq_false_iff]
  intro hend
  simp only [endsWord, isSpace, isMark, Bool.or_eq_true, beq_iff_eq] at hend
  rcases hend with ((((rfl | rfl) | rfl) | rfl) | (((((rfl | rfl) | rfl) | rfl) | rfl) | rfl)) | rfl
  all_goals exact absurd h (by decide)

theorem isNumberChar_of_isDigit {c : Char} (h : c.isDigit) : isNumberChar c := by
  simp [isNumberChar, h]

theorem isNumberChar_realChars {d : Decimal} {c : Char} (h : c ∈ JsonNumber.realChars d) :
    isNumberChar c := by
  have hdigits : ∀ c ∈ d.digitChars, isNumberChar c :=
    fun _ hc => isNumberChar_of_isDigit (Decimal.digitChars_isDigit hc)
  have hzeros : ∀ n, ∀ c ∈ List.replicate n '0', isNumberChar c :=
    fun _ _ hc => isNumberChar_of_isDigit (zeros_isDigit hc)
  have hpositional : ∀ c ∈ d.positional, isNumberChar c := by
    intro c hc
    unfold Decimal.positional at hc
    simp only at hc
    split at hc
    · exact (List.mem_append.mp hc).elim (hdigits c) (hzeros _ c)
    · split at hc
      · rcases List.mem_append.mp hc with hc | hc
        · exact hdigits c (List.mem_of_mem_take hc)
        · rcases List.mem_cons.mp hc with rfl | hc
          · rfl
          · exact hdigits c (List.mem_of_mem_drop hc)
      · rcases List.mem_append.mp hc with hc | hc
        · rcases List.mem_cons.mp hc with rfl | hc
          · rfl
          · rcases List.mem_cons.mp hc with rfl | hc
            · rfl
            · exact hzeros _ c hc
        · exact hdigits c hc
  have hscientific : ∀ c ∈ d.scientific, isNumberChar c := by
    intro c hc
    unfold Decimal.scientific at hc
    rcases List.mem_append.mp hc with hc | hc
    · split at hc
      case h_1 first second more heq =>
        rw [heq] at hdigits
        simp only [List.mem_cons] at hc hdigits
        rcases hc with rfl | rfl | hc
        · exact hdigits c (Or.inl rfl)
        · rfl
        · exact hdigits c (Or.inr hc)
      case h_2 => exact hdigits c hc
    · rcases List.mem_cons.mp hc with rfl | hc
      · rfl
      · rcases List.mem_cons.mp hc with rfl | hc
        · split <;> rfl
        · exact isNumberChar_of_isDigit (toDigits_isDigit hc)
  unfold JsonNumber.realChars at h
  split at h
  · split at h
    · rcases List.mem_append.mp h with h | h
      · exact hpositional c h
      · simp only [List.mem_cons, List.not_mem_nil, or_false] at h
        rcases h with rfl | rfl <;> rfl
    · exact hpositional c h
  · exact hscientific c h

theorem isNumberChar_signChars {negative : Bool} {c : Char} (h : c ∈ Numeral.signChars negative) :
    isNumberChar c := by
  cases negative
  · simp [Numeral.signChars] at h
  · rw [List.mem_singleton.mp h]
    rfl

theorem isNumberChar_chars {n : JsonNumber} {c : Char} (h : c ∈ n.chars) : isNumberChar c := by
  cases n with
  | integer value =>
    rw [JsonNumber.chars_integer] at h
    rcases List.mem_append.mp h with h | h
    · exact isNumberChar_signChars h
    · exact isNumberChar_of_isDigit (toDigits_isDigit h)
  | real value =>
    rw [JsonNumber.chars_real] at h
    rcases List.mem_append.mp h with h | h
    · exact isNumberChar_signChars h
    · split at h
      · simp only [List.mem_cons, List.not_mem_nil, or_false] at h
        rcases h with rfl | rfl | rfl <;> rfl
      · exact isNumberChar_realChars h

theorem scalarOfWord_chars {n : JsonNumber} (h : n.IsValid) :
    scalarOfWord n.chars = some (.scalar (some (.number n))) := by
  have hword : ∀ {word : List Char}, word.all isNumberChar = false → n.chars ≠ word := by
    rintro word hword rfl
    rw [List.all_eq_false] at hword
    obtain ⟨c, hc, hnot⟩ := hword
    exact hnot (isNumberChar_chars hc)
  have hnull : n.chars ≠ "null".toList := hword (by decide)
  have htrue : n.chars ≠ "true".toList := hword (by decide)
  have hfalse : n.chars ≠ "false".toList := hword (by decide)
  simp only [scalarOfWord, if_neg hnull, if_neg htrue, if_neg hfalse, JsonNumber.number?_chars h,
    Option.map_some]

theorem chars_ne_nil {n : JsonNumber} (h : n.IsValid) : n.chars ≠ [] := by
  intro hnil
  have hread := JsonNumber.number?_chars h
  rw [hnil] at hread
  cases hread

namespace Scanner

variable {done : List Token}

theorem Settled.step_mark {s : Scanner} (h : s.Settled done) {c : Char} (hc : isMark c)
    (hs : isSpace c = false) : s.step c = some ⟨.mark c :: done, .between⟩ := by
  rw [h.step c (by simp [endsWord, hc]), begin, if_neg (by simp [hs]), if_pos hc]

mutual

theorem scan_value (done : List Token) : ∀ {value : Json}, value.IsValid →
    ∃ s, value.chars.foldlM step ⟨done, .between⟩ = some s ∧
      s.Settled (value.tokens.reverse ++ done)
  | .null, _ => scan_word done (by simp [chars, endsWord, isSpace, isMark]) (by decide) rfl
  | .bool true, _ => scan_word done (by simp [chars, endsWord, isSpace, isMark]) (by decide) rfl
  | .bool false, _ => scan_word done (by simp [chars, endsWord, isSpace, isMark]) (by decide) rfl
  | .number n, h => scan_word done (fun _ hc => endsWord_eq_false (isNumberChar_chars hc))
      (chars_ne_nil h) (scalarOfWord_chars h)
  | .string text, _ => ⟨_, scan_quote done text, settled_between _⟩
  | .array items, h => by
    obtain ⟨s, hs, hsettled⟩ := scan_items (.mark '[' :: done) h
    have hend := hsettled.step_mark (c := ']') rfl rfl
    refine ⟨_, ?_, settled_between _⟩
    have hbegin : step ⟨done, .between⟩ '[' = some ⟨.mark '[' :: done, .between⟩ := rfl
    simp [chars, Json.tokens, hbegin, hs, hend]
  | .object members, h => by
    obtain ⟨s, hs, hsettled⟩ := scan_members (.mark '\x7b' :: done) h
    have hend := hsettled.step_mark (c := '\x7d') rfl rfl
    refine ⟨_, ?_, settled_between _⟩
    have hbegin : step ⟨done, .between⟩ '\x7b' = some ⟨.mark '\x7b' :: done, .between⟩ := rfl
    simp [chars, Json.tokens, hbegin, hs, hend]

theorem scan_items (done : List Token) : ∀ {items : List Json}, AllValid items →
    ∃ s, (itemChars items).foldlM step ⟨done, .between⟩ = some s ∧
      s.Settled ((itemTokens items).reverse ++ done)
  | [], _ => ⟨_, rfl, settled_between _⟩
  | [item], h => scan_value done h.1
  | item :: next :: rest, h => by
    obtain ⟨s, hs, hsettled⟩ := scan_value done h.1
    have hcomma := hsettled.step_mark (c := ',') rfl rfl
    obtain ⟨t, ht, htsettled⟩ := scan_items (.mark ',' :: (item.tokens.reverse ++ done)) h.2
    refine ⟨t, ?_, by simpa [itemTokens] using htsettled⟩
    simp [itemChars, hs, hcomma, ht]

theorem scan_members (done : List Token) : ∀ {members : List (String × Json)},
    MembersValid members → ∃ s, (memberChars members).foldlM step ⟨done, .between⟩ = some s ∧
      s.Settled ((memberTokens members).reverse ++ done)
  | [], _ => ⟨_, rfl, settled_between _⟩
  | [(key, value)], h => by
    obtain ⟨s, hs, hsettled⟩ := scan_value (.mark ':' :: .quoted (some key) :: done) h.1
    have hcolon : step ⟨.quoted (some key) :: done, .between⟩ ':' =
      some ⟨.mark ':' :: .quoted (some key) :: done, .between⟩ := rfl
    refine ⟨s, ?_, by simpa [memberTokens] using hsettled⟩
    simp [memberChars, scan_quote, hcolon, hs]
  | (key, value) :: next :: rest, h => by
    obtain ⟨s, hs, hsettled⟩ := scan_value (.mark ':' :: .quoted (some key) :: done) h.1
    have hcolon : step ⟨.quoted (some key) :: done, .between⟩ ':' =
      some ⟨.mark ':' :: .quoted (some key) :: done, .between⟩ := rfl
    have hcomma := hsettled.step_mark (c := ',') rfl rfl
    obtain ⟨t, ht, htsettled⟩ := scan_members
      (.mark ',' :: (value.tokens.reverse ++ .mark ':' :: .quoted (some key) :: done)) h.2
    refine ⟨t, ?_, by simpa [memberTokens] using htsettled⟩
    simp [memberChars, scan_quote, hcolon, hs, hcomma, ht]

end

end Scanner

theorem tokens?_chars {value : Json} (h : value.IsValid) :
    tokens? value.chars = some value.tokens := by
  obtain ⟨s, hs, hsettled⟩ := Scanner.scan_value [] h
  rw [tokens?, Scanner.start, hs, Option.bind_some, hsettled.finish, List.append_nil,
    List.reverse_reverse]

end Json

end Setlist
