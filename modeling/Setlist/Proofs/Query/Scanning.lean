import Setlist.Proofs.Query.Language

/-! # The tokens of a condition

Blanks, parentheses and bound values part the words of a query, so the tokens of a condition
are those of its pieces, one after another.
-/

namespace Setlist

namespace Token

/-- A word ends here, whatever follows. -/
def Parts (c : Char) : Prop := c = ' ' ∨ isMark c = true

/-- What follows is parted from what stands before it. -/
def Starts : List (Char ⊕ Datum) → Prop
  | [] => True
  | .inr _ :: _ => True
  | .inl c :: _ => Parts c

def Ends (characters : List (Char ⊕ Datum)) : Prop :=
  ∃ front c, characters = front ++ [.inl c] ∧ Parts c

def enclosed (tokens : List Token) : List Token := .opening :: (tokens ++ [.closing])

theorem Starts.append {characters : List (Char ⊕ Datum)} (h : Starts characters)
    (hne : characters ≠ []) (rest : List (Char ⊕ Datum)) : Starts (characters ++ rest) := by
  match characters, h, hne with
  | .inr _ :: _, _, _ => exact trivial
  | .inl _ :: _, h, _ => exact h

theorem Ends.ne_nil {characters : List (Char ⊕ Datum)} (h : Ends characters) :
    characters ≠ [] := by
  obtain ⟨front, c, rfl, -⟩ := h
  exact List.append_ne_nil_of_right_ne_nil _ (List.cons_ne_nil _ _)

theorem scan_of_parts {c : Char} (h : Parts c) (word : List Char)
    (rest : List (Char ⊕ Datum)) :
    scan word (.inl c :: rest) = pending word ++ (scan [] [.inl c] ++ scan [] rest) := by
  rw [scan, scan]
  by_cases hblank : (c == ' ') = true
  · rw [if_pos hblank, if_pos hblank]
    rfl
  · have hmark : isMark c = true := h.resolve_left fun heq => hblank (beq_iff_eq.mpr heq)
    rw [if_neg hblank, if_neg hblank, if_pos hmark, if_pos hmark]
    rfl

theorem scan_of_starts {characters : List (Char ⊕ Datum)} (h : Starts characters)
    (word : List Char) : scan word characters = pending word ++ scan [] characters := by
  match characters, h with
  | [], _ => exact (List.append_nil _).symm
  | .inr value :: rest, _ => rfl
  | .inl c :: rest, h => rw [scan_of_parts h word rest, scan_of_parts h [] rest, pending,
      List.nil_append]

theorem scan_append {after : List (Char ⊕ Datum)} (h : Starts after)
    (before : List (Char ⊕ Datum)) (word : List Char) :
    scan word (before ++ after) = scan word before ++ scan [] after := by
  induction before generalizing word with
  | nil => exact scan_of_starts h word
  | cons character rest ih =>
    rw [List.cons_append]
    cases character with
    | inr value => rw [scan, scan, ih, List.append_assoc, List.cons_append]
    | inl c =>
      rw [scan, scan, ih, ih, ih]
      split
      · rw [List.append_assoc]
      · split
        · rw [List.append_assoc, List.cons_append]
        · split
          · rw [List.append_assoc]
          · rfl

theorem scan_append_of_ends {before : List (Char ⊕ Datum)} (h : Ends before)
    (after : List (Char ⊕ Datum)) :
    scan [] (before ++ after) = scan [] before ++ scan [] after := by
  obtain ⟨front, c, rfl, hc⟩ := h
  have hstarts : ∀ rest, Starts (.inl c :: rest) := fun _ => hc
  rw [List.append_assoc, List.singleton_append, scan_append (hstarts after),
    scan_append (hstarts []), scan_of_parts hc [] after, List.append_assoc]
  rfl

end Token

namespace Sql

open Token

theorem characters_append (a b : Sql) : characters (a ++ b) = characters a ++ characters b :=
  List.flatMap_append

def wordTokens (text : String) : List Token := scan [] (text.toList.map .inl)

theorem tokens_bind (text : String) (value : Datum) (rest : Sql) :
    tokens (.text text :: .bind value :: rest) =
      wordTokens text ++ .datum (some value) :: tokens rest := by
  have hvalue : Starts (.inr value :: characters rest) := trivial
  exact scan_append hvalue _ _

theorem tokens_nil : tokens [] = [] := rfl

theorem wordTokens_append (before : String) {after : String}
    (h : Starts (after.toList.map .inl)) :
    wordTokens (before ++ after) = wordTokens before ++ wordTokens after := by
  rw [wordTokens, String.toList_append, List.map_append]
  exact scan_append h _ _

theorem wordTokens_append_of_ends {before : String} (h : Ends (before.toList.map .inl))
    (after : String) : wordTokens (before ++ after) = wordTokens before ++ wordTokens after := by
  rw [wordTokens, String.toList_append, List.map_append]
  exact scan_append_of_ends h _

theorem tokens_cons_text {text : String} (h : Ends (text.toList.map .inl)) (rest : Sql) :
    tokens (.text text :: rest) = wordTokens text ++ tokens rest :=
  scan_append_of_ends h _

theorem tokens_append {after : Sql} (h : Starts (characters after)) (before : Sql) :
    tokens (before ++ after) = tokens before ++ tokens after := by
  rw [tokens, characters_append, scan_append h]
  rfl

theorem tokens_separated {separator : String} {mark : Token}
    (hmark : wordTokens separator = [mark]) (hstarts : Starts (separator.toList.map .inl))
    (hends : Ends (separator.toList.map .inl)) (first : Sql) (rest : List Sql) :
    tokens (separated separator (first :: rest)) =
      first.tokens ++ rest.flatMap (mark :: tokens ·) := by
  induction rest generalizing first with
  | nil => exact (List.append_nil _).symm
  | cons next rest ih =>
    have hrest : Starts (characters (.text separator :: separated separator (next :: rest))) :=
      hstarts.append hends.ne_nil _
    rw [separated, tokens_append hrest, tokens_cons_text hends, hmark, ih, List.flatMap_cons]
    rfl

end Sql

namespace Field

def tokens : Field → List Token
  | playCount =>
    [.name "COALESCE", .opening, .name "i.play_count", .comma, .datum (some (.integer 0)), .closing]
  | field => [.name field.column]

theorem wordTokens_column (field : Field) : Sql.wordTokens field.column = field.tokens := by
  cases field <;> decide +kernel

theorem wordTokens_append (field : Field) {mark : String} {marks : List Token}
    (hmark : Sql.wordTokens mark = marks) (h : Token.Starts (mark.toList.map .inl)) :
    Sql.wordTokens (field.column ++ mark) = field.tokens ++ marks := by
  rw [Sql.wordTokens_append _ h, wordTokens_column, hmark]

theorem wordTokens_opened (field : Field) {mark : String} {marks : List Token}
    (hmark : Sql.wordTokens mark = marks) (h : Token.Starts (mark.toList.map .inl)) :
    Sql.wordTokens ("(" ++ field.column ++ mark) = .opening :: (field.tokens ++ marks) := by
  have hopening : Token.Ends ("(".toList.map .inl) := ⟨[], '(', rfl, .inr rfl⟩
  have hwords : Sql.wordTokens "(" = [.opening] := by decide +kernel
  rw [String.append_assoc, Sql.wordTokens_append_of_ends hopening, hwords,
    field.wordTokens_append hmark h]
  rfl

theorem tokens_bind (field : Field) {mark : String} {marks : List Token}
    (hmark : Sql.wordTokens mark = marks) (h : Token.Starts (mark.toList.map .inl))
    (value : Datum) (rest : Sql) :
    Sql.tokens (.text (field.column ++ mark) :: .bind value :: rest) =
      field.tokens ++ marks ++ .datum (some value) :: Sql.tokens rest := by
  rw [Sql.tokens_bind, field.wordTokens_append hmark h]

end Field

namespace Condition

def tokens : Condition → List Token
  | never => [.datum (some (.integer 0))]
  | equal field value => field.tokens ++ [.sign .equal, .datum (some value)]
  | sameDay field value =>
    .name "date" :: Token.enclosed field.tokens ++
      .sign .equal :: .name "date" :: Token.enclosed [.datum (some value)]
  | like field pattern =>
    field.tokens ++ [.like, .datum (some pattern), .escape, .datum (some (.text "\\"))]
  | notLike field pattern =>
    field.tokens ++ [.not, .like, .datum (some pattern), .escape, .datum (some (.text "\\"))]
  | greater field value => field.tokens ++ [.sign .greater, .datum (some value)]
  | less field value => field.tokens ++ [.sign .less, .datum (some value)]
  | between field low high =>
    field.tokens ++ [.between, .datum (some low), .and, .datum (some high)]
  | within field low high =>
    Token.enclosed (field.tokens ++ [.sign .atLeast, .datum (some low)] ++
      .and :: (field.tokens ++ [.sign .atMost, .datum (some high)]))
  | outside field low high =>
    Token.enclosed (field.tokens ++ [.sign .less, .datum (some low)] ++
      .or :: (field.tokens ++ [.sign .greater, .datum (some high)]))
  | negation condition => .not :: Token.enclosed condition.tokens
  | absentOr field condition =>
    Token.enclosed (field.tokens ++ [.is, .datum none] ++ .or :: condition.tokens)

theorem starts_closing : Token.Starts (Sql.characters [.text ")"]) := .inr rfl

theorem tokens_sql (condition : Condition) : condition.sql.tokens = condition.tokens := by
  have hand : Sql.wordTokens " AND " = [.and] := by decide +kernel
  have hor : Sql.wordTokens " OR " = [.or] := by decide +kernel
  have hless : Sql.wordTokens " < " = [.sign .less] := by decide +kernel
  have hgreater : Sql.wordTokens " > " = [.sign .greater] := by decide +kernel
  have hescape : Sql.tokens [.text " ESCAPE '\\'"] = [.escape, .datum (some (.text "\\"))] := by
    decide +kernel
  have hclosing : Sql.tokens [.text ")"] = [.closing] := by decide +kernel
  induction condition with
  | never => exact (by decide +kernel : Sql.tokens [.text "0"] = [.datum (some (.integer 0))])
  | equal field value =>
    have hsign : Sql.wordTokens " = " = [.sign .equal] := by decide +kernel
    rw [sql, field.tokens_bind hsign (.inl rfl)]
    simp [tokens, Sql.tokens_nil]
  | sameDay field value =>
    have hopening : Token.Ends ("date(".toList.map .inl) :=
      ⟨"date".toList.map .inl, '(', rfl, .inr rfl⟩
    have hmark : Token.Starts (") = date(".toList.map .inl) := .inr rfl
    have hdate : Sql.wordTokens "date(" = [.name "date", .opening] := by decide +kernel
    have hsign : Sql.wordTokens ") = date(" =
        [.closing, .sign .equal, .name "date", .opening] := by decide +kernel
    rw [sql, Sql.tokens_bind, Sql.wordTokens_append _ hmark,
      Sql.wordTokens_append_of_ends hopening, hdate, field.wordTokens_column, hsign, hclosing]
    simp [tokens, Token.enclosed]
  | like field pattern =>
    have hlike : Sql.wordTokens " LIKE " = [.like] := by decide +kernel
    rw [sql, field.tokens_bind hlike (.inl rfl), hescape]
    simp [tokens]
  | notLike field pattern =>
    have hlike : Sql.wordTokens " NOT LIKE " = [.not, .like] := by decide +kernel
    rw [sql, field.tokens_bind hlike (.inl rfl), hescape]
    simp [tokens]
  | greater field value =>
    rw [sql, field.tokens_bind hgreater (.inl rfl)]
    simp [tokens, Sql.tokens_nil]
  | less field value =>
    rw [sql, field.tokens_bind hless (.inl rfl)]
    simp [tokens, Sql.tokens_nil]
  | between field low high =>
    have hbetween : Sql.wordTokens " BETWEEN " = [.between] := by decide +kernel
    rw [sql, field.tokens_bind hbetween (.inl rfl), Sql.tokens_bind, hand]
    simp [tokens, Sql.tokens_nil]
  | within field low high =>
    have hend : Token.Ends (" AND ".toList.map .inl) :=
      ⟨" AND".toList.map .inl, ' ', rfl, .inl rfl⟩
    have hleast : Sql.wordTokens " >= " = [.sign .atLeast] := by decide +kernel
    have hmost : Sql.wordTokens " <= " = [.sign .atMost] := by decide +kernel
    rw [sql, Sql.tokens_bind, field.wordTokens_opened hleast (.inl rfl), String.append_assoc,
      Sql.tokens_bind, Sql.wordTokens_append_of_ends hend,
      field.wordTokens_append hmost (.inl rfl), hand, hclosing]
    simp [tokens, Token.enclosed]
  | outside field low high =>
    have hend : Token.Ends (" OR ".toList.map .inl) :=
      ⟨" OR".toList.map .inl, ' ', rfl, .inl rfl⟩
    rw [sql, Sql.tokens_bind, field.wordTokens_opened hless (.inl rfl), String.append_assoc,
      Sql.tokens_bind, Sql.wordTokens_append_of_ends hend,
      field.wordTokens_append hgreater (.inl rfl), hor, hclosing]
    simp [tokens, Token.enclosed]
  | negation condition ih =>
    have hend : Token.Ends ("NOT (".toList.map .inl) :=
      ⟨"NOT ".toList.map .inl, '(', rfl, .inr rfl⟩
    have hnot : Sql.wordTokens "NOT (" = [.not, .opening] := by decide +kernel
    rw [sql, Sql.tokens_cons_text hend, Sql.tokens_append starts_closing, hnot, ih, hclosing]
    simp [tokens, Token.enclosed]
  | absentOr field condition ih =>
    have hend : Token.Ends (("(" ++ field.column ++ " IS NULL OR ").toList.map .inl) :=
      ⟨("(" ++ field.column ++ " IS NULL OR").toList.map .inl, ' ', by
        simp [String.toList_append], .inl rfl⟩
    have hnull : Sql.wordTokens " IS NULL OR " = [.is, .datum none, .or] := by decide +kernel
    rw [sql, Sql.tokens_cons_text hend, Sql.tokens_append starts_closing,
      field.wordTokens_opened hnull (.inl rfl), ih, hclosing]
    simp [tokens, Token.enclosed]

end Condition

end Setlist
