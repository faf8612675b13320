import Setlist.Json.Reader
import Setlist.Proofs.Json.Scanning

/-! # Reading written values

The tokens of a value drive the grammar to the outline of the value, and from the outline the
value is taken back whole if there is room for its depth. So a text tells which value was written.
-/

namespace Setlist

namespace Json

mutual

def outline : Json → Outline
  | array items => .array (itemOutlines items)
  | object members => .object (memberOutlines members)
  | value => .scalar (some value)

def itemOutlines : List Json → List Outline
  | [] => []
  | item :: rest => outline item :: itemOutlines rest

def memberOutlines : List (String × Json) → List (Option String × Outline)
  | [] => []
  | (key, value) :: rest => (some key, outline value) :: memberOutlines rest

end

mutual

/-- Arrays and objects within one another, the value itself included. -/
def depth : Json → Nat
  | array items => itemDepth items + 1
  | object members => memberDepth members + 1
  | _ => 0

def itemDepth : List Json → Nat
  | [] => 0
  | item :: rest => max (depth item) (itemDepth rest)

def memberDepth : List (String × Json) → Nat
  | [] => 0
  | (_, value) :: rest => max (depth value) (memberDepth rest)

end

namespace Expect

theorem exists_tokens (value : Json) : ∃ first more, value.tokens = first :: more := by
  cases value <;> simp [Json.tokens]

theorem step_itemOrClose {value : Json} {first : Token} {more : List Token}
    (h : value.tokens = first :: more) (stack : List Frame) :
    step (.itemOrClose stack) first = step (.value (.items [] :: stack)) first := by
  cases value <;> simp only [Json.tokens, List.cons.injEq] at h <;> obtain ⟨rfl, -⟩ := h <;> rfl

theorem exists_itemTokens (item : Json) (rest : List Json) :
    ∃ more, itemTokens (item :: rest) = item.tokens ++ more := by
  cases rest with
  | nil => exact ⟨[], by simp [itemTokens]⟩
  | cons next rest => exact ⟨_, rfl⟩

theorem foldlM_itemOrClose (item : Json) (rest : List Json) (stack : List Frame)
    (last : List Token) :
    (itemTokens (item :: rest) ++ last).foldlM step (itemOrClose stack) =
      (itemTokens (item :: rest) ++ last).foldlM step (.value (.items [] :: stack)) := by
  obtain ⟨more, hitems⟩ := exists_itemTokens item rest
  obtain ⟨first, others, hfirst⟩ := exists_tokens item
  rw [hitems, hfirst, List.cons_append, List.cons_append, List.foldlM_cons, List.foldlM_cons,
    step_itemOrClose hfirst]

mutual

/-- Where a value may stand, its tokens lead to its outline. -/
theorem parse_value (stack : List Frame) : ∀ value : Json,
    value.tokens.foldlM step (.value stack) = some (more stack value.outline)
  | .null => rfl
  | .bool _ => rfl
  | .number _ => rfl
  | .string _ => rfl
  | .array [] => rfl
  | .array (item :: rest) => by
    have hopen : step (.value stack) (Token.mark '[') = some (itemOrClose stack) := rfl
    rw [Json.tokens, List.foldlM_cons, hopen, Option.bind_eq_bind, Option.bind_some,
      foldlM_itemOrClose]
    exact parse_items stack [] (item :: rest) (List.cons_ne_nil _ _)
  | .object [] => rfl
  | .object ((name, json) :: rest) => by
    have hopen : step (.value stack) (Token.mark '\x7b') = some (keyOrClose stack) := rfl
    have hkey : ∀ last, (memberTokens ((name, json) :: rest) ++ last).foldlM step
        (keyOrClose stack) = (memberTokens ((name, json) :: rest) ++ last).foldlM step
          (.key stack []) := by
      intro last
      cases rest <;> rfl
    rw [Json.tokens, List.foldlM_cons, hopen, Option.bind_eq_bind, Option.bind_some, hkey]
    exact parse_members stack [] ((name, json) :: rest) (List.cons_ne_nil _ _)

theorem parse_items (stack : List Frame) (done : List Outline) : ∀ items : List Json, items ≠ [] →
    (itemTokens items ++ [Token.mark ']']).foldlM step (.value (.items done :: stack)) =
      some (more stack (.array (done.reverse ++ itemOutlines items)))
  | [item], _ => by
    have hclose : step (more (.items done :: stack) item.outline) (Token.mark ']') =
      some (more stack (.array (item.outline :: done).reverse)) := rfl
    rw [itemTokens, List.foldlM_append, parse_value]
    simp [hclose, itemOutlines]
  | item :: next :: rest, _ => by
    have hcomma : step (more (.items done :: stack) item.outline) (Token.mark ',') =
      some (.value (.items (item.outline :: done) :: stack)) := rfl
    have hrest := parse_items stack (item.outline :: done) (next :: rest)
      (List.cons_ne_nil _ _)
    rw [itemTokens, List.append_assoc, List.foldlM_append, parse_value, Option.bind_eq_bind,
      Option.bind_some, List.cons_append, List.foldlM_cons, hcomma, Option.bind_eq_bind,
      Option.bind_some, hrest]
    simp [itemOutlines]

theorem parse_members (stack : List Frame) (done : List (Option String × Outline)) :
    ∀ members : List (String × Json), members ≠ [] →
    (memberTokens members ++ [Token.mark '\x7d']).foldlM step (.key stack done) =
      some (more stack (.object (done.reverse ++ memberOutlines members)))
  | [(name, json)], _ => by
    have hkey : step (.key stack done) (Token.quoted (some name)) =
      some (.colon stack done (some name)) := rfl
    have hcolon : step (.colon stack done (some name)) (Token.mark ':') =
      some (.value (.members done (some name) :: stack)) := rfl
    have hclose : step (more (.members done (some name) :: stack) json.outline)
      (Token.mark '\x7d') =
        some (more stack (.object ((some name, json.outline) :: done).reverse)) := rfl
    have hvalue := parse_value (.members done (some name) :: stack) json
    simp [memberTokens, hkey, hcolon, hvalue, hclose, memberOutlines]
  | (name, json) :: (other, second) :: rest, _ => by
    have hkey : step (.key stack done) (Token.quoted (some name)) =
      some (.colon stack done (some name)) := rfl
    have hcolon : step (.colon stack done (some name)) (Token.mark ':') =
      some (.value (.members done (some name) :: stack)) := rfl
    have hcomma : step (more (.members done (some name) :: stack) json.outline)
      (Token.mark ',') = some (.key stack ((some name, json.outline) :: done)) := rfl
    have hvalue := parse_value (.members done (some name) :: stack) json
    have hrest := parse_members stack ((some name, json.outline) :: done)
      ((other, second) :: rest) (List.cons_ne_nil _ _)
    simp only [memberTokens, List.cons_append, List.append_assoc, List.foldlM_cons, hkey, hcolon,
      List.foldlM_append, hvalue, hcomma, Option.bind_eq_bind, Option.bind_some] at hrest ⊢
    rw [hrest]
    simp [memberOutlines]

end

end Expect

theorem Outline.ofText?_text {value : Json} (h : value.IsValid) :
    Outline.ofText? value.text = some value.outline := by
  have hparse := Expect.parse_value [] value
  simp only [Outline.ofText?, text, String.toList_ofList, tokens?_chars h, Option.bind_eq_bind,
    Option.bind_some, hparse]
  rfl

namespace Outline

mutual

/-- With room for its depth, a value is read back whole. -/
theorem read?_outline {room : Nat} : ∀ {value : Json}, value.depth ≤ room →
    value.outline.read? room .whole = some value
  | .null, _ => rfl
  | .bool _, _ => rfl
  | .number _, _ => rfl
  | .string _, _ => rfl
  | .array items, h => by
    rw [depth] at h
    have hitems := readItems?_outlines (show itemDepth items ≤ room - 1 by omega)
    simp [outline, read?, show room ≠ 0 by omega, Shape.leading, Shape.trailing, hitems]
  | .object members, h => by
    rw [depth] at h
    have hmembers := readMembers?_outlines (show memberDepth members ≤ room - 1 by omega)
    simp [outline, read?, show room ≠ 0 by omega, hmembers]

theorem readItems?_outlines {room : Nat} : ∀ {items : List Json}, itemDepth items ≤ room →
    readItems? room [] .whole (itemOutlines items) = some items
  | [], _ => rfl
  | item :: rest, h => by
    rw [itemDepth] at h
    have hitem := read?_outline (show item.depth ≤ room by omega)
    have hrest := readItems?_outlines (show itemDepth rest ≤ room by omega)
    simp [itemOutlines, readItems?, hitem, hrest]

theorem readMembers?_outlines {room : Nat} : ∀ {members : List (String × Json)},
    memberDepth members ≤ room →
    readMembers? room .whole (memberOutlines members) = some members
  | [], _ => rfl
  | (name, value) :: rest, h => by
    rw [memberDepth] at h
    have hvalue := read?_outline (show value.depth ≤ room by omega)
    have hrest := readMembers?_outlines (show memberDepth rest ≤ room by omega)
    simp [memberOutlines, readMembers?, Shape.member?, hvalue, hrest]

end

end Outline

theorem outline_injective : Function.Injective outline := by
  intro a b h
  have ha := Outline.read?_outline (Nat.le_max_left a.depth b.depth)
  have hb := Outline.read?_outline (Nat.le_max_right a.depth b.depth)
  rw [h, hb] at ha
  exact (Option.some.inj ha).symm

theorem text_injective {a b : Json} (ha : a.IsValid) (hb : b.IsValid) (h : a.text = b.text) :
    a = b := by
  have hoa := Outline.ofText?_text ha
  rw [h, Outline.ofText?_text hb] at hoa
  exact outline_injective (Option.some.inj hoa).symm

end Json

end Setlist
