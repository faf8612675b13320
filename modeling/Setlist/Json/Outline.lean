import Setlist.Json.Scanner

/-! # Outlines of JSON texts

What the grammar alone says of a text: its arrays and objects, with scalars and keys that may
have no value. Tokens drive an automaton with a stack of open arrays and objects, so there is
no bound on their depth.
-/

namespace Setlist

namespace Json

inductive Outline
  | scalar (value : Option Json)
  | array (items : List Outline)
  | object (members : List (Option String × Outline))

/-- An open array or object, its finished parts in reverse. -/
inductive Frame
  | items (done : List Outline)
  | members (done : List (Option String × Outline)) (key : Option String)

/-- What must come next. A bracket just opened may be closed at once. -/
inductive Expect
  | value (stack : List Frame)
  | itemOrClose (stack : List Frame)
  | keyOrClose (stack : List Frame)
  | key (stack : List Frame) (done : List (Option String × Outline))
  | colon (stack : List Frame) (done : List (Option String × Outline)) (key : Option String)
  | more (stack : List Frame) (value : Outline)

namespace Expect

def begin (stack : List Frame) : Token → Option Expect
  | .scalar json => some (.more stack (.scalar json))
  | .quoted text => some (.more stack (.scalar (text.map .string)))
  | .mark c =>
    if c = '[' then some (.itemOrClose stack)
    else if c = '\x7b' then some (.keyOrClose stack)
    else none

def step : Expect → Token → Option Expect
  | value stack, token => begin stack token
  | itemOrClose stack, .mark ']' => some (.more stack (.array []))
  | itemOrClose stack, token => begin (.items [] :: stack) token
  | keyOrClose stack, .mark '\x7d' => some (.more stack (.object []))
  | keyOrClose stack, .quoted name => some (.colon stack [] name)
  | key stack done, .quoted name => some (.colon stack done name)
  | colon stack done name, .mark ':' => some (.value (.members done name :: stack))
  | more (.items done :: stack) last, .mark ',' => some (.value (.items (last :: done) :: stack))
  | more (.items done :: stack) last, .mark ']' =>
    some (.more stack (.array (last :: done).reverse))
  | more (.members done name :: stack) last, .mark ',' => some (.key stack ((name, last) :: done))
  | more (.members done name :: stack) last, .mark '\x7d' =>
    some (.more stack (.object ((name, last) :: done).reverse))
  | _, _ => none

def finish : Expect → Option Outline
  | more [] outline => some outline
  | _ => none

end Expect

/-- The outline of a whole text that is one value. -/
def Outline.ofText? (text : String) : Option Outline := do
  let tokens ← tokens? text.toList
  let last ← tokens.foldlM Expect.step (Expect.value [])
  last.finish

end Json

end Setlist
