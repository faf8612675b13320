import Setlist.Query.Selection

/-! # Conditions as the database reads them

The text of a query is cut into words and marks, and these are put together by the strength of
their operators: `OR` is the weakest, then `AND`, `NOT`, the equalities with `LIKE` and
`BETWEEN`, and the orderings. What comes out has a value on every row.
-/

namespace Setlist

inductive Sign
  | equal | less | greater | atMost | atLeast
  deriving DecidableEq, Repr

def Sign.holds : Sign → Ordering → Bool
  | equal => (· == .eq)
  | less => (· == .lt)
  | greater => (· == .gt)
  | atMost => (· != .gt)
  | atLeast => (· != .lt)

/-- A word or a mark of a query, or a value bound in it. -/
inductive Token
  | opening | closing | comma
  | not | and | or | is | like | escape | between
  | sign (sign : Sign)
  | name (name : String)
  | datum (value : Cell)
  deriving DecidableEq, Repr

namespace Token

def ofWord : String → Token
  | "(" => opening
  | ")" => closing
  | "," => comma
  | "NOT" => not
  | "AND" => and
  | "OR" => or
  | "IS" => is
  | "LIKE" => like
  | "ESCAPE" => escape
  | "BETWEEN" => between
  | "=" => sign .equal
  | "<" => sign .less
  | ">" => sign .greater
  | "<=" => sign .atMost
  | ">=" => sign .atLeast
  | "NULL" => datum none
  | "0" => datum (some (.integer 0))
  | "'\\'" => datum (some (.text "\\"))
  | word => name word

def isMark (c : Char) : Bool := c == '(' || c == ')' || c == ','

def isSign (c : Char) : Bool := c == '<' || c == '=' || c == '>'

def pending : List Char → List Token
  | [] => []
  | word => [ofWord (String.ofList word)]

/-- Cuts characters and bound values into tokens; `word` has begun. A blank, a mark or a value
ends it, and so does the change between letters and signs. -/
def scan (word : List Char) : List (Char ⊕ Datum) → List Token
  | [] => pending word
  | .inr value :: rest => pending word ++ datum (some value) :: scan [] rest
  | .inl c :: rest =>
    if c == ' ' then pending word ++ scan [] rest
    else if isMark c then pending word ++ ofWord (String.ofList [c]) :: scan [] rest
    else if word.any (isSign · != isSign c) then pending word ++ scan [c] rest
    else scan (word ++ [c]) rest

end Token

namespace Sql

def characters (sql : Sql) : List (Char ⊕ Datum) :=
  sql.flatMap fun
    | .text text => text.toList.map .inl
    | .bind value => [.inr value]

def tokens (sql : Sql) : List Token := Token.scan [] sql.characters

end Sql

inductive Term
  | datum (value : Cell)
  | name (name : String)
  | call (function : String) (argument : Term)
  | callTwo (function : String) (first second : Term)
  | not (term : Term)
  | and (left right : Term)
  | or (left right : Term)
  | is (left right : Term)
  | compare (sign : Sign) (left right : Term)
  | like (negated : Bool) (value pattern escape : Term)
  | between (value low high : Term)
  deriving DecidableEq, Repr

/-- What waits for the operand on its right. -/
inductive Frame
  | opening
  | call (function : String)
  | callTwo (function : String) (first : Term)
  | not
  | and (left : Term)
  | or (left : Term)
  | is (left : Term)
  | compare (sign : Sign) (left : Term)
  | like (negated : Bool) (value : Term)
  | escape (negated : Bool) (value pattern : Term)
  | between (value : Term)
  | upTo (value low : Term)
  deriving DecidableEq, Repr

def Sign.strength : Sign → Nat
  | equal => 3
  | _ => 4

namespace Frame

def strength : Frame → Nat
  | or _ => 0
  | and _ => 1
  | not => 2
  | compare sign _ => sign.strength
  | _ => 3

/-- The term that an operand completes, if nothing else is missing. -/
def close : Frame → Term → Option Term
  | not, term => some (.not term)
  | and left, term => some (.and left term)
  | or left, term => some (.or left term)
  | is left, term => some (.is left term)
  | compare sign left, term => some (.compare sign left term)
  | escape negated value pattern, term => some (.like negated value pattern term)
  | upTo value low, term => some (.between value low term)
  | _, _ => none

/-- Completes what is at least as strong as the operator that follows. -/
def reduce (strength : Nat) : List Frame → Term → List Frame × Term
  | [], term => ([], term)
  | frame :: rest, term =>
    match frame.close term with
    | some whole =>
      if strength ≤ frame.strength then reduce strength rest whole else (frame :: rest, term)
    | none => (frame :: rest, term)

end Frame

/-- What is read next: an operand, what may follow one, or the `LIKE` after a `NOT`. -/
inductive Mode
  | operand
  | after (term : Term)
  | unlike (term : Term)
  deriving DecidableEq, Repr

structure Parsing where
  stack : List Frame
  mode : Mode
  deriving DecidableEq, Repr

namespace Parsing

open Setlist.Frame

def operand (stack : List Frame) : Token → Option Parsing
  | .opening => some ⟨.opening :: stack, .operand⟩
  | .not => some ⟨.not :: stack, .operand⟩
  | .name name => some ⟨stack, .after (.name name)⟩
  | .datum value => some ⟨stack, .after (.datum value)⟩
  | _ => none

def onto (stack : List Frame) (term : Term) (strength : Nat) (frame : Term → Frame) : Parsing :=
  let (rest, left) := reduce strength stack term
  ⟨frame left :: rest, .operand⟩

def after (stack : List Frame) (term : Term) : Token → Option Parsing
  | .opening =>
    match term with
    | .name function => some ⟨.call function :: stack, .operand⟩
    | _ => none
  | .closing =>
    match reduce 0 stack term with
    | (.opening :: rest, whole) => some ⟨rest, .after whole⟩
    | (.call function :: rest, whole) => some ⟨rest, .after (.call function whole)⟩
    | (.callTwo function first :: rest, whole) =>
      some ⟨rest, .after (.callTwo function first whole)⟩
    | _ => none
  | .comma =>
    match reduce 0 stack term with
    | (.call function :: rest, first) => some ⟨.callTwo function first :: rest, .operand⟩
    | _ => none
  | .and =>
    match reduce 2 stack term with
    | (.between value :: rest, low) => some ⟨.upTo value low :: rest, .operand⟩
    | (rest, right) => some (onto rest right 1 .and)
  | .or => some (onto stack term 0 .or)
  | .is => some (onto stack term 3 .is)
  | .sign sign => some (onto stack term sign.strength (.compare sign))
  | .like => some (onto stack term 3 (.like false))
  | .between => some (onto stack term 3 .between)
  | .escape =>
    match reduce 4 stack term with
    | (.like negated value :: rest, pattern) =>
      some ⟨.escape negated value pattern :: rest, .operand⟩
    | _ => none
  | .not =>
    let (rest, left) := reduce 3 stack term
    some ⟨rest, .unlike left⟩
  | _ => none

def step (parsing : Parsing) (token : Token) : Option Parsing :=
  match parsing.mode with
  | .operand => operand parsing.stack token
  | .after term => after parsing.stack term token
  | .unlike term =>
    if token = .like then some ⟨.like true term :: parsing.stack, .operand⟩ else none

def run (tokens : List Token) (parsing : Parsing) : Option Parsing := tokens.foldlM step parsing

end Parsing

namespace Term

def ofTruth (truth : Truth) : Cell := truth.map fun b => .integer (if b then 1 else 0)

/-- Numbers other than zero are true. A text is never tested by itself. -/
def truthOf : Cell → Truth
  | none => none
  | some (.integer value) => some (value != 0)
  | some (.real value) => some (value.units != 0)
  | some (.text _) => some false

def comparison (sign : Sign) (left right : Cell) : Truth :=
  right.bind (Condition.compares sign.holds left)

/-- The value of a term, given those of the columns. -/
def value (read : String → Cell) : Term → Cell
  | datum value => value
  | name column => read column
  | call function argument =>
    if function = "date" then (argument.value read).bind Condition.day else none
  | callTwo function first second =>
    if function = "COALESCE" then (first.value read).or (second.value read) else none
  | not term => ofTruth (truthOf (term.value read)).not
  | and left right => ofTruth ((truthOf (left.value read)).and (truthOf (right.value read)))
  | or left right => ofTruth ((truthOf (left.value read)).or (truthOf (right.value read)))
  | is left right => ofTruth (some (Cell.compare (left.value read) (right.value read) == .eq))
  | compare sign left right =>
    ofTruth (comparison sign (left.value read) (right.value read))
  | like negated value pattern escape =>
    let fits : Truth := (pattern.value read).bind (Condition.fits (value.value read))
    if escape.value read = some (.text "\\") then ofTruth (if negated then fits.not else fits)
    else none
  | between value low high =>
    ofTruth ((comparison .atLeast (value.value read) (low.value read)).and
      (comparison .atMost (value.value read) (high.value read)))

def truth (read : String → Cell) (term : Term) : Truth := truthOf (term.value read)

end Term

/-- A column of the joined tables; what is not joined is null. -/
def Row.named (row : Row) : String → Cell
  | "s.title_folded" => some (.text row.song.titleFolded)
  | "s.length" => some (.real row.song.length)
  | "s.track" => row.song.track.map .integer
  | "s.disc" => some (.integer row.song.disc)
  | "s.created_at" => some (.text row.song.createdAt)
  | "s.updated_at" => some (.text row.song.updatedAt)
  | "al.name_folded" => row.album.map fun album => .text album.nameFolded
  | "ar.name_folded" => row.artist.map fun artist => .text artist.nameFolded
  | "i.play_count" => row.interaction.map fun interaction => .integer interaction.playCount
  | "i.updated_at" => row.interaction.map fun interaction => .text interaction.updatedAt
  | _ => none

end Setlist
