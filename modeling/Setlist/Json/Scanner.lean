import Setlist.Json.Value

/-! # JSON tokens

A text is read one character at a time by an automaton whose state says what the last
characters have begun. The tokens follow from the grammar alone: a number out of all ranges
and a string with half of a pair of code units are tokens that have no value.
-/

namespace Setlist

namespace Json

inductive Token
  | mark (c : Char)
  | scalar (value : Option Json)
  | quoted (value : Option String)

def isMark (c : Char) : Bool :=
  c == '[' || c == ']' || c == '\x7b' || c == '\x7d' || c == ',' || c == ':'

def isSpace (c : Char) : Bool := c == ' ' || c == '\t' || c == '\n' || c == '\r'

/-- No plus sign, no superfluous zero in front, and a digit on both sides of a point. -/
def admitsNumeral (n : Numeral) : Bool :=
  n.sign != some '+' && !n.whole.isEmpty &&
  (n.whole.length == 1 || n.whole.head? != some '0') && n.fraction != some []

/-- An integer of the two 64-bit ranges stays one, except for the negative zero. -/
def numberOfNumeral (n : Numeral) : Option JsonNumber :=
  let magnitude : Int := digitsValue n.whole
  let value := if n.isNegative then -magnitude else magnitude
  if n.isInteger ∧ JsonNumber.minInteger ≤ value ∧ value ≤ JsonNumber.maxInteger ∧
      ¬(n.isNegative ∧ value = 0) then
    some (.integer value)
  else if n.toBinary64.isFinite then some (.real n.toBinary64)
  else none

def number? (word : List Char) : Option (Option JsonNumber) :=
  ((Numeral.read? word).filter admitsNumeral).map numberOfNumeral

/-- The scalar that an unquoted word stands for. -/
def scalarOfWord (word : List Char) : Option Token :=
  if word = "null".toList then some (.scalar (some .null))
  else if word = "true".toList then some (.scalar (some (.bool true)))
  else if word = "false".toList then some (.scalar (some (.bool false)))
  else (number? word).map fun value => .scalar (value.map .number)

def isHighHalf (unit : Nat) : Bool := 0xD800 ≤ unit && unit < 0xDC00

def isLowHalf (unit : Nat) : Bool := 0xDC00 ≤ unit && unit < 0xE000

/-- The characters of a string, given by code points and by halves of pairs. A half that is
not part of a pair is no character. -/
def assemble : List Nat → Option (List Char)
  | [] => some []
  | high :: low :: rest =>
    if isHighHalf high then
      if isLowHalf low then
        (assemble rest).map (Char.ofNat (0x10000 + (high - 0xD800) * 0x400 + (low - 0xDC00)) :: ·)
      else none
    else if isLowHalf high then none
    else (assemble (low :: rest)).map (Char.ofNat high :: ·)
  | [unit] => if isHighHalf unit || isLowHalf unit then none else some [Char.ofNat unit]

/-- Characters read so far are kept in reverse, those of a string by their codes. -/
inductive Scan
  | between
  | word (done : List Char)
  | quoted (done : List Nat)
  | escape (done : List Nat)
  | code (done : List Nat) (digits : List Char)

structure Scanner where
  tokens : List Token
  scan : Scan

namespace Scanner

def start : Scanner := ⟨[], .between⟩

def escaped : Char → Option Char
  | '"' => some '"'
  | '\\' => some '\\'
  | '/' => some '/'
  | 'b' => some '\x08'
  | 'f' => some '\x0c'
  | 'n' => some '\n'
  | 'r' => some '\r'
  | 't' => some '\t'
  | _ => none

def begin (tokens : List Token) (c : Char) : Scanner :=
  if isSpace c then ⟨tokens, .between⟩
  else if isMark c then ⟨.mark c :: tokens, .between⟩
  else if c = '"' then ⟨tokens, .quoted []⟩
  else ⟨tokens, .word [c]⟩

def step (s : Scanner) (c : Char) : Option Scanner :=
  match s.scan with
  | .between => some (begin s.tokens c)
  | .word done =>
    if isSpace c || isMark c || c == '"' then
      (scalarOfWord done.reverse).map fun token => begin (token :: s.tokens) c
    else some ⟨s.tokens, .word (c :: done)⟩
  | .quoted done =>
    if c = '"' then
      some ⟨.quoted ((assemble done.reverse).map String.ofList) :: s.tokens, .between⟩
    else if c = '\\' then some ⟨s.tokens, .escape done⟩
    else if c.toNat < 32 then none
    else some ⟨s.tokens, .quoted (c.toNat :: done)⟩
  | .escape done =>
    if c = 'u' then some ⟨s.tokens, .code done []⟩
    else (escaped c).map fun d => ⟨s.tokens, .quoted (d.toNat :: done)⟩
  | .code done digits =>
    if (hexValue c).isNone then none
    else if digits.length < 3 then some ⟨s.tokens, .code done (c :: digits)⟩
    else
      let unit := (c :: digits).reverse.foldl (fun v d => 16 * v + (hexValue d).getD 0) 0
      some ⟨s.tokens, .quoted (unit :: done)⟩

def finish (s : Scanner) : Option (List Token) :=
  match s.scan with
  | .between => some s.tokens.reverse
  | .word done => (scalarOfWord done.reverse).map fun token => (token :: s.tokens).reverse
  | _ => none

end Scanner

def tokens? (text : List Char) : Option (List Token) :=
  (text.foldlM Scanner.step Scanner.start).bind Scanner.finish

end Json

end Setlist
