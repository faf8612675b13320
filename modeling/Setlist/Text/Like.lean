import Setlist.Text.Fold

/-! # Substring patterns

A literal becomes a pattern in which its own wildcards are escaped, so that a pattern
matches exactly the texts that contain, begin with or end with the literal.
-/

namespace Setlist.Text

/-- Where the literal must stand in the value. -/
inductive MatchKind
  | contains | beginning | ending
  deriving DecidableEq, Repr

structure LikePattern where
  text : String
  deriving DecidableEq, Repr

namespace LikePattern

/-- The characters that a pattern reads as more than themselves. -/
def isSpecial (c : Char) : Bool := c == '%' || c == '_' || c == '\\'

def escape (literal : List Char) : List Char :=
  literal.flatMap fun c => if isSpecial c then ['\\', c] else [c]

def wrap : MatchKind → List Char → List Char
  | .contains, body => '%' :: (body ++ ['%'])
  | .beginning, body => body ++ ['%']
  | .ending, body => '%' :: body

def ofLiteral (kind : MatchKind) (literal : String) : LikePattern :=
  ⟨String.ofList (wrap kind (escape literal.toList))⟩

inductive Token
  | run | one | exactly (c : Char)
  deriving DecidableEq, Repr

/-- An escape with nothing after it leaves a pattern that matches no text. -/
def tokens : List Char → Option (List Token)
  | [] => some []
  | ['\\'] => none
  | '\\' :: c :: rest => (tokens rest).map (.exactly c :: ·)
  | '%' :: rest => (tokens rest).map (.run :: ·)
  | '_' :: rest => (tokens rest).map (.one :: ·)
  | c :: rest => (tokens rest).map (.exactly c :: ·)

def sameLetter (c d : Char) : Bool := c.toLower == d.toLower

/-- Some suffix of the text, the whole and the empty one included, passes the test. -/
def anySuffix (test : List Char → Bool) : List Char → Bool
  | [] => test []
  | c :: rest => test (c :: rest) || anySuffix test rest

def accepts : List Token → List Char → Bool
  | [], text => text.isEmpty
  | .run :: more, text => anySuffix (accepts more) text
  | .one :: more, _ :: rest => accepts more rest
  | .exactly c :: more, d :: rest => sameLetter c d && accepts more rest
  | _ :: _, [] => false

/-- The last two code points of the first plane are no characters and read as the one that
replaces others. -/
def replaced (c : Char) : Char := if c == '\ufffe' || c == '\uffff' then '\ufffd' else c

/-- What matching sees of a pattern or a text, which ends for it at the first NUL. -/
def visible (text : String) : List Char := (text.toList.takeWhile (· != '\x00')).map replaced

def admits (pattern text : String) : Bool :=
  match tokens (visible pattern) with
  | some steps => accepts steps (visible text)
  | none => false

end LikePattern

end Setlist.Text
