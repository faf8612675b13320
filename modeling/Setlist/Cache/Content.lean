import Setlist.Cache.Digest
import Setlist.Rule.Expression

/-! # Rule content

What a compiled playlist depends on, as bytes: the user, and of every rule the field name,
the operator and the values. Every list and every text is preceded by its length.
-/

namespace Setlist

namespace Content

/-- A number in eight bytes, the least first; negative ones in two's complement. -/
def wordBytes (value : Int) : List UInt8 := Digest.littleBytes 8 (value % 2 ^ 64).toNat

def countBytes (count : Nat) : List UInt8 := Digest.littleBytes 8 count

def textBytes (text : String) : List UInt8 :=
  let bytes := text.toUTF8.toList
  countBytes bytes.length ++ bytes

def listBytes {α : Type} (bytes : α → List UInt8) (items : List α) : List UInt8 :=
  countBytes items.length ++ items.flatMap bytes

def valueBytes (value : Json) : List UInt8 := textBytes value.text

def ruleBytes (rule : RuleRecord) : List UInt8 :=
  textBytes rule.field.fieldName ++ textBytes rule.operator ++ listBytes valueBytes rule.values

def groupBytes (group : GroupRecord) : List UInt8 := listBytes ruleBytes group.rules

/-- The content of a playlist's rules as one user sees them. -/
def bytes (user : Int) (groups : List GroupRecord) : List UInt8 :=
  wordBytes user ++ listBytes groupBytes groups

def key (user : Int) (groups : List GroupRecord) : Digest := .of (bytes user groups)

end Content

end Setlist
