import Setlist.Text.Letters

/-! # Case folding

Text is compared in lowercase. A capital sigma at the end of a word folds to the final
form, which is decided by its nearest visible neighbours in the unfolded text.
-/

namespace Setlist.Text

/-- The nearest character that is not transparent is a cased letter. -/
def meetsCased (side : List Char) : Bool :=
  match side.dropWhile isTransparent with
  | c :: _ => isCased c
  | [] => false

def lowerForm (c : Char) : List Char :=
  if c = 'İ' then ['i', '\u0307'] else [lowerLetter c]

/-- Folds the rest of a text, given the reverse of what stands before it. -/
def foldAfter (before : List Char) : List Char → List Char
  | [] => []
  | c :: rest =>
    let form :=
      if c = 'Σ' then [if meetsCased before && !meetsCased rest then 'ς' else 'σ']
      else lowerForm c
    form ++ foldAfter (c :: before) rest

def foldChars (text : List Char) : List Char := foldAfter [] text

def fold (text : String) : String := String.ofList (foldChars text.toList)

end Setlist.Text
