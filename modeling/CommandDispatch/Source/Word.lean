import CommandDispatch.Text.WordCharacter

/-!
# Words of source text

A word begins with a letter or an underscore and goes on with letters, digits and marks that join
them.
-/

namespace CommandDispatch.Source

open Text

def isWordStart (c : Char) : Bool :=
  c.isAlpha || c == '_' || (128 ≤ c.toNat && CharSet.contains wordStart c)

def isWordPart (c : Char) : Bool :=
  c.isAlphanum || c == '_' ||
    (128 ≤ c.toNat && (CharSet.contains wordStart c || CharSet.contains wordExtra c))

/-- The word at the start of a text, and what follows it. -/
def takeWord : List Char → Option (List Char × List Char)
  | [] => none
  | c :: rest =>
    if isWordStart c then some (c :: rest.takeWhile isWordPart, rest.dropWhile isWordPart)
    else none

/-- The text is one word. -/
def isWord (text : String) : Bool :=
  takeWord text.toList == some (text.toList, [])

def dropWord (s : List Char) : List Char :=
  match takeWord s with
  | some (_, rest) => rest
  | none => s

end CommandDispatch.Source
