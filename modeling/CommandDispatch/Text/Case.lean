import CommandDispatch.Text.LowercaseTable
import CommandDispatch.Text.UppercaseTable
import CommandDispatch.Text.CaseContext
import CommandDispatch.Text.CharRange

/-!
# Lower and upper case

Lower-casing maps each character on its own, with one exception: a capital sigma that ends a word
becomes the final sigma. Upper-casing has no exception. Comparison up to the case of ASCII letters
is kept apart from both.
-/

namespace CommandDispatch.Text

def lowerChar (c : Char) : List Char :=
  mapCase lowercaseRuns lowercaseSeveral c

def upperChar (c : Char) : List Char :=
  mapCase uppercaseRuns uppercaseSeveral c

/-- The first character that case does not ignore is a cased letter. -/
def startsCased (s : List Char) : Bool :=
  match s.dropWhile (CharSet.contains caseIgnorable) with
  | [] => false
  | c :: _ => CharSet.contains casedLetter c

/-- The lower-case form of a text, given the characters before it, last first. -/
def lowerAfter : List Char → List Char → List Char
  | _, [] => []
  | before, c :: rest =>
    (if c = 'Σ' then
      if startsCased before && !startsCased rest then ['ς'] else ['σ']
    else lowerChar c) ++ lowerAfter (c :: before) rest

def lowerChars (s : List Char) : List Char :=
  lowerAfter [] s

def lower (s : String) : String :=
  String.ofList (lowerChars s.toList)

def upper (s : String) : String :=
  String.ofList (s.toList.flatMap upperChar)

/-- The two texts differ at most in the case of ASCII letters. -/
def sameUpToAsciiCase (s t : String) : Bool :=
  s.toList.map Char.toLower == t.toList.map Char.toLower

end CommandDispatch.Text
