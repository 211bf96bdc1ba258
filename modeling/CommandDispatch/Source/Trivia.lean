import CommandDispatch.Text.Blank

/-!
# Blanks and comments of source text

Between tokens stand blanks and comments. Block comments nest. Comments that begin with `///`,
`//!`, `/**` or `/*!` document what they stand at; they are tokens and are not skipped, except for
`////`, `/***` and `/**/`, which are plain.
-/

namespace CommandDispatch.Source

open Text

/-- Blanks of source text: the blanks of text and the marks for the direction of writing. -/
def isSpace (c : Char) : Bool :=
  isBlank c || c == '\u200e' || c == '\u200f'

def beginsWith (s : List Char) (start : String) : Bool :=
  start.toList.isPrefixOf s

/-- Reads the inside of a block comment of the given depth, collecting it in reverse. The result is
what stood before the mark that closes the outermost comment, and what follows the mark. -/
def blockComment : Nat → List Char → List Char → Option (List Char × List Char)
  | depth, inside, '/' :: '*' :: rest => blockComment (depth + 1) ('*' :: '/' :: inside) rest
  | depth, inside, '*' :: '/' :: rest =>
    if depth ≤ 1 then some (inside.reverse, rest)
    else blockComment (depth - 1) ('/' :: '*' :: inside) rest
  | depth, inside, c :: rest => blockComment depth (c :: inside) rest
  | _, _, [] => none

/-- Reads up to the end of the line. A carriage return before the line feed belongs to neither
part. -/
def restOfLine : List Char → List Char × List Char
  | '\r' :: '\n' :: rest => ([], '\n' :: rest)
  | '\n' :: rest => ([], '\n' :: rest)
  | [] => ([], [])
  | c :: rest =>
    let (line, after) := restOfLine rest
    (c :: line, after)

/-- A plain comment begins here, and runs to the end of the line. -/
def beginsLineComment (s : List Char) : Bool :=
  beginsWith s "//" && (!beginsWith s "///" || beginsWith s "////") && !beginsWith s "//!"

/-- A plain block comment begins here. -/
def beginsBlockComment (s : List Char) : Bool :=
  beginsWith s "/*" && (!beginsWith s "/**" || beginsWith s "/***") && !beginsWith s "/*!"

/-- Skips one blank or one plain comment. -/
def skipOne (s : List Char) : Option (List Char) :=
  if beginsLineComment s then some (restOfLine s).2
  else if beginsWith s "/**/" then some (s.drop 4)
  else if beginsBlockComment s then (blockComment 1 [] (s.drop 2)).map (·.2)
  else
    match s with
    | c :: rest => if isSpace c then some rest else none
    | [] => none

/-- Skips blanks and plain comments, at most the given number. -/
def skipUpTo : Nat → List Char → List Char
  | 0, s => s
  | n + 1, s =>
    match skipOne s with
    | some rest => skipUpTo n rest
    | none => s

def noBareReturn : List Char → Bool
  | '\r' :: '\n' :: rest => noBareReturn rest
  | '\r' :: _ => false
  | _ :: rest => noBareReturn rest
  | [] => true

/-- A comment that documents: whether it documents what encloses it, its text, and what follows. -/
def docComment (s : List Char) : Option (Bool × List Char × List Char) := do
  let (inner, text, rest) ←
    if beginsWith s "//!" then
      let (line, rest) := restOfLine (s.drop 3)
      some (true, line, rest)
    else if beginsWith s "/*!" then
      (blockComment 1 [] (s.drop 2)).map fun (inside, rest) => (true, inside.drop 1, rest)
    else if beginsWith s "///" && !beginsWith s "////" then
      let (line, rest) := restOfLine (s.drop 3)
      some (false, line, rest)
    else if beginsWith s "/**" && !beginsWith s "/***" then
      (blockComment 1 [] (s.drop 2)).map fun (inside, rest) => (false, inside.drop 1, rest)
    else none
  if noBareReturn text then some (inner, text, rest) else none

end CommandDispatch.Source
