import CommandDispatch.Source.Token

/-!
# Tokens as text

Tokens are written with spaces as types are. In blocks they are written as expressions, where marks
that make up one operator stand together.
-/

namespace CommandDispatch.Source

def Delimiter.marks : Delimiter → String × String
  | parenthesis => ("(", ")")
  | bracket => ("[", "]")
  | brace => ("\x7b ", " \x7d")

/-- Written at once, the two would be read as other tokens. -/
def runsTogether : TokenTree → TokenTree → Bool
  | .word _, .word _ => true
  | .word _, .literal .. => true
  | .word _, .mark c _ => ['\'', '#'].contains c
  | .literal .., .word _ => true
  | .literal .., .literal .. => true
  | .literal .number _, .mark c _ => ['.', '+', '-'].contains c
  | .mark '/' _, .mark c _ => ['/', '*'].contains c
  | _, _ => false

/-- Spaces stand around operators between types, and after commas and semicolons. -/
def isSpacedInType : TokenTree → TokenTree → Bool
  | .mark c _, .mark '=' _ => c != '='
  | _, .mark '=' _ => true
  | _, .mark '+' _ => true
  | .mark '-' _, _ => false
  | _, .mark '-' true => true
  | .mark ':' true, _ => false
  | .mark ':' false, .mark ':' _ => false
  | .mark '>' _, .mark c _ => !(['>', ',', ';', ':'].contains c)
  | .mark c _, _ => [',', '=', '+', ';', '>'].contains c
  | _, _ => false

/-- Marks of one operator stand together, as do a function and its arguments. Marks of two operators
stand apart. -/
def isSpacedInBlock : TokenTree → TokenTree → Bool
  | .mark _ true, _ => false
  | .mark c false, .mark d _ => !([',', ';'].contains d || (c == '?' && d == '.'))
  | .mark '.' false, _ => false
  | _, .mark d _ => !([',', ';', '.', '?', ':'].contains d)
  | .mark .., .group .. => true
  | _, .group .brace _ => true
  | _, .group .. => false
  | _, _ => true

def needsSpace (inBlock : Bool) (t : TokenTree) (next : Option TokenTree) : Bool :=
  next.any fun u =>
    runsTogether t u || (if inBlock then isSpacedInBlock t u else isSpacedInType t u)

mutual

def treeText (inBlock : Bool) : TokenTree → String
  | .word text => text
  | .mark c _ => c.toString
  | .literal _ text => text
  | .group d trees => d.marks.1 ++ tokensText (inBlock || d == .brace) trees ++ d.marks.2

/-- The text of tokens, in a block or in a type. -/
def tokensText (inBlock : Bool) : Tokens → String
  | [] => ""
  | t :: rest =>
    treeText inBlock t ++ (if needsSpace inBlock t rest.head? then " " else "") ++
      tokensText inBlock rest

end

end CommandDispatch.Source
