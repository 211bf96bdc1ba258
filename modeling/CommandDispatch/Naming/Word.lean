/-!
# Words made of numbers

A number stands for a word of the letters `a` to `j`: its hexadecimal digits with the decimal ones
moved onto letters. The digits `0` to `5` share their letters with `a` to `f`, so several numbers
stand for one word.
-/

namespace CommandDispatch.Naming

/-- Numbers are drawn below this bound. -/
def drawRange : Nat := 100000

def letterOf (digit : Char) : Char :=
  if digit.isDigit then Char.ofNat ('a'.toNat + (digit.toNat - '0'.toNat)) else digit

/-- The word of a number; an exported word begins with a capital letter. -/
def wordOf (n : Nat) (exported : Bool) : String :=
  match (Nat.toDigits 16 n).map letterOf with
  | [] => ""
  | c :: rest => String.ofList ((if exported then c.toUpper else c) :: rest)

/-- Words with a meaning of their own in the emitted code. -/
def keywords : List String :=
  [ "abstract", "as", "async", "await", "become", "box", "break", "const", "continue", "crate",
    "do", "dyn", "else", "enum", "extern", "false", "final", "fn", "for", "gen", "if", "impl",
    "in", "let", "loop", "macro", "match", "mod", "move", "mut", "override", "priv", "pub", "ref",
    "return", "self", "Self", "static", "struct", "super", "trait", "true", "try", "type",
    "typeof", "unsafe", "unsized", "use", "virtual", "where", "while", "yield" ]

end CommandDispatch.Naming
