import CommandDispatch.Text.Unprintable
import CommandDispatch.Text.Extender

/-!
# Quoted text

A text is shown between quote marks, with escapes for what cannot be seen or would be misread:
backslashes, quote marks, the usual controls by their letters, and every other character that has
no visible form or extends the one before it by its code point.
-/

namespace CommandDispatch.Text

/-- The lower-case hexadecimal digits of a number, without leading zeros. -/
def hexDigits (n : Nat) : List Char :=
  Nat.toDigits 16 n

def codePointEscape (c : Char) : List Char :=
  ['\\', 'u', '\x7b'] ++ hexDigits c.toNat ++ ['\x7d']

/-- The character is shown as it is, apart from backslashes and quote marks. -/
def isVisible (c : Char) : Bool :=
  !CharSet.contains extender c && !CharSet.contains unprintable c

def escape (c : Char) : List Char :=
  match c with
  | '\x00' => ['\\', '0']
  | '\t' => ['\\', 't']
  | '\r' => ['\\', 'r']
  | '\n' => ['\\', 'n']
  | '\\' => ['\\', '\\']
  | '"' => ['\\', '"']
  | c => if isVisible c then [c] else codePointEscape c

/-- The text between double quotes, each character escaped on its own. -/
def quoted (s : String) : String :=
  String.ofList (['"'] ++ s.toList.flatMap escape ++ ['"'])

/-- The escaped characters of a literal. The escape of NUL is spelled out when an octal digit
follows, where the short form would read as a longer octal escape. -/
def literalBody : List Char → List Char
  | [] => []
  | '\x00' :: rest =>
    (if rest.head?.any (fun d => '0' ≤ d && d ≤ '7') then ['\\', 'x', '0', '0'] else ['\\', '0'])
      ++ literalBody rest
  | c :: rest => escape c ++ literalBody rest

def stringLiteral (s : String) : String :=
  String.ofList (['"'] ++ literalBody s.toList ++ ['"'])

end CommandDispatch.Text
