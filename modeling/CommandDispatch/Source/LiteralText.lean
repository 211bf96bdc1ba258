import CommandDispatch.Source.Token
import CommandDispatch.Source.Word
import CommandDispatch.Source.Trivia

/-!
# Literals of source text

Strings, byte strings, strings for C, single characters and bytes, and numbers, each with an
optional suffix. Strings are read to their value; the other literals only to their end.
-/

namespace CommandDispatch.Source

open Text

/-! ## Escapes -/

def hexValue? (c : Char) : Option Nat :=
  if c.isDigit then some (c.toNat - '0'.toNat)
  else if 'a' ≤ c && c ≤ 'f' then some (c.toNat - 'a'.toNat + 10)
  else if 'A' ≤ c && c ≤ 'F' then some (c.toNat - 'A'.toNat + 10)
  else none

/-- The character of a code point, unless it is a surrogate or too large. -/
def charOfCodePoint? (n : Nat) : Option Char :=
  if n.isValidChar then some (Char.ofNat n) else none

/-- Reads the digits of a code point escape up to its closing brace. There are one to six digits,
and underscores after the first. -/
def codePointDigits : (value digits : Nat) → List Char → Option (Char × List Char)
  | _, _, [] => none
  | value, digits, c :: rest =>
    if c = '_' && 0 < digits then codePointDigits value digits rest
    else if c = '\x7d' && 0 < digits then (charOfCodePoint? value).map (·, rest)
    else if digits = 6 then none
    else
      match hexValue? c with
      | some d => codePointDigits (16 * value + d) (digits + 1) rest
      | none => none

/-- What a kind of string allows. -/
structure StringRules where
  /-- Characters may be written by their code points, and need not be ASCII. -/
  wide : Bool
  /-- Two-digit escapes reach beyond ASCII. -/
  bytes : Bool
  /-- NUL may occur. -/
  nul : Bool

def plainString : StringRules := ⟨true, false, true⟩

def byteString : StringRules := ⟨false, true, true⟩

def cString : StringRules := ⟨true, true, false⟩

def escapeSequence (rules : StringRules) : List Char → Option (Char × List Char)
  | 'n' :: rest => some ('\n', rest)
  | 'r' :: rest => some ('\r', rest)
  | 't' :: rest => some ('\t', rest)
  | '\\' :: rest => some ('\\', rest)
  | '\'' :: rest => some ('\'', rest)
  | '"' :: rest => some ('"', rest)
  | '0' :: rest => if rules.nul then some ('\x00', rest) else none
  | 'x' :: high :: low :: rest => do
    let h ← hexValue? high
    let l ← hexValue? low
    let value := 16 * h + l
    if (rules.bytes || value < 128) && (rules.nul || value ≠ 0) then
      some (Char.ofNat value, rest)
    else none
  | 'u' :: '\x7b' :: rest => do
    let (c, rest) ← if rules.wide then codePointDigits 0 0 rest else none
    if rules.nul || c ≠ '\x00' then some (c, rest) else none
  | _ => none

/-- The blanks that an escaped line end skips. They must not hold a bare carriage return, and
something must follow them. -/
def skipLineStart : List Char → Option (List Char)
  | '\r' :: '\n' :: rest => skipLineStart rest
  | '\r' :: _ => none
  | c :: rest => if c = ' ' || c = '\t' || c = '\n' then skipLineStart rest else some (c :: rest)
  | [] => none

/-- Reads the inside of a string up to its closing mark, collecting its value in reverse. Each step
reads at least one character. -/
def stringBody (rules : StringRules) :
    (steps : Nat) → (value : List Char) → List Char → Option (List Char × List Char)
  | 0, _, _ => none
  | steps + 1, value, s =>
    match s with
    | '"' :: rest => some (value.reverse, rest)
    | '\r' :: '\n' :: rest => stringBody rules steps ('\n' :: value) rest
    | '\r' :: _ => none
    | '\\' :: '\n' :: rest => do stringBody rules steps value (← skipLineStart ('\n' :: rest))
    | '\\' :: '\r' :: rest => do stringBody rules steps value (← skipLineStart ('\r' :: rest))
    | '\\' :: rest => do
      let (c, rest) ← escapeSequence rules rest
      stringBody rules steps (c :: value) rest
    | c :: rest =>
      if (rules.wide || c.toNat < 128) && (rules.nul || c ≠ '\x00') then
        stringBody rules steps (c :: value) rest
      else none
    | [] => none

/-- Reads a string after its opening mark: its value and what follows the closing mark. -/
def cookedString (rules : StringRules) (s : List Char) : Option (List Char × List Char) :=
  stringBody rules (s.length + 1) [] s

/-! ## Raw strings -/

/-- Reads the inside of a raw string that a mark and the given number of hashes close. -/
def rawBody (rules : StringRules) (hashes : Nat) :
    (value : List Char) → List Char → Option (List Char × List Char)
  | _, [] => none
  | value, '\r' :: '\n' :: rest => rawBody rules hashes ('\n' :: '\r' :: value) rest
  | _, '\r' :: _ => none
  | value, c :: rest =>
    if c = '"' && (List.replicate hashes '#').isPrefixOf rest then
      some (value.reverse, rest.drop hashes)
    else if (rules.wide || c.toNat < 128) && (rules.nul || c ≠ '\x00') then
      rawBody rules hashes (c :: value) rest
    else none

/-- Reads a raw string after its prefix: hashes, an opening mark, and the inside. -/
def rawString (rules : StringRules) (s : List Char) : Option (List Char × List Char) :=
  let hashes := (s.takeWhile (· == '#')).length
  match s.drop hashes with
  | '"' :: rest => if hashes ≤ 255 then rawBody rules hashes [] rest else none
  | _ => none

/-! ## Single characters -/

def singleCharacter (rules : StringRules) : List Char → Option (List Char)
  | '\\' :: rest => do
    match ← escapeSequence rules rest with
    | (_, '\'' :: rest) => some rest
    | _ => none
  | c :: '\'' :: rest => if rules.wide || c.toNat < 128 then some rest else none
  | _ => none

/-! ## Numbers -/

/-- The text does not go on with a word. -/
def wordEnds (s : List Char) : Bool :=
  match s with
  | c :: _ => !isWordPart c
  | [] => true

/-- Skips a suffix, after which the word must end. -/
def numberEnd (s : List Char) : Option (List Char) :=
  let rest := dropWord s
  if wordEnds rest then some rest else none

/-- Digits of a number, which underscores may separate. -/
def isNumberPart (c : Char) : Bool :=
  c.isDigit || c == '_'

/-- What stands after a sign, if there is one. -/
def unsigned : List Char → List Char
  | '+' :: rest => rest
  | '-' :: rest => rest
  | rest => rest

/-- Reads an exponent after its mark, if it has a digit: signs may stand only before the first
digit, and at most one. -/
def exponentPart (s : List Char) : Option (List Char) :=
  let digits := unsigned (s.dropWhile (· == '_'))
  if (digits.takeWhile isNumberPart).any Char.isDigit then some (digits.dropWhile isNumberPart)
  else none

/-- Reads the exponent that may stand after the digits behind a point. -/
def optionalExponent (s : List Char) : List Char :=
  match s with
  | mark :: after =>
    if mark = 'e' || mark = 'E' then (exponentPart after).getD (mark :: after) else mark :: after
  | [] => []

/-- Reads what makes a number of digits one with a point or an exponent. The point must not begin a
range or a field. -/
def afterDigits : List Char → Option (List Char)
  | '.' :: rest =>
    if rest.head?.any (fun c => c == '.' || isWordStart c) then none
    else some (optionalExponent (rest.dropWhile isNumberPart))
  | mark :: after => if mark = 'e' || mark = 'E' then exponentPart after else none
  | [] => none

/-- Reads a number with a point or an exponent. -/
def floatDigits (s : List Char) : Option (List Char) :=
  match s with
  | [] => none
  | first :: _ => if !first.isDigit then none else afterDigits (s.dropWhile isNumberPart)

/-- Reads digits of the given base, at least one. A decimal digit that the base lacks is an error;
a letter that it lacks ends the number. -/
def digitsOfBase (base : Nat) : (seen : Bool) → List Char → Option (List Char)
  | seen, [] => if seen then some [] else none
  | seen, c :: rest =>
    if c.isDigit then
      if c.toNat - '0'.toNat < base then digitsOfBase base true rest else none
    else if c = '_' then
      if !seen && base = 10 then none else digitsOfBase base seen rest
    else if (hexValue? c).any (· < base) then digitsOfBase base true rest
    else if seen then some (c :: rest)
    else none

def integerDigits (s : List Char) : Option (List Char) :=
  match s with
  | '0' :: 'x' :: rest => digitsOfBase 16 false rest
  | '0' :: 'o' :: rest => digitsOfBase 8 false rest
  | '0' :: 'b' :: rest => digitsOfBase 2 false rest
  | s => digitsOfBase 10 false s

def numberLiteral (s : List Char) : Option (List Char) :=
  match (floatDigits s).bind numberEnd with
  | some rest => some rest
  | none => (integerDigits s).bind numberEnd

/-! ## Any literal -/

/-- The reading of a string with its suffix. -/
def asString (read : Option (List Char × List Char)) : Option (Literal × List Char) :=
  read.map fun (value, rest) => (.string (String.ofList value), dropWord rest)

/-- The reading of a literal whose value is not kept, with its suffix. -/
def asOther (read : Option (List Char × List Char)) : Option (Literal × List Char) :=
  read.map fun (_, rest) => (.other, dropWord rest)

/-- Reads the literal at the start of a text: what it is, and what follows it. -/
def takeLiteral (s : List Char) : Option (Literal × List Char) :=
  let quoted :=
    match s with
    | '"' :: rest => asString (cookedString plainString rest)
    | 'r' :: rest => asString (rawString plainString rest)
    | 'b' :: '"' :: rest => asOther (cookedString byteString rest)
    | 'b' :: 'r' :: rest => asOther (rawString byteString rest)
    | 'c' :: '"' :: rest => asOther (cookedString cString rest)
    | 'c' :: 'r' :: rest => asOther (rawString cString rest)
    | 'b' :: '\'' :: rest => (singleCharacter byteString rest).map fun r => (.other, dropWord r)
    | '\'' :: rest => (singleCharacter plainString rest).map fun r => (.other, dropWord r)
    | _ => none
  match quoted with
  | some found => some found
  | none => (numberLiteral s).map (.number, ·)

end CommandDispatch.Source
