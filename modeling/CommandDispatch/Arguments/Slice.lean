import Std.Data.ExtTreeMap
import CommandDispatch.Text.Case
import CommandDispatch.Arguments.Error

/-!
# Cutting a list of tokens into flags and positionals

The tokens are read one by one. Before the first token without a leading hyphen every token is a
flag, from it on every token is a positional. A value that starts with a quote mark is a literal,
which goes on over the following tokens until one ends with the same mark; meanwhile the tokens are
pieces of the literal and nothing else.

The reading is a fold of `Progress.read` over the tokens, so that what has been read never depends
on what follows.
-/

namespace CommandDispatch.Arguments

open Text

abbrev FlagMap := Std.ExtTreeMap String String

/-- The flags and the positionals of a list of tokens. -/
structure Sliced where
  flags : FlagMap
  positionals : List String

/-- The value of a flag that is given none. -/
def impliedValue : String := "true"

/-- Where a value goes when it is complete. -/
inductive Destination where
  | flag (key : String)
  | positional
deriving Repr, DecidableEq

/-- A literal that is not closed yet: its quote mark, where its value goes, and its text so far. -/
structure OpenLiteral where
  mark : Char
  destination : Destination
  text : List Char
deriving Repr, DecidableEq

/-- What has been read. -/
structure Progress where
  flags : FlagMap := ∅
  positionals : List String := []
  /-- A token without a leading hyphen has been seen. -/
  positionalsOnly : Bool := false
  literal : Option OpenLiteral := none

def isQuoteMark (c : Char) : Bool :=
  c == '"' || c == '\''

/-- How a piece of text goes on inside a literal with the given mark. -/
inductive Piece where
  /-- The mark does not occur. -/
  | continues
  /-- The mark occurs once, as the last character, after this text. -/
  | closes (text : List Char)
  /-- The mark occurs before the last character. -/
  | misplaced
deriving Repr, DecidableEq

/-- Classifies a piece of text inside a literal. -/
def Piece.of (mark : Char) (s : List Char) : Piece :=
  if mark ∉ s then continues
  else if mark ∉ s.dropLast then closes s.dropLast
  else misplaced

namespace Progress

def store (p : Progress) (value : List Char) : Destination → Progress
  | .flag key => { p with flags := p.flags.insert key (String.ofList value) }
  | .positional => { p with positionals := p.positionals ++ [String.ofList value] }

/-- Goes on with a literal: `text` is what it held before, with the space that joins it to `s`. -/
def extend (p : Progress) (mark : Char) (text s : List Char) (d : Destination) :
    Except TokenizeError Progress :=
  match Piece.of mark s with
  | .continues => .ok { p with literal := some ⟨mark, d, text ++ s⟩ }
  | .closes before => .ok ({ p with literal := none }.store (text ++ before) d)
  | .misplaced => .error (.misplacedQuote (String.ofList s))

/-- Begins a value: a literal if it starts with a quote mark, else the text itself. -/
def begin (p : Progress) (value : List Char) (d : Destination) : Except TokenizeError Progress :=
  match value with
  | [] => .ok (p.store [] d)
  | c :: rest => if isQuoteMark c then p.extend c [] rest d else .ok (p.store value d)

/-- Cuts the body of a flag at its first equals sign. -/
def splitBody (body : List Char) : Except TokenizeError (List Char × Option (List Char)) :=
  let key := body.takeWhile (· != '=')
  match body.dropWhile (· != '=') with
  | [] => if key.isEmpty then .error .emptyFlagName else .ok (key, none)
  | _ :: value =>
    if '=' ∈ value then .error (.invalidFlagFormat (String.ofList body))
    else if key.isEmpty then .error .emptyFlagName
    else .ok (key, some value)

def imply (p : Progress) (keys : List Char) : Progress :=
  keys.foldl (fun q c => q.store impliedValue.toList (.flag (String.ofList (lowerChar c)))) p

/-- Reads a flag after its one hyphen: every character is a flag, and the last takes the value. -/
def readShort (p : Progress) (body : List Char) : Except TokenizeError Progress := do
  let (key, value) ← splitBody body
  match key.getLast? with
  | none => .error .emptyFlagName
  | some last =>
    (p.imply key.dropLast).begin (value.getD impliedValue.toList)
      (.flag (String.ofList (lowerChar last)))

def readLong (p : Progress) (body : List Char) : Except TokenizeError Progress := do
  let (key, value) ← splitBody body
  p.begin (value.getD impliedValue.toList) (.flag (String.ofList (lowerChars key)))

/-- Reads a token outside literals. -/
def readGroup (p : Progress) (token : List Char) : Except TokenizeError Progress :=
  if p.positionalsOnly then p.begin token .positional
  else
    match (token.takeWhile (· == '-')).length with
    | 0 => { p with positionalsOnly := true }.begin token .positional
    | 1 => p.readShort (token.drop 1)
    | 2 => p.readLong (token.drop 2)
    | _ => .error (.hyphenCount (String.ofList token))

def read (p : Progress) (token : String) : Except TokenizeError Progress :=
  match p.literal with
  | some l => p.extend l.mark (l.text ++ [' ']) token.toList l.destination
  | none => p.readGroup token.toList

/-- The result when the tokens end here. -/
def finish (p : Progress) : Except TokenizeError Sliced :=
  match p.literal with
  | some _ => .error .unterminatedString
  | none => .ok ⟨p.flags, p.positionals⟩

end Progress

def slice (tokens : List String) : Except TokenizeError Sliced := do
  (← tokens.foldlM Progress.read {}).finish

end CommandDispatch.Arguments
