import CommandDispatch.Source.LiteralText
import CommandDispatch.Text.Quoted

/-!
# From source text to tokens

Tokens are read one after the other; delimiters that enclose tokens are matched on the way. A
documenting comment becomes the attribute that it stands for.
-/

namespace CommandDispatch.Source

def markCharacters : List Char :=
  ['~', '!', '@', '#', '$', '%', '^', '&', '*', '-', '=', '+', '|', ';', ':', ',', '<', '.', '>',
    '/', '?', '\'']

/-- Reads a punctuation mark; the slash that begins a comment is none. -/
def takeMark : List Char → Option (Char × List Char)
  | '/' :: '/' :: _ => none
  | '/' :: '*' :: _ => none
  | c :: rest => if markCharacters.contains c then some (c, rest) else none
  | [] => none

/-- Raw names cannot be the words that begin a path. -/
def rawExcluded : List String :=
  ["_", "super", "self", "Self", "crate"]

def takeName (s : List Char) : Option (String × List Char) :=
  match s with
  | 'r' :: '#' :: rest =>
    match takeWord rest with
    | some (word, after) =>
      if rawExcluded.contains (String.ofList word) then none
      else some (String.ofList ('r' :: '#' :: word), after)
    | none => none
  | s => (takeWord s).map fun (word, after) => (String.ofList word, after)

def literalStarts : List String :=
  ["r\"", "r#\"", "r##", "b\"", "b'", "br\"", "br#", "c\"", "cr\"", "cr#"]

/-- Reads a mark together with its neighbourhood. The mark of a lifetime is joined to the name after
it, which no second mark may close. -/
def markToken (s : List Char) : Option (TokenTree × List Char) := do
  let (c, rest) ← takeMark s
  if c = '\'' then
    let (_, after) ← takeName rest
    let closed := after.head? = some '\''
    let hashed := after.head? = some '#' && !beginsWith rest "r#"
    if closed || hashed then none else some (.mark c true, rest)
  else some (.mark c (takeMark rest).isSome, rest)

def leafToken (s : List Char) : Option (TokenTree × List Char) :=
  match takeLiteral s with
  | some (kind, rest) =>
    some (.literal kind (String.ofList (s.take (s.length - rest.length))), rest)
  | none =>
    match markToken s with
    | some found => some found
    | none =>
      if literalStarts.any (beginsWith s) then none
      else (takeName s).map fun (word, rest) => (.word word, rest)

/-- The attribute that a documenting comment stands for. -/
def docAttribute (inner : Bool) (text : List Char) : Tokens :=
  let value := String.ofList text
  let literal := .literal (.string value) (Text.stringLiteral value)
  [.mark '#' false] ++ (if inner then [.mark '!' false] else []) ++
    [.group .bracket [.word "doc", .mark '=' false, literal]]

def opens? : Char → Option Delimiter
  | '(' => some .parenthesis
  | '[' => some .bracket
  | '\x7b' => some .brace
  | _ => none

def closes? : Char → Option Delimiter
  | ')' => some .parenthesis
  | ']' => some .bracket
  | '\x7d' => some .brace
  | _ => none

/-- Reads tokens to the end of the text. `level` holds the tokens read in the innermost group that
is open, last first, and `outer` the groups around it with the tokens before them. Each step reads
at least one character. -/
def readTokens : (steps : Nat) → (level : Tokens) → (outer : List (Delimiter × Tokens)) →
    List Char → Option Tokens
  | 0, _, _, _ => none
  | steps + 1, level, outer, s =>
    let s := skipUpTo steps s
    match docComment s with
    | some (inner, text, rest) =>
      readTokens steps ((docAttribute inner text).reverse ++ level) outer rest
    | none =>
      match s with
      | [] => if outer.isEmpty then some level.reverse else none
      | c :: rest =>
        match opens? c, closes? c with
        | some d, _ => readTokens steps [] ((d, level) :: outer) rest
        | none, some d =>
          match outer with
          | (opened, before) :: further =>
            if opened = d then
              readTokens steps (.group d level.reverse :: before) further rest
            else none
          | [] => none
        | none, none =>
          match leafToken s with
          | some (token, rest) => readTokens steps (token :: level) outer rest
          | none => none

/-- Reads a text as tokens. A byte order mark before it is dropped. -/
def tokenize (s : List Char) : Option Tokens :=
  let s := if s.head? = some '\ufeff' then s.drop 1 else s
  readTokens (s.length + 1) [] [] s

end CommandDispatch.Source
