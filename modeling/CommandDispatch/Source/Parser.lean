import CommandDispatch.Source.Syntax

/-!
# Readers of tokens

A reader takes tokens from the start of a sequence, or refuses. Alternatives are tried from the same
start. Groups are entered as a whole: what a reader leaves of the inside of a group is refused.
-/

namespace CommandDispatch.Source

/-- A reader of tokens. -/
abbrev Parser (α : Type) := StateT Tokens Option α

namespace Parser

/-- Matches punctuation marks that belong together, and gives what follows them. -/
def matchMarks : List Char → Tokens → Option Tokens
  | [], ts => some ts
  | [c], .mark d _ :: ts => if c = d then some ts else none
  | c :: cs, .mark d joint :: ts => if c = d && joint then matchMarks cs ts else none
  | _, _ => none

def marksAhead (m : String) (ts : Tokens) : Bool :=
  (matchMarks m.toList ts).isSome

def wordAhead (w : String) : Tokens → Bool
  | .word text :: _ => text == w
  | _ => false

def nameAhead : Tokens → Bool
  | .word text :: _ => !reservedWords.contains text
  | _ => false

def anyWordAhead : Tokens → Bool
  | .word _ :: _ => true
  | _ => false

def wordsAhead (ws : List String) (ts : Tokens) : Bool :=
  ws.any (wordAhead · ts)

def groupAhead (d : Delimiter) : Tokens → Bool
  | .group e _ :: _ => d == e
  | _ => false

def lifetimeAhead : Tokens → Bool
  | .mark '\'' true :: .word _ :: _ => true
  | _ => false

/-- The tokens begin with a literal; the two truth values are literals, and a minus sign may stand
before a number. -/
def literalAhead : Tokens → Bool
  | .literal _ _ :: _ => true
  | .mark '-' _ :: .literal .number _ :: _ => true
  | ts => wordsAhead ["true", "false"] ts

/-- The tokens that follow the first one; a lifetime counts as one. -/
def afterOne (ts : Tokens) : Tokens :=
  if lifetimeAhead ts then ts.drop 2 else ts.drop 1

def ahead (test : Tokens → Bool) : Parser Bool := do
  return test (← get)

/-- Refuses unless the condition holds. -/
def require (condition : Bool) : Parser Unit :=
  if condition then pure () else failure

def mark (m : String) : Parser Unit := do
  match matchMarks m.toList (← get) with
  | some rest => set rest
  | none => failure

def mark? (m : String) : Parser Bool := do
  match matchMarks m.toList (← get) with
  | some rest => set rest; return true
  | none => return false

def anyWord : Parser String := do
  match ← get with
  | .word text :: rest => set rest; return text
  | _ => failure

def name : Parser String := do
  require (← ahead nameAhead)
  anyWord

def word (w : String) : Parser Unit := do
  require (← ahead (wordAhead w))
  discard anyWord

def word? (w : String) : Parser Bool := do
  if ← ahead (wordAhead w) then
    word w
    return true
  else return false

def lifetime : Parser String := do
  match ← get with
  | .mark '\'' true :: .word text :: rest => set rest; return text
  | _ => failure

/-- Reads a literal, and gives its value if it is a string. -/
def literal : Parser (Option String) := do
  match ← get with
  | .literal (.string value) _ :: rest => set rest; return some value
  | .literal _ _ :: rest => set rest; return none
  | .mark '-' _ :: .literal .number _ :: rest => set rest; return none
  | .word text :: rest =>
    require (text == "true" || text == "false")
    set rest
    return none
  | _ => failure

/-- Reads all of a sequence of tokens. -/
def whole {α : Type} (p : Parser α) (ts : Tokens) : Option α :=
  match p.run ts with
  | some (a, []) => some a
  | _ => none

/-- Reads a group, all of its inside by the given reader. -/
def inside {α : Type} (d : Delimiter) (p : Parser α) : Parser α := do
  match ← get with
  | .group e trees :: rest =>
    require (d == e)
    match whole p trees with
    | some a => set rest; return a
    | none => failure
  | _ => failure

def skipGroup (d : Delimiter) : Parser Unit := do
  require (← ahead (groupAhead d))
  modify (·.drop 1)

def anyGroup : Parser Delimiter := do
  match ← get with
  | .group d _ :: rest => set rest; return d
  | _ => failure

/-! ## Sequences -/

/-- Reads items until the test holds, each but the last followed by the separating marks; these may
also follow the last one. Each item takes at least one token. -/
def separatedSteps {α : Type} (done : Tokens → Bool) (separator : String) (item : Parser α) :
    Nat → Parser (List α)
  | 0 => failure
  | steps + 1 => do
    if ← ahead done then return []
    let a ← item
    if ← ahead done then return [a]
    mark separator
    return a :: (← separatedSteps done separator item steps)

/-- Reads items until the test holds, with separating marks between them. -/
def separatedUntil {α : Type} (done : Tokens → Bool) (separator : String) (item : Parser α) :
    Parser (List α) := do
  separatedSteps done separator item ((← get).length + 1)

def commaList {α : Type} (item : Parser α) : Parser (List α) :=
  separatedUntil List.isEmpty "," item

/-- Reads items as long as separating marks follow, or until the test holds. -/
def chainSteps {α : Type} (done : Tokens → Bool) (separator : String) (item : Parser α) :
    Nat → Parser (List α)
  | 0 => failure
  | steps + 1 => do
    if ← ahead done then return []
    let a ← item
    if ← mark? separator then return a :: (← chainSteps done separator item steps)
    else return [a]

/-- Reads items as long as separating marks follow, or until the test holds. -/
def chain {α : Type} (done : Tokens → Bool) (separator : String) (item : Parser α) :
    Parser (List α) := do
  chainSteps done separator item ((← get).length + 1)

def repeatSteps {α : Type} (going : Tokens → Bool) (item : Parser α) : Nat → Parser (List α)
  | 0 => failure
  | steps + 1 => do
    if ← ahead going then
      let a ← item
      return a :: (← repeatSteps going item steps)
    else return []

/-- Reads items as long as the test holds. -/
def repeatWhile {α : Type} (going : Tokens → Bool) (item : Parser α) : Parser (List α) := do
  repeatSteps going item ((← get).length + 1)

end Parser

end CommandDispatch.Source
