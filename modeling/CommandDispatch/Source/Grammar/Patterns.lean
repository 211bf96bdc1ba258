import CommandDispatch.Source.Grammar.Types

/-!
# Patterns
-/

namespace CommandDispatch.Source.Grammar

open CommandDispatch.Source.Parser

def choiceAhead (ts : Tokens) : Bool :=
  marksAhead "|" ts && !marksAhead "||" ts && !marksAhead "|=" ts

def patterns (g : Grammar) : Parser Pattern := do
  let leading ← mark? "|"
  let first ← g.pattern
  let more ← repeatWhile choiceAhead do
    mark "|"
    g.pattern
  return if leading || !more.isEmpty then .other else first

/-- The tokens end a pattern, so that a range before them is open. -/
def rangeEnd (ts : Tokens) : Bool :=
  ts.isEmpty || marksAhead "|" ts || marksAhead "=" ts ||
    (marksAhead ":" ts && !marksAhead "::" ts) || marksAhead "," ts || marksAhead ";" ts ||
      wordAhead "if" ts

/-- Reads the end of a range, if there is one, and says whether there is. -/
def rangeBound (g : Grammar) : Parser Bool := do
  let ts ← get
  if rangeEnd ts then return false
  if literalAhead ts then discard literal
  else if pathAhead ts || marksAhead "<" ts then discard <| g.qualifiedPath .expression
  else
    word "const"
    discard g.attributedBlock
  return true

/-- Reads the marks of a range, and says whether the end belongs to it. -/
def rangeMark : Parser Bool := do
  if ← mark? "..=" then return true
  if ← mark? "..." then return true
  mark ".."
  return false

/-- Reads a range after its start. A range that contains its end has one. -/
def rangeAfterStart (g : Grammar) : Parser Pattern := do
  let isClosed ← rangeMark
  let hasEnd ← g.rangeBound
  require (hasEnd || !isClosed)
  return if hasEnd then .other else .openRange

/-- Reads the pattern of a field: a name that may be bound in several ways, or a name or a number
with a pattern. -/
def fieldPattern (g : Grammar) : Parser Unit := do
  let isBox ← word? "box"
  if isBox then g.unlaid
  let isRef ← word? "ref"
  let isMut ← word? "mut"
  if isBox || isRef || isMut then discard name
  else
    let isNamed ← member
    if !isNamed || (← ahead (marksAhead ":")) then
      mark ":"
      discard g.patterns

/-- Reads the patterns of fields; the mark for the remaining ones is the last. -/
def fieldPatterns (g : Grammar) : (steps : Nat) → Parser Unit
  | 0 => failure
  | steps + 1 => do
    if ← ahead List.isEmpty then return
    discard g.outerAttributes
    if ← mark? ".." then require (← ahead List.isEmpty)
    else
      g.fieldPattern
      if ← ahead List.isEmpty then return
      mark ","
      g.fieldPatterns steps

/-- Reads a pattern that starts with a path: a macro, the fields of a structure, the elements of a
tuple, or a range. -/
def pathPattern (g : Grammar) : Parser Pattern := do
  let (isQualified, path) ← g.qualifiedPath .expression
  let ts ← get
  if !isQualified && marksAhead "!" ts && !marksAhead "!=" ts && hasWordsOnly path then
    mark "!"
    discard anyGroup
    return .other
  if groupAhead .brace ts then
    inside .brace do
      g.fieldPatterns ((← get).length + 1)
    return .other
  if groupAhead .parenthesis ts then
    discard <| inside .parenthesis (commaList g.patterns)
    return .other
  if marksAhead ".." ts then g.rangeAfterStart else return .other

/-- Reads a name to bind, and perhaps a pattern that it must match. -/
def namePattern (g : Grammar) : Parser Pattern := do
  discard <| word? "ref"
  discard <| word? "mut"
  let text ← if ← ahead (wordAhead "self") then anyWord else name
  if ← mark? "@" then discard g.pattern
  return .name text

/-- A name is not a pattern by itself if it goes on like a path, or if a group or a range
follows. -/
def pathPatternAhead (ts : Tokens) : Bool :=
  let next := ts.drop 1
  (nameAhead ts && (marksAhead "::" next || marksAhead "!" next || groupAhead .brace next ||
    groupAhead .parenthesis next || marksAhead ".." next)) ||
  (wordAhead "self" ts && marksAhead "::" next) || marksAhead "::" ts || marksAhead "<" ts ||
  wordsAhead ["Self", "super", "crate"] ts

def patternRule (g : Grammar) : Parser Pattern := do
  let ts ← get
  if pathPatternAhead ts then g.pathPattern
  else if ← word? "_" then return .other
  else if ← word? "box" then
    g.unlaid
    discard g.pattern
    return .other
  else if marksAhead "-" ts || literalAhead ts || wordAhead "const" ts then
    require (← g.rangeBound)
    if ← ahead (marksAhead "..") then g.rangeAfterStart else return .other
  else if wordsAhead ["ref", "mut", "self"] ts || nameAhead ts then g.namePattern
  else if ← mark? "&" then
    discard <| word? "mut"
    discard g.pattern
    return .other
  else if groupAhead .parenthesis ts then
    discard <| inside .parenthesis (commaList g.patterns)
    return .other
  else if groupAhead .bracket ts then
    let elements ← inside .bracket (commaList g.patterns)
    require (!elements.contains .openRange)
    return .other
  else
    require (marksAhead ".." ts && !marksAhead "..." ts)
    let isClosed ← rangeMark
    let hasEnd ← g.rangeBound
    require (hasEnd || !isClosed)
    return if hasEnd then .openRange else .other

end CommandDispatch.Source.Grammar
