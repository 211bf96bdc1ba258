import CommandDispatch.Source.Grammar.Basic

/-!
# Types, bounds and generic parameters
-/

namespace CommandDispatch.Source.Grammar

open CommandDispatch.Source.Parser

/-! ## Generic parameters -/

/-- Reads a generic parameter. A type may be left without a name where `mayBeHole` says so. -/
def genericParameter (g : Grammar) (mayBeHole : Bool) : Parser Unit := do
  discard g.outerAttributes
  let atEnd (ts : Tokens) := marksAhead "," ts || marksAhead ">" ts
  if ← ahead lifetimeAhead then
    discard lifetime
    if ← mark? ":" then discard <| chain atEnd "+" lifetime
  else if ← word? "const" then
    discard name
    mark ":"
    discard <| g.type true
    if ← mark? "=" then g.constantArgument
  else if mayBeHole && (← ahead (wordAhead "_")) then discard anyWord
  else
    discard name
    if ← mark? ":" then g.boundsUntil fun ts => atEnd ts || marksAhead "=" ts
    if ← mark? "=" then discard <| g.type true

/-- Reads generic parameters in angle brackets, and says whether there are any. -/
def genericParameters (g : Grammar) : Parser Bool := do
  if ← mark? "<" then
    let parameters ← separatedUntil (marksAhead ">") "," (g.genericParameter true)
    mark ">"
    return !parameters.isEmpty
  else return false

/-- Reads the lifetimes that a type holds for, if they come next, and says whether they do. -/
def boundLifetimes (g : Grammar) : Parser Bool := do
  if ← word? "for" then
    mark "<"
    discard <| separatedUntil (marksAhead ">") "," (g.genericParameter false)
    mark ">"
    return true
  else return false

def predicateEnd (ts : Tokens) : Bool :=
  ts.isEmpty || groupAhead .brace ts || marksAhead "," ts || marksAhead ";" ts ||
    (marksAhead ":" ts && !marksAhead "::" ts) || marksAhead "=" ts

def predicate (g : Grammar) : Parser Unit := do
  let ts ← get
  if lifetimeAhead ts && marksAhead ":" (afterOne ts) then
    discard lifetime
    mark ":"
    discard <| chain predicateEnd "+" lifetime
  else
    discard g.boundLifetimes
    discard <| g.type true
    mark ":"
    g.boundsUntil predicateEnd

/-- Reads conditions on types, if they come next, and says whether they do. -/
def whereClause (g : Grammar) : Parser Bool := do
  if ← word? "where" then
    discard <| chain predicateEnd "," g.predicate
    return true
  else return false

/-! ## Bounds -/

def output (g : Grammar) (allowPlus : Bool) : Parser (Option Ty) := do
  if ← mark? "->" then return some (← g.type allowPlus) else return none

def captures : Parser Unit := do
  word "use"
  mark "<"
  discard <| separatedUntil (marksAhead ">") "," do
    if ← ahead lifetimeAhead then discard lifetime
    else if ← ahead (wordAhead "Self") then discard anyWord
    else discard name
  mark ">"

/-- No generic arguments were given, or an empty list of them. -/
def isPlain : GenericArguments → Bool
  | .none => true
  | .angled _ arguments _ => arguments.isEmpty

/-- Reads the mark of a trait that holds for constants. -/
def constantMark (g : Grammar) (place : BoundPlace) : Parser Unit := do
  if ← ahead (groupAhead .bracket) then
    inside .bracket (word "const")
    require (place != .object)
    g.unlaid
  else if ← word? "const" then
    require (place != .object)
    g.unlaid

/-- Reads a trait as a bound. A trait of functions may have the types that the functions take and
return. -/
def traitBound (g : Grammar) (place : BoundPlace) : Parser Unit := do
  let hasLifetimes ← g.boundLifetimes
  g.constantMark place
  let isOptional ← mark? "?"
  if isOptional && !hasLifetimes then discard g.boundLifetimes
  let trait ← g.path .type
  let ts ← get
  let mayTake := trait.segments.getLast?.all fun s => isPlain s.arguments
  if mayTake && (groupAhead .parenthesis ts ||
      (marksAhead "::" ts && groupAhead .parenthesis (ts.drop 2))) then
    discard <| mark? "::"
    discard <| inside .parenthesis (commaList (g.type true))
    discard <| g.output false

/-- Reads a bound: a lifetime, captured names, or a trait, which may stand in parentheses. -/
def boundRule (g : Grammar) (place : BoundPlace) : Parser BoundKind := do
  if ← ahead lifetimeAhead then
    discard lifetime
    return .other
  if ← ahead (wordAhead "use") then
    require (place == .implementor)
    captures
    return .other
  if ← ahead (groupAhead .parenthesis) then inside .parenthesis (g.traitBound place)
  else g.traitBound place
  return .trait

def boundAhead (place : BoundPlace) (ts : Tokens) : Bool :=
  anyWordAhead ts || marksAhead "::" ts || marksAhead "?" ts || lifetimeAhead ts ||
    groupAhead .parenthesis ts || (place != .object && groupAhead .bracket ts)

/-- Reads further bounds, each after a plus sign; the last sign may stand alone. -/
def moreBounds (g : Grammar) (place : BoundPlace) : Parser (List BoundKind) := do
  let more ← repeatWhile (fun ts => marksAhead "+" ts && boundAhead place (ts.drop 1)) do
    mark "+"
    g.bound place
  discard <| mark? "+"
  return more

/-- Reads further bounds, each after a plus sign that does not stand alone. -/
def furtherBounds (g : Grammar) : Parser Unit :=
  discard <| repeatWhile (marksAhead "+") do
    mark "+"
    g.bound .object

def typeBounds (g : Grammar) (place : BoundPlace) (allowPlus : Bool) : Parser Unit := do
  let first ← g.bound place
  let more ← if allowPlus then g.moreBounds place else pure []
  require ((first :: more).contains .trait)

/-! ## Types -/

def colonAhead (ts : Tokens) : Bool :=
  marksAhead ":" ts && !marksAhead "::" ts

def mutableSelfAhead (ts : Tokens) : Bool :=
  wordAhead "mut" ts && wordAhead "self" (ts.drop 1)

/-- Reads an input of a function's type, which may have a name. Only the first may be called
`self`. -/
def functionTypeInput (g : Grammar) (isFirst : Bool) : Parser Unit := do
  discard g.outerAttributes
  let ts ← get
  if isFirst && mutableSelfAhead ts then
    g.unlaid
    word "mut"
    word "self"
    if ← ahead colonAhead then
      mark ":"
      discard <| g.type true
  else
    let named := (nameAhead ts || wordAhead "_" ts || (isFirst && wordAhead "self" ts)) &&
      colonAhead (ts.drop 1)
    if named then
      discard anyWord
      mark ":"
    if isFirst && !wordAhead "self" ts && (← ahead mutableSelfAhead) then
      g.unlaid
      word "mut"
      word "self"
    else discard <| g.type true

def variadicAhead (ts : Tokens) : Bool :=
  marksAhead "..." ts ||
    ((nameAhead ts || wordAhead "_" ts) && marksAhead ":" (ts.drop 1) &&
      marksAhead "..." (ts.drop 2))

/-- Reads the inputs of a function's type. Only the last may be variadic. -/
def functionTypeInputs (g : Grammar) : (steps : Nat) → (isFirst : Bool) → Parser Unit
  | 0, _ => failure
  | steps + 1, isFirst => do
    if ← ahead List.isEmpty then return
    let before ← get
    discard g.outerAttributes
    if ← ahead variadicAhead then
      if ← ahead anyWordAhead then
        discard anyWord
        mark ":"
      mark "..."
      discard <| mark? ","
      require (← ahead List.isEmpty)
    else
      set before
      g.functionTypeInput isFirst
      if ← ahead List.isEmpty then return
      mark ","
      g.functionTypeInputs steps false

def convention : Parser Bool := do
  if ← word? "extern" then
    match ← get with
    | .literal (.string _) _ :: rest => set rest
    | _ => pure ()
    return true
  else return false

def functionType (g : Grammar) : Parser Unit := do
  discard <| word? "unsafe"
  discard convention
  word "fn"
  inside .parenthesis do
    g.functionTypeInputs ((← get).length + 1) true
  discard <| g.output false

/-- Reads the inside of parentheses as a type: nothing or several types make a tuple. -/
def parenthesized (g : Grammar) : Parser Ty := do
  if ← ahead List.isEmpty then return .tuple []
  if ← ahead lifetimeAhead then
    let before ← get
    g.typeBounds .object true
    return .paren (.other (← since before))
  if ← ahead (marksAhead "?") then
    g.traitBound .object
    return .other []
  let first ← g.type true
  if ← mark? "," then return .tuple (first :: (← commaList (g.type true)))
  else return .paren first

/-- Reads a type that starts with a path: a macro, a value behind traits, or the path itself. -/
def pathType (g : Grammar) (hasLifetimes allowPlus : Bool) : Parser Ty := do
  let before ← get
  let (isQualified, path) ← g.qualifiedPath .type
  if isQualified then return .qualified path (← since before)
  let ts ← get
  if marksAhead "!" ts && !marksAhead "!=" ts && hasWordsOnly path then
    mark "!"
    discard anyGroup
    return .other (← since before)
  if hasLifetimes || (allowPlus && marksAhead "+" ts) then
    if allowPlus && marksAhead "+" ts then discard <| g.moreBounds .object
    return .other (← since before)
  return .path path

/-- Reads a type in brackets: a slice, or an array with its length. -/
def bracketed (g : Grammar) : Parser Ty := do
  let element ← g.type true
  if ← mark? ";" then
    let before ← get
    discard <| g.expression true
    return .array element before
  else return .slice element

/-- The type is a trait, which may have lifetimes that it holds for. -/
def isTrait (g : Grammar) : Ty → Bool
  | .path _ => true
  | .other written => (whole (g.bound .object) written).isSome
  | _ => false

def typeRule (g : Grammar) (allowPlus : Bool) : Parser Ty := do
  let before ← get
  let hasLifetimes ← g.boundLifetimes
  let ts ← get
  let startsFunction := wordsAhead ["fn", "unsafe", "extern"] ts
  if hasLifetimes then
    require (nameAhead ts || startsFunction || wordsAhead ["super", "self", "Self", "crate"] ts)
  if groupAhead .parenthesis ts then
    let type ← inside .parenthesis g.parenthesized
    match type with
    | .other _ =>
      g.furtherBounds
      return .other (← since before)
    | .paren inner =>
      if allowPlus && (← ahead (marksAhead "+")) && g.isTrait inner then
        g.furtherBounds
        return .other (← since before)
      return type
    | _ => return type
  else if startsFunction then
    g.functionType
    return .other (← since before)
  else if pathAhead ts || marksAhead "<" ts then
    g.pathType hasLifetimes allowPlus
  else if ← word? "dyn" then
    if ← mark? "*" then g.unlaid
    g.typeBounds .object allowPlus
    return .other (← since before)
  else if groupAhead .bracket ts then inside .bracket g.bracketed
  else if ← mark? "*" then
    let isMutable ← word? "mut"
    if !isMutable then word "const"
    return .pointer isMutable (← g.type false)
  else if ← mark? "&" then
    let name ← if ← ahead lifetimeAhead then some <$> lifetime else pure none
    let isMutable ← word? "mut"
    return .reference name isMutable (← g.type false)
  else if ← mark? "!" then return .never
  else if ← word? "impl" then
    g.typeBounds .implementor allowPlus
    return .other (← since before)
  else if ← word? "_" then return .hole
  else
    require (lifetimeAhead ts)
    g.typeBounds .object true
    return .other (← since before)

end CommandDispatch.Source.Grammar
