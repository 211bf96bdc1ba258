import CommandDispatch.Source.Grammar.Functions

/-!
# Items

Items are what stands at the top level of a file or of a module. All of them are read, since a file
with an item that cannot be read is refused as a whole; functions alone are kept. Forms that the
language does not have yet, such as functions without a body, have no layout.
-/

namespace CommandDispatch.Source.Grammar

open CommandDispatch.Source.Parser

/-- Reads parts to the end of a group. -/
def all {α : Type} (p : Parser α) : Parser (List α) :=
  repeatWhile (!·.isEmpty) p

def nameOrHole : Parser Unit := do
  if !(← word? "_") then discard name

/-- Reads the value of a constant, and says whether it has one. -/
def value (g : Grammar) : Parser Bool := do
  let hasValue ← mark? "="
  if hasValue then discard <| g.expression true
  return hasValue

/-- Reads a macro that is called in place of an item. A semicolon follows unless it has braces. -/
def macroItem (mayHaveName : Bool) : Parser Unit := do
  discard modulePath
  mark "!"
  if mayHaveName && (← ahead fun ts => nameAhead ts || wordAhead "try" ts) then discard anyWord
  let d ← anyGroup
  if d != .brace then mark ";"

def macroAhead (ts : Tokens) : Bool :=
  nameAhead ts || wordsAhead ["self", "super", "crate"] ts || marksAhead "::" ts

/-! ## Types by name -/

/-- Where the conditions on a type by name may stand. -/
inductive ConditionPlace where
  | before
  | after
  | both
deriving DecidableEq

/-- Reads a type by name: its bounds, its conditions, and the type that it stands for. Says whether
it has bounds, and whether it stands for a type. -/
def typeItem (g : Grammar) (mayBeDefault : Bool) (place : ConditionPlace) :
    Parser (Bool × Bool) := do
  discard visibility
  if mayBeDefault then discard <| word? "default"
  word "type"
  discard name
  discard g.genericParameters
  let isBounded ← mark? ":"
  if isBounded then
    g.boundsUntil fun ts => wordAhead "where" ts || marksAhead "=" ts || marksAhead ";" ts
  let conditioned ← if place == .after then pure false else g.whereClause
  let hasType ← mark? "="
  if hasType then discard <| g.type true
  if place != .before && !conditioned then discard g.whereClause
  mark ";"
  return (isBounded, hasType)

/-- Reads a type by name that stands for another one. -/
def aliasItem (g : Grammar) (mayBeDefault : Bool) (place : ConditionPlace) : Parser Unit := do
  let (isBounded, hasType) ← g.typeItem mayBeDefault place
  if isBounded || !hasType then g.unlaid

/-! ## Structures -/

/-- The tokens begin with the fields of a structure or of a union in place of a type. -/
def fieldsAhead (ts : Tokens) : Bool :=
  wordAhead "struct" ts || (wordAhead "union" ts && groupAhead .brace (ts.drop 1))

/-- Reads fields by name in braces. A field without a name may have fields of its own in place of a
type; `depth` bounds how deep they nest. -/
def nestedFields (g : Grammar) : (depth : Nat) → Parser Unit
  | 0 => failure
  | depth + 1 => discard <| inside .brace <| commaList do
    discard g.outerAttributes
    discard visibility
    let isHole ← ahead (wordAhead "_")
    nameOrHole
    mark ":"
    if isHole && (← ahead fieldsAhead) then
      g.unlaid
      discard anyWord
      g.nestedFields depth
    else discard <| g.type true

def plainField (g : Grammar) : Parser Unit := do
  discard g.outerAttributes
  discard visibility
  discard <| g.type true

def namedFields (g : Grammar) : Parser Unit := do
  g.nestedFields (Tokens.size (← get))

def plainFields (g : Grammar) : Parser Unit :=
  discard <| inside .parenthesis (commaList g.plainField)

def structItem (g : Grammar) : Parser Unit := do
  word "struct"
  discard name
  discard g.genericParameters
  let conditioned ← g.whereClause
  if !conditioned && (← ahead (groupAhead .parenthesis)) then
    g.plainFields
    discard g.whereClause
    mark ";"
  else if ← ahead (groupAhead .brace) then g.namedFields
  else mark ";"

def variant (g : Grammar) : Parser Unit := do
  discard g.outerAttributes
  discard visibility
  discard name
  if ← ahead (groupAhead .brace) then g.namedFields
  else if ← ahead (groupAhead .parenthesis) then g.plainFields
  discard g.value

def enumItem (g : Grammar) : Parser Unit := do
  word "enum"
  discard name
  discard g.genericParameters
  discard g.whereClause
  discard <| inside .brace (commaList g.variant)

def unionItem (g : Grammar) : Parser Unit := do
  word "union"
  discard name
  discard g.genericParameters
  discard g.whereClause
  g.namedFields

/-! ## Imports -/

def importedName : Parser Unit := do
  if ← word? "as" then nameOrHole

/-- Reads what an import names: a path that ends in a name, in all names, or in a group. -/
def useTreeRule (g : Grammar) (mayBeGlobal : Bool) : Parser Unit := do
  let ts ← get
  if nameAhead ts || wordsAhead ["self", "super", "crate", "try"] ts then
    discard anyWord
    if ← mark? "::" then g.useTree false else importedName
  else if ← mark? "*" then pure ()
  else
    discard <| inside .brace <| commaList do
      let isGlobal ← if mayBeGlobal then mark? "::" else pure false
      if isGlobal then g.unlaid
      g.useTree (mayBeGlobal && !isGlobal)

def useItem (g : Grammar) : Parser Unit := do
  word "use"
  let isGlobal ← mark? "::"
  g.useTree !isGlobal
  mark ";"

/-! ## Constants -/

/-- Reads a constant, and says whether it has a value. Its name may be left out. -/
def constItem (g : Grammar) : Parser Bool := do
  word "const"
  nameOrHole
  if ← ahead (marksAhead "<") then g.unlaid
  discard g.genericParameters
  mark ":"
  discard <| g.type true
  let hasValue ← g.value
  if ← g.whereClause then g.unlaid
  mark ";"
  return hasValue

def staticItem (g : Grammar) : Parser Unit := do
  word "static"
  discard <| word? "mut"
  discard name
  let isTyped ← mark? ":"
  if isTyped then discard <| g.type true
  let hasValue ← g.value
  require (isTyped || hasValue)
  if !(isTyped && hasValue) then g.unlaid
  mark ";"

/-! ## Foreign items -/

def foreignItem (g : Grammar) : Parser Unit := do
  discard g.outerAttributes
  let before ← get
  let isVisible ← visibility
  let ts ← get
  let isStatic := wordAhead "static" ts ||
    (wordsAhead ["unsafe", "safe"] ts && wordAhead "static" (ts.drop 1))
  if functionAhead true ts then
    if !functionAhead false ts then g.unlaid
    discard <| g.signature true
    if ← g.bodyOrNone then g.unlaid
  else if isStatic then
    if !wordAhead "static" ts then
      discard anyWord
      g.unlaid
    word "static"
    discard <| word? "mut"
    discard name
    mark ":"
    discard <| g.type true
    if ← g.value then g.unlaid
    mark ";"
  else if wordAhead "type" ts then
    set before
    let (isBounded, hasType) ← g.typeItem false .both
    if isBounded || hasType then g.unlaid
  else
    require (!isVisible && macroAhead ts)
    macroItem false

def foreignItems (g : Grammar) : Parser Unit := do
  discard <| word? "unsafe"
  require (← convention)
  inside .brace do
    discard g.innerAttributes
    discard <| all g.foreignItem

def libraryItem : Parser Unit := do
  word "extern"
  word "crate"
  if !(← word? "self") then discard name
  importedName
  mark ";"

/-! ## Traits -/

/-- Reads bounds with plus signs between them up to a token that ends them. -/
def superTraits (g : Grammar) (done : Tokens → Bool) : Parser Unit :=
  discard <| separatedUntil done "+" (g.bound .parameter)

def associatedItem (g : Grammar) (isTrait : Bool) : Parser Unit := do
  discard g.outerAttributes
  let before ← get
  let isVisible ← visibility
  let isDefault ←
    if ← ahead fun ts => isTrait || !marksAhead "!" (ts.drop 1) then word? "default"
    else pure false
  let ts ← get
  if isTrait && (isVisible || isDefault) then g.unlaid
  if functionAhead false ts then
    discard <| g.signature false
    if !(← g.bodyOrNone) && !isTrait then g.unlaid
  else if wordAhead "const" ts then
    if !(← g.constItem) && !isTrait then g.unlaid
  else if wordAhead "type" ts then
    if isTrait then discard <| g.typeItem false .after
    else
      set before
      g.aliasItem true .after
  else
    require (!isVisible && !isDefault && macroAhead ts)
    macroItem false

def associatedItems (g : Grammar) (isTrait : Bool) : Parser Unit :=
  inside .brace do
    discard g.innerAttributes
    discard <| all (g.associatedItem isTrait)

def traitItem (g : Grammar) : Parser Unit := do
  let isMarked ← do
    let isUnsafe ← word? "unsafe"
    let isAuto ← word? "auto"
    pure (isUnsafe || isAuto)
  word "trait"
  discard name
  discard g.genericParameters
  if !isMarked && (← mark? "=") then
    g.superTraits fun ts => wordAhead "where" ts || marksAhead ";" ts
    discard g.whereClause
    mark ";"
  else
    if ← mark? ":" then
      g.superTraits fun ts => wordAhead "where" ts || groupAhead .brace ts
    discard g.whereClause
    g.associatedItems true

/-- Reads an implementation. One that is visible, or that is of no trait by name, has no layout. -/
def implItem (g : Grammar) (isVisible : Bool) : Parser Unit := do
  if isVisible then g.unlaid
  discard <| word? "default"
  discard <| word? "unsafe"
  word "impl"
  if ← ahead parametersAhead then discard g.genericParameters
  if ← ahead fun ts => wordAhead "const" ts ||
      (marksAhead "?" ts && wordAhead "const" (ts.drop 1)) then
    g.unlaid
    discard <| mark? "?"
    word "const"
  if ← ahead fun ts => marksAhead "!" ts && !groupAhead .brace (ts.drop 1) then mark "!"
  let first ← g.type true
  if ← word? "for" then
    match first with
    | .path _ => pure ()
    | _ => g.unlaid
    discard <| g.type true
  discard g.whereClause
  g.associatedItems false

/-! ## Modules and macros -/

def moduleItem (g : Grammar) : Parser Unit := do
  discard <| word? "unsafe"
  word "mod"
  if ← ahead (wordAhead "try") then discard anyWord else discard name
  if !(← mark? ";") then
    inside .brace do
      discard g.innerAttributes
      discard <| all g.item

def macroDefinition (g : Grammar) : Parser Unit := do
  g.unlaid
  word "macro"
  discard name
  if ← ahead (groupAhead .parenthesis) then skipGroup .parenthesis
  skipGroup .brace

/-! ## All items -/

def otherItem (g : Grammar) : Parser Unit := do
  let before ← get
  let isVisible ← visibility
  let ts ← get
  let next := ts.drop 1
  let isTrait (ts : Tokens) := wordAhead "trait" ts ||
    (wordAhead "auto" ts && wordAhead "trait" (ts.drop 1))
  if wordAhead "extern" ts && wordAhead "crate" next then libraryItem
  else if wordAhead "extern" ts || (wordAhead "unsafe" ts && wordAhead "extern" next) then
    set before
    g.foreignItems
  else if wordAhead "use" ts then g.useItem
  else if wordAhead "static" ts then g.staticItem
  else if wordAhead "const" ts then
    if !(← g.constItem) then g.unlaid
  else if isTrait ts || (wordAhead "unsafe" ts && isTrait next) then g.traitItem
  else if wordAhead "mod" ts || (wordAhead "unsafe" ts && wordAhead "mod" next) then g.moduleItem
  else if wordAhead "type" ts then
    set before
    g.aliasItem false .before
  else if wordAhead "struct" ts then g.structItem
  else if wordAhead "enum" ts then g.enumItem
  else if wordAhead "union" ts && nameAhead next then g.unionItem
  else if wordAhead "impl" ts || (wordAhead "unsafe" ts && wordAhead "impl" next) ||
      (wordAhead "default" ts && !marksAhead "!" next) then g.implItem isVisible
  else if wordAhead "macro" ts then g.macroDefinition
  else
    require (!isVisible && macroAhead ts)
    macroItem true

/-- Reads an item. A function without a body is none that could be called. -/
def itemRule (g : Grammar) : Parser Item := do
  let outer ← g.outerAttributes
  let before ← get
  discard visibility
  if functionAhead false (← get) then
    let signature ← g.signature false
    if ← mark? ";" then
      g.unlaid
      return .other
    let inner ← g.attributedBlock
    return .function { attributes := outer ++ inner, signature }
  else
    set before
    g.otherItem
    return .other

/-- The rules with parts nested up to the given depth. -/
def ofDepth (forms : Forms) : (depth : Nat) → Grammar
  | 0 => .empty forms
  | depth + 1 =>
    let g := ofDepth forms depth
    { forms
      type := g.typeRule
      bound := g.boundRule
      pattern := g.patternRule
      expression := g.expressionRule
      leading := g.leadingRule
      statements := g.statementsRule
      item := g.itemRule
      useTree := g.useTreeRule }

end CommandDispatch.Source.Grammar
