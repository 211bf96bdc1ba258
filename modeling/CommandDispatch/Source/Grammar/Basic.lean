import CommandDispatch.Source.LiteralText
import CommandDispatch.Source.Parser

/-!
# The grammar as a record of readers

Types, bounds, patterns, expressions, statements and items contain each other. The record below
names them and the trees of imports; every rule of the grammar is a definition that takes such a
record for the parts it contains. The record itself is built in levels, so that a rule of one level
reads its parts with the level below.
-/

namespace CommandDispatch.Source

/-- Where a bound stands; this decides which marks it may carry. -/
inductive BoundPlace where
  /-- At a value behind a trait. -/
  | object
  /-- At a type that stands for any type with a trait. Captured names may be listed here. -/
  | implementor
  /-- At a parameter, or wherever else a bound restricts a type. -/
  | parameter
deriving DecidableEq

/-- What a bound demands. -/
inductive BoundKind where
  | trait
  | other
deriving DecidableEq

/-- What matters of an expression to what stands around it. -/
inductive ExpressionKind where
  /-- A block, a condition, a choice or a loop: nothing need close it as a statement. -/
  | block
  /-- A macro, with the delimiters of what it is given. -/
  | expansion (delimiter : Delimiter)
  | range
  | comparison
  | other
deriving DecidableEq

/-- Which forms are read: all, or those alone for which there is a layout. -/
inductive Forms where
  | all
  | laidOut
deriving DecidableEq

/-- Readers for the parts that rules contain. -/
structure Grammar where
  forms : Forms
  /-- A type; several bounds joined by `+` are one type only where this is allowed. -/
  type : (allowPlus : Bool) → Parser Ty
  bound : BoundPlace → Parser BoundKind
  /-- A pattern that is not a choice between patterns. -/
  pattern : Parser Pattern
  /-- An expression whose operators bind at least as tightly as `rank` says. A brace after a path
  belongs to it only where this is allowed. -/
  expression : (allowStruct : Bool) → (rank : Nat := 0) → Parser ExpressionKind
  /-- An expression that ends with its block if it begins with one. -/
  leading : Parser ExpressionKind
  /-- The statements of a block. -/
  statements : Parser Unit
  item : Parser Item
  /-- What an import names; each part of a group may start from the root only where this is
  allowed. -/
  useTree : (mayBeGlobal : Bool) → Parser Unit

namespace Grammar

open CommandDispatch.Source.Parser

def empty (forms : Forms) : Grammar where
  forms
  type _ := failure
  bound _ := failure
  pattern := failure
  expression _ _ := failure
  leading := failure
  statements := failure
  item := failure
  useTree _ := failure

/-- Refuses a form that has no layout, unless all forms are read. -/
def unlaid (g : Grammar) : Parser Unit :=
  require (g.forms == .all)

/-- Gives the tokens that were read since an earlier state. -/
def since (before : Tokens) : Parser Tokens := do
  return before.take (before.length - (← get).length)

def pathAhead (ts : Tokens) : Bool :=
  nameAhead ts || wordsAhead ["super", "self", "Self", "crate"] ts || marksAhead "::" ts

/-- Reads a name, or one of the words that lead to a module or a type. -/
def moduleWord : Parser String := do
  require (← ahead fun ts => nameAhead ts || wordsAhead ["super", "self", "Self", "crate"] ts)
  anyWord

/-- Reads a path without generic arguments. -/
def modulePath : Parser Path := do
  let isGlobal ← mark? "::"
  let first ← moduleWord
  let rest ← repeatWhile (marksAhead "::") do
    mark "::"
    moduleWord
  return .mk isGlobal ((first :: rest).map (.mk · .none))

def hasWordsOnly (p : Path) : Bool :=
  p.segments.all fun s => match s.arguments with
    | .none => true
    | .angled .. => false

/-! ## Fields -/

/-- The value of digits in a base. Underscores may stand among them. -/
def positionValue? (base : Nat) (digits : List Char) : Option Nat :=
  (digits.filter (· != '_')).foldlM (fun value c => do
    let d ← hexValue? c
    if d < base then some (base * value + d) else none) 0

/-- The characters number a field: they have no suffix and at most 32 bits. -/
def isPosition (text : List Char) : Bool :=
  let value := match text with
    | [] => none
    | '0' :: 'x' :: digits => positionValue? 16 digits
    | '0' :: 'o' :: digits => positionValue? 8 digits
    | '0' :: 'b' :: digits => positionValue? 2 digits
    | digits => positionValue? 10 digits
  value.any (· < 0x100000000)

/-- Reads the name or the number of a field, and says whether it is a name. -/
def member : Parser Bool := do
  match ← get with
  | .literal .number text :: rest =>
    require (isPosition text.toList)
    set rest
    return false
  | _ => discard name; return true

/-! ## Attributes -/

/-- Reads what stands in the brackets of an attribute. Documentation is given as a string alone; an
attribute may also have arguments in a group, or an expression as its value. -/
def attributeText (g : Grammar) : Parser Attribute := do
  let path ← if ← word? "unsafe" then pure (.mk false []) else modulePath
  match ← get with
  | .group _ _ :: rest => set rest; return .other
  | _ => pure ()
  if !(← ahead fun ts => marksAhead "=" ts && !marksAhead "==" ts && !marksAhead "=>" ts) then
    return .other
  mark "="
  match path, ← get with
  | .mk false [.mk "doc" _], [.literal (.string text) _] => set ([] : Tokens); return .doc text
  | _, ts =>
    require (!(marksAhead "#" ts && groupAhead .bracket (ts.drop 1)))
    discard <| g.expression true
    return .other

def outerAttributes (g : Grammar) : Parser (List Attribute) :=
  repeatWhile (marksAhead "#") do
    mark "#"
    inside .bracket g.attributeText

def innerAttributes (g : Grammar) : Parser (List Attribute) :=
  repeatWhile (fun ts => marksAhead "#" ts && marksAhead "!" (ts.drop 1)) do
    mark "#"
    mark "!"
    inside .bracket g.attributeText

/-! ## Blocks -/

def block (g : Grammar) : Parser Unit :=
  inside .brace g.statements

/-- Reads a block and gives the attributes at its start. -/
def attributedBlock (g : Grammar) : Parser (List Attribute) :=
  inside .brace do
    let attributes ← g.innerAttributes
    g.statements
    return attributes

/-! ## Paths with generic arguments -/

/-- In types generic arguments follow a segment at once; in expressions they need a double colon
before them, since an angle bracket is an operator there. -/
inductive PathStyle where
  | type
  | expression
deriving DecidableEq

def argumentsAhead (style : PathStyle) (ts : Tokens) : Bool :=
  (style == .type && marksAhead "<" ts && !marksAhead "<=" ts && !marksAhead "<<=" ts) ||
    (marksAhead "::" ts && marksAhead "<" (ts.drop 2))

def constantArgument (g : Grammar) : Parser Unit := do
  if ← ahead literalAhead then discard literal
  else if ← ahead nameAhead then discard name
  else discard g.attributedBlock

/-- Reads bounds joined by `+` up to a token that ends them. -/
def boundsUntil (g : Grammar) (done : Tokens → Bool) : Parser Unit :=
  discard <| chain done "+" (g.bound .parameter)

/-- Reads a generic argument: a lifetime, a constant, a type, or a name with what it stands for or
what bounds it. -/
def genericArgument (g : Grammar) : Parser GenericArgument := do
  let before ← get
  if lifetimeAhead before && !marksAhead "+" (afterOne before) then
    return .lifetime (← lifetime)
  let isConstant (ts : Tokens) := literalAhead ts || groupAhead .brace ts
  if isConstant before then
    g.constantArgument
    return .other (← since before)
  let type ← g.type true
  match type with
  | .path (.mk false [_]) =>
    if ← mark? "=" then
      if ← ahead isConstant then g.constantArgument else discard <| g.type true
      return .other (← since before)
    if ← mark? ":" then
      g.boundsUntil fun ts => marksAhead "," ts || marksAhead ">" ts
      return .other (← since before)
    return .type type
  | _ => return .type type

/-- The last of the tokens is a comma. -/
def endsWithComma (ts : Tokens) : Bool :=
  match ts.getLast? with
  | some (.mark c _) => c == ','
  | _ => false

def angled (g : Grammar) : Parser GenericArguments := do
  let turbofish ← mark? "::"
  mark "<"
  let before ← get
  let arguments ← separatedUntil (marksAhead ">") "," g.genericArgument
  let isTrailed := endsWithComma (← since before)
  mark ">"
  return .angled turbofish arguments isTrailed

/-- Reads a segment of a path. The words that lead to another module have no arguments. -/
def segment (g : Grammar) (style : PathStyle) : Parser Segment := do
  if ← ahead (wordsAhead ["super", "self", "crate", "try"]) then
    return .mk (← anyWord) .none
  let text ← if ← ahead (wordAhead "Self") then anyWord else name
  if ← ahead (argumentsAhead style) then
    return .mk text (← g.angled)
  return .mk text .none

def segmentAhead (ts : Tokens) : Bool :=
  marksAhead "::" ts && !groupAhead .parenthesis (ts.drop 2)

def path (g : Grammar) (style : PathStyle) : Parser Path := do
  let isGlobal ← mark? "::"
  let first ← g.segment style
  let rest ← repeatWhile segmentAhead do
    mark "::"
    g.segment style
  return .mk isGlobal (first :: rest)

/-- Reads a path that may start from a type in angle brackets, and says whether it does. The trait
that the type is seen as gives the first segments. -/
def qualifiedPath (g : Grammar) (style : PathStyle) : Parser (Bool × Path) := do
  if ← mark? "<" then
    discard <| g.type true
    let trait ← if ← word? "as" then g.path .type else pure (.mk false [])
    mark ">"
    let rest ← repeatWhile (marksAhead "::") do
      mark "::"
      g.segment style
    require (!rest.isEmpty)
    return (true, .mk trait.isGlobal (trait.segments ++ rest))
  else return (false, ← g.path style)

end Grammar

end CommandDispatch.Source
