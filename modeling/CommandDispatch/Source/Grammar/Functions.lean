import CommandDispatch.Source.Grammar.Statements

/-!
# Functions
-/

namespace CommandDispatch.Source.Grammar

open CommandDispatch.Source.Parser

/-- Reads how far something is visible, and says whether anything was said. What stands in
parentheses may restrict it; other parentheses are left. -/
def visibility : Parser Bool := do
  if ← word? "pub" then
    let ts ← get
    match ts with
    | .group .parenthesis inner :: rest =>
      match inner with
      | [.word w] => if ["crate", "self", "super"].contains w then set rest
      | .word "in" :: path =>
        require (whole modulePath path).isSome
        set rest
      | _ => pure ()
    | _ => pure ()
    return true
  else return false

def receiver (g : Grammar) : Parser Input := do
  let isReference ← mark? "&"
  if isReference && (← ahead lifetimeAhead) then discard lifetime
  discard <| word? "mut"
  word "self"
  if !isReference && (← mark? ":") then discard <| g.type true
  return .receiver

/-- What stands among the inputs of a function: an input, or the mark for any number of further
ones. -/
inductive InputOrRest where
  | input (input : Input)
  | rest

/-- Reads an input. A type alone is taken where it has generic arguments. -/
def input (g : Grammar) : Parser InputOrRest := do
  discard g.outerAttributes
  if ← mark? "..." then return .rest
  let ts ← get
  match g.receiver.run ts with
  | some (r, rest) => set rest; return .input r
  | none =>
    if nameAhead ts && marksAhead "<" (ts.drop 1) then
      return .input (.typed .other (← g.type true))
    let pattern ← g.pattern
    mark ":"
    if ← mark? "..." then return .rest
    return .input (.typed pattern (← g.type true))

/-- Reads the inputs of a function, and says whether any number of further ones is taken. The object
of a method comes first. -/
def inputs (g : Grammar) : (steps : Nat) → (isFirst : Bool) → Parser (List Input × Bool)
  | 0, _ => failure
  | steps + 1, isFirst => do
    if ← ahead List.isEmpty then return ([], false)
    match ← g.input with
    | .rest =>
      if !(← ahead List.isEmpty) then mark ","
      require (← ahead List.isEmpty)
      return ([], true)
    | .input i =>
      match i with
      | .receiver => require isFirst
      | .typed .. => pure ()
      if ← ahead List.isEmpty then return ([i], false)
      mark ","
      let (more, isVariadic) ← g.inputs steps false
      return (i :: more, isVariadic)

/-- The modifiers before a function: `const`, `async`, `unsafe` and the calling convention, in this
order. -/
def functionModifiers (allowSafe : Bool) : Parser (Bool × Bool) := do
  discard <| word? "const"
  let isAsync ← word? "async"
  let isSafe ← if allowSafe then word? "safe" else pure false
  let isUnsafe ← if isSafe then pure false else word? "unsafe"
  discard convention
  return (isAsync, isUnsafe)

def functionAhead (allowSafe : Bool) (ts : Tokens) : Bool :=
  match (functionModifiers allowSafe).run ts with
  | some (_, rest) => wordAhead "fn" rest
  | none => false

def signature (g : Grammar) (allowSafe : Bool) : Parser FunctionSignature := do
  let (isAsync, isUnsafe) ← functionModifiers allowSafe
  word "fn"
  let name ← name
  let isGeneric ← g.genericParameters
  let (inputs, isVariadic) ← inside .parenthesis do
    g.inputs ((← get).length + 1) true
  let output ← g.output true
  discard g.whereClause
  return { isAsync, isUnsafe, name, isGeneric, inputs, isVariadic, output }

def function (g : Grammar) : Parser Function := do
  let outer ← g.outerAttributes
  discard visibility
  let signature ← g.signature false
  let inner ← g.attributedBlock
  return { attributes := outer ++ inner, signature }

/-- Reads the body of a function, or the semicolon in its place, and says whether it is there. -/
def bodyOrNone (g : Grammar) : Parser Bool := do
  if ← mark? ";" then return false
  discard g.attributedBlock
  return true

end CommandDispatch.Source.Grammar
