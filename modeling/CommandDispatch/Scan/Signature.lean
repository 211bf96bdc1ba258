import CommandDispatch.Command.Basic
import CommandDispatch.Source.Syntax

/-!
# Signatures of commands

A free function with parameters of known number can be a command. The kinds of its parameters and
returns are read off its types; parentheses around a type do not matter.
-/

namespace CommandDispatch.Scan

open Arguments Command Source

/-- What keeps a function from being a command. -/
inductive Unfit where
  | isAsync
  | isUnsafe
  | isGeneric
  | isVariadic
  | isMethod
deriving Repr, DecidableEq

def Unfit.message : Unfit → String
  | isAsync => "async functions cannot be commands"
  | isUnsafe => "unsafe functions cannot be commands"
  | isGeneric => "generic functions cannot be commands"
  | isVariadic => "variadic functions cannot be commands"
  | isMethod => "methods cannot be commands"

/-- The type without the parentheses and the invisible delimiters around it. -/
def strip : Ty → Ty
  | .paren inner => strip inner
  | .group inner => strip inner
  | t => t

def lastSegment? (t : Ty) : Option Segment :=
  match strip t with
  | .path p => p.segments.getLast?
  | .qualified p _ => p.segments.getLast?
  | _ => none

def kindOfName : String → Kind
  | "isize" => .readable .int
  | "usize" => .readable .uint
  | "f32" => .readable .float32
  | "bool" => .readable .bool
  | "String" => .readable .string
  | _ => .foreign

/-- The kind of a type. Only a path whose last segment has no generic arguments is known by its
name. -/
def kindOf (t : Ty) : Kind :=
  match strip t with
  | .path p =>
    match p.segments.getLast? with
    | some (.mk name .none) => kindOfName name
    | _ => .foreign
  | _ => .foreign

def firstType? : List GenericArgument → Option Ty
  | [] => none
  | .type t :: _ => some t
  | _ :: rest => firstType? rest

/-- The first type argument of a type with this last name. -/
def payload? (name : String) (t : Ty) : Option Ty :=
  match lastSegment? t with
  | some (.mk own (.angled _ arguments _)) => if own = name then firstType? arguments else none
  | _ => none

def hasLastName (name : String) (t : Ty) : Bool :=
  (lastSegment? t).any (·.name == name)

def returned (kind : Kind) : Parameter :=
  ⟨none, kind, false⟩

/-- The values that a type returns: those of a tuple are counted one by one. -/
def values (t : Ty) : List Parameter :=
  match strip t with
  | .tuple elements => elements.map fun e => returned (kindOf e)
  | other => [returned (kindOf other)]

/-- The returns of a function with this type of output. One that may fail returns an error last. -/
def returns : Option Ty → List Parameter
  | none => []
  | some t =>
    match payload? "Result" t with
    | some ok => values ok ++ [returned .error]
    | none => if hasLastName "Result" t then [returned .error] else values t

/-- The parameter for a typed input. It is named if its pattern is a name, and optional if its type
is an option of another, whose kind it has then. -/
def parameterOf (pattern : Pattern) (t : Ty) : Parameter :=
  let name := match pattern with
    | .name n => some n
    | _ => none
  match payload? "Option" t with
  | some inner => ⟨name, kindOf inner, true⟩
  | none => ⟨name, kindOf t, false⟩

def inputParameter : Input → Except Unfit Parameter
  | .receiver => .error .isMethod
  | .typed pattern t => .ok (parameterOf pattern t)

/-- The signature of a command that calls a function of this signature. -/
def describe (s : FunctionSignature) : Except Unfit Signature := do
  if s.isAsync then throw .isAsync
  if s.isUnsafe then throw .isUnsafe
  if s.isGeneric then throw .isGeneric
  if s.isVariadic then throw .isVariadic
  let arguments ← s.inputs.mapM inputParameter
  return { arguments, returns := returns s.output }

end CommandDispatch.Scan
