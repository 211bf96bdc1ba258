import CommandDispatch.Source.Syntax

/-!
# Types within parentheses

Parentheses and invisible delimiters can stand around a type and around the types in it, and mean
nothing there.

* `Ty.bare`, `FunctionSignature.bare`: a type and a signature without any of them,
* `Ty.EndsWith`: within those around it, a type is a path with some last segment,
* `Ty.IsNamed`, `Ty.IsOf`: what the last segment is called, and that it takes a type.
-/

namespace CommandDispatch.Source

mutual

/-- The type without the parentheses and the invisible delimiters around it and in it. How a path
that starts from a type was written is left out as well, since it was written with them. -/
def Ty.bare : Ty → Ty
  | .path p => .path p.bare
  | .qualified p _ => .qualified p.bare []
  | .paren inner => inner.bare
  | .group inner => inner.bare
  | .tuple elements => .tuple (Ty.bareAll elements)
  | .reference lifetime isMutable inner => .reference lifetime isMutable inner.bare
  | .pointer isMutable inner => .pointer isMutable inner.bare
  | .slice inner => .slice inner.bare
  | .array inner length => .array inner.bare length
  | .never => .never
  | .hole => .hole
  | .other written => .other written

def Ty.bareAll : List Ty → List Ty
  | [] => []
  | t :: rest => t.bare :: Ty.bareAll rest

def Path.bare : Path → Path
  | .mk isGlobal segments => .mk isGlobal (Segment.bareAll segments)

def Segment.bareAll : List Segment → List Segment
  | [] => []
  | s :: rest => s.bare :: Segment.bareAll rest

def Segment.bare : Segment → Segment
  | .mk name arguments => .mk name arguments.bare

def GenericArguments.bare : GenericArguments → GenericArguments
  | .none => .none
  | .angled turbofish arguments isTrailed =>
    .angled turbofish (GenericArgument.bareAll arguments) isTrailed

def GenericArgument.bareAll : List GenericArgument → List GenericArgument
  | [] => []
  | a :: rest => a.bare :: GenericArgument.bareAll rest

def GenericArgument.bare : GenericArgument → GenericArgument
  | .type t => .type t.bare
  | .lifetime name => .lifetime name
  | .other written => .other written

end

def Input.bare : Input → Input
  | .receiver => .receiver
  | .typed pattern t => .typed pattern t.bare

/-- The signature with all its types without parentheses and invisible delimiters. -/
def FunctionSignature.bare (s : FunctionSignature) : FunctionSignature :=
  { s with inputs := s.inputs.map Input.bare, output := s.output.map Ty.bare }

/-- Within the parentheses and the invisible delimiters around it, the type is a path with this last
segment. -/
inductive Ty.EndsWith (segment : Segment) : Ty → Prop where
  | path (isGlobal : Bool) (before : List Segment) :
      EndsWith segment (.path (.mk isGlobal (before ++ [segment])))
  | qualified (isGlobal : Bool) (before : List Segment) (written : Tokens) :
      EndsWith segment (.qualified (.mk isGlobal (before ++ [segment])) written)
  | paren {inner : Ty} (h : EndsWith segment inner) : EndsWith segment (.paren inner)
  | group {inner : Ty} (h : EndsWith segment inner) : EndsWith segment (.group inner)

/-- The type is a path whose last segment has this name. -/
def Ty.IsNamed (name : String) (t : Ty) : Prop :=
  ∃ arguments, t.EndsWith (.mk name arguments)

/-- The type is a path whose last segment has this name and at least one type for an argument. -/
def Ty.IsOf (name : String) (t : Ty) : Prop :=
  ∃ turbofish arguments isTrailed u,
    t.EndsWith (.mk name (.angled turbofish arguments isTrailed)) ∧ .type u ∈ arguments

theorem Ty.IsOf.isNamed {name : String} {t : Ty} (h : t.IsOf name) : t.IsNamed name := by
  obtain ⟨turbofish, arguments, isTrailed, u, hEnds, -⟩ := h
  exact ⟨_, hEnds⟩

end CommandDispatch.Source
