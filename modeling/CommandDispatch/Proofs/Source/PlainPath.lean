import CommandDispatch.Proofs.Source.ExpressionTokens
import CommandDispatch.Proofs.Source.PathText

/-!
# Paths with plain arguments

A path of a type may keep tokens that nothing has read as a part of it. Plain ones do not: their
generic arguments are lifetimes, literals and types that consist of such paths in turn. What is
known of the tokens of a plain path does not depend on where these come from.

* `Ty.isPlain`, `Path.isPlain`: types and paths without such tokens,
* `Path.isCallee`: the paths among them that can stand before the arguments of a call,
* `IsPathOf p ts`: the tokens are a path, and what they begin with is what `p` begins with.
-/

namespace CommandDispatch.Source

open Source.Parser Source.Grammar

variable {style : PathStyle} {ts us : Tokens}

/-! ## Plain types and paths -/

/-- The tokens are a literal. -/
def Tokens.isLiteral : Tokens → Bool
  | [.literal _ _] => true
  | [.mark '-' _, .literal .number _] => true
  | [.word w] => w == "true" || w == "false"
  | _ => false

theorem isLiteralTokens_of_isLiteral (h : Tokens.isLiteral ts = true) : IsLiteralTokens ts := by
  unfold Tokens.isLiteral at h
  split at h
  · exact .inl ⟨_, _, rfl⟩
  · exact .inr (.inl ⟨_, _, rfl⟩)
  · rw [Bool.or_eq_true, beq_iff_eq, beq_iff_eq] at h
    obtain rfl | rfl := h
    · exact .inr (.inr (.inl rfl))
    · exact .inr (.inr (.inr rfl))
  · cases h

/-- The path begins with the word `try`, with which no type begins. -/
def Path.beginsWithTry : Path → Bool
  | .mk false (s :: _) => s.name == "try"
  | _ => false

/-- The path is the word `try` alone. -/
def Path.isTry : Path → Bool
  | .mk false [s] => s.name == "try"
  | _ => false

mutual

/-- No tokens are kept in the type but those of literals. -/
def Ty.isPlain : Ty → Bool
  | .path p => p.isPlain && !p.beginsWithTry
  | .qualified .. => false
  | .paren inner => inner.isPlain
  | .group inner => inner.isPlain
  | .tuple elements => Ty.allPlain elements
  | .reference _ _ inner => inner.isPlain
  | .pointer _ inner => inner.isPlain
  | .slice inner => inner.isPlain
  | .array inner length => inner.isPlain && Tokens.isLiteral length
  | .never => true
  | .hole => true
  | .other _ => false

def Ty.allPlain : List Ty → Bool
  | [] => true
  | t :: rest => t.isPlain && Ty.allPlain rest

def Path.isPlain : Path → Bool
  | .mk _ segments => Segment.allPlain segments

def Segment.allPlain : List Segment → Bool
  | [] => true
  | s :: rest => s.isPlain && Segment.allPlain rest

def Segment.isPlain : Segment → Bool
  | .mk _ arguments => arguments.isPlain

/-- A comma follows the last of several arguments only. -/
def GenericArguments.isPlain : GenericArguments → Bool
  | .none => true
  | .angled _ arguments isTrailed =>
    GenericArgument.allPlain arguments && (!arguments.isEmpty || !isTrailed)

def GenericArgument.allPlain : List GenericArgument → Bool
  | [] => true
  | a :: rest => a.isPlain && GenericArgument.allPlain rest

def GenericArgument.isPlain : GenericArgument → Bool
  | .type t => t.isPlain
  | .lifetime _ => true
  | .other written => Tokens.isLiteral written

end

/-- If there are generic arguments, a double colon stands before them. -/
def GenericArguments.isMarked : GenericArguments → Bool
  | .none => true
  | .angled turbofish _ _ => turbofish

def Segment.isMarked (s : Segment) : Bool :=
  s.arguments.isMarked

/-- The path is plain, and it can be called. -/
def Path.isCallee (p : Path) : Bool :=
  p.isPlain && p.segments.all Segment.isMarked && !p.isTry

/-! ## Tokens of a path -/

/-- The tokens are a segment with the word of this one. -/
structure IsSegmentOf (style : PathStyle) (s : Segment) (ts : Tokens) : Prop where
  isSegment : IsSegment style ts
  exists_eq : ∃ us, ts = .word s.name :: us

/-- The tokens are a path that begins like this one. -/
structure IsPathOf (style : PathStyle) (p : Path) (ts : Tokens) : Prop where
  isPath : IsPath style ts
  beginsWithTry : wordAhead "try" ts = true → p.beginsWithTry = true
  isTry : ts = [.word "try"] → p.isTry = true

theorem IsPathOf.isType {p : Path} (h : IsPathOf .type p ts) (hTry : p.beginsWithTry = false) :
    IsType ts := by
  refine isType_path h.isPath (Bool.eq_false_iff.mpr fun hWord => ?_)
  rw [h.beginsWithTry hWord] at hTry
  cases hTry

theorem IsPathOf.isCallee {p : Path} (h : IsPathOf .expression p ts) (hTry : p.isTry = false) :
    IsCallee ts where
  isPath := h.isPath
  ne_try hTokens := by
    rw [h.isTry hTokens] at hTry
    cases hTry

/-- What stands before the first segment of a path. -/
inductive BeginsPath : Bool → Tokens → Prop where
  | relative : BeginsPath false []
  | absolute (joint : Bool) : BeginsPath true [.mark ':' true, .mark ':' joint]

/-- A path from its first segment and the further ones. -/
theorem isPathOf_append {isGlobal : Bool} {s : Segment} {segments : List Segment}
    {before first others : Tokens} (hBefore : BeginsPath isGlobal before)
    (hFirst : IsSegmentOf style s first) (hOthers : Repeated (IsFurtherSegment style) others)
    (hNil : segments ≠ [] → others ≠ []) :
    IsPathOf style (.mk isGlobal (s :: segments)) (before ++ (first ++ others)) := by
  obtain ⟨us, rfl⟩ := hFirst.exists_eq
  refine ⟨⟨before, _, others, rfl, ?_, hFirst.isSegment, hOthers⟩, ?_, ?_⟩
  · cases hBefore with
    | relative => exact .inl rfl
    | absolute joint => exact .inr ⟨joint, rfl⟩
  · cases hBefore with
    | relative => exact id
    | absolute joint => exact fun h => nomatch h
  · intro hTokens
    cases hBefore with
    | absolute joint => cases hTokens
    | relative =>
      obtain ⟨hWord, hRest⟩ := List.cons.inj hTokens
      obtain rfl : segments = [] := by
        by_contra hNe
        exact hNil hNe (List.append_eq_nil_iff.mp hRest).2
      exact beq_iff_eq.mpr (TokenTree.word.inj hWord)

end CommandDispatch.Source
