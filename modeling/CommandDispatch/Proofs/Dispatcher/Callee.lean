import CommandDispatch.Dispatcher.Emission
import CommandDispatch.Proofs.Source.PlainPath
import CommandDispatch.Proofs.Source.StatementTokens

/-!
# The call of a function is read

The tokens of a plain path are read as a path, so that a function with a path that can be called is
read in the statement that calls it.

* `isType_typeTokens`, `isPathOf_pathTokens`: plain types and paths,
* `Arm.isRead_of_isCallee`: the statement of an arm that calls its function.
-/

namespace CommandDispatch.Dispatcher

open Source Source.Parser Source.Grammar

/-! ## Commas -/

theorem separated_commaTokens {P : Tokens → Prop} {tss : List Tokens} (h : ∀ ts ∈ tss, P ts) :
    Separated P (commaTokens tss) := by
  fun_induction commaTokens tss with
  | case1 => exact .nil
  | case2 last => exact .last (h last List.mem_cons_self)
  | case3 ts others _ ih =>
    exact .cons false (h ts List.mem_cons_self)
      (ih fun us hus => h us (List.mem_cons_of_mem ts hus))

/-- A comma may follow the last of several items. -/
theorem separated_commaTokens_trailed {P : Tokens → Prop} {tss : List Tokens}
    (h : ∀ ts ∈ tss, P ts) (hNe : tss ≠ []) :
    Separated P (commaTokens tss ++ [.mark ',' false]) := by
  fun_induction commaTokens tss with
  | case1 => exact absurd rfl hNe
  | case2 last => exact .cons false (h last List.mem_cons_self) .nil
  | case3 ts others hOthers ih =>
    rw [List.append_assoc, List.cons_append]
    exact .cons false (h ts List.mem_cons_self)
      (ih (fun us hus => h us (List.mem_cons_of_mem ts hus)) hOthers)

/-! ## Types and paths -/

theorem isLiteralTokens_map_apart {ts : Tokens} (h : Tokens.isLiteral ts = true) :
    IsLiteralTokens (ts.map apart) := by
  obtain ⟨kind, text, rfl⟩ | ⟨joint, text, rfl⟩ | rfl | rfl := isLiteralTokens_of_isLiteral h
  · exact .inl ⟨kind, text, rfl⟩
  · exact .inr (.inl ⟨_, text, rfl⟩)
  · exact .inr (.inr (.inl rfl))
  · exact .inr (.inr (.inr rfl))

theorem isType_referenceTokens (lifetime : Option String) (isMutable : Bool) {ts : Tokens}
    (h : IsType ts) : IsType (referenceTokens lifetime isMutable ++ ts) := by
  have hTokens : referenceTokens lifetime isMutable ++ ts =
      .mark '&' false :: ((lifetimeTokens lifetime ++ mutableTokens isMutable) ++ ts) := by
    cases lifetime <;> rfl
  rw [hTokens]
  exact isType_reference false lifetime isMutable h

/-- Every argument is among the lifetimes or among the others. -/
theorem argumentTokens_ne_nil {arguments : List GenericArgument} (h : arguments ≠ []) :
    argumentTokens true arguments ++ argumentTokens false arguments ≠ [] := by
  cases arguments with
  | nil => exact absurd rfl h
  | cons a arguments => cases a <;> simp [argumentTokens]

/-- Generic arguments in angle brackets, from the arguments. -/
theorem isSegmentOf_angled {style : PathStyle} {name : String} (hName : IsSegmentWord name)
    {turbofish isTrailed : Bool} (hStyle : style = .type ∨ turbofish = true)
    {arguments : List GenericArgument} (hTrailed : arguments ≠ [] ∨ isTrailed = false)
    (h : ∀ ts ∈ argumentTokens true arguments ++ argumentTokens false arguments, IsArgument ts) :
    IsSegmentOf style (.mk name (.angled turbofish arguments isTrailed))
      (segmentTokens (.mk name (.angled turbofish arguments isTrailed))) := by
  refine ⟨?_, ⟨_, rfl⟩⟩
  have hOpens : OpensArguments style (if turbofish then doubleColon else []) := by
    cases turbofish with
    | true => exact .turbofish style false
    | false =>
      obtain rfl : style = .type := hStyle.resolve_right Bool.false_ne_true
      exact .plain
  have hArguments : Separated IsArgument
      (commaTokens (argumentTokens true arguments ++ argumentTokens false arguments) ++
        if isTrailed then [.mark ',' false] else []) := by
    cases isTrailed with
    | true =>
      have hNe := hTrailed.resolve_right fun hEq => nomatch hEq
      exact separated_commaTokens_trailed h (argumentTokens_ne_nil hNe)
    | false =>
      rw [if_neg Bool.false_ne_true, List.append_nil]
      exact separated_commaTokens h
  exact isSegment_angled hName hOpens false false hArguments

mutual

/-- The tokens of a plain type are read as a type. -/
theorem isType_typeTokens : ∀ {t : Ty}, t.IsReadable → t.isPlain = true → IsType (typeTokens t)
  | .path p, h, hPlain => by
    rw [Ty.isPlain, Bool.and_eq_true, Bool.not_eq_true'] at hPlain
    exact (isPathOf_pathTokens h hPlain.1 (.inl rfl)).isType hPlain.2
  | .qualified .., _, hPlain => nomatch hPlain
  | .paren inner, h, hPlain =>
    isType_parenthesized (.last (isType_typeTokens (t := inner) h hPlain))
  | .group inner, h, hPlain => isType_typeTokens (t := inner) h hPlain
  | .tuple elements, h, hPlain => isType_parenthesized (separated_elementsTokens h hPlain)
  | .reference lifetime isMutable inner, h, hPlain =>
    isType_referenceTokens lifetime isMutable (isType_typeTokens (t := inner) h.2 hPlain)
  | .pointer isMutable inner, h, hPlain =>
    isType_pointer false isMutable (isType_typeTokens (t := inner) h hPlain)
  | .slice inner, h, hPlain => isType_slice (isType_typeTokens (t := inner) h hPlain)
  | .array inner length, h, hPlain => by
    rw [Ty.isPlain, Bool.and_eq_true] at hPlain
    exact isType_array (isType_typeTokens h.1 hPlain.1) false
      (isLiteralTokens_of_isLiteral hPlain.2)
  | .never, _, _ => isType_never false
  | .hole, _, _ => isType_hole
  | .other _, _, hPlain => nomatch hPlain

theorem separated_elementsTokens : ∀ {ts : List Ty}, Ty.AllReadable ts → Ty.allPlain ts = true →
    Separated IsType (elementsTokens ts)
  | [], _, _ => .nil
  | _ :: _, ⟨h, hRest⟩, hPlain => by
    rw [Ty.allPlain, Bool.and_eq_true] at hPlain
    exact .cons false (isType_typeTokens h hPlain.1) (separated_elementsTokens hRest hPlain.2)

/-- The tokens of a plain path are read as a path; in an expression, if double colons stand before
its generic arguments. -/
theorem isPathOf_pathTokens {style : PathStyle} : ∀ {p : Path}, p.IsReadable → p.isPlain = true →
    (style = .type ∨ p.segments.all Segment.isMarked = true) →
      IsPathOf style p (pathTokens p)
  | .mk _ [], ⟨hNe, _⟩, _, _ => absurd rfl hNe
  | .mk isGlobal (s :: segments), ⟨_, h, hRest⟩, hPlain, hStyle => by
    rw [Path.isPlain, Segment.allPlain, Bool.and_eq_true] at hPlain
    have hStyles : style = .type ∨
        (s.isMarked = true ∧ segments.all Segment.isMarked = true) :=
      hStyle.imp_right fun hAll => by simpa [Path.segments] using hAll
    have hBefore : BeginsPath isGlobal (if isGlobal then doubleColon else []) := by
      cases isGlobal with
      | true => exact .absolute false
      | false => exact .relative
    refine isPathOf_append hBefore
      (isSegmentOf_segmentTokens h hPlain.1 (hStyles.imp_right And.left))
      (repeated_segmentsTokens hRest hPlain.2 (hStyles.imp_right And.right)) fun hNe => ?_
    cases segments with
    | nil => exact absurd rfl hNe
    | cons => exact List.cons_ne_nil _ _

/-- Segments, each after a double colon. -/
theorem repeated_segmentsTokens {style : PathStyle} : ∀ {segments : List Segment},
    Segment.AllReadable segments → Segment.allPlain segments = true →
      (style = .type ∨ segments.all Segment.isMarked = true) →
        Repeated (IsFurtherSegment style) (segmentsTokens true segments)
  | [], _, _, _ => .nil
  | s :: segments, ⟨h, hRest⟩, hPlain, hStyle => by
    rw [Segment.allPlain, Bool.and_eq_true] at hPlain
    have hStyles : style = .type ∨
        (s.isMarked = true ∧ segments.all Segment.isMarked = true) :=
      hStyle.imp_right fun hAll => by simpa using hAll
    have hFirst := isSegmentOf_segmentTokens h hPlain.1 (hStyles.imp_right And.left)
    have hFurther : IsFurtherSegment style (doubleColon ++ segmentTokens s) :=
      ⟨false, _, rfl, hFirst.isSegment⟩
    have hAll := Repeated.cons hFurther
      (repeated_segmentsTokens hRest hPlain.2 (hStyles.imp_right And.right))
    rwa [List.append_assoc] at hAll

theorem isSegmentOf_segmentTokens {style : PathStyle} : ∀ {s : Segment}, s.IsReadable →
    s.isPlain = true → (style = .type ∨ s.isMarked = true) →
      IsSegmentOf style s (segmentTokens s)
  | .mk _ .none, ⟨_, hWord, _⟩, _, _ =>
    ⟨hWord.elim isSegment_word fun hWord => isSegment_of_mem hWord.1, ⟨_, rfl⟩⟩
  | .mk _ (.angled turbofish arguments isTrailed), ⟨_, hWord, h⟩, hPlain, hStyle => by
    rw [Segment.isPlain, GenericArguments.isPlain, Bool.and_eq_true] at hPlain
    refine isSegmentOf_angled (hWord.resolve_right fun hNone => nomatch hNone.2) hStyle ?_ ?_
    · simpa using hPlain.2
    · intro ts hts
      rcases List.mem_append.mp hts with hts | hts
      · exact isArgument_argumentTokens true h hPlain.1 ts hts
      · exact isArgument_argumentTokens false h hPlain.1 ts hts

theorem isArgument_argumentTokens (lifetimes : Bool) : ∀ {arguments : List GenericArgument},
    GenericArgument.AllReadable arguments → GenericArgument.allPlain arguments = true →
      ∀ ts ∈ argumentTokens lifetimes arguments, IsArgument ts
  | [], _, _ => List.forall_mem_nil _
  | .lifetime name :: _, ⟨_, hRest⟩, hPlain => by
    have hOthers := isArgument_argumentTokens lifetimes hRest hPlain
    rw [argumentTokens]
    split
    · exact List.forall_mem_cons.mpr ⟨isArgument_lifetime name, hOthers⟩
    · exact hOthers
  | .type t :: _, ⟨h, hRest⟩, hPlain => by
    rw [GenericArgument.allPlain, Bool.and_eq_true] at hPlain
    have hOthers := isArgument_argumentTokens lifetimes hRest hPlain.2
    have hFirst := isType_typeTokens (t := t) h hPlain.1
    rw [argumentTokens]
    split
    · exact hOthers
    · exact List.forall_mem_cons.mpr ⟨isArgument_type hFirst, hOthers⟩
  | .other _ :: _, ⟨_, hRest⟩, hPlain => by
    rw [GenericArgument.allPlain, Bool.and_eq_true] at hPlain
    have hOthers := isArgument_argumentTokens lifetimes hRest hPlain.2
    rw [argumentTokens]
    split
    · exact hOthers
    · exact List.forall_mem_cons.mpr
        ⟨isArgument_literal (isLiteralTokens_map_apart hPlain.1), hOthers⟩

end

/-- The tokens of a path that can be called. -/
theorem isCallee_pathTokens {p : Path} (h : p.IsReadable) (hCallee : p.isCallee = true) :
    IsCallee (pathTokens p) := by
  simp only [Path.isCallee, Bool.and_eq_true, Bool.not_eq_true'] at hCallee
  exact (isPathOf_pathTokens h hCallee.1.1 (.inr hCallee.1.2)).isCallee hCallee.2

/-! ## The statement of an arm -/

theorem separated_names {names : List String} (h : ∀ w ∈ names, IsIdentifier w) :
    Separated (IsExpression true) (commaTokens (names.map ([.word ·]))) := by
  refine separated_commaTokens fun ts hts => ?_
  obtain ⟨w, hw, rfl⟩ := List.mem_map.mp hts
  exact isExpression_word (h w hw).not_reserved

/-- An error is returned. -/
theorem isStatement_fail {ts : Tokens} (h : Separated (IsExpression true) ts) (joint : Bool) :
    IsStatement [.word "return", .word "Err", .group .parenthesis ts, .mark ';' joint] := by
  have hErr : IsCallee [.word "Err"] := isCallee_word rfl
  have hValue : IsExpression true [.word "Err", .group .parenthesis ts] :=
    (hErr.isFreeOperand_call h).isExpression true
  exact isStatement_return (by decide) hValue joint

/-- The path with which an error of a command is made. -/
def commandErrorPath : List String :=
  ["cligen_runtime", "DispatchError", "command"]

theorem isCallee_commandErrorPath : IsCallee (wordsTokens commandErrorPath) :=
  isCallee_wordsTokens (by decide)

/-- A pattern for an error. -/
theorem isPattern_error {e : String} (he : IsIdentifier e) :
    IsPattern [.word "Err", .group .parenthesis [.word e]] :=
  isPattern_constructor rfl (isCallee_word rfl).isPath (.last (isPattern_name he.not_reserved))
    fun _ => rfl

section

variable {call : Tokens} (hCall : IsFreeOperand call)

include hCall

/-- A call as a statement. -/
theorem isStatement_call (joint : Bool) :
    IsStatement (.word "let" :: .word "_" :: .mark '=' false :: (call ++ [.mark ';' joint])) :=
  isStatement_let isPattern_hole .none false (hCall.isExpression true) joint

/-- A call as a statement that goes on with an error. -/
theorem isStatement_failingCall {e : String} (he : IsIdentifier e) {body : Tokens}
    (hBody : IsBlockBody body) :
    IsStatement (.word "if" :: .word "let" :: .word "Err" :: .group .parenthesis [.word e] ::
      .mark '=' false :: (call ++ [.group .brace body])) := by
  have hCondition := isOperand_let (isPattern_error he) false (hCall.isExpression false)
  have hStatement :=
    isStatement_if (isExpression_of_operand (List.cons_ne_nil _ _) hCondition) hBody
  rwa [List.cons_append, List.append_assoc] at hStatement

end

/-- The tokens that call a function are read if its path can be called. -/
theorem isStatement_callTokens {path : Path} (hPath : path.IsReadable)
    (hCallee : path.isCallee = true) {names : List String} (hNames : ∀ w ∈ names, IsIdentifier w)
    {error : Option String} (hError : ∀ e ∈ error, IsIdentifier e) :
    IsStatement (callTokens path names error) := by
  have hCall := (isCallee_pathTokens hPath hCallee).isFreeOperand_call (separated_names hNames)
  cases error with
  | none => exact isStatement_call hCall false
  | some e =>
    have he := hError e rfl
    have hValue : Separated (IsExpression true) (commandErrorTokens e) :=
      .last ((isCallee_commandErrorPath.isFreeOperand_call
        (.last (isExpression_word he.not_reserved))).isExpression true)
    exact isStatement_failingCall hCall he
      (AreFurtherStatements.singleton (isStatement_fail hValue false)).isBlockBody

theorem Arm.mem_binders_of_mem_names {a : Arm String} {w : String}
    (hw : w ∈ a.bindings.map (·.name)) : w ∈ a.binders := by
  obtain ⟨b, hb, rfl⟩ := List.mem_map.mp hw
  have hName : b.name ∈ b.binders := by cases b <;> simp [Binding.name, Binding.binders]
  exact List.mem_append_left _ (List.mem_flatMap.mpr ⟨b, hb, hName⟩)

theorem Arm.mem_binders_of_mem_error {a : Arm String} {e : String} (he : e ∈ a.error) :
    e ∈ a.binders :=
  List.mem_append_right _ (Option.mem_toList.mpr he)

/-- The statement that calls a function is read if its path can be called. -/
theorem Arm.isRead_of_isCallee {a : Arm String} (hPath : a.path.IsReadable)
    (hCallee : a.path.isCallee = true) (hNames : ∀ w ∈ a.binders, IsIdentifier w)
    (forms : Forms) : a.isRead forms = true := by
  have hBindings : ∀ w ∈ a.bindings.map (·.name), IsIdentifier w :=
    fun w hw => hNames w (mem_binders_of_mem_names hw)
  have hError : ∀ e ∈ a.error, IsIdentifier e := fun e he => hNames e (mem_binders_of_mem_error he)
  let tokens := callTokens a.path (a.bindings.map (·.name)) a.error
  have hStatements : AreFurtherStatements tokens :=
    .singleton (isStatement_callTokens hPath hCallee hBindings hError)
  have hRead : (ofDepth forms (Tokens.size tokens + 1)).statementsRule tokens = some ((), []) :=
    hStatements.isBlockBody.statements_apply forms (Tokens.size tokens + 2) (Nat.lt_succ_self _)
  rw [Arm.isRead, readAll, whole, StateT.run, hRead]
  rfl

end CommandDispatch.Dispatcher
