import CommandDispatch.Proofs.Except
import CommandDispatch.Proofs.Text.LowerCase
import CommandDispatch.Scan.Function

/-!
# What holds of a scanned command

A command is described first, and its directives apply to the description. They change names and
texts, but never what a parameter is: its kind, whether it is optional, and whether it has a name.

* `shapeOf` is what no directive changes,
* `IsScanned` is what holds of every scanned command by itself: none of its arguments is an error,
  at most one of its returns is, and its name is not the one for help.
-/

namespace CommandDispatch.Scan

open Command Source Text

/-! ## Signatures -/

theorem kindOfName_ne_error (name : String) : kindOfName name ≠ .error := by
  unfold kindOfName
  split <;> simp

theorem kindOf_ne_error (t : Ty) : kindOf t ≠ .error := by
  unfold kindOf
  split
  · split
    · exact kindOfName_ne_error _
    · simp
  · simp

theorem parameterOf_kind_ne_error (pattern : Pattern) (t : Ty) :
    (parameterOf pattern t).kind ≠ .error := by
  unfold parameterOf
  dsimp only
  cases payload? "Option" t with
  | some inner => exact kindOf_ne_error inner
  | none => exact kindOf_ne_error t

@[simp]
theorem returned_kind (kind : Kind) : (returned kind).kind = kind :=
  rfl

theorem countP_values (t : Ty) : (values t).countP (·.kind == .error) = 0 := by
  rw [List.countP_eq_zero]
  intro p hp
  unfold values at hp
  split at hp
  · obtain ⟨e, -, rfl⟩ := List.mem_map.mp hp
    simpa using kindOf_ne_error e
  · rw [List.mem_singleton.mp hp]
    simpa using kindOf_ne_error _

/-- At most one return is an error: the last one, if the type is a result. -/
theorem countP_returns_le (output : Option Ty) :
    (returns output).countP (·.kind == .error) ≤ 1 := by
  have hError : [returned .error].countP (·.kind == .error) = 1 := rfl
  unfold returns
  split
  · exact Nat.zero_le 1
  · split
    · rename_i ok _
      have hOne : (values ok ++ [returned .error]).countP (·.kind == .error) = 1 := by
        rw [List.countP_append, countP_values, hError]
      exact Nat.le_of_eq hOne
    · split
      · exact Nat.le_of_eq hError
      · rw [countP_values]
        exact Nat.zero_le 1

theorem of_describe_eq_ok {s : FunctionSignature} {signature : Signature}
    (h : describe s = .ok signature) :
    s.inputs.mapM inputParameter = .ok signature.arguments ∧
      signature.returns = returns s.output := by
  unfold describe at h
  obtain ⟨-, h⟩ := throw_or_eq_ok.mp h
  obtain ⟨-, h⟩ := throw_or_eq_ok.mp h
  obtain ⟨-, h⟩ := throw_or_eq_ok.mp h
  obtain ⟨-, h⟩ := throw_or_eq_ok.mp h
  obtain ⟨arguments, hArguments, h⟩ := bind_eq_ok.mp h
  cases h
  exact ⟨hArguments, rfl⟩

theorem of_describe {s : FunctionSignature} {signature : Signature}
    (h : describe s = .ok signature) :
    (∀ p ∈ signature.arguments, p.kind ≠ .error) ∧ signature.errorReturns ≤ 1 := by
  obtain ⟨hArguments, hReturns⟩ := of_describe_eq_ok h
  refine ⟨?_, ?_⟩
  · intro p hp
    obtain ⟨input, -, hInput⟩ := exists_of_forall₂_of_mem (mapM_eq_ok_iff.mp hArguments) hp
    cases input with
    | receiver => cases hInput
    | typed pattern t =>
      cases hInput
      exact parameterOf_kind_ne_error pattern t
  · rw [Signature.errorReturns, hReturns]
    exact countP_returns_le s.output

/-! ## Directives -/

/-- What a parameter is, apart from how it is called. -/
def shapeOf (p : Parameter) : Bool × Kind × Bool :=
  (p.name.isSome, p.kind, p.isOptional)

theorem isSome_of_isNamed {name : String} {p : Parameter} (h : isNamed name p = true) :
    p.name.isSome = true := by
  unfold isNamed at h
  cases hName : p.name with
  | none =>
    rw [hName] at h
    cases h
  | some own => rfl

theorem map_shape_rename {old new : String} {ps qs : List Parameter}
    (h : rename old new ps = some qs) : qs.map shapeOf = ps.map shapeOf := by
  induction ps generalizing qs with
  | nil => cases h
  | cons p ps ih =>
    rw [rename] at h
    split at h
    · rename_i hNamed
      cases h
      rw [List.map_cons, List.map_cons, shapeOf, shapeOf, isSome_of_isNamed hNamed]
      rfl
    · obtain ⟨rs, hRest, rfl⟩ := Option.map_eq_some_iff.mp h
      rw [List.map_cons, List.map_cons, ih hRest]

theorem Draft.map_shape_apply (d : Draft) (directive : Directive) :
    (d.apply directive).arguments.map shapeOf = d.arguments.map shapeOf := by
  cases directive with
  | name name => rfl
  | description text => rfl
  | rename old new =>
    simp only [apply]
    cases hRename : rename old new d.arguments with
    | none => rfl
    | some qs => exact map_shape_rename hRename

theorem Draft.map_shape_read {d d' : Draft} {line : String} (h : d.read line = .ok d') :
    d'.arguments.map shapeOf = d.arguments.map shapeOf := by
  unfold read at h
  obtain ⟨directive, -, h⟩ := bind_eq_ok.mp h
  cases directive with
  | none =>
    cases h
    rfl
  | some directive =>
    cases h
    exact d.map_shape_apply directive

/-- The lines of directives keep the shapes, line by line. -/
theorem Draft.map_shape_foldlM {d d' : Draft} {lines : List String}
    (h : lines.foldlM Draft.read d = .ok d') :
    d'.arguments.map shapeOf = d.arguments.map shapeOf := by
  refine foldlM_invariant
    (P := fun x : Draft => x.arguments.map shapeOf = d.arguments.map shapeOf)
    rfl ?_ h
  intro line _ b b' hb hRead
  exact (map_shape_read hRead).trans hb

theorem kind_mem_of_map_shape_eq {ps qs : List Parameter}
    (h : qs.map shapeOf = ps.map shapeOf) {q : Parameter} (hq : q ∈ qs) :
    ∃ p ∈ ps, p.kind = q.kind := by
  have hMem : shapeOf q ∈ ps.map shapeOf := h ▸ List.mem_map_of_mem hq
  obtain ⟨p, hp, hShape⟩ := List.mem_map.mp hMem
  exact ⟨p, hp, congrArg (·.2.1) hShape⟩

/-! ## Commands -/

/-- What holds of a scanned command by itself. -/
structure IsScanned (c : Command) : Prop where
  kind_ne_error : ∀ p ∈ c.signature.arguments, p.kind ≠ .error
  errorReturns_le : c.signature.errorReturns ≤ 1
  lower_ne : lower c.exposed ≠ helpName

theorem isScanned_of_commandOfLines {target : String} {s : FunctionSignature}
    {lines : List String} {c : Command} (h : commandOfLines target s lines = .ok c) :
    IsScanned c := by
  unfold commandOfLines at h
  obtain ⟨signature, hSignature, h⟩ := bind_eq_ok.mp h
  obtain ⟨draft, hDraft, h⟩ := bind_eq_ok.mp h
  obtain ⟨hHelp, h⟩ := throw_or_eq_ok.mp h
  cases h
  obtain ⟨hKinds, hErrors⟩ := of_describe (mapError_eq_ok.mp hSignature)
  have hShapes := Draft.map_shape_foldlM (mapError_eq_ok.mp hDraft)
  refine ⟨?_, hErrors, ?_⟩
  · intro q hq
    obtain ⟨p, hp, hKind⟩ := kind_mem_of_map_shape_eq hShapes hq
    rw [← hKind]
    exact hKinds p hp
  · intro hLower
    exact hHelp ((sameUpToAsciiCase_iff_lower_eq (by decide)).mpr hLower)

theorem isScanned_of_commandOf {modulePath : String} {f : Function} {c : Command}
    (h : commandOf modulePath f = .ok (some c)) : IsScanned c := by
  unfold commandOf at h
  split at h
  · cases h
  · cases hLines : commandOfLines (modulePath ++ "::" ++ f.signature.name) f.signature
      (directiveLines f.attributes) with
    | error e => simp [hLines, Functor.map, Except.map] at h
    | ok c' =>
      simp only [hLines, Functor.map, Except.map, Except.ok.injEq, Option.some.injEq] at h
      exact h ▸ isScanned_of_commandOfLines hLines

theorem isScanned_of_commandsOf {modulePath : String} {items : List Item}
    {commands : List Command} (h : commandsOf modulePath items = .ok commands) :
    ∀ c ∈ commands, IsScanned c := by
  unfold commandsOf at h
  obtain ⟨found, hFound, h⟩ := bind_eq_ok.mp h
  cases h
  intro c hc
  obtain ⟨item?, hMem, hSome⟩ := List.mem_filterMap.mp hc
  obtain rfl : item? = some c := hSome
  obtain ⟨item, -, hItem⟩ := exists_of_forall₂_of_mem (mapM_eq_ok_iff.mp hFound) hMem
  cases item with
  | function f => exact isScanned_of_commandOf hItem
  | other => cases hItem

end CommandDispatch.Scan
