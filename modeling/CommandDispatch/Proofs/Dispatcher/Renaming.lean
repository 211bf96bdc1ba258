import CommandDispatch.Proofs.Dispatcher.Outcome
import CommandDispatch.Proofs.Layout.Renaming

/-!
# Generated dispatchers differ in their names only

The printer treats a name as a part of its own and never looks at it, so a document goes along with
a change of names (`rename_doc`). That the names in it are those that the dispatcher binds follows
without another look at the printer: a change of other names changes nothing in the dispatcher
(`map_congr`), so nothing in its document either (`mem_binders_of_mem_doc`).

* `IsEmitted`: what drawing the names of a module comes to, whether or not its targets can be
  called,
* `exists_renaming`: the modules that two allocators lead to, with the correspondence of their
  names.
-/

namespace CommandDispatch.Dispatcher

open Arguments Command Layout Naming Source

variable {ι κ : Type} (f : ι → κ)

/-! ## Paths -/

@[simp]
theorem rename_tupleDoc (ds : List (Doc ι)) :
    (tupleDoc ds).rename f = tupleDoc (ds.map (Doc.rename f)) := by
  unfold tupleDoc
  cases ds with
  | nil => simp
  | cons d ds => cases ds <;> simp

mutual

theorem rename_typeDoc (t : Ty) : (typeDoc t : Doc ι).rename f = typeDoc t := by
  cases t with
  | path p => simp [typeDoc, rename_pathDoc p]
  | qualified _ written => simp [typeDoc]
  | paren inner => simp [typeDoc, rename_typeDoc inner]
  | group inner => simp [typeDoc, rename_typeDoc inner]
  | tuple elements => simp [typeDoc, rename_typeDocs elements]
  | reference lifetime isMutable inner => simp [typeDoc, rename_typeDoc inner]
  | pointer isMutable inner => cases isMutable <;> simp [typeDoc, rename_typeDoc inner]
  | slice inner => simp [typeDoc, rename_typeDoc inner]
  | array inner length => simp [typeDoc, rename_typeDoc inner]
  | never => simp [typeDoc]
  | hole => simp [typeDoc]
  | other written => simp [typeDoc]

theorem rename_typeDocs (ts : List Ty) :
    (typeDocs ts : List (Doc ι)).map (Doc.rename f) = typeDocs ts := by
  cases ts with
  | nil => rfl
  | cons t ts => simp [typeDocs, rename_typeDoc t, rename_typeDocs ts]

theorem rename_pathDoc (p : Path) (inExpression : Bool) :
    (pathDoc inExpression p : Doc ι).rename f = pathDoc inExpression p := by
  cases p with
  | mk isGlobal segments => simp [pathDoc, rename_segmentsDoc segments]

theorem rename_segmentsDoc (ss : List Segment) (inExpression isAfter : Bool) :
    (segmentsDoc inExpression isAfter ss : Doc ι).rename f =
      segmentsDoc inExpression isAfter ss := by
  cases ss with
  | nil => rfl
  | cons s ss =>
    cases isAfter <;> simp [segmentsDoc, rename_segmentDoc s, rename_segmentsDoc ss]

theorem rename_segmentDoc (s : Segment) (inExpression : Bool) :
    (segmentDoc inExpression s : Doc ι).rename f = segmentDoc inExpression s := by
  cases s with
  | mk name arguments => simp [segmentDoc, rename_argumentsDoc arguments]

theorem rename_argumentsDoc (a : GenericArguments) (inExpression : Bool) :
    (argumentsDoc inExpression a : Doc ι).rename f = argumentsDoc inExpression a := by
  cases a with
  | none => rfl
  | angled turbofish arguments isTrailed =>
    cases arguments with
    | nil => rfl
    | cons a as =>
      cases inExpression <;> simp [argumentsDoc, rename_argumentDocs (a :: as)]

theorem rename_argumentDocs (as : List GenericArgument) (lifetimes : Bool) :
    (argumentDocs lifetimes as : List (Doc ι)).map (Doc.rename f) = argumentDocs lifetimes as := by
  cases as with
  | nil => rfl
  | cons a as =>
    cases a with
    | lifetime name => cases lifetimes <;> simp [argumentDocs, rename_argumentDocs as]
    | type t => cases lifetimes <;> simp [argumentDocs, rename_typeDoc t, rename_argumentDocs as]
    | other written => cases lifetimes <;> simp [argumentDocs, rename_argumentDocs as]

end

/-! ## Statements -/

@[simp]
theorem rename_callDoc (callee : Doc ι) (arguments : List (Doc ι)) :
    (callDoc callee arguments).rename f =
      callDoc (callee.rename f) (arguments.map (Doc.rename f)) := by
  simp [callDoc]

@[simp]
theorem rename_comparisonDoc (left : Doc ι) (operator : String) (right : Doc ι) :
    (comparisonDoc left operator right).rename f =
      comparisonDoc (left.rename f) operator (right.rename f) := by
  simp [comparisonDoc]

@[simp]
theorem rename_operandDoc (arguments : List (Doc ι)) :
    (operandDoc arguments).rename f = operandDoc (arguments.map (Doc.rename f)) := by
  unfold operandDoc
  cases arguments with
  | nil => simp
  | cons d ds => cases ds <;> simp

@[simp]
theorem rename_callOf (p : Path) (arguments : List (Doc ι)) :
    (callOf p arguments).rename f = callOf p (arguments.map (Doc.rename f)) := by
  obtain ⟨isGlobal, segments⟩ := p
  simp only [callOf]
  cases splitAtBinding segments with
  | none => simp [rename_pathDoc]
  | some found =>
    obtain ⟨before, left, right, after⟩ := found
    cases after <;> simp [rename_pathDoc]

@[simp]
theorem rename_methodDoc (receiver : Doc ι) (method : String) (arguments : List (Doc ι)) :
    (methodDoc receiver method arguments).rename f =
      methodDoc (receiver.rename f) method (arguments.map (Doc.rename f)) := by
  simp [methodDoc]

@[simp]
theorem rename_receiverDoc (d : Doc ι) :
    (receiverDoc d).rename f = receiverDoc (d.rename f) := by
  simp [receiverDoc]

@[simp]
theorem rename_statement (d : Doc ι) : (statement d).rename f = statement (d.rename f) := by
  simp [statement]

@[simp]
theorem rename_letDoc (pattern value : Doc ι) :
    (letDoc pattern value).rename f = letDoc (pattern.rename f) (value.rename f) := by
  simp [letDoc]

@[simp]
theorem rename_conditionDoc (keyword : String) (condition : Doc ι) (mayBreak : Bool) :
    (conditionDoc keyword condition mayBreak).rename f =
      conditionDoc keyword (condition.rename f) mayBreak := by
  cases mayBreak <;> simp [conditionDoc]

@[simp]
theorem rename_armDoc (pattern value : Doc ι) :
    (armDoc pattern value).rename f = armDoc (pattern.rename f) (value.rename f) := by
  simp [armDoc]

@[simp]
theorem rename_blockArmDoc (pattern : Doc ι) (body : List (Doc ι)) :
    (blockArmDoc pattern body).rename f =
      blockArmDoc (pattern.rename f) (body.map (Doc.rename f)) := by
  simp [blockArmDoc]

@[simp]
theorem rename_literalDoc (s : String) : (literalDoc s : Doc ι).rename f = literalDoc s :=
  rfl

@[simp]
theorem rename_countDoc (n : Nat) : (countDoc n : Doc ι).rename f = countDoc n :=
  rfl

@[simp]
theorem rename_variantDoc (v : ι) : (variantDoc v).rename f = variantDoc (f v) := by
  simp [variantDoc]

@[simp]
theorem rename_valueDoc (kind : TextKind) (argument receiver : Doc ι) (label : String) :
    (valueDoc kind argument receiver label).rename f =
      valueDoc kind (argument.rename f) (receiver.rename f) label := by
  cases kind <;> simp [valueDoc, converter?]

@[simp]
theorem rename_bindingDoc (flags positionals : ι) (b : Binding ι) :
    (bindingDoc flags positionals b).rename f =
      bindingDoc (f flags) (f positionals) (b.map f) := by
  cases b <;> simp [bindingDoc, Binding.map]

@[simp]
theorem rename_failDoc (error : Doc ι) : (failDoc error).rename f = failDoc (error.rename f) := by
  simp [failDoc]

@[simp]
theorem rename_requireDoc (positionals : ι) (count : Nat) :
    (requireDoc positionals count).rename f = requireDoc (f positionals) count := by
  simp [requireDoc]

@[simp]
theorem rename_invokeDoc (path : Path) (names : List ι) (error : Option ι) :
    (invokeDoc path names error).rename f = invokeDoc path (names.map f) (error.map f) := by
  cases error <;> simp [invokeDoc, Function.comp_def]

@[simp]
theorem rename_noTargetDoc (name : ι) : (noTargetDoc name).rename f = noTargetDoc (f name) := by
  simp [noTargetDoc]

/-- Changes the names of a statement. -/
def ArmStatement.map : ArmStatement ι → ArmStatement κ
  | .require positionals count => .require (f positionals) count
  | .bind flags positionals binding => .bind (f flags) (f positionals) (binding.map f)
  | .finish target path arguments error => .finish target path (arguments.map f) (error.map f)

theorem ArmStatement.rename_docs (st : ArmStatement ι) :
    st.docs.map (Doc.rename f) = (st.map f).docs := by
  cases st <;> simp [docs, map]

theorem Arm.map_statements (s : StartNames ι) (a : Arm ι) :
    (a.statements s).map (ArmStatement.map f) = (a.map f).statements (s.map f) := by
  have hNames : a.bindings.map (fun b => f b.name) = a.bindings.map fun b => (b.map f).name := by
    refine List.map_congr_left fun b _ => ?_
    cases b <;> rfl
  by_cases hRequired : a.required = 0 <;>
    simp [statements, Arm.map, ArmStatement.map, StartNames.map, hRequired, Function.comp_def,
      hNames]

/-- Changes the names of a statement. -/
def Statement.map : Statement ι → Statement κ
  | .takeFirst name input => .takeFirst (f name) (f input)
  | .readText name => .readText (f name)
  | .answerHelp name => .answerHelp (f name)
  | .findTarget target name => .findTarget (f target) (f name)
  | .cut flags positionals input => .cut (f flags) (f positionals) (f input)
  | .choose target arms =>
    .choose (f target) (arms.map fun arm => (f arm.1, arm.2.map (ArmStatement.map f)))

theorem Statement.rename_doc (st : Statement ι) : st.doc.rename f = (st.map f).doc := by
  have hBody (sts : List (ArmStatement ι)) : (sts.flatMap ArmStatement.docs).map (Doc.rename f) =
      sts.flatMap fun st => (st.map f).docs := by
    rw [List.map_flatMap]
    exact List.flatMap_congr fun st _ => st.rename_docs f
  cases st <;> simp [doc, map, hBody, Function.comp_def, List.flatMap_map]

theorem StartNames.map_statements (s : StartNames ι) (arms : List (Arm ι)) :
    (s.statements arms).map (Statement.map f) =
      (s.map f).statements (arms.map (Arm.map f)) := by
  have hStatements (a : Arm ι) : (a.statements s).map (ArmStatement.map f) =
      (a.map f).statements (s.map f) := a.map_statements f s
  simp only [statements, List.map_cons, List.map_nil, Statement.map, StartNames.map, List.map_map,
    Function.comp_def, hStatements]
  rfl

/-! ## Items -/

@[simp]
theorem Row.variant_map (r : Row ι) : (r.map f).variant = f r.variant :=
  rfl

theorem rename_textMethod (documentation name : String) (text : Row ι → String)
    (text' : Row κ → String) (h : ∀ r, text' (r.map f) = text r) (rows : List (Row ι)) :
    (textMethod documentation name text rows).map (Doc.rename f) =
      textMethod documentation name text' (rows.map (Row.map f)) := by
  simp [textMethod, Function.comp_def, h]

theorem rename_targetItems (rows : List (Row ι)) :
    (targetItems rows).map (Doc.rename f) = targetItems (rows.map (Row.map f)) := by
  have hNames := rename_textMethod f "/// Name users type." "name" Row.exposed Row.exposed
    (fun _ => rfl) rows
  have hDescriptions := rename_textMethod f "/// One-line summary shown in `USAGE`." "description"
    Row.description Row.description (fun _ => rfl) rows
  have hVariants : (rows.flatMap fun r =>
        [(rowDocumentation r : Doc ι), Doc.join [Doc.name r.variant, ","]]).map (Doc.rename f) =
      (rows.map (Row.map f)).flatMap fun r =>
        [(rowDocumentation r : Doc κ), Doc.join [Doc.name r.variant, ","]] := by
    rw [List.map_flatMap, List.flatMap_map]
    apply List.flatMap_congr
    intro r _
    simp [rowDocumentation, Row.map]
  simp only [targetItems, List.map_cons, List.map_nil, Doc.rename_braces, Doc.rename_text_cons,
    Doc.rename_nil, hVariants, List.map_append, hNames, hDescriptions]

theorem rename_tableItems (rows : List (Row ι)) :
    (tableItems rows).map (Doc.rename f) = tableItems (rows.map (Row.map f)) := by
  simp [tableItems, Row.map, Function.comp_def]

theorem rename_lookupItems (l : LookupNames ι) :
    (lookupItems l).map (Doc.rename f) = lookupItems (l.map f) := by
  simp [lookupItems, LookupNames.map]

theorem rename_usageItem (usage : String) :
    (usageItem usage : Doc ι).rename f = usageItem usage := by
  simp [usageItem]

theorem rename_startHead (s : StartNames ι) :
    (startHead s).rename f = startHead (s.map f) := by
  simp [startHead, StartNames.map]

theorem rename_startItems (s : StartNames ι) (arms : List (Arm ι)) :
    (startItems s arms).map (Doc.rename f) = startItems (s.map f) (arms.map (Arm.map f)) := by
  have hStatements : (s.statements arms).map (fun st => st.doc.rename f) =
      ((s.map f).statements (arms.map (Arm.map f))).map Statement.doc := by
    rw [← StartNames.map_statements, List.map_map]
    exact List.map_congr_left fun st _ => st.rename_doc f
  simp [startItems, rename_startHead, Function.comp_def, hStatements]

theorem rename_allowedDoc : (allowedDoc : Doc ι).rename f = allowedDoc := by
  simp [allowedDoc]

/-- The document of a dispatcher goes along with a change of its names. -/
theorem rename_doc (d : Dispatcher ι) : d.doc.rename f = (d.map f).doc := by
  simp [doc, map, rename_allowedDoc, rename_targetItems, rename_tableItems, rename_lookupItems,
    rename_usageItem, rename_startItems]

/-! ## Names that agree -/

theorem map_map {ν : Type} (g : κ → ν) (d : Dispatcher ι) :
    (d.map f).map g = d.map fun i => g (f i) := by
  have hBindings : ∀ b : Binding ι, (b.map f).map g = b.map fun i => g (f i) := by
    intro b
    cases b <;> rfl
  simp [map, Row.map, Arm.map, LookupNames.map, StartNames.map, hBindings, Function.comp_def]

variable {f} {g : ι → κ}

theorem Binding.map_congr {b : Binding ι} (h : ∀ i ∈ b.binders, f i = g i) :
    b.map f = b.map g := by
  cases b <;> simp_all [Binding.map, Binding.binders]

theorem Arm.map_congr {a : Arm ι} (hVariant : f a.variant = g a.variant)
    (h : ∀ i ∈ a.binders, f i = g i) : a.map f = a.map g := by
  have hBindings : a.bindings.map (·.map f) = a.bindings.map (·.map g) := by
    apply List.map_congr_left
    intro b hb
    apply Binding.map_congr
    intro i hi
    exact h i (List.mem_append_left _ (List.mem_flatMap.mpr ⟨b, hb, hi⟩))
  have hError : a.error.map f = a.error.map g := by
    apply Option.map_congr
    intro i hi
    exact h i (List.mem_append_right _ (Option.mem_toList.mpr hi))
  rw [Arm.map, Arm.map, hVariant, hBindings, hError]

/-- Only the names that a dispatcher binds matter, if each of its arms is that of a row. -/
theorem map_congr {d : Dispatcher ι} (hVariants : d.arms.map Arm.variant = d.variants)
    (h : ∀ i ∈ d.binders, f i = g i) : d.map f = d.map g := by
  have hVariant : ∀ i ∈ d.variants, f i = g i := fun i hi => h i (List.mem_append_left _ hi)
  have hLocal : ∀ i ∈ d.locals, f i = g i := fun i hi => h i (List.mem_append_right _ hi)
  have hRows : d.rows.map (·.map f) = d.rows.map (·.map g) := by
    apply List.map_congr_left
    intro r hr
    rw [Row.map, Row.map, hVariant _ (List.mem_map_of_mem hr)]
  have hArms : d.arms.map (·.map f) = d.arms.map (·.map g) := by
    apply List.map_congr_left
    intro a ha
    apply Arm.map_congr
    · exact hVariant _ (hVariants ▸ List.mem_map_of_mem ha)
    · intro i hi
      exact hLocal i (List.mem_append_right _ (List.mem_flatMap.mpr ⟨a, ha, hi⟩))
  have hNames : d.lookupNames.map f = d.lookupNames.map g ∧
      d.startNames.map f = d.startNames.map g := by
    simp only [locals, LookupNames.toList, StartNames.toList] at hLocal
    constructor
    · simp [LookupNames.map, hLocal]
    · simp [StartNames.map, hLocal]
  rw [map, map, hRows, hArms, hNames.1, hNames.2]

/-- The names in the document of a dispatcher are those that it binds: a change of the others does
not show in it. -/
theorem mem_binders_of_mem_doc {d : Dispatcher ι} (hVariants : d.arms.map Arm.variant = d.variants)
    {i : ι} (hi : Piece.name i ∈ d.doc) : i ∈ d.binders := by
  classical
  have hMap : d.map (fun j => decide (j ∈ d.binders)) = d.map fun _ => true :=
    map_congr hVariants fun j hj => decide_eq_true hj
  have hDoc := congrArg doc hMap
  rw [← rename_doc, ← rename_doc] at hDoc
  exact of_decide_eq_true (Doc.eq_of_rename_eq hDoc hi)

/-! ## Two allocators -/

section

variable {σ τ : Type} [Naming.Source σ] [Naming.Source τ] {p : Program} {entries : List Entry}

/-- The module of a checked program is emitted with names from an allocator: after the words to keep
free have been reserved, each of its names could be drawn. -/
structure IsEmitted (p : Program) (a : Allocator σ) (entries : List Entry) (names : List String)
    (d : Dispatcher String) : Prop where
  check_eq : check p = .ok entries
  nextEach_eq : ∃ b, Allocator.nextEach ((reservedNames entries).foldl Allocator.reserve a)
    (ofEntries p.moduleName entries).exportedNames = (some names, b)
  eq_withNames : d = (ofEntries p.moduleName entries).withNames names

theorem IsGenerated.isEmitted {a : Allocator σ} {names : List String} {d : Dispatcher String}
    (h : IsGenerated p a entries names d) : IsEmitted p a entries names d :=
  ⟨h.check_eq, h.nextEach_eq, h.eq_withNames⟩

namespace IsEmitted

variable {a : Allocator σ} {names : List String} {d : Dispatcher String}

theorem isDrawn (h : IsEmitted p a entries names d) :
    List.Forall₂ (Allocator.IsDrawn ((reservedNames entries).foldl Allocator.reserve a).used)
      (ofEntries p.moduleName entries).exportedNames names := by
  obtain ⟨b, hNames⟩ := h.nextEach_eq
  exact (Allocator.nextEach_eq_some hNames).1

theorem nodup (h : IsEmitted p a entries names d) : names.Nodup := by
  obtain ⟨b, hNames⟩ := h.nextEach_eq
  exact (Allocator.nextEach_eq_some hNames).2

theorem binders_eq (h : IsEmitted p a entries names d) : d.binders = names := by
  rw [h.eq_withNames, binders_withNames h.isDrawn]

theorem realizes (h : IsEmitted p a entries names d) : Realizes d entries := by
  rw [h.eq_withNames]
  exact realizes_withNames h.isDrawn h.nodup

theorem mem_of_mem_doc (h : IsEmitted p a entries names d) {name : String}
    (hName : Piece.name name ∈ d.doc) : name ∈ names := by
  rw [← h.binders_eq]
  exact mem_binders_of_mem_doc h.realizes.variants_eq hName

/-- Two lists of names for one list of commands: a function that takes the one to the other takes
the dispatcher with the one to that with the other. -/
theorem eq_map {b : Allocator τ} {names' : List String} {d' : Dispatcher String}
    (h : IsEmitted p a entries names d) (h' : IsEmitted p b entries names' d')
    {f : String → String} (hf : names.map f = names') : d' = d.map f := by
  have hNames := h.binders_eq
  have hNames' := h'.binders_eq
  rw [h.eq_withNames, withNames, binders_map] at hNames
  rw [h'.eq_withNames, withNames, binders_map] at hNames'
  have hAgree : (ofEntries p.moduleName entries).binders.map (fun i => names'.toArray.getD i "") =
      (ofEntries p.moduleName entries).binders.map fun i => f (names.toArray.getD i "") := by
    calc
      _ = names' := hNames'
      _ = names.map f := hf.symm
      _ = ((ofEntries p.moduleName entries).binders.map fun i => names.toArray.getD i "").map f :=
        congrArg (List.map f) hNames.symm
      _ = _ := List.map_map
  rw [h'.eq_withNames, h.eq_withNames, withNames, withNames, map_map]
  exact map_congr (realizes_ofEntries p.moduleName entries).variants_eq
    (List.map_inj_left.mp hAgree)

end IsEmitted

/-- Distinct elements are taken one by one to the elements of a list that is as long. -/
theorem exists_map_eq {α β : Type} [Inhabited β] {l : List α} {m : List β} (hNodup : l.Nodup)
    (hLength : l.length = m.length) : ∃ f : α → β, l.map f = m := by
  classical
  refine ⟨fun x => m.getD (l.idxOf x) default, ?_⟩
  apply List.ext_getElem
  · simpa using hLength
  · intro i hi hi'
    simp [hNodup.idxOf_getElem, hi']

/-- Let the module of a program be emitted with names from two allocators. The names that one drew
correspond to those that the other drew, one to one. The modules are the same part by part but for
their names, and where one has a name that was drawn, the other has the corresponding one. They also
do the same. -/
theorem exists_renaming (p : Program) (a : Allocator σ) (b : Allocator τ) :
    (∀ text, (generateWith p a).1 = .ok text → ∃ d, (ofProgram p a).1 = .ok d ∧ d.text = text) ∧
    (∀ d, (ofProgram p a).1 = .ok d → ∃ entries names, IsEmitted p a entries names d) ∧
    ∀ entries names d entries' names' d', IsEmitted p a entries names d →
      IsEmitted p b entries' names' d' →
      ∃ f : String → String, names.map f = names' ∧ Set.InjOn f {name | name ∈ names} ∧
        d' = d.map f ∧ d'.doc = d.doc.map (Piece.map f) ∧
        (∀ name, Piece.name name ∈ d.doc → name ∈ names) ∧
        (∀ name, Piece.name name ∈ d'.doc → name ∈ names') ∧
        ∀ (ρ : Type) (functions : String → List Bound → Effect ρ) (arguments : List String),
          d'.run functions arguments = d.run functions arguments := by
  refine ⟨fun text h => exists_of_generateWith h, fun d hDispatcher => ?_, ?_⟩
  · obtain ⟨entries, names, h⟩ := exists_isGenerated_of_ofProgram hDispatcher
    exact ⟨entries, names, h.isEmitted⟩
  · intro entries names d entries' names' d' h h'
    obtain rfl : entries = entries' := Except.ok.inj (h.check_eq.symm.trans h'.check_eq)
    have hLength : names.length = names'.length := by
      rw [← h.isDrawn.length_eq, ← h'.isDrawn.length_eq]
    obtain ⟨f, hf⟩ := exists_map_eq h.nodup hLength
    have hMap := h.eq_map h' hf
    have hInj : Set.InjOn f {name | name ∈ names} := fun x hx y hy hEq =>
      List.inj_on_of_nodup_map (hf ▸ h'.nodup) hx hy hEq
    have hDoc : d'.doc = d.doc.map (Piece.map f) := by
      rw [hMap, ← rename_doc, Doc.rename]
    refine ⟨f, hf, hInj, hMap, hDoc, fun _ => h.mem_of_mem_doc, fun _ => h'.mem_of_mem_doc, ?_⟩
    intro ρ functions arguments
    have hc := isCheckOf_of_check h.check_eq
    rw [h'.realizes.run_eq hc, h.realizes.run_eq hc, h'.realizes.usage_eq, h.realizes.usage_eq]

end

/-- The same words in another order, so that each variant has the name that the other one has with
`twoCommandsSource`. -/
def swappedSource : Script :=
  ⟨[1, 0, 3, 2, 5, 4, 7, 6, 9, 8, 17, 16, 19, 18, 21, 20, 22]⟩

def swappedDispatcher : Dispatcher String :=
  let d := ofEntries "m" [askEntry, sayEntry]
  d.withNames (swappedSource.words d.exportedNames)

theorem ofProgram_swapped :
    (ofProgram twoCommands ⟨swappedSource, ∅⟩).1 = .ok swappedDispatcher := by
  have hWords : swappedSource.words (ofEntries "m" [askEntry, sayEntry]).exportedNames =
      ["B", "A", "d", "c", "f", "e", "h", "g", "j", "i", "bb", "ba", "bd", "bc", "bf", "be",
        "bg"] := by
    decide
  have hFree : ∀ w ∈ ["B", "A", "d", "c", "f", "e", "h", "g", "j", "i", "bb", "ba", "bd", "bc",
      "bf", "be", "bg"], w ∉ reservedNames [askEntry, sayEntry] ∧ w ∉ keywords := by
    rw [reservedNames_twoCommands]
    decide
  have hProgram := ofProgram_script check_twoCommands (by decide +kernel) isCallee_twoCommands
    (by decide) hWords (by decide) hFree
  rw [← hWords] at hProgram
  exact hProgram

/-- The variants change their names, and with them the rows and the arms. -/
theorem exists_renaming_swapped :
    ∃ f : String → String, f "A" = "B" ∧ f "B" = "A" ∧ f "c" = "d" ∧
      swappedDispatcher = twoCommandsDispatcher.map f ∧
      swappedDispatcher.doc = twoCommandsDispatcher.doc.map (Piece.map f) := by
  obtain ⟨-, hEmitted, hRenaming⟩ :=
    exists_renaming twoCommands ⟨twoCommandsSource, ∅⟩ (⟨swappedSource, ∅⟩ : Allocator Script)
  obtain ⟨entries, names, h⟩ := hEmitted _ ofProgram_twoCommands
  obtain ⟨entries', names', h'⟩ :=
    (exists_renaming twoCommands ⟨swappedSource, ∅⟩ ⟨swappedSource, ∅⟩).2.1 _ ofProgram_swapped
  obtain ⟨f, hf, -, hMap, hDoc, -⟩ := hRenaming _ _ _ _ _ _ h h'
  have hNames : ["A", "B", "c", "d", "e", "f", "g", "h", "i", "j", "ba", "bb", "bc", "bd", "be",
      "bf", "bg"].map f = swappedDispatcher.binders := by
    rw [h'.binders_eq, ← hf, ← h.binders_eq]
    rfl
  have hBinders : swappedDispatcher.binders = ["B", "A", "d", "c", "f", "e", "h", "g", "j", "i",
      "bb", "ba", "bd", "bc", "bf", "be", "bg"] := by
    decide
  rw [hBinders] at hNames
  simp only [List.map_cons, List.cons.injEq] at hNames
  obtain ⟨hA, hB, hc, -⟩ := hNames
  exact ⟨f, hA, hB, hc, hMap, hDoc⟩

end CommandDispatch.Dispatcher
