import Mathlib.Data.List.Forall2
import CommandDispatch.Dispatcher.Generate
import CommandDispatch.Proofs.Dispatcher.Callee
import CommandDispatch.Proofs.Dispatcher.Check
import CommandDispatch.Proofs.Naming.Identifier

/-!
# Dispatchers of checked commands

What a dispatcher does should not depend on its names, as long as no two are the same. So we say
what it means that a dispatcher realizes checked commands, for names of any type.

* `Realizes`: the rows and the arms are those of the commands, and all names are different,
* `realizes_ofEntries`: the dispatcher with numbers for names realizes its commands,
* `Realizes.map`: so does every dispatcher with other names for it, if they are all different,
* `readCalls_withNames`: with drawn names, calls of paths that can be called are read,
* `realizes_of_ofProgram`: the dispatcher of a program with the names of an allocator.
-/

namespace CommandDispatch.Dispatcher

open Command Naming

variable {ι κ : Type}

/-! ## Realizing -/

/-- The statement binds the argument. The index is that of the next positional. -/
inductive Binding.Reads (index : Nat) : Argument → Binding ι → Prop
  | positional (name kind label) :
      Reads index (.positional kind label) (.positional name kind index label)
  | flag (name raw kind key label) :
      Reads index (.flag kind key label) (.flag name raw kind key label)
  | absent (name) : Reads index .absent (.absent name)

/-- The statements bind the arguments in order. -/
inductive Binds : (index : Nat) → List Argument → List (Binding ι) → Prop
  | nil {index} : Binds index [] []
  | cons {index a b arguments bindings} (reads : Binding.Reads index a b)
      (rest : Binds (indexAfter index a) arguments bindings) :
      Binds index (a :: arguments) (b :: bindings)

/-- The row is that of a checked command. -/
structure Row.Shows (r : Row ι) (e : Entry) : Prop where
  key_eq : r.key = e.key
  exposed_eq : r.exposed = e.command.exposed
  description_eq : r.description = e.command.description
  target_eq : r.target = e.command.target

/-- The arm is that of a checked command. -/
structure Arm.Calls (a : Arm ι) (e : Entry) : Prop where
  required_eq : a.required = e.command.signature.requiredCount
  binds : Binds 0 e.arguments a.bindings
  target_eq : a.target = e.command.target
  path_eq : a.path = e.path
  isSome_error : a.error.isSome = e.mayFail

/-- The dispatcher is one of the checked commands. Its names are all different. -/
structure Realizes (d : Dispatcher ι) (entries : List Entry) : Prop where
  rows : List.Forall₂ Row.Shows d.rows entries
  arms : List.Forall₂ Arm.Calls d.arms entries
  variants_eq : d.arms.map Arm.variant = d.variants
  usage_eq : d.usage = usageText entries
  nodup : d.binders.Nodup

/-! ## Numbers for names -/

/-- The numbers from one on, in order. -/
def IsRunFrom (next : Nat) (l : List Nat) : Prop :=
  l = List.range' next l.length

theorem IsRunFrom.append {next : Nat} {l m : List Nat} (hl : IsRunFrom next l)
    (hm : IsRunFrom (next + l.length) m) : IsRunFrom next (l ++ m) := by
  unfold IsRunFrom at *
  rw [List.length_append, ← List.range'_append_1, ← hl, ← hm]

theorem isRunFrom_bindingOf (next index : Nat) (a : Argument) :
    IsRunFrom next (bindingOf next index a).binders := by
  cases a <;> rfl

theorem isRunFrom_bindingsFrom (next index : Nat) (arguments : List Argument) :
    IsRunFrom next ((bindingsFrom next index arguments).flatMap Binding.binders) := by
  induction arguments generalizing next index with
  | nil => rfl
  | cons a arguments ih =>
    rw [bindingsFrom, List.flatMap_cons]
    exact (isRunFrom_bindingOf next index a).append (ih _ _)

theorem isRunFrom_armOf (variant next : Nat) (e : Entry) :
    IsRunFrom next (armOf variant next e).binders := by
  refine (isRunFrom_bindingsFrom next 0 e.arguments).append ?_
  simp only [armOf]
  cases e.mayFail <;> rfl

theorem isRunFrom_armsFrom (variant next : Nat) (entries : List Entry) :
    IsRunFrom next ((armsFrom variant next entries).flatMap Arm.binders) := by
  induction entries generalizing variant next with
  | nil => rfl
  | cons e entries ih =>
    rw [armsFrom, List.flatMap_cons]
    exact (isRunFrom_armOf variant next e).append (ih _ _)

theorem variants_armsFrom (variant next : Nat) (entries : List Entry) :
    (armsFrom variant next entries).map Arm.variant = List.range' variant entries.length := by
  induction entries generalizing variant next with
  | nil => rfl
  | cons e entries ih =>
    rw [armsFrom, List.map_cons, ih, List.length_cons, List.range'_succ]
    rfl

theorem variants_ofEntries (moduleName : String) (entries : List Entry) :
    (ofEntries moduleName entries).variants = List.range' 0 entries.length := by
  apply List.ext_getElem
  · simp [ofEntries, variants]
  · intro i hi hi'
    simp [ofEntries, variants, rowOf]

theorem isRunFrom_ofEntries (moduleName : String) (entries : List Entry) :
    IsRunFrom 0 (ofEntries moduleName entries).binders := by
  have hVariants := variants_ofEntries moduleName entries
  unfold binders
  refine IsRunFrom.append ?_ (IsRunFrom.append ?_ ?_)
  · rw [IsRunFrom, hVariants, List.length_range']
  · rw [hVariants, List.length_range', Nat.zero_add]
    rfl
  · rw [hVariants, List.length_range', Nat.zero_add]
    exact isRunFrom_armsFrom _ _ _

theorem binds_bindingsFrom (next index : Nat) (arguments : List Argument) :
    Binds index arguments (bindingsFrom next index arguments) := by
  induction arguments generalizing next index with
  | nil => exact .nil
  | cons a arguments ih =>
    refine .cons ?_ (ih _ _)
    cases a with
    | positional kind label => exact .positional _ _ _
    | flag kind key label => exact .flag _ _ _ _ _
    | absent => exact .absent _

theorem calls_armOf (variant next : Nat) (e : Entry) : (armOf variant next e).Calls e where
  required_eq := rfl
  binds := binds_bindingsFrom _ _ _
  target_eq := rfl
  path_eq := rfl
  isSome_error := by
    simp only [armOf]
    cases e.mayFail <;> rfl

theorem calls_armsFrom (variant next : Nat) (entries : List Entry) :
    List.Forall₂ Arm.Calls (armsFrom variant next entries) entries := by
  induction entries generalizing variant next with
  | nil => exact .nil
  | cons e entries ih => exact .cons (calls_armOf _ _ _) (ih _ _)

theorem shows_ofEntries (moduleName : String) (entries : List Entry) :
    List.Forall₂ Row.Shows (ofEntries moduleName entries).rows entries := by
  refine List.forall₂_iff_get.mpr ⟨by simp [ofEntries], fun i hi hi' => ?_⟩
  simp only [ofEntries, List.get_eq_getElem, List.getElem_mapIdx]
  exact ⟨rfl, rfl, rfl, rfl⟩

theorem realizes_ofEntries (moduleName : String) (entries : List Entry) :
    Realizes (ofEntries moduleName entries) entries where
  rows := shows_ofEntries moduleName entries
  arms := calls_armsFrom _ _ _
  variants_eq := (variants_armsFrom _ _ _).trans (variants_ofEntries moduleName entries).symm
  usage_eq := rfl
  nodup := by
    rw [isRunFrom_ofEntries moduleName entries]
    exact List.nodup_range'

/-! ## Other names -/

theorem binders_map (f : ι → κ) (d : Dispatcher ι) : (d.map f).binders = d.binders.map f := by
  have hBinding : ∀ b : Binding ι, (b.map f).binders = b.binders.map f := by
    intro b
    cases b <;> rfl
  have hArm : ∀ a : Arm ι, (a.map f).binders = a.binders.map f := by
    intro a
    simp only [Arm.binders, Arm.map, List.flatMap_map, hBinding, List.map_append, List.map_flatMap,
      Option.toList_map]
  simp only [binders, variants, locals, map, LookupNames.toList, LookupNames.map, StartNames.toList,
    StartNames.map, Row.map, List.map_append, List.map_map, List.map_cons, List.map_nil,
    List.flatMap_map, List.map_flatMap, hArm, Function.comp_def]

theorem Binds.map {index : Nat} {arguments : List Argument} {bindings : List (Binding ι)}
    (h : Binds index arguments bindings) (f : ι → κ) :
    Binds index arguments (bindings.map (·.map f)) := by
  induction h with
  | nil => exact .nil
  | cons reads _ ih =>
    refine .cons ?_ ih
    cases reads with
    | positional => exact .positional _ _ _
    | flag => exact .flag _ _ _ _ _
    | absent => exact .absent _

theorem Arm.Calls.map {a : Arm ι} {e : Entry} (h : a.Calls e) (f : ι → κ) : (a.map f).Calls e where
  required_eq := h.required_eq
  binds := h.binds.map f
  target_eq := h.target_eq
  path_eq := h.path_eq
  isSome_error := by
    rw [← h.isSome_error]
    exact Option.isSome_map

/-- A dispatcher with other names realizes the same commands, if the names are all different. -/
theorem Realizes.map {d : Dispatcher ι} {entries : List Entry} (h : Realizes d entries) {f : ι → κ}
    (hNodup : (d.binders.map f).Nodup) : Realizes (d.map f) entries where
  rows := List.forall₂_map_left_iff.mpr <|
    h.rows.imp fun _ _ hRow => ⟨hRow.key_eq, hRow.exposed_eq, hRow.description_eq, hRow.target_eq⟩
  arms := List.forall₂_map_left_iff.mpr <| h.arms.imp fun _ _ hArm => hArm.map f
  variants_eq := by
    have hVariants := congrArg (List.map f) h.variants_eq
    simp only [Dispatcher.map, variants, List.map_map] at hVariants ⊢
    exact hVariants
  usage_eq := h.usage_eq
  nodup := binders_map f d ▸ hNodup

theorem length_exportedNames (d : Dispatcher ι) : d.exportedNames.length = d.binders.length := by
  simp [exportedNames, binders]

/-- Names drawn for numbers stand in their order. -/
theorem map_getD_of_isRunFrom {l : List Nat} {names : List String} (hl : IsRunFrom 0 l)
    (hLength : names.length = l.length) : l.map (fun i => names.toArray.getD i "") = names := by
  rw [hl, ← hLength]
  apply List.ext_getElem
  · simp
  · intro i hi hi'
    simp [hi']

/-! ## Programs -/

variable {σ : Type} [Naming.Source σ]

/-- What a program has gone through when it has a dispatcher: its commands were checked, its names
were drawn in one run after the words to keep free were reserved, and its calls were read. -/
structure IsGenerated (p : Program) (a : Allocator σ) (entries : List Entry) (names : List String)
    (d : Dispatcher String) : Prop where
  check_eq : check p = .ok entries
  parseName_eq : Source.parseName p.moduleName = some p.moduleName
  nextEach_eq : ∃ b, Allocator.nextEach ((reservedNames entries).foldl Allocator.reserve a)
    (ofEntries p.moduleName entries).exportedNames = (some names, b)
  readCalls_eq : readCalls d = .ok d
  eq_withNames : d = (ofEntries p.moduleName entries).withNames names

/-- Reading the calls leaves the dispatcher as it is. -/
theorem eq_of_readCalls {d d' : Dispatcher String} (h : readCalls d = .ok d') : d' = d := by
  unfold readCalls at h
  split_ifs at h
  exact (Except.ok.inj h).symm

theorem exists_isGenerated_of_ofProgram {p : Program} {a : Allocator σ} {d : Dispatcher String}
    (h : (ofProgram p a).1 = .ok d) : ∃ entries names, IsGenerated p a entries names d := by
  unfold ofProgram at h
  cases hCheck : check p with
  | error e =>
    rw [hCheck] at h
    cases h
  | ok entries =>
    rw [hCheck] at h
    simp only [named] at h
    split at h
    · cases h
    · rename_i hName
      split at h
      · cases h
      · rename_i names b hNames
        have hEq := eq_of_readCalls h
        exact ⟨entries, names, hCheck, not_not.mp hName, ⟨b, hNames⟩, hEq ▸ h, hEq⟩

/-- The names that are put in the place of the numbers are those that the dispatcher binds. -/
theorem binders_withNames {moduleName : String} {entries : List Entry} {names : List String}
    {used : Std.HashSet String}
    (h : List.Forall₂ (Allocator.IsDrawn used) (ofEntries moduleName entries).exportedNames names) :
    ((ofEntries moduleName entries).withNames names).binders = names := by
  have hLength := h.length_eq
  rw [length_exportedNames] at hLength
  rw [withNames, binders_map]
  exact map_getD_of_isRunFrom (isRunFrom_ofEntries moduleName entries) hLength.symm

/-- With names that are all different the commands are realized. -/
theorem realizes_withNames {moduleName : String} {entries : List Entry} {names : List String}
    {used : Std.HashSet String}
    (h : List.Forall₂ (Allocator.IsDrawn used) (ofEntries moduleName entries).exportedNames names)
    (hNodup : names.Nodup) :
    Realizes ((ofEntries moduleName entries).withNames names) entries := by
  have hBinders := binders_withNames h
  rw [withNames] at hBinders ⊢
  apply (realizes_ofEntries moduleName entries).map
  rw [← binders_map, hBinders]
  exact hNodup

/-- The names that a dispatcher binds are those that were drawn for it. -/
theorem IsGenerated.binders_eq {p : Program} {a : Allocator σ} {entries : List Entry}
    {names : List String} {d : Dispatcher String} (h : IsGenerated p a entries names d) :
    d.binders = names := by
  obtain ⟨b, hNames⟩ := h.nextEach_eq
  rw [h.eq_withNames, binders_withNames (Allocator.nextEach_eq_some hNames).1]

theorem IsGenerated.realizes {p : Program} {a : Allocator σ} {entries : List Entry}
    {names : List String} {d : Dispatcher String} (h : IsGenerated p a entries names d) :
    Realizes d entries := by
  obtain ⟨b, hNames⟩ := h.nextEach_eq
  obtain ⟨hDrawn, hNodup⟩ := Allocator.nextEach_eq_some hNames
  rw [h.eq_withNames]
  exact realizes_withNames hDrawn hNodup

theorem realizes_of_ofProgram {p : Program} {a : Allocator σ} {d : Dispatcher String}
    (h : (ofProgram p a).1 = .ok d) : ∃ entries, check p = .ok entries ∧ Realizes d entries := by
  obtain ⟨entries, names, hGenerated⟩ := exists_isGenerated_of_ofProgram h
  exact ⟨entries, hGenerated.check_eq, hGenerated.realizes⟩

/-- What is drawn for the names of a dispatcher is identifiers. -/
theorem isIdentifier_of_mem_binders {moduleName : String} {entries : List Entry}
    {names : List String} {used : Std.HashSet String}
    (h : List.Forall₂ (Allocator.IsDrawn used) (ofEntries moduleName entries).exportedNames names) :
    ∀ w ∈ ((ofEntries moduleName entries).withNames names).binders, Source.IsIdentifier w := by
  rw [binders_withNames h]
  intro w hw
  obtain ⟨exported, -, hDrawn⟩ := exists_of_forall₂_of_mem h hw
  exact hDrawn.isIdentifier

/-- With names that are drawn the calls of checked commands are read, if their paths can be
called. -/
theorem readCalls_withNames {p : Program} {entries : List Entry} (hCheck : check p = .ok entries)
    {names : List String} {used : Std.HashSet String}
    (h : List.Forall₂ (Allocator.IsDrawn used) (ofEntries p.moduleName entries).exportedNames names)
    (hCallees : ∀ e ∈ entries, e.path.isCallee = true) :
    readCalls ((ofEntries p.moduleName entries).withNames names) =
      .ok ((ofEntries p.moduleName entries).withNames names) := by
  let d := (ofEntries p.moduleName entries).withNames names
  have hCalls : List.Forall₂ Arm.Calls d.arms entries :=
    List.forall₂_map_left_iff.mpr <|
      (realizes_ofEntries p.moduleName entries).arms.imp fun _ _ hArm => hArm.map _
  have hRead (forms : Source.Forms) : d.arms.all (Arm.isRead forms) = true := by
    rw [List.all_eq_true]
    intro arm hArm
    obtain ⟨e, he, hCall⟩ := exists_of_forall₂_of_mem hCalls.flip hArm
    have hPath := Source.isReadable_of_parsePath
      ((isCheckOf_of_check hCheck).isChecked e he).path_eq
    rw [← hCall.path_eq] at hPath
    refine Arm.isRead_of_isCallee hPath (hCall.path_eq ▸ hCallees e he) (fun w hw => ?_) forms
    refine isIdentifier_of_mem_binders h w (List.mem_append_right _ (List.mem_append_right _ ?_))
    exact List.mem_flatMap.mpr ⟨arm, hArm, hw⟩
  rw [readCalls, hRead, hRead]
  rfl

/-- The dispatcher of a program with the words of given numbers, if these are free and no two are
the same. -/
theorem ofProgram_script {p : Program} {entries : List Entry} {numbers : List Nat}
    {words : List String} (hCheck : check p = .ok entries)
    (hName : Source.parseName p.moduleName = some p.moduleName)
    (hCallees : ∀ e ∈ entries, e.path.isCallee = true)
    (hLength : numbers.length = (ofEntries p.moduleName entries).exportedNames.length)
    (hWords : Script.words ⟨numbers⟩ (ofEntries p.moduleName entries).exportedNames = words)
    (hNodup : words.Nodup) (hFree : ∀ w ∈ words, w ∉ reservedNames entries ∧ w ∉ keywords) :
    (ofProgram p ⟨Script.mk numbers, ∅⟩).1 =
      .ok ((ofEntries p.moduleName entries).withNames words) := by
  subst hWords
  have hSource := Allocator.source_foldl_reserve ⟨Script.mk numbers, ∅⟩ (reservedNames entries)
  have hIsFree : ∀ w ∈ Script.words ⟨numbers⟩ (ofEntries p.moduleName entries).exportedNames,
      Allocator.isFree
        ((reservedNames entries).foldl Allocator.reserve ⟨Script.mk numbers, ∅⟩).used w = true := by
    intro w hw
    obtain ⟨hReserved, hKeyword⟩ := hFree w hw
    rw [Allocator.isFree_foldl_reserve]
    exact ⟨hReserved, by simp [Allocator.isFree, hKeyword]⟩
  have hNames := Allocator.nextEach_script hLength hNodup hIsFree
  rw [ofProgram, hCheck]
  dsimp only
  generalize (reservedNames entries).foldl Allocator.reserve ⟨Script.mk numbers, ∅⟩ = a at *
  obtain ⟨source, used⟩ := a
  obtain rfl : source = Script.mk numbers := hSource
  rw [named, if_neg (not_not_intro hName)]
  simp only [hNames]
  exact readCalls_withNames hCheck (Allocator.nextEach_eq_some hNames).1 hCallees

/-- A text that is generated is that of the dispatcher of the program. -/
theorem exists_of_generateWith {p : Program} {a : Allocator σ} {text : String}
    (h : (generateWith p a).1 = .ok text) :
    ∃ d, (ofProgram p a).1 = .ok d ∧ d.text = text := by
  obtain ⟨d, hDispatcher, hText⟩ := bind_eq_ok.mp h
  refine ⟨d, hDispatcher, ?_⟩
  unfold checkedText at hText
  split at hText
  · cases hText
  · exact Except.ok.inj hText

end CommandDispatch.Dispatcher
