import Mathlib.Data.List.Nodup
import CommandDispatch.Dispatcher.Evaluation
import CommandDispatch.Proofs.Dispatcher.Realize

/-!
# Running a dispatcher

The names of a dispatcher are all different, so no variable hides another one, and no statement is
stuck. What remains of its names is what they hold.

* `values` is what arguments are bound to: the scopes are gone, only the index of the next
  positional is left,
* `runAll_next`, `runAll_done`, `runAll_throw`: what the first of some statements comes to,
* `start_cons`: a run up to the arm of a command,
* `Arm.run_of_calls`: an arm checks the number of positionals, finds the values of its arguments and
  calls the function with them.
-/

namespace CommandDispatch.Dispatcher

open Arguments Command Text

variable {ι : Type}

/-! ## Values of arguments -/

/-- What an argument is bound to. The index is that of the next positional. -/
def Argument.value (s : Sliced) (index : Nat) : Argument → Except ConversionError Bound
  | .positional kind label =>
    (kind.convert (s.positionals.getD index "") label).map .required
  | .flag kind key label =>
    match s.flags[key]? with
    | some raw => (kind.convert raw label).map fun v => .optional (some v)
    | none => .ok (.optional none)
  | .absent => .ok (.optional none)

/-- What arguments are bound to, in order. -/
def values (s : Sliced) : (index : Nat) → List Argument → Except ConversionError (List Bound)
  | _, [] => .ok []
  | index, a :: others => do
    let v ← a.value s index
    return v :: (← values s (indexAfter index a) others)

theorem le_foldl_indexAfter (index : Nat) (arguments : List Argument) :
    index ≤ arguments.foldl indexAfter index := by
  induction arguments generalizing index with
  | nil => exact Nat.le_refl _
  | cons a arguments ih =>
    have hStep : index ≤ indexAfter index a := by
      cases a <;> simp [indexAfter]
    exact Nat.le_trans hStep (ih _)

/-! ## Runs -/

@[simp]
theorem throw_bind {α β : Type} (e : DispatchError) (f : α → Run β) :
    ((throw e : Run α) >>= f) = throw e :=
  rfl

@[simp]
theorem orStuck_some {α : Type} (a : α) : orStuck (some a) = pure a :=
  rfl

theorem convert_eq (kind : TextKind) (raw label : String) :
    convert kind raw label =
      match kind.convert raw label with
      | .ok v => pure v
      | .error e => throw (.conversion e) :=
  rfl

section

variable {α β : Type} {run : Scope ι → α → Run (Progress ι β)} {scope : Scope ι} {first : α}

theorem runAll_next {inner : Scope ι} (h : run scope first = pure (.next inner))
    (others : List α) : runAll run scope (first :: others) = runAll run inner others := by
  rw [runAll, h]
  rfl

theorem runAll_done {b : β} (h : run scope first = pure (.done b)) (others : List α) :
    runAll run scope (first :: others) = pure b := by
  rw [runAll, h]
  rfl

theorem runAll_throw {e : DispatchError} (h : run scope first = throw e) (others : List α) :
    runAll run scope (first :: others) = throw e := by
  rw [runAll, h]
  rfl

end

variable [DecidableEq ι]

namespace Scope

@[simp]
theorem get?_cons_self (scope : Scope ι) (name : ι) (x : Variable ι) :
    Scope.get? ((name, x) :: scope) name = some x :=
  List.lookup_cons_self

theorem get?_cons_of_ne {scope : Scope ι} {name other : ι} (h : other ≠ name) (x : Variable ι) :
    Scope.get? ((name, x) :: scope) other = scope.get? other := by
  rw [get?, List.lookup_cons, beq_false_of_ne h]
  rfl

/-- The variables for the positionals and the flags hold them. -/
structure Holds (scope : Scope ι) (s : StartNames ι) (sliced : Sliced) : Prop where
  positionals : scope.get? s.positionals = some (.tokens sliced.positionals)
  flags : scope.get? s.flags = some (.flags sliced.flags)

theorem Holds.cons {scope : Scope ι} {s : StartNames ι} {sliced : Sliced}
    (h : scope.Holds s sliced) {name : ι} (hPositionals : s.positionals ≠ name)
    (hFlags : s.flags ≠ name) (x : Variable ι) : Holds ((name, x) :: scope) s sliced where
  positionals := by rw [get?_cons_of_ne hPositionals, h.positionals]
  flags := by rw [get?_cons_of_ne hFlags, h.flags]

end Scope

/-! ## Statements -/

/-- A statement binds what the argument is bound to. -/
theorem Binding.run_of_reads {scope : Scope ι} {s : StartNames ι} {sliced : Sliced}
    (hScope : scope.Holds s sliced) {index : Nat} {a : Argument} {b : Binding ι}
    (h : b.Reads index a) (hIndex : indexAfter index a ≤ sliced.positionals.length) :
    b.run s.flags s.positionals scope =
      match a.value sliced index with
      | .ok v => pure ((b.name, .argument v) :: scope)
      | .error e => throw (.conversion e) := by
  cases h with
  | positional name kind label =>
    have hLt : index < sliced.positionals.length := hIndex
    simp only [run, Scope.tokens, hScope.positionals, pure_bind, List.getElem?_eq_getElem hLt,
      orStuck_some, convert_eq, Argument.value, List.getD_eq_getElem?_getD, Option.getD_some]
    cases kind.convert sliced.positionals[index] label with
    | ok v => rfl
    | error e => rfl
  | flag name raw kind key label =>
    simp only [run, Scope.flags, hScope.flags, pure_bind, Argument.value]
    cases sliced.flags[key]? with
    | none => rfl
    | some given =>
      simp only [Scope.text, Scope.get?_cons_self, pure_bind, convert_eq]
      cases kind.convert given label with
      | ok v => rfl
      | error e => rfl
  | absent name => rfl

/-- Statements for arguments without an error bind what the arguments are bound to, and leave other
variables as they are. -/
theorem Binds.foldlM_run_of_ok {scope : Scope ι} {s : StartNames ι} {sliced : Sliced}
    (hScope : scope.Holds s sliced) {index : Nat} {arguments : List Argument}
    {bindings : List (Binding ι)} (h : Binds index arguments bindings)
    (hIndex : arguments.foldl indexAfter index ≤ sliced.positionals.length)
    (hNames : ∀ b ∈ bindings, s.positionals ≠ b.name ∧ s.flags ≠ b.name)
    (hNodup : (bindings.map Binding.name).Nodup) {vs : List Bound}
    (hValues : values sliced index arguments = .ok vs) :
    ∃ scope' : Scope ι,
      bindings.foldlM (Binding.run s.flags s.positionals) scope = pure scope' ∧
      (∀ name, name ∉ bindings.map Binding.name → scope'.get? name = scope.get? name) ∧
      List.Forall₂ (fun b v => scope'.get? b.name = some (.argument v)) bindings vs := by
  induction h generalizing scope vs with
  | nil =>
    cases hValues
    exact ⟨scope, rfl, fun _ _ => rfl, .nil⟩
  | @cons index a b arguments bindings hReads hRest ih =>
    obtain ⟨v, hValue, hValues⟩ := bind_eq_ok.mp hValues
    obtain ⟨others, hOthers, hEq⟩ := bind_eq_ok.mp hValues
    cases hEq
    have hRun := Binding.run_of_reads hScope hReads
      (Nat.le_trans (le_foldl_indexAfter _ arguments) hIndex)
    simp only [hValue] at hRun
    obtain ⟨hPositionals, hFlags⟩ := hNames b List.mem_cons_self
    rw [List.map_cons, List.nodup_cons] at hNodup
    obtain ⟨scope', hFold, hFrame, hAll⟩ :=
      ih (hScope.cons hPositionals hFlags (.argument v)) hIndex
        (fun c hc => hNames c (List.mem_cons_of_mem b hc)) hNodup.2 hOthers
    refine ⟨scope', by rw [List.foldlM_cons, hRun, pure_bind, hFold], fun name hName => ?_, ?_⟩
    · rw [List.map_cons, List.mem_cons, not_or] at hName
      rw [hFrame name hName.2, Scope.get?_cons_of_ne hName.1]
    -- No later statement binds this name again.
    · refine .cons ?_ hAll
      rw [hFrame b.name hNodup.1, Scope.get?_cons_self]

/-- Statements for arguments with an error return the first one. -/
theorem Binds.foldlM_run_of_error {scope : Scope ι} {s : StartNames ι} {sliced : Sliced}
    (hScope : scope.Holds s sliced) {index : Nat} {arguments : List Argument}
    {bindings : List (Binding ι)} (h : Binds index arguments bindings)
    (hIndex : arguments.foldl indexAfter index ≤ sliced.positionals.length)
    (hNames : ∀ b ∈ bindings, s.positionals ≠ b.name ∧ s.flags ≠ b.name) {e : ConversionError}
    (hValues : values sliced index arguments = .error e) :
    bindings.foldlM (Binding.run s.flags s.positionals) scope = throw (.conversion e) := by
  induction h generalizing scope with
  | nil => cases hValues
  | @cons index a b arguments bindings hReads hRest ih =>
    have hRun := Binding.run_of_reads hScope hReads
      (Nat.le_trans (le_foldl_indexAfter _ arguments) hIndex)
    rw [List.foldlM_cons, hRun]
    rw [values] at hValues
    cases hValue : a.value sliced index with
    | error e' =>
      rw [hValue, error_bind] at hValues
      cases hValues
      rfl
    | ok v =>
      rw [hValue, ok_bind] at hValues
      obtain ⟨hPositionals, hFlags⟩ := hNames b List.mem_cons_self
      simp only [pure_bind]
      apply ih (hScope.cons hPositionals hFlags _) hIndex
      · exact fun c hc => hNames c (List.mem_cons_of_mem b hc)
      · cases hOthers : values sliced (indexAfter index a) arguments with
        | error e' => simpa [hOthers] using hValues
        | ok others => simp [hOthers, pure, Except.pure] at hValues

/-- Variables that hold values are read back. -/
theorem mapM_argument {scope : Scope ι} {bindings : List (Binding ι)} {vs : List Bound}
    (h : List.Forall₂ (fun b v => scope.get? b.name = some (.argument v)) bindings vs) :
    (bindings.map Binding.name).mapM scope.argument = pure vs := by
  induction h with
  | nil => rfl
  | cons hFirst _ ih =>
    rw [List.map_cons, List.mapM_cons, ih, Scope.argument, hFirst]
    rfl

/-! ## Arms -/

/-- The names of an arm are different from each other and from those of the positionals and the
flags. -/
structure Arm.IsApart (a : Arm ι) (s : StartNames ι) : Prop where
  ne : ∀ b ∈ a.bindings, s.positionals ≠ b.name ∧ s.flags ≠ b.name
  nodup : (a.bindings.map Binding.name).Nodup

/-- Runs the statements of an arm. -/
def Arm.run (s : StartNames ι) (scope : Scope ι) (a : Arm ι) : Run Call :=
  runAll ArmStatement.run scope (a.statements s)

/-- The statements that bind run one after the other. -/
theorem runAll_binds (s : StartNames ι) (bindings : List (Binding ι))
    (others : List (ArmStatement ι)) (scope : Scope ι) :
    runAll ArmStatement.run scope (bindings.map (.bind s.flags s.positionals) ++ others) =
      bindings.foldlM (Binding.run s.flags s.positionals) scope >>= fun inner =>
        runAll ArmStatement.run inner others := by
  induction bindings generalizing scope with
  | nil => rfl
  | cons b bindings ih =>
    rw [List.map_cons, List.cons_append, List.foldlM_cons, bind_assoc, runAll, ArmStatement.run,
      bind_assoc]
    refine bind_congr fun inner => ?_
    rw [pure_bind]
    exact ih inner

theorem ArmStatement.run_require {scope : Scope ι} {s : StartNames ι} {sliced : Sliced}
    (hScope : scope.Holds s sliced) (count : Nat) :
    (require s.positionals count).run scope =
      if sliced.positionals.length < count then
        throw (.argument (.notEnough count sliced.positionals.length))
      else pure (.next scope) := by
  simp only [run, Scope.tokens, hScope.positionals, pure_bind]
  split <;> rfl

/-- An arm goes on if there are enough positionals. That there are at least none is not checked. -/
theorem runAll_require {scope : Scope ι} {s : StartNames ι} {sliced : Sliced}
    (hScope : scope.Holds s sliced) (count : Nat) (others : List (ArmStatement ι)) :
    runAll ArmStatement.run scope
        ((if count = 0 then [] else [.require s.positionals count]) ++ others) =
      if sliced.positionals.length < count then
        throw (.argument (.notEnough count sliced.positionals.length))
      else runAll ArmStatement.run scope others := by
  have hRequire := ArmStatement.run_require hScope count
  by_cases hCount : sliced.positionals.length < count
  · rw [if_pos hCount] at hRequire ⊢
    rw [if_neg (Nat.ne_zero_of_lt hCount)]
    exact runAll_throw hRequire others
  · rw [if_neg hCount] at hRequire ⊢
    split
    · rfl
    · exact runAll_next hRequire others

/-- An arm checks the number of positionals, finds the values of its arguments and calls the
function with them. -/
theorem Arm.run_of_calls {a : Arm ι} {e : Entry} (h : a.Calls e) {scope : Scope ι}
    {s : StartNames ι} {sliced : Sliced} (hScope : scope.Holds s sliced) (hApart : a.IsApart s)
    (hIndex : e.arguments.foldl indexAfter 0 = e.command.signature.requiredCount) :
    a.run s scope =
      if sliced.positionals.length < e.command.signature.requiredCount then
        throw (.argument
          (.notEnough e.command.signature.requiredCount sliced.positionals.length))
      else
        match values sliced 0 e.arguments with
        | .ok vs => pure { target := e.command.target, arguments := vs, mayFail := e.mayFail }
        | .error e => throw (.conversion e) := by
  let finish : ArmStatement ι := .finish a.target a.path (a.bindings.map (·.name)) a.error
  have hStatements : a.run s scope = runAll ArmStatement.run scope
      ((if a.required = 0 then [] else [.require s.positionals a.required]) ++
        (a.bindings.map (ArmStatement.bind s.flags s.positionals) ++ [finish])) := by
    rw [Arm.run, Arm.statements, List.append_assoc]
  rw [hStatements, h.required_eq, runAll_require hScope]
  refine ite_congr rfl (fun _ => rfl) fun hCount => ?_
  have hBound : e.arguments.foldl indexAfter 0 ≤ sliced.positionals.length := by
    omega
  rw [runAll_binds]
  cases hValues : values sliced 0 e.arguments with
  | ok vs =>
    obtain ⟨scope', hFold, -, hAll⟩ :=
      h.binds.foldlM_run_of_ok hScope hBound hApart.ne hApart.nodup hValues
    have hFinish : finish.run scope' = pure (.done
        { target := e.command.target, arguments := vs, mayFail := e.mayFail }) := by
      rw [ArmStatement.run, mapM_argument hAll, h.target_eq, h.isSome_error]
      rfl
    rw [hFold, pure_bind]
    exact runAll_done hFinish []
  | error e =>
    simp only [h.binds.foldlM_run_of_error hScope hBound hApart.ne hValues, throw_bind]

/-! ## Statements of `start` -/

namespace Statement

variable {d : Dispatcher ι} {scope : Scope ι} {name : ι} {text : String}

theorem run_takeFirst {input : ι} {first : String} {others : List String}
    (h : scope.get? input = some (.tokens (first :: others))) :
    Statement.run d scope (.takeFirst name input) =
      pure (.next ((name, .text first) :: scope)) := by
  simp only [Statement.run, Scope.tokens, h, pure_bind]

theorem run_readText (h : scope.get? name = some (.text text)) :
    Statement.run d scope (.readText name) = pure (.next ((name, .text text) :: scope)) := by
  simp only [Statement.run, Scope.text, h, pure_bind]

theorem run_answerHelp (h : scope.get? name = some (.text text)) :
    Statement.run d scope (.answerHelp name) =
      if sameUpToAsciiCase text helpName then pure (.done .usage) else pure (.next scope) := by
  simp only [Statement.run, Scope.text, h, pure_bind]

theorem run_findTarget (h : scope.get? name = some (.text text)) (target : ι) :
    Statement.run d scope (.findTarget target name) =
      match d.find text with
      | none => throw (.argument (.noMatchingTarget text))
      | some v => pure (.next ((target, .variant v) :: scope)) := by
  cases hFind : d.find text <;> simp only [Statement.run, Scope.text, h, pure_bind, hFind]

theorem run_cut {input : ι} {ts : List String} (h : scope.get? input = some (.tokens ts))
    (flags positionals : ι) :
    Statement.run d scope (.cut flags positionals input) =
      match slice ts.tail with
      | .error e => throw (.tokenize e)
      | .ok sliced => pure (.next ((positionals, .tokens sliced.positionals) ::
          (flags, .flags sliced.flags) :: scope)) := by
  cases hSlice : slice ts.tail <;> simp only [Statement.run, Scope.tokens, h, pure_bind, hSlice]

/-- The statements of the arm of a command are run. -/
theorem run_choose {target v : ι} (h : scope.get? target = some (.variant v)) (s : StartNames ι)
    (arms : List (Arm ι)) :
    Statement.run d scope (.choose target (arms.map fun a => (a.variant, a.statements s))) = do
      let arm ← orStuck (arms.find? fun a => a.variant = v)
      return .done (.call (← arm.run s scope)) := by
  simp only [Statement.run, Scope.variant, h, pure_bind, List.find?_map, Function.comp_def]
  cases arms.find? fun a => a.variant = v <;> rfl

end Statement

/-! ## Up to an arm -/

/-- The variables of `start` when a command has been found. -/
def StartNames.scope (s : StartNames ι) (name : String) (rest : List String) (v : ι)
    (sliced : Sliced) : Scope ι :=
  [ (s.positionals, .tokens sliced.positionals), (s.flags, .flags sliced.flags),
    (s.target, .variant v), (s.first, .text name), (s.first, .text name),
    (s.input, .tokens (name :: rest)) ]

theorem start_nil (d : Dispatcher ι) : d.start [] = throw (.argument .insufficient) := by
  refine runAll_throw ?_ _
  simp only [Statement.run, Scope.tokens, Scope.get?_cons_self, pure_bind]

/-- The names of the variables of `start` are different from each other. -/
structure StartNames.AreApart (s : StartNames ι) : Prop where
  input_first : s.input ≠ s.first
  input_target : s.input ≠ s.target
  target_flags : s.target ≠ s.flags
  target_positionals : s.target ≠ s.positionals

omit [DecidableEq ι] in
theorem StartNames.areApart {s : StartNames ι} (h : s.toList.Nodup) : s.AreApart := by
  simp only [toList, List.nodup_cons, List.mem_cons, List.not_mem_nil, or_false, not_or] at h
  obtain ⟨⟨hFirst, hTarget, -, -⟩, -, ⟨hFlags, hPositionals⟩, -⟩ := h
  exact ⟨hFirst, hTarget, hFlags, hPositionals⟩

/-- When a command has been found, the tokens after its name are cut, and its arm is run. -/
theorem runAll_cut_choose {d : Dispatcher ι} {s : StartNames ι} (hApart : s.AreApart)
    {scope : Scope ι} {name : String} {rest : List String} {v : ι}
    (hInput : scope.get? s.input = some (.tokens (name :: rest)))
    (hTarget : scope.get? s.target = some (.variant v)) (arms : List (Arm ι)) :
    runAll (Statement.run d) scope [.cut s.flags s.positionals s.input,
        .choose s.target (arms.map fun a => (a.variant, a.statements s))] =
      match slice rest with
      | .error e => throw (.tokenize e)
      | .ok sliced => do
        let arm ← orStuck (arms.find? fun a => a.variant = v)
        return .call (← arm.run s ((s.positionals, .tokens sliced.positionals) ::
          (s.flags, .flags sliced.flags) :: scope)) := by
  have hCut := Statement.run_cut (d := d) hInput s.flags s.positionals
  rw [List.tail_cons] at hCut
  cases hSlice : slice rest with
  | error e =>
    rw [hSlice] at hCut
    exact runAll_throw hCut _
  | ok sliced =>
    rw [hSlice] at hCut
    refine (runAll_next hCut _).trans ?_
    have hVariant : Scope.get? ((s.positionals, .tokens sliced.positionals) ::
        (s.flags, .flags sliced.flags) :: scope) s.target = some (.variant v) := by
      rw [Scope.get?_cons_of_ne hApart.target_positionals,
        Scope.get?_cons_of_ne hApart.target_flags, hTarget]
    rw [runAll]
    refine (congrArg (· >>= _) (Statement.run_choose hVariant s arms)).trans ?_
    simp only [bind_assoc, pure_bind]

/-- A run up to the arm of a command. -/
theorem start_cons {d : Dispatcher ι} (h : d.startNames.toList.Nodup) (name : String)
    (rest : List String) :
    d.start (name :: rest) =
      if sameUpToAsciiCase name helpName then pure .usage
      else
        match d.find name with
        | none => throw (.argument (.noMatchingTarget name))
        | some v =>
          match slice rest with
          | .error e => throw (.tokenize e)
          | .ok sliced => do
            let arm ← orStuck (d.arms.find? fun a => a.variant = v)
            return .call (← arm.run d.startNames (d.startNames.scope name rest v sliced)) := by
  let s := d.startNames
  have hApart : s.AreApart := StartNames.areApart h
  let found : Scope ι := [(s.first, .text name), (s.first, .text name),
    (s.input, .tokens (name :: rest))]
  have hFirst (scope : Scope ι) :
      Scope.get? ((s.first, .text name) :: scope) s.first = some (.text name) :=
    Scope.get?_cons_self _ _ _
  have hStart : d.start (name :: rest) = runAll (Statement.run d) found
      [.answerHelp s.first, .findTarget s.target s.first, .cut s.flags s.positionals s.input,
        .choose s.target (d.arms.map fun a => (a.variant, a.statements s))] :=
    (runAll_next (Statement.run_takeFirst (Scope.get?_cons_self _ _ _)) _).trans
      (runAll_next (Statement.run_readText (hFirst _)) _)
  rw [hStart]
  have hHelp := Statement.run_answerHelp (d := d) (hFirst found.tail)
  have hFind := Statement.run_findTarget (d := d) (hFirst found.tail) s.target
  split
  · rename_i hIsHelp
    rw [if_pos hIsHelp] at hHelp
    exact runAll_done hHelp _
  · rename_i hIsHelp
    rw [if_neg hIsHelp] at hHelp
    refine (runAll_next hHelp _).trans ?_
    cases hTarget : d.find name with
    | none =>
      rw [hTarget] at hFind
      exact runAll_throw hFind _
    | some v =>
      rw [hTarget] at hFind
      have hInput : Scope.get? ((s.target, .variant v) :: found) s.input =
          some (.tokens (name :: rest)) := by
        simp only [found, Scope.get?_cons_of_ne hApart.input_target,
          Scope.get?_cons_of_ne hApart.input_first, Scope.get?_cons_self]
      exact (runAll_next hFind _).trans
        (runAll_cut_choose hApart hInput (Scope.get?_cons_self _ _ _) d.arms)

/-! ## Dispatchers of checked commands -/

theorem StartNames.holds_scope {s : StartNames ι} (h : s.toList.Nodup) (name : String)
    (rest : List String) (v : ι) (sliced : Sliced) :
    (s.scope name rest v sliced).Holds s sliced := by
  have hNe : s.flags ≠ s.positionals := by
    simp only [toList, List.nodup_cons, List.mem_cons, List.not_mem_nil, or_false] at h
    exact h.2.2.2.1
  exact ⟨Scope.get?_cons_self _ _ _, by
    rw [scope, Scope.get?_cons_of_ne hNe, Scope.get?_cons_self]⟩

theorem find?_of_nodup {α β : Type} [DecidableEq β] {f : α → β} {l : List α} {x : α}
    (hNodup : (l.map f).Nodup) (hx : x ∈ l) : l.find? (fun y => f y = f x) = some x := by
  cases hFind : l.find? fun y => f y = f x with
  | none => exact absurd (List.find?_eq_none.mp hFind x hx) (by simp)
  | some y =>
    have hy := List.find?_some hFind
    rw [List.inj_on_of_nodup_map hNodup (List.mem_of_find?_eq_some hFind) hx (by simpa using hy)]

omit [DecidableEq ι] in
theorem sublist_binders (bindings : List (Binding ι)) :
    (bindings.map Binding.name).Sublist (bindings.flatMap Binding.binders) := by
  induction bindings with
  | nil => exact .slnil
  | cons b bindings ih =>
    have hFirst : [b.name].Sublist b.binders := by
      cases b <;> simp [Binding.name, Binding.binders]
    exact hFirst.append ih

namespace Realizes

variable {d : Dispatcher ι} {entries : List Entry}

omit [DecidableEq ι] in
theorem nodup_startNames (h : Realizes d entries) : d.startNames.toList.Nodup :=
  (List.Nodup.of_append_right h.nodup).of_append_left.of_append_right

omit [DecidableEq ι] in
/-- Each name of an arm is drawn for itself. -/
theorem isApart (h : Realizes d entries) {a : Arm ι} (ha : a ∈ d.arms) :
    a.IsApart d.startNames := by
  have hSublist : (a.bindings.map Binding.name).Sublist (d.arms.flatMap Arm.binders) :=
    ((sublist_binders a.bindings).trans (List.sublist_append_left _ _)).trans
      (List.sublist_flatten_of_mem (List.mem_map_of_mem ha))
  have hLocals := List.Nodup.of_append_right h.nodup
  refine ⟨fun b hb => ?_, (hLocals.of_append_right.sublist hSublist)⟩
  have hMem : b.name ∈ d.arms.flatMap Arm.binders :=
    hSublist.subset (List.mem_map_of_mem hb)
  have hNe := (List.nodup_append.mp hLocals).2.2
  constructor
  · exact hNe _ (by simp [StartNames.toList]) _ hMem
  · exact hNe _ (by simp [StartNames.toList]) _ hMem

/-- Each row has its command and its arm. -/
theorem exists_arm (h : Realizes d entries) {r : Row ι} (hr : r ∈ d.rows) :
    ∃ e ∈ entries, ∃ a ∈ d.arms, r.Shows e ∧ a.Calls e ∧
      d.arms.find? (fun a => a.variant = r.variant) = some a := by
  obtain ⟨i, hi, rfl⟩ := List.getElem_of_mem hr
  obtain ⟨hRows, hShows⟩ := List.forall₂_iff_get.mp h.rows
  obtain ⟨hArms, hCalls⟩ := List.forall₂_iff_get.mp h.arms
  have hEntry : i < entries.length := hRows ▸ hi
  have hArm : i < d.arms.length := hArms ▸ hEntry
  have hVariant : d.arms[i].variant = d.rows[i].variant := by
    have hEq := congrArg (fun l => l[i]?) h.variants_eq
    simpa [variants, hi, hArm] using hEq
  refine ⟨entries[i], List.getElem_mem hEntry, d.arms[i], List.getElem_mem hArm,
    hShows i hi hEntry, hCalls i hArm hEntry, ?_⟩
  rw [← hVariant]
  apply find?_of_nodup _ (List.getElem_mem hArm)
  rw [h.variants_eq]
  exact List.Nodup.of_append_left h.nodup

end Realizes

end CommandDispatch.Dispatcher
