import CommandDispatch.Proofs.Dispatcher.Lookup

/-!
# What a generated dispatcher does, read off the program

`outcome` says what becomes of a list of arguments without a dispatcher: it reads the program, and
the parameters of the command that a name stands for. The theorem `run_of_ofProgram` says that
running a generated dispatcher comes to the same.

Statements are generated with a running index of the positionals. The index of a parameter in
`parameterValues` is the number of required parameters before it, so the two are compared for a list
of parameters of which some have been read already (`values_eq_of_argumentsFrom`).
-/

namespace CommandDispatch.Dispatcher

open Arguments Command Naming Text

/-! ## Outcomes -/

/-- What a parameter is bound to. A required one is converted from the positional with the given
index, a readable optional one from the flag with its lower-case name, and nothing is converted for
a foreign one. -/
def parameterValue (s : Sliced) (index position : Nat) (p : Parameter) :
    Except ConversionError Bound :=
  match p.kind with
  | .readable kind =>
    if p.isOptional then
      match p.name.bind fun name => s.flags[lower name]? with
      | some raw => (kind.convert raw (p.label position)).map fun v => .optional (some v)
      | none => .ok (.optional none)
    else (kind.convert (s.positionals.getD index "") (p.label position)).map .required
  | _ => .ok (.optional none)

/-- What the parameters are bound to, or the first error. Each required parameter takes the
positional whose index is the number of required parameters before it. -/
def parameterValues (s : Sliced) (ps : List Parameter) : Except ConversionError (List Bound) :=
  ps.zipIdx.mapM fun (p, i) => parameterValue s ((ps.take i).countP (!·.isOptional)) (i + 1) p

/-- What becomes of a command with flags and positionals. -/
def commandOutcome {ρ : Type} (functions : String → List Bound → Effect ρ) (c : Command)
    (s : Sliced) : Outcome ρ :=
  if s.positionals.length < c.signature.requiredCount then
    { error := some
        (.argument (.notEnough c.signature.requiredCount s.positionals.length)) }
  else
    match parameterValues s c.signature.arguments with
    | .error e => { error := some (.conversion e) }
    | .ok vs =>
      let effect := functions c.target vs
      { calls := effect.calls
        printed := effect.printed
        error :=
          if c.signature.errorReturns = 1 then effect.failure.map .command else none }

/-- What becomes of a list of arguments. -/
def outcome {ρ : Type} (functions : String → List Bound → Effect ρ) (p : Program)
    (usage : String) : List String → Outcome ρ
  | [] => { error := some (.argument .insufficient) }
  | name :: rest =>
    if sameUpToAsciiCase name helpName then { printed := usage }
    else
      match p.find name with
      | none => { error := some (.argument (.noMatchingTarget name)) }
      | some c =>
        match slice rest with
        | .error e => { error := some (.tokenize e) }
        | .ok s => commandOutcome functions c s

/-! ## Parameters -/

/-- A checked argument is bound to what its parameter is bound to, and takes a positional if the
parameter is required. -/
theorem of_argumentOf {command : String} {p : Parameter} {position : Nat} {a : Argument}
    (h : argumentOf command p position = .ok a) :
    (∀ s index, a.value s index = parameterValue s index position p) ∧
      ∀ index, indexAfter index a = index + [p].countP (!·.isOptional) := by
  obtain ⟨name, kind, isOptional⟩ := p
  unfold argumentOf at h
  unfold parameterValue
  cases kind with
  | error => cases h
  | foreign =>
    cases isOptional with
    | false => cases h
    | true =>
      cases name with
      | none => cases h
      | some name =>
        cases h
        exact ⟨fun _ _ => rfl, fun _ => rfl⟩
  | readable kind =>
    cases isOptional with
    | false =>
      cases h
      exact ⟨fun _ _ => rfl, fun _ => rfl⟩
    | true =>
      cases name with
      | none => cases h
      | some name =>
        cases h
        exact ⟨fun _ _ => rfl, fun _ => rfl⟩

theorem foldl_indexAfter {command : String} {position : Nat} {ps : List Parameter}
    {arguments : List Argument} (h : argumentsFrom command position ps = .ok arguments)
    (index : Nat) : arguments.foldl indexAfter index = index + ps.countP (!·.isOptional) := by
  induction ps generalizing position arguments index with
  | nil =>
    cases h
    rfl
  | cons p ps ih =>
    obtain ⟨a, hArgument, h⟩ := bind_eq_ok.mp h
    obtain ⟨others, hOthers, h⟩ := bind_eq_ok.mp h
    cases h
    rw [List.foldl_cons, ih hOthers, (of_argumentOf hArgument).2, Nat.add_assoc,
      ← List.countP_append, List.singleton_append]

/-- The induction is on the parameters that are left; `done` are those before them. -/
theorem values_eq_of_argumentsFrom {command : String} (done : List Parameter)
    {ps : List Parameter} {arguments : List Argument}
    (h : argumentsFrom command (done.length + 1) ps = .ok arguments) (s : Sliced) :
    values s (done.countP (!·.isOptional)) arguments =
      (ps.zipIdx done.length).mapM fun (p, i) =>
        parameterValue s (((done ++ ps).take i).countP (!·.isOptional)) (i + 1) p := by
  induction ps generalizing done arguments with
  | nil =>
    cases h
    rfl
  | cons p ps ih =>
    obtain ⟨a, hArgument, h⟩ := bind_eq_ok.mp h
    obtain ⟨others, hOthers, h⟩ := bind_eq_ok.mp h
    cases h
    obtain ⟨hValue, hIndex⟩ := of_argumentOf hArgument
    have hLength : (done ++ [p]).length = done.length + 1 := by simp
    have hRest := ih (done ++ [p]) (by rw [hLength]; exact hOthers)
    rw [hLength, List.append_assoc, List.singleton_append, List.countP_append] at hRest
    rw [values, List.zipIdx_cons, List.mapM_cons, hValue, hIndex, hRest]
    dsimp only
    rw [List.take_left]

theorem values_eq_parameterValues {e : Entry} (h : e.IsChecked) (s : Sliced) :
    values s 0 e.arguments = parameterValues s e.command.signature.arguments :=
  values_eq_of_argumentsFrom [] h.arguments_eq s

theorem foldl_indexAfter_eq_requiredCount {e : Entry} (h : e.IsChecked) :
    e.arguments.foldl indexAfter 0 = e.command.signature.requiredCount := by
  rw [foldl_indexAfter h.arguments_eq, Nat.zero_add, Signature.requiredCount]

/-! ## Runs -/

variable {ι ρ : Type} [DecidableEq ι] {d : Dispatcher ι} {p : Program} {entries : List Entry}

theorem run_of_start_eq_throw {functions : String → List Bound → Effect ρ}
    {arguments : List String} {e : DispatchError} (h : d.start arguments = throw e) :
    d.run functions arguments = some { error := some e } := by
  rw [run, h]
  rfl

theorem run_of_start_eq_pure {functions : String → List Bound → Effect ρ}
    {arguments : List String} {action : Action} (h : d.start arguments = pure action) :
    d.run functions arguments = some (perform functions d.usage action) := by
  rw [run, h]
  rfl

/-- With enough positionals, what `start` comes to for a command is a call of its function with the
values of its parameters, or the first error among these. -/
theorem start_eq_of_find (h : Realizes d entries) (hc : IsCheckOf p entries) {name : String}
    {rest : List String} {sliced : Sliced} {c : Command} (hFind : p.find name = some c)
    (hSlice : slice rest = .ok sliced) :
    d.start (name :: rest) =
      if sliced.positionals.length < c.signature.requiredCount then
        throw (.argument (.notEnough c.signature.requiredCount sliced.positionals.length))
      else
        match parameterValues sliced c.signature.arguments with
        | .ok vs => pure (.call ⟨c.target, vs, c.signature.errorReturns == 1⟩)
        | .error e => throw (.conversion e) := by
  obtain ⟨e, he, r, a, ha, rfl, hRow, hCalls, hArm⟩ := h.exists_of_find hc hFind
  have hChecked := hc.isChecked e he
  have hScope := StartNames.holds_scope h.nodup_startNames name rest r.variant sliced
  rw [h.start_of_find hc hArm hRow hSlice,
    Arm.run_of_calls hCalls hScope (h.isApart ha) (foldl_indexAfter_eq_requiredCount hChecked),
    values_eq_parameterValues hChecked, hChecked.mayFail_eq]
  split
  · rfl
  · cases parameterValues sliced e.command.signature.arguments <;> rfl

/-- Running the arm of a command comes to the outcome of the command. -/
theorem run_of_find {functions : String → List Bound → Effect ρ} (h : Realizes d entries)
    (hc : IsCheckOf p entries) {name : String} {rest : List String} {sliced : Sliced}
    {c : Command} (hFind : p.find name = some c) (hSlice : slice rest = .ok sliced) :
    d.run functions (name :: rest) = some (commandOutcome functions c sliced) := by
  have hStart := start_eq_of_find h hc hFind hSlice
  unfold commandOutcome
  split at hStart
  · rename_i hCount
    rw [if_pos hCount]
    exact run_of_start_eq_throw hStart
  · rename_i hCount
    rw [if_neg hCount]
    cases hValues : parameterValues sliced c.signature.arguments with
    | error err =>
      rw [hValues] at hStart
      exact run_of_start_eq_throw hStart
    | ok vs =>
      rw [hValues] at hStart
      rw [run_of_start_eq_pure hStart, perform]
      simp only [beq_iff_eq]

/-- Running a dispatcher of a program comes to the outcome that the program has. -/
theorem Realizes.run_eq (h : Realizes d entries) (hc : IsCheckOf p entries)
    (functions : String → List Bound → Effect ρ) (arguments : List String) :
    d.run functions arguments = some (outcome functions p d.usage arguments) := by
  cases arguments with
  | nil => exact run_of_start_eq_throw (start_nil d)
  | cons name rest =>
    have hStart := start_cons h.nodup_startNames name rest
    by_cases hHelp : sameUpToAsciiCase name helpName = true
    · rw [if_pos hHelp] at hStart
      rw [run_of_start_eq_pure hStart, outcome, if_pos hHelp]
      rfl
    · rw [if_neg hHelp] at hStart
      rw [outcome, if_neg hHelp]
      cases hFind : p.find name with
      | none =>
        simp only [(h.find_eq_none_iff hc).mpr hFind] at hStart
        exact run_of_start_eq_throw hStart
      | some c =>
        cases hSlice : slice rest with
        | error e =>
          obtain ⟨_, -, _, _, -, -, hRow, -, -⟩ := h.exists_of_find hc hFind
          simp only [hRow, hSlice] at hStart
          exact run_of_start_eq_throw hStart
        | ok s => exact run_of_find h hc hFind hSlice

/-- Running a generated dispatcher on any arguments comes to the outcome that they have for the
program, and no statement of it is stuck. -/
theorem run_of_ofProgram {σ : Type} [Naming.Source σ] (p : Program) (a : Allocator σ) :
    (∀ text, (generateWith p a).1 = .ok text → ∃ d, (ofProgram p a).1 = .ok d ∧ d.text = text) ∧
    ∀ d, (ofProgram p a).1 = .ok d →
      (∃ entries, check p = .ok entries ∧ d.usage = usageText entries) ∧
      ∀ (ρ : Type) (functions : String → List Bound → Effect ρ) (arguments : List String),
        d.run functions arguments = some (outcome functions p d.usage arguments) := by
  refine ⟨fun text h => exists_of_generateWith h, fun d hDispatcher => ?_⟩
  obtain ⟨entries, hCheck, h⟩ := realizes_of_ofProgram hDispatcher
  exact ⟨⟨entries, hCheck, h.usage_eq⟩, fun ρ functions arguments =>
    h.run_eq (isCheckOf_of_check hCheck) functions arguments⟩

/-- A function that notes its call and fails. -/
def noting (target : String) (vs : List Bound) : Effect (String × List Bound) :=
  { calls := [(target, vs)], failure := some "no" }

/-- Of two arguments that cannot be converted, the first in the order of the parameters is reported,
although it comes from a flag. -/
theorem run_twoCommands :
    twoCommandsDispatcher.run noting ["SAY", "--times=3", "hi", "5"] =
        some
          { calls :=
              [ ("crate::say",
                  [ .required (.string "hi"), .optional (some (.uint 3)), .optional none,
                    .required (.int 5) ]) ]
            error := some (.command "no") } ∧
      twoCommandsDispatcher.run noting ["say", "--times=x", "hi", "y"] =
        some { error := some (.conversion ⟨"Times", "x", "usize"⟩) } ∧
      twoCommandsDispatcher.run noting ["say", "hi"] =
        some { error := some (.argument (.notEnough 2 1)) } := by
  have h := ((run_of_ofProgram twoCommands ⟨twoCommandsSource, ∅⟩).2 _ ofProgram_twoCommands).2 _
    noting
  have hSay : ∀ name ∈ ["SAY", "say"], ∀ rest sliced, slice rest = .ok sliced →
      twoCommandsDispatcher.run noting (name :: rest) =
        some (commandOutcome noting sayCommand sliced) := by
    intro name hName rest sliced hSlice
    have hAll : ∀ name ∈ ["SAY", "say"],
        sameUpToAsciiCase name helpName = false ∧ twoCommands.find name = some sayCommand := by
      decide +kernel
    obtain ⟨hHelp, hFind⟩ := hAll name hName
    rw [h, outcome, if_neg (by simp [hHelp]), hFind]
    simp only [hSlice]
  refine ⟨?_, ?_, ?_⟩
  · exact hSay _ (by simp) _ ⟨(∅ : FlagMap).insert "times" "3", ["hi", "5"]⟩ rfl
  · exact hSay _ (by simp) _ ⟨(∅ : FlagMap).insert "times" "x", ["hi", "y"]⟩ rfl
  · exact hSay _ (by simp) _ ⟨∅, ["hi"]⟩ rfl

end CommandDispatch.Dispatcher
