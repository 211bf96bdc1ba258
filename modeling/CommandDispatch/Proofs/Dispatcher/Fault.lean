import CommandDispatch.Proofs.Dispatcher.Check

/-!
# What is wrong with a command by itself

A command may have a target that is no path, a required argument that no text stands for, or an
optional argument without a name for its flag. These faults are found one by one, in the order of
the commands and of their arguments, and each error names the fault that was found.

* `HasFault` lists the faults of a command with their errors,
* `checkCommand_eq_error`: in a command without errors among its arguments and with at most one
  among its returns, nothing else is found,
* `Entry.IsChecked.not_hasFault`: a command that passes has none of them.
-/

namespace CommandDispatch.Dispatcher

open Command Source Text

/-- The faults of a command, each with the error that reports it. -/
inductive HasFault (c : Command) : GenerationError → Prop
  | target (hPath : parsePath c.target = none) : HasFault c (.invalidPath c.exposed c.target)
  | required {i : Nat} {p : Parameter} (hParameter : c.signature.arguments[i]? = some p)
      (hKind : p.kind = .foreign) (hRequired : p.isOptional = false) :
      HasFault c (.unsupportedType c.exposed (p.label (i + 1)))
  | unnamed {i : Nat} {p : Parameter} (hParameter : c.signature.arguments[i]? = some p)
      (hOptional : p.isOptional = true) (hName : p.name = none) :
      HasFault c (.unnamedOptional c.exposed (i + 1))

/-! ## Arguments -/

theorem argumentOf_eq_error {command : String} {p : Parameter} {position : Nat}
    {e : GenerationError} (hKind : p.kind ≠ .error)
    (h : argumentOf command p position = .error e) :
    (p.kind = .foreign ∧ p.isOptional = false ∧ e = .unsupportedType command (p.label position)) ∨
      (p.isOptional = true ∧ p.name = none ∧ e = .unnamedOptional command position) := by
  unfold argumentOf at h
  cases hP : p.kind with
  | error => exact absurd hP hKind
  | foreign =>
    rw [hP] at h
    cases hOptional : p.isOptional with
    | false =>
      simp only [hOptional, Bool.not_false, if_true] at h
      cases h
      exact .inl ⟨rfl, rfl, rfl⟩
    | true =>
      cases hName : p.name with
      | none =>
        simp only [hOptional, hName, Bool.not_true, Bool.false_eq_true, if_false,
          Option.isNone_none, if_true] at h
        cases h
        exact .inr ⟨rfl, rfl, rfl⟩
      | some name =>
        simp [hOptional, hName] at h
  | readable kind =>
    rw [hP] at h
    cases hOptional : p.isOptional with
    | false => simp [hOptional] at h
    | true =>
      cases hName : p.name with
      | none =>
        simp only [hOptional, hName, if_true] at h
        cases h
        exact .inr ⟨rfl, rfl, rfl⟩
      | some name => simp [hOptional, hName] at h

/-- An argument that is bound is either readable or optional, and named if it is optional. -/
theorem of_argumentOf_eq_ok {command : String} {p : Parameter} {position : Nat} {a : Argument}
    (h : argumentOf command p position = .ok a) :
    (p.kind = .foreign → p.isOptional = true) ∧ (p.isOptional = true → p.name ≠ none) := by
  unfold argumentOf at h
  cases hOptional : p.isOptional with
  | false =>
    refine ⟨fun hKind => ?_, fun hNo => by cases hNo⟩
    simp [hKind, hOptional] at h
  | true =>
    refine ⟨fun _ => rfl, fun _ hName => ?_⟩
    cases hKind : p.kind <;> simp [hKind, hOptional, hName] at h

/-- The error is that of the first argument that cannot be bound. -/
theorem argumentsFrom_eq_error {command : String} {start : Nat} {ps : List Parameter}
    {e : GenerationError} (h : argumentsFrom command start ps = .error e) :
    ∃ i p, ps[i]? = some p ∧ argumentOf command p (start + i) = .error e ∧
      ∀ j < i, ∀ q, ps[j]? = some q → ∃ a, argumentOf command q (start + j) = .ok a := by
  induction ps generalizing start with
  | nil => cases h
  | cons p ps ih =>
    rw [argumentsFrom] at h
    rcases bind_eq_error.mp h with hFirst | ⟨a, hFirst, h⟩
    · exact ⟨0, p, rfl, hFirst, fun j hj => absurd hj (Nat.not_lt_zero j)⟩
    · rcases bind_eq_error.mp h with hOthers | ⟨as, -, h⟩
      · obtain ⟨i, q, hq, hError, hBefore⟩ := ih hOthers
        refine ⟨i + 1, q, hq, by rwa [Nat.add_right_comm start 1 i] at hError, ?_⟩
        intro j hj r hr
        cases j with
        | zero =>
          cases hr
          exact ⟨a, hFirst⟩
        | succ j =>
          have hOk := hBefore j (Nat.lt_of_succ_lt_succ hj) r hr
          rwa [Nat.add_right_comm start 1 j] at hOk
      · cases h

theorem argumentsFrom_eq_ok {command : String} {start : Nat} {ps : List Parameter}
    {arguments : List Argument} (h : argumentsFrom command start ps = .ok arguments) {i : Nat}
    {p : Parameter} (hp : ps[i]? = some p) :
    ∃ a, arguments[i]? = some a ∧ argumentOf command p (start + i) = .ok a := by
  induction ps generalizing start arguments i with
  | nil => cases hp
  | cons q ps ih =>
    rw [argumentsFrom] at h
    obtain ⟨a, hFirst, h⟩ := bind_eq_ok.mp h
    obtain ⟨as, hOthers, h⟩ := bind_eq_ok.mp h
    cases h
    cases i with
    | zero =>
      cases hp
      exact ⟨a, rfl, hFirst⟩
    | succ i =>
      obtain ⟨b, hb, hArgument⟩ := ih hOthers hp
      exact ⟨b, hb, by rwa [Nat.add_right_comm start 1 i] at hArgument⟩

/-! ## Commands -/

theorem checkCommand_eq_error {keys : List String} {c : Command} {e : GenerationError}
    (hHelp : lower c.exposed ≠ helpName) (hNew : lower c.exposed ∉ keys)
    (hKinds : ∀ p ∈ c.signature.arguments, p.kind ≠ .error) (hErrors : c.signature.errorReturns ≤ 1)
    (h : checkCommand keys c.exposed c = .error e) : HasFault c e := by
  unfold checkCommand at h
  dsimp only at h
  rw [throw_or_eq_error, throw_or_eq_error, throw_or_eq_error] at h
  rcases h with ⟨hKey, -⟩ | ⟨-, ⟨hIsHelp, -⟩ | ⟨-, ⟨hOld, -⟩ | ⟨-, h⟩⟩⟩
  · simp at hKey
  · exact absurd hIsHelp hHelp
  · exact absurd (by simpa using hOld) hNew
  · cases hPath : parsePath c.target with
    | none =>
      rw [hPath] at h
      cases h
      exact .target hPath
    | some path =>
      rw [hPath] at h
      rcases bind_eq_error.mp h with hArguments | ⟨arguments, -, h⟩
      · obtain ⟨i, p, hp, hError, -⟩ := argumentsFrom_eq_error hArguments
        have hKind : p.kind ≠ .error := hKinds p (List.mem_of_getElem? hp)
        rw [Nat.add_comm 1 i] at hError
        rcases argumentOf_eq_error hKind hError with ⟨hForeign, hRequired, rfl⟩ |
          ⟨hOptional, hName, rfl⟩
        · exact .required hp hForeign hRequired
        · exact .unnamed hp hOptional hName
      · rcases throw_or_eq_error.mp h with ⟨hMany, -⟩ | ⟨-, h⟩
        · omega
        · cases h

theorem Entry.IsChecked.not_hasFault {e : Entry} (h : e.IsChecked) (error : GenerationError) :
    ¬ HasFault e.command error := by
  intro hFault
  cases hFault with
  | target hPath =>
    rw [h.path_eq] at hPath
    cases hPath
  | required hp hKind hRequired =>
    obtain ⟨a, -, ha⟩ := argumentsFrom_eq_ok h.arguments_eq hp
    have hOptional := (of_argumentOf_eq_ok ha).1 hKind
    rw [hRequired] at hOptional
    cases hOptional
  | unnamed hp hOptional hName =>
    obtain ⟨a, -, ha⟩ := argumentsFrom_eq_ok h.arguments_eq hp
    exact (of_argumentOf_eq_ok ha).2 hOptional hName

end CommandDispatch.Dispatcher
