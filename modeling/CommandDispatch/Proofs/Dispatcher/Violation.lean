import Mathlib.Data.String.Basic
import CommandDispatch.Dispatcher.Generate
import CommandDispatch.Proofs.Dispatcher.Fault
import CommandDispatch.Proofs.Naming.Allocator
import CommandDispatch.Proofs.Text.ByteOrder

/-!
# The rules for programs

A program must keep some rules to have a dispatcher. They are checked command by command in the
order of the names under which the commands are registered, and for each command in turn, and the
first rule that is broken is reported.

* `Violates` are the rules for one command, each with its turn and the error that reports it,
* `BreaksFirst`: the rule is the first that is broken, of all commands and all turns,
* `IsWellFormed`: what the rules come to for a whole program,
* `exists_check_iff`, `check_eq_error_iff`: a program passes if and only if it is well-formed, and is
  refused for the first rule that it breaks,
* `check_and_generateWith`: the same, with what a program that passes is checked to, and what is left
  of an allocator after one that is refused.
-/

namespace CommandDispatch.Dispatcher

open Command Source Text

/-! ## The rules -/

/-- What is wrong with an argument at a position, which counts from 1. An argument of the error kind
is never reported for anything else. -/
inductive ArgumentFault (command : String) (position : Nat) (p : Parameter) :
    GenerationError → Prop
  | error (hKind : p.kind = .error) :
      ArgumentFault command position p (.errorParameter command (p.label position))
  | required (hKind : p.kind = .foreign) (hRequired : p.isOptional = false) :
      ArgumentFault command position p (.unsupportedType command (p.label position))
  | unnamed (hKind : p.kind ≠ .error) (hOptional : p.isOptional = true) (hName : p.name = none) :
      ArgumentFault command position p (.unnamedOptional command position)

/-- A command that is registered under a name, after `earlier` commands, breaks the rule with this
turn. Each argument has a turn of its own. -/
inductive Violates (earlier : List Command) (registered : String) (c : Command) :
    Nat → GenerationError → Prop
  | registered (h : registered ≠ c.exposed) :
      Violates earlier registered c 0 (.mismatchedKey registered c.exposed)
  | help (h : lower c.exposed = helpName) :
      Violates earlier registered c 1 (.reservedName c.target)
  | duplicate {d : Command} (hEarlier : d ∈ earlier) (h : lower d.exposed = lower c.exposed) :
      Violates earlier registered c 2 (.duplicateCommand c.exposed)
  | target (h : parsePath c.target = none) :
      Violates earlier registered c 3 (.invalidPath c.exposed c.target)
  | argument {i : Nat} {p : Parameter} {e : GenerationError}
      (hParameter : c.signature.arguments[i]? = some p)
      (h : ArgumentFault c.exposed (i + 1) p e) : Violates earlier registered c (4 + i) e
  | returns (h : 1 < c.signature.errorReturns) :
      Violates earlier registered c (4 + c.signature.arguments.length)
        (.multipleErrorReturns c.exposed)

/-- The command at a place in the list breaks the rule with this turn; `earlier` are the commands
before the list. -/
def Breaks (earlier : List Command) (commands : List (String × Command)) (i turn : Nat)
    (e : GenerationError) : Prop :=
  ∃ registered c, commands[i]? = some (registered, c) ∧
    Violates (earlier ++ (commands.take i).map (·.2)) registered c turn e

/-! ## Arguments -/

theorem argumentOf_eq_error_iff {command : String} {p : Parameter} {position : Nat}
    {e : GenerationError} :
    argumentOf command p position = .error e ↔ ArgumentFault command position p e := by
  constructor
  · intro h
    by_cases hKind : p.kind = .error
    · unfold argumentOf at h
      rw [hKind] at h
      cases h
      exact .error hKind
    · rcases argumentOf_eq_error hKind h with ⟨hForeign, hRequired, rfl⟩ | ⟨hOptional, hName, rfl⟩
      · exact .required hForeign hRequired
      · exact .unnamed hKind hOptional hName
  · intro h
    unfold argumentOf
    cases h with
    | error hKind => rw [hKind]
    | required hKind hRequired =>
      rw [hKind, hRequired]
      rfl
    | unnamed hKind hOptional hName =>
      cases hP : p.kind with
      | error => exact absurd hP hKind
      | foreign =>
        rw [hOptional, hName]
        rfl
      | readable kind =>
        rw [hOptional, hName]
        rfl

theorem exists_argumentFault {command : String} {ps : List Parameter} {e : GenerationError}
    (h : argumentsFrom command 1 ps = .error e) :
    ∃ i p, ps[i]? = some p ∧ ArgumentFault command (i + 1) p e ∧
      ∀ j q e', ps[j]? = some q → ArgumentFault command (j + 1) q e' → i ≤ j := by
  obtain ⟨i, p, hp, hError, hBefore⟩ := argumentsFrom_eq_error h
  refine ⟨i, p, hp, argumentOf_eq_error_iff.mp (Nat.add_comm 1 i ▸ hError), ?_⟩
  intro j q e' hq hFault
  by_contra hLt
  obtain ⟨a, ha⟩ := hBefore j (Nat.lt_of_not_le hLt) q hq
  rw [Nat.add_comm 1 j, argumentOf_eq_error_iff.mpr hFault] at ha
  cases ha

theorem not_argumentFault {command : String} {ps : List Parameter} {arguments : List Argument}
    (h : argumentsFrom command 1 ps = .ok arguments) {i : Nat} {p : Parameter}
    (hp : ps[i]? = some p) {e : GenerationError} : ¬ ArgumentFault command (i + 1) p e := by
  intro hFault
  obtain ⟨a, -, ha⟩ := argumentsFrom_eq_ok h hp
  rw [Nat.add_comm 1 i, argumentOf_eq_error_iff.mpr hFault] at ha
  cases ha

/-! ## One command -/

variable {earlier : List Command} {keys : List String} {registered : String} {c : Command}
  {turn turn' : Nat} {e e' : GenerationError} {entry : Entry}

/-- The keys are those of the commands. -/
def AreKeysOf (keys : List String) (commands : List Command) : Prop :=
  ∀ key, key ∈ keys ↔ ∃ c ∈ commands, lower c.exposed = key

theorem AreKeysOf.append (h : AreKeysOf keys earlier) (c : Command) :
    AreKeysOf (lower c.exposed :: keys) (earlier ++ [c]) := by
  intro key
  rw [List.mem_cons, h key]
  simp only [List.mem_append, List.mem_singleton, or_and_right, exists_or, exists_eq_left]
  rw [or_comm, eq_comm (a := key)]

theorem ArgumentFault.eq {command : String} {position : Nat} {p : Parameter}
    (h : ArgumentFault command position p e) (h' : ArgumentFault command position p e') : e = e' :=
  Except.error.inj <|
    (argumentOf_eq_error_iff.mpr h).symm.trans (argumentOf_eq_error_iff.mpr h')

/-- At each turn there is one rule, and one error that reports it. -/
theorem Violates.eq_of_turn_eq (h : Violates earlier registered c turn e)
    (h' : Violates earlier registered c turn' e') (hTurn : turn = turn') : e = e' := by
  have hInside : ∀ {i p}, c.signature.arguments[i]? = some p → i < c.signature.arguments.length :=
    fun hParameter => (List.getElem?_eq_some_iff.mp hParameter).1
  cases h with
  | argument hParameter hFault =>
    cases h' with
    | argument hParameter' hFault' =>
      obtain rfl := Nat.add_left_cancel hTurn
      rw [hParameter] at hParameter'
      cases hParameter'
      exact hFault.eq hFault'
    | returns =>
      have hLt := hInside hParameter
      omega
    | _ => omega
  | returns =>
    cases h' with
    | argument hParameter' =>
      have hLt := hInside hParameter'
      omega
    | returns => rfl
    | _ => omega
  | _ => cases h' <;> first | rfl | omega

theorem not_violates_of_checkCommand (hKeys : AreKeysOf keys earlier)
    (h : checkCommand keys registered c = .ok entry) : ¬ Violates earlier registered c turn e := by
  obtain ⟨hChecked, rfl, hRegistered, hNew⟩ := checkCommand_eq_ok_iff.mp h
  intro hViolates
  cases hViolates with
  | registered hNe => exact hNe hRegistered
  | help hHelp => exact hChecked.key_ne (hChecked.key_eq.trans hHelp)
  | duplicate hEarlier hSame =>
    exact hNew ((hKeys _).mpr ⟨_, hEarlier, hSame.trans hChecked.key_eq.symm⟩)
  | target hPath =>
    rw [hChecked.path_eq] at hPath
    cases hPath
  | argument hParameter hFault => exact not_argumentFault hChecked.arguments_eq hParameter hFault
  | returns hMany => exact absurd hChecked.errorReturns_le (Nat.not_le_of_lt hMany)

/-- The command keeps the rules whose turn is before this one. -/
def KeepsBefore (earlier : List Command) (registered : String) (c : Command) (turn : Nat) : Prop :=
  ∀ turn' e', Violates earlier registered c turn' e' → turn ≤ turn'

theorem keepsBefore_zero : KeepsBefore earlier registered c 0 :=
  fun _ _ _ => Nat.zero_le _

theorem keepsBefore_one (h : registered = c.exposed) : KeepsBefore earlier registered c 1 := by
  intro turn' e' hOther
  cases hOther with
  | registered hNe => exact absurd h hNe
  | _ => omega

theorem KeepsBefore.help (h : KeepsBefore earlier registered c 1)
    (hHelp : lower c.exposed ≠ helpName) : KeepsBefore earlier registered c 2 := by
  intro turn' e' hOther
  have hLe := h turn' e' hOther
  cases hOther with
  | help hIs => exact absurd hIs hHelp
  | _ => omega

theorem KeepsBefore.duplicate (h : KeepsBefore earlier registered c 2)
    (hNew : ∀ d ∈ earlier, lower d.exposed ≠ lower c.exposed) :
    KeepsBefore earlier registered c 3 := by
  intro turn' e' hOther
  have hLe := h turn' e' hOther
  cases hOther with
  | duplicate hEarlier hSame => exact absurd hSame (hNew _ hEarlier)
  | _ => omega

theorem KeepsBefore.target (h : KeepsBefore earlier registered c 3)
    (hPath : parsePath c.target ≠ none) : KeepsBefore earlier registered c 4 := by
  intro turn' e' hOther
  have hLe := h turn' e' hOther
  cases hOther with
  | target hNone => exact absurd hNone hPath
  | _ => omega

/-- Up to all of its arguments, the rules for a command are kept one argument after the other. -/
theorem KeepsBefore.arguments (h : KeepsBefore earlier registered c 4) {i : Nat}
    (hi : i ≤ c.signature.arguments.length)
    (hLeast : ∀ j q e', c.signature.arguments[j]? = some q →
      ArgumentFault c.exposed (j + 1) q e' → i ≤ j) :
    KeepsBefore earlier registered c (4 + i) := by
  intro turn' e' hOther
  have hLe := h turn' e' hOther
  cases hOther with
  | argument hParameter hFault => exact Nat.add_le_add_left (hLeast _ _ _ hParameter hFault) 4
  | returns => exact Nat.add_le_add_left hi 4
  | _ => omega

/-- The rules are taken in turn: where one is reported, those before it were found to hold. -/
theorem exists_violates_of_checkCommand (hKeys : AreKeysOf keys earlier)
    (h : checkCommand keys registered c = .error e) :
    ∃ turn, Violates earlier registered c turn e ∧ KeepsBefore earlier registered c turn := by
  unfold checkCommand at h
  dsimp only at h
  rw [throw_or_eq_error, throw_or_eq_error, throw_or_eq_error] at h
  -- With each rule that holds, the turn of the first one that can be broken goes up.
  rcases h with ⟨hRegistered, rfl⟩ | ⟨hRegistered, h⟩
  · exact ⟨0, .registered (by simpa using hRegistered), keepsBefore_zero⟩
  have hOne : KeepsBefore earlier registered c 1 := keepsBefore_one (by simpa using hRegistered)
  rcases h with ⟨hHelp, rfl⟩ | ⟨hHelp, h⟩
  · exact ⟨1, .help hHelp, hOne⟩
  have hTwo := hOne.help hHelp
  rcases h with ⟨hOld, rfl⟩ | ⟨hNew, h⟩
  · obtain ⟨d, hEarlier, hSame⟩ := (hKeys _).mp (by simpa using hOld)
    exact ⟨2, .duplicate hEarlier hSame, hTwo⟩
  have hThree := hTwo.duplicate fun d hEarlier hSame =>
    absurd (by simpa using (hKeys _).mpr ⟨d, hEarlier, hSame⟩) hNew
  cases hPath : parsePath c.target with
  | none =>
    rw [hPath] at h
    cases h
    exact ⟨3, .target hPath, hThree⟩
  | some path =>
    rw [hPath] at h
    have hFour := hThree.target (by simp [hPath])
    rcases bind_eq_error.mp h with hArguments | ⟨arguments, hArguments, h⟩
    · obtain ⟨i, p, hParameter, hFault, hLeast⟩ := exists_argumentFault hArguments
      have hInside := (List.getElem?_eq_some_iff.mp hParameter).1
      exact ⟨4 + i, .argument hParameter hFault, hFour.arguments hInside.le hLeast⟩
    · rcases throw_or_eq_error.mp h with ⟨hMany, rfl⟩ | ⟨-, h⟩
      · exact ⟨_, .returns hMany, hFour.arguments (Nat.le_refl _) fun _ _ _ hParameter hFault =>
          absurd hFault (not_argumentFault hArguments hParameter)⟩
      · cases h

/-! ## All commands -/

variable {commands : List (String × Command)} {i : Nat} {entries : List Entry}

@[simp]
theorem not_breaks_nil : ¬ Breaks earlier [] i turn e := by
  rintro ⟨registered, c, hAt, -⟩
  cases hAt

@[simp]
theorem breaks_cons_zero :
    Breaks earlier ((registered, c) :: commands) 0 turn e ↔
      Violates earlier registered c turn e := by
  simp [Breaks]

@[simp]
theorem breaks_cons_succ :
    Breaks earlier ((registered, c) :: commands) (i + 1) turn e ↔
      Breaks (earlier ++ [c]) commands i turn e := by
  simp [Breaks]

/-- No rule is broken at an earlier place, nor at the same place at an earlier turn. -/
structure BreaksFirst (earlier : List Command) (commands : List (String × Command)) (i turn : Nat)
    (e : GenerationError) : Prop where
  breaks : Breaks earlier commands i turn e
  first : ∀ i' turn' e', Breaks earlier commands i' turn' e' → i < i' ∨ i = i' ∧ turn ≤ turn'

theorem not_breaks_of_checkCommands (hKeys : AreKeysOf keys earlier)
    (h : checkCommands keys commands = .ok entries) : ¬ Breaks earlier commands i turn e := by
  induction commands generalizing keys earlier entries i with
  | nil => exact not_breaks_nil
  | cons named commands ih =>
    obtain ⟨registered, c⟩ := named
    rw [checkCommands] at h
    obtain ⟨entry, hEntry, h⟩ := bind_eq_ok.mp h
    obtain ⟨others, hOthers, -⟩ := bind_eq_ok.mp h
    obtain ⟨hChecked, rfl, -, -⟩ := checkCommand_eq_ok_iff.mp hEntry
    cases i with
    | zero =>
      rw [breaks_cons_zero]
      exact not_violates_of_checkCommand hKeys hEntry
    | succ i =>
      rw [breaks_cons_succ]
      rw [hChecked.key_eq] at hOthers
      exact ih (hKeys.append _) hOthers

theorem exists_breaksFirst_of_checkCommands (hKeys : AreKeysOf keys earlier)
    (h : checkCommands keys commands = .error e) :
    ∃ i turn, BreaksFirst earlier commands i turn e := by
  induction commands generalizing keys earlier with
  | nil => cases h
  | cons named commands ih =>
    obtain ⟨registered, c⟩ := named
    rw [checkCommands] at h
    rcases bind_eq_error.mp h with hCommand | ⟨entry, hEntry, h⟩
    · obtain ⟨turn, hViolates, hLeast⟩ := exists_violates_of_checkCommand hKeys hCommand
      refine ⟨0, turn, breaks_cons_zero.mpr hViolates, fun i' turn' e' hOther => ?_⟩
      cases i' with
      | zero => exact .inr ⟨rfl, hLeast turn' e' (breaks_cons_zero.mp hOther)⟩
      | succ i' => exact .inl (Nat.succ_pos i')
    · rcases bind_eq_error.mp h with hOthers | ⟨others, -, h⟩
      · obtain ⟨hChecked, rfl, -, -⟩ := checkCommand_eq_ok_iff.mp hEntry
        rw [hChecked.key_eq] at hOthers
        obtain ⟨i, turn, hBreaks, hFirst⟩ := ih (hKeys.append _) hOthers
        refine ⟨i + 1, turn, breaks_cons_succ.mpr hBreaks, fun i' turn' e' hOther => ?_⟩
        cases i' with
        | zero =>
          exact absurd (breaks_cons_zero.mp hOther) (not_violates_of_checkCommand hKeys hEntry)
        | succ i' =>
          rcases hFirst i' turn' e' (breaks_cons_succ.mp hOther) with hLt | ⟨rfl, hLe⟩
          · exact .inl (Nat.succ_lt_succ hLt)
          · exact .inr ⟨rfl, hLe⟩
      · cases h

theorem BreaksFirst.eq (h : BreaksFirst earlier commands i turn e) {i' : Nat}
    (h' : BreaksFirst earlier commands i' turn' e') : e = e' := by
  have hPlace : i = i' ∧ turn = turn' := by
    have hLe := h.first _ _ _ h'.breaks
    have hGe := h'.first _ _ _ h.breaks
    omega
  obtain ⟨rfl, rfl⟩ := hPlace
  obtain ⟨registered, c, hAt, hViolates⟩ := h.breaks
  obtain ⟨registered', c', hAt', hViolates'⟩ := h'.breaks
  rw [hAt] at hAt'
  cases hAt'
  exact hViolates.eq_of_turn_eq hViolates' rfl

/-! ## Programs -/

/-- What the rules come to for a whole program. -/
structure IsWellFormed (p : Program) : Prop where
  registered_eq : ∀ named ∈ p.toList, named.1 = named.2.exposed
  lower_ne : ∀ named ∈ p.toList, lower named.2.exposed ≠ helpName
  nodup : (p.toList.map fun named => lower named.2.exposed).Nodup
  target_ne : ∀ named ∈ p.toList, parsePath named.2.target ≠ none
  kind_ne_error : ∀ named ∈ p.toList, ∀ q ∈ named.2.signature.arguments, q.kind ≠ .error
  isOptional_of_foreign : ∀ named ∈ p.toList, ∀ q ∈ named.2.signature.arguments,
    q.kind = .foreign → q.isOptional = true
  name_ne_none : ∀ named ∈ p.toList, ∀ q ∈ named.2.signature.arguments,
    q.isOptional = true → q.name ≠ none
  errorReturns_le : ∀ named ∈ p.toList, named.2.signature.errorReturns ≤ 1

variable {p : Program}

theorem IsWellFormed.not_breaks (h : IsWellFormed p) : ¬ Breaks [] p.toList i turn e := by
  rintro ⟨registered, c, hAt, hViolates⟩
  have hMem : (registered, c) ∈ p.toList := List.mem_of_getElem? hAt
  cases hViolates with
  | registered hNe => exact hNe (h.registered_eq _ hMem)
  | help hHelp => exact h.lower_ne _ hMem hHelp
  | duplicate hEarlier hSame =>
    obtain ⟨named, hTake, rfl⟩ := List.mem_map.mp hEarlier
    obtain ⟨j, hj, rfl⟩ := List.mem_take_iff_getElem.mp hTake
    obtain ⟨hi, hNamed⟩ := List.getElem?_eq_some_iff.mp hAt
    have hNe := List.pairwise_iff_getElem.mp (List.pairwise_map.mp h.nodup) j i (by omega) hi
      (by omega)
    rw [hNamed] at hNe
    exact hNe hSame
  | target hPath => exact h.target_ne _ hMem hPath
  | argument hParameter hFault =>
    have hq := List.mem_of_getElem? hParameter
    cases hFault with
    | error hKind => exact h.kind_ne_error _ hMem _ hq hKind
    | required hKind hRequired =>
      have hOptional := h.isOptional_of_foreign _ hMem _ hq hKind
      rw [hRequired] at hOptional
      cases hOptional
    | unnamed _ hOptional hName => exact h.name_ne_none _ hMem _ hq hOptional hName
  | returns hMany => exact absurd (h.errorReturns_le _ hMem) (Nat.not_le_of_lt hMany)

theorem isWellFormed_of_not_breaks (h : ∀ i turn e, ¬ Breaks [] p.toList i turn e) :
    IsWellFormed p := by
  have hKeeps : ∀ named ∈ p.toList, ∃ earlier, ∀ turn e,
      ¬ Violates earlier named.1 named.2 turn e := by
    intro named hMem
    obtain ⟨i, hAt⟩ := List.mem_iff_getElem?.mp hMem
    exact ⟨_, fun turn e hViolates => h i turn e ⟨_, _, hAt, hViolates⟩⟩
  have hArguments : ∀ named ∈ p.toList, ∀ q ∈ named.2.signature.arguments, ∃ position, ∀ e,
      ¬ ArgumentFault named.2.exposed position q e := by
    intro named hMem q hq
    obtain ⟨earlier, hNone⟩ := hKeeps named hMem
    obtain ⟨i, hAt⟩ := List.mem_iff_getElem?.mp hq
    exact ⟨i + 1, fun e hFault => hNone _ e (.argument hAt hFault)⟩
  have hKinds : ∀ named ∈ p.toList, ∀ q ∈ named.2.signature.arguments, q.kind ≠ .error := by
    intro named hMem q hq hKind
    obtain ⟨position, hNone⟩ := hArguments named hMem q hq
    exact hNone _ (.error hKind)
  constructor
  · intro named hMem
    obtain ⟨earlier, hNone⟩ := hKeeps named hMem
    by_contra hNe
    exact hNone _ _ (.registered hNe)
  · intro named hMem hHelp
    obtain ⟨earlier, hNone⟩ := hKeeps named hMem
    exact hNone _ _ (.help hHelp)
  · refine List.pairwise_map.mpr (List.pairwise_iff_getElem.mpr fun j i hj hi hLt hSame => ?_)
    have hEarlier : p.toList[j].2 ∈ [] ++ (p.toList.take i).map (·.2) :=
      List.mem_map_of_mem (List.mem_take_iff_getElem.mpr ⟨j, by omega, rfl⟩)
    exact h i _ _ ⟨_, _, List.getElem?_eq_getElem hi, .duplicate hEarlier hSame⟩
  · intro named hMem hPath
    obtain ⟨earlier, hNone⟩ := hKeeps named hMem
    exact hNone _ _ (.target hPath)
  · exact hKinds
  · intro named hMem q hq hKind
    obtain ⟨position, hNone⟩ := hArguments named hMem q hq
    by_contra hRequired
    exact hNone _ (.required hKind (Bool.eq_false_iff.mpr hRequired))
  · intro named hMem q hq hOptional hName
    obtain ⟨position, hNone⟩ := hArguments named hMem q hq
    exact hNone _ (.unnamed (hKinds named hMem q hq) hOptional hName)
  · intro named hMem
    obtain ⟨earlier, hNone⟩ := hKeeps named hMem
    by_contra hMany
    exact hNone _ _ (.returns (Nat.lt_of_not_le hMany))

theorem areKeysOf_nil : AreKeysOf [] [] := by
  simp [AreKeysOf]

/-- A program that is named is refused for the first rule that it breaks. -/
theorem check_eq_error_iff (hName : parseName p.moduleName ≠ none) :
    check p = .error e ↔ ∃ i turn, BreaksFirst [] p.toList i turn e := by
  have hRun : check p = .error e ↔ checkCommands [] p.toList = .error e := by
    rw [check, if_neg (by simpa using hName), bind_eq_error]
    simp [pure, Except.pure]
  rw [hRun]
  refine ⟨exists_breaksFirst_of_checkCommands areKeysOf_nil, ?_⟩
  rintro ⟨i, turn, hFirst⟩
  cases hCommands : checkCommands [] p.toList with
  | ok entries => exact absurd hFirst.breaks (not_breaks_of_checkCommands areKeysOf_nil hCommands)
  | error e' =>
    obtain ⟨i', turn', hFirst'⟩ := exists_breaksFirst_of_checkCommands areKeysOf_nil hCommands
    rw [hFirst'.eq hFirst]

theorem exists_check_iff (hName : parseName p.moduleName ≠ none) :
    (∃ entries, check p = .ok entries) ↔ IsWellFormed p := by
  constructor
  · rintro ⟨entries, h⟩
    obtain ⟨-, h⟩ := throw_or_eq_ok.mp h
    obtain ⟨unsorted, hCommands, -⟩ := bind_eq_ok.mp h
    exact isWellFormed_of_not_breaks fun i turn e =>
      not_breaks_of_checkCommands areKeysOf_nil hCommands
  · intro h
    cases hCheck : check p with
    | ok entries => exact ⟨entries, rfl⟩
    | error e =>
      obtain ⟨i, turn, hFirst⟩ := (check_eq_error_iff hName).mp hCheck
      exact absurd hFirst.breaks h.not_breaks

/-- The commands of a program are listed in the order of the bytes of the names under which they are
registered. -/
theorem pairwise_bytes_toList (p : Program) :
    p.toList.Pairwise fun a b => bytes a.1 < bytes b.1 :=
  (Std.ExtTreeMap.ordered_keys_toList (t := p.commands)).imp fun hLt =>
    lt_iff_bytes_lt.mp (compare_lt_iff_lt.mp hLt)

variable {σ : Type} [Naming.Source σ]

theorem generateWith_of_check_eq_error (h : check p = .error e) (a : Naming.Allocator σ) :
    generateWith p a = (.error e, a) := by
  rw [generateWith, ofProgram, h]
  rfl

/-- A program with a name for its module passes if and only if it is well-formed, and then each of
its commands is checked once, in the strict order of the lower-case forms of their names. It is
refused for the first rule that it breaks, in the order of its commands. An allocator is as good as
before after a program that is refused. -/
theorem check_and_generateWith (p : Program) :
    (parseName p.moduleName ≠ none →
      ((∃ entries, check p = .ok entries) ↔ IsWellFormed p) ∧
      (∀ entries, check p = .ok entries →
        (entries.map Entry.command).Perm (p.toList.map (·.2)) ∧
        entries.Pairwise fun a b =>
          bytes (lower a.command.exposed) < bytes (lower b.command.exposed)) ∧
      ∀ e, check p = .error e ↔ ∃ i turn, BreaksFirst [] p.toList i turn e) ∧
    (p.toList.Pairwise fun a b => bytes a.1 < bytes b.1) ∧
    ∀ e, check p = .error e → ∀ (σ : Type) [Naming.Source σ] (a : Naming.Allocator σ),
      generateWith p a = (.error e, a) ∧
        ∀ later, generateWith later (generateWith p a).2 = generateWith later a := by
  refine ⟨fun hName => ⟨exists_check_iff hName, fun entries h => ?_,
    fun e => check_eq_error_iff hName⟩, pairwise_bytes_toList p, fun e h σ _ a => ?_⟩
  · have hCheck := isCheckOf_of_check h
    refine ⟨hCheck.perm, (List.pairwise_map.mp hCheck.sorted).imp_of_mem ?_⟩
    intro a b ha hb hLt
    rw [← (hCheck.isChecked a ha).key_eq, ← (hCheck.isChecked b hb).key_eq]
    exact lt_iff_bytes_lt.mp hLt
  · have hRefused := generateWith_of_check_eq_error h a
    exact ⟨hRefused, fun later => by rw [hRefused]⟩

/-! ## A command that breaks several rules -/

def firstSay : Command where
  target := "say"
  exposed := "Say"
  signature := ⟨[], []⟩
  description := ""

/-- The name is taken, the target is no path, and no text stands for the argument. -/
def secondSay : Command where
  target := "1"
  exposed := "say"
  signature := ⟨[⟨none, .foreign, false⟩], []⟩
  description := ""

def clashingProgram : Program :=
  (Program.insert { moduleName := "m" } firstSay).insert secondSay

theorem toList_clashingProgram :
    clashingProgram.toList = [("Say", firstSay), ("say", secondSay)] := by
  decide +kernel

theorem breaksFirst_clashingProgram :
    BreaksFirst [] clashingProgram.toList 1 2 (.duplicateCommand "say") := by
  rw [toList_clashingProgram]
  have hFirst : checkCommand [] "Say" firstSay =
      .ok ⟨"say", firstSay, .mk false [.mk "say" .none], [], false⟩ :=
    checkCommand_eq_ok_iff.mpr ⟨⟨by decide, by decide, rfl, rfl, by decide, by decide⟩, rfl, rfl,
      by simp⟩
  constructor
  · rw [breaks_cons_succ, breaks_cons_zero]
    exact .duplicate List.mem_cons_self (by decide)
  · intro i turn e hOther
    match i with
    | 0 =>
      exact absurd (breaks_cons_zero.mp hOther) (not_violates_of_checkCommand areKeysOf_nil hFirst)
    | 1 =>
      rw [breaks_cons_succ, breaks_cons_zero] at hOther
      refine .inr ⟨rfl, ?_⟩
      cases hOther with
      | registered hNe => exact absurd rfl hNe
      | help hHelp => exact absurd hHelp (by decide)
      | _ => omega
    | i + 2 => simp at hOther

/-- The taken name is reported, and nothing is drawn. -/
theorem generateWith_clashingProgram :
    check clashingProgram = .error (.duplicateCommand "say") ∧ ¬ IsWellFormed clashingProgram ∧
      ∀ a : Naming.Allocator Naming.Script,
        generateWith clashingProgram a = (.error (.duplicateCommand "say"), a) := by
  obtain ⟨hNamed, -, hRefused⟩ := check_and_generateWith clashingProgram
  obtain ⟨hPasses, -, hError⟩ := hNamed (by decide +kernel)
  have hCheck := (hError _).mpr ⟨1, 2, breaksFirst_clashingProgram⟩
  refine ⟨hCheck, fun hWell => ?_, fun a => (hRefused _ hCheck _ a).1⟩
  obtain ⟨entries, hOk⟩ := hPasses.mpr hWell
  rw [hCheck] at hOk
  cases hOk

end CommandDispatch.Dispatcher
