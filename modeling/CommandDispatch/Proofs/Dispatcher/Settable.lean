import CommandDispatch.Proofs.Arguments.FlagName
import CommandDispatch.Proofs.Dispatcher.Fault
import CommandDispatch.Proofs.Dispatcher.RoundTrip

/-!
# Optional parameters that can be set on their own

The arm of a command looks an optional parameter up under the lower-case form of its name. Nothing
keeps this form from being that of another parameter, or from being one that no flag can have. The
theorem `exists_slice_iff_of_ofProgram` says exactly which parameters can be set without setting
another one.
-/

namespace CommandDispatch.Dispatcher

open Arguments Command Naming Text

/-! ## The binding of a parameter -/

variable {ι : Type}

theorem Binds.exists_reads {index : Nat} {arguments : List Argument} {bindings : List (Binding ι)}
    (h : Binds index arguments bindings) {i : Nat} {a : Argument} (ha : arguments[i]? = some a) :
    ∃ (b : Binding ι) (next : Nat), bindings[i]? = some b ∧ b.Reads next a := by
  induction h generalizing i with
  | nil => simp at ha
  | cons reads _ ih =>
    cases i with
    | zero =>
      cases ha
      exact ⟨_, _, rfl, reads⟩
    | succ i => exact ih ha

theorem eq_flag_of_argumentOf {command : String} {q : Parameter} {position : Nat} {a : Argument}
    (h : argumentOf command q position = .ok a) {key : String} (hKey : flagKey? q = some key) :
    ∃ kind label, a = .flag kind key label := by
  obtain ⟨name, kind, isOptional⟩ := q
  unfold flagKey? at hKey
  split at hKey
  · rename_i hKind hOptional
    obtain ⟨n, rfl, rfl⟩ := Option.map_eq_some_iff.mp hKey
    obtain rfl := hKind
    obtain rfl := hOptional
    cases h
    exact ⟨_, _, rfl⟩
  · cases hKey

/-- The statement of the arm of a command looks its parameter up under the key of its flag. -/
theorem Realizes.exists_flag {d : Dispatcher ι} {p : Program} {entries : List Entry}
    (h : Realizes d entries) (hc : IsCheckOf p entries) {c : Command}
    (hMem : c ∈ p.toList.map (·.2)) {before after : List Parameter} {q : Parameter}
    (hParameters : c.signature.arguments = before ++ q :: after) {key : String}
    (hKey : flagKey? q = some key) :
    ∃ a ∈ d.arms, a.target = c.target ∧
      ∃ name raw kind label, a.bindings[before.length]? = some (.flag name raw kind key label) := by
  obtain ⟨e, he, rfl⟩ := hc.mem_commands_iff.mp hMem
  obtain ⟨a, ha, hCalls⟩ := exists_of_forall₂_of_mem h.arms he
  have hArguments := (hc.isChecked e he).arguments_eq
  rw [hParameters] at hArguments
  have hAt : (before ++ q :: after)[before.length]? = some q := by simp
  obtain ⟨argument, hGet, hArgument⟩ := argumentsFrom_eq_ok hArguments hAt
  obtain ⟨kind, label, rfl⟩ := eq_flag_of_argumentOf hArgument hKey
  obtain ⟨_, _, hBinding, hReads⟩ := hCalls.binds.exists_reads hGet
  cases hReads
  exact ⟨a, ha, hCalls.target_eq, _, _, _, _, hBinding⟩

/-! ## Setting one parameter -/

/-- Take a parameter that a generated dispatcher looks up among the flags. There are tokens that set
its key and the key of no other parameter of the command if and only if it differs from these keys,
and is the name of a flag or a hyphen with a character that can stand before it. -/
theorem exists_slice_iff_of_ofProgram {σ : Type} [Naming.Source σ] (p : Program)
    (a : Allocator σ) :
    (∀ text, (generateWith p a).1 = .ok text → ∃ d, (ofProgram p a).1 = .ok d ∧ d.text = text) ∧
    ∀ d, (ofProgram p a).1 = .ok d → ∀ c ∈ p.toList.map (·.2), ∀ before q after,
      c.signature.arguments = before ++ q :: after → ∀ key, flagKey? q = some key →
        (∃ arm ∈ d.arms, arm.target = c.target ∧ ∃ name raw kind label,
          arm.bindings[before.length]? = some (.flag name raw kind key label)) ∧
        ((∃ tokens s, slice tokens = .ok s ∧ key ∈ s.flags ∧
            ∀ other ∈ (before ++ after).filterMap flagKey?, other ∉ s.flags) ↔
          CanBeSetApart ((before ++ after).filterMap flagKey?) key) := by
  refine ⟨fun text h => exists_of_generateWith h, ?_⟩
  intro d hDispatcher c hMem before q after hParameters key hKey
  obtain ⟨entries, hCheck, h⟩ := realizes_of_ofProgram hDispatcher
  exact ⟨h.exists_flag (isCheckOf_of_check hCheck) hMem hParameters hKey, exists_slice_iff⟩

/-! ## Parameters that cannot be set on their own -/

/-- A name with an equals sign, two names that differ in case, and one that no other one hides. -/
def setCommand : Command where
  target := "set"
  exposed := "set"
  signature :=
    { arguments :=
        [ ⟨some "a=b", .readable .bool, true⟩, ⟨some "level", .readable .uint, true⟩,
          ⟨some "Level", .readable .uint, true⟩, ⟨some "v", .readable .bool, true⟩ ]
      returns := [] }
  description := ""

def setProgram : Program :=
  Program.insert { moduleName := "m" } setCommand

def setEntry : Entry where
  key := "set"
  command := setCommand
  path := .mk false [.mk "set" .none]
  arguments :=
    [ .flag .bool "a=b" "a=b", .flag .uint "level" "level", .flag .uint "level" "Level",
      .flag .bool "v" "v" ]
  mayFail := false

theorem isChecked_setEntry : setEntry.IsChecked where
  key_eq := by decide
  key_ne := by decide
  path_eq := rfl
  arguments_eq := by decide
  errorReturns_le := by decide
  mayFail_eq := by decide

theorem check_setProgram : check setProgram = .ok [setEntry] :=
  check_of_singleton rfl isChecked_setEntry (by decide +kernel)

def setDispatcher : Dispatcher String :=
  (ofEntries "m" [setEntry]).withNames
    ["A", "b", "c", "d", "e", "f", "g", "h", "i", "j", "ba", "bb", "bc", "bd", "be", "bf", "bg",
      "bh"]

theorem ofProgram_setProgram :
    (ofProgram setProgram
      ⟨Script.mk [0, 1, 2, 3, 4, 5, 6, 7, 8, 9, 16, 17, 18, 19, 20, 21, 22, 23], ∅⟩).1 =
        .ok setDispatcher :=
  ofProgram_script check_setProgram (by decide +kernel) (by decide) (by decide) (by decide)
    (by decide) (by decide)

theorem isFlagName_v : IsFlagName "v" :=
  ⟨by decide, by decide, by decide, by decide⟩

/-- The dispatcher is generated, but no flag has the name with the equals sign, and both of the
names that differ in case are set together. -/
theorem exists_slice_setCommand :
    (¬ ∃ tokens s, slice tokens = .ok s ∧ "a=b" ∈ s.flags ∧
        ∀ other ∈ ["level", "level", "v"], other ∉ s.flags) ∧
      (¬ ∃ tokens s, slice tokens = .ok s ∧ "level" ∈ s.flags ∧
        ∀ other ∈ ["a=b", "level", "v"], other ∉ s.flags) ∧
      ∃ tokens s, slice tokens = .ok s ∧ "v" ∈ s.flags ∧
        ∀ other ∈ ["a=b", "level", "level"], other ∉ s.flags := by
  have hAll := (exists_slice_iff_of_ofProgram setProgram _).2 _ ofProgram_setProgram setCommand
    (by decide)
  obtain ⟨-, hEquals⟩ := hAll [] _ _ rfl "a=b" (by decide)
  obtain ⟨-, hLevel⟩ := hAll [_] _ _ rfl "level" (by decide)
  obtain ⟨-, hv⟩ := hAll [_, _, _] _ _ rfl "v" (by decide)
  refine ⟨fun h => ?_, fun h => ?_, hv.mpr ⟨by decide, .inl isFlagName_v⟩⟩
  · obtain ⟨-, hName | ⟨hHyphen, -⟩⟩ := hEquals.mp h
    · exact hName.equals_notMem (by decide)
    · exact absurd hHyphen (by decide)
  · exact (hLevel.mp h).1 (by decide)

end CommandDispatch.Dispatcher
