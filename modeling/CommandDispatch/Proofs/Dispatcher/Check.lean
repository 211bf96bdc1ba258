import Mathlib.Data.List.Nodup
import Mathlib.Data.List.Sort
import Mathlib.Data.String.Basic
import CommandDispatch.Dispatcher.Entry
import CommandDispatch.Proofs.Except

/-!
# What checking a program establishes

Checking goes through the commands one by one. `Entry.IsChecked` is what it establishes for one
command by itself, and `IsCheckOf` what it establishes for a program: its entries are those of its
commands, in the strict order of their keys.

* `isCheckOf_of_check`: the entries of a program that passes,
* `IsCheckOf.find_eq_some_iff`: the command that a name stands for is the one with its lower-case
  form as key.
-/

namespace CommandDispatch.Dispatcher

open Command Source Text

/-! ## One command -/

/-- What checking establishes for a command by itself. -/
structure Entry.IsChecked (e : Entry) : Prop where
  key_eq : e.key = lower e.command.exposed
  key_ne : e.key ≠ helpName
  path_eq : parsePath e.command.target = some e.path
  arguments_eq :
    argumentsFrom e.command.exposed 1 e.command.signature.arguments = .ok e.arguments
  errorReturns_le : e.command.signature.errorReturns ≤ 1
  mayFail_eq : e.mayFail = (e.command.signature.errorReturns == 1)

/-- A command passes after those with the given keys if and only if it passes by itself, is
registered under its name, and has a new key. -/
theorem checkCommand_eq_ok_iff {keys : List String} {registered : String} {c : Command}
    {e : Entry} :
    checkCommand keys registered c = .ok e ↔
      e.IsChecked ∧ e.command = c ∧ registered = c.exposed ∧ e.key ∉ keys := by
  unfold checkCommand
  dsimp only
  rw [throw_or_eq_ok, throw_or_eq_ok, throw_or_eq_ok]
  constructor
  · rintro ⟨hRegistered, hHelp, hNew, h⟩
    split at h
    · cases h
    · rename_i path hPath
      obtain ⟨arguments, hArguments, h⟩ := bind_eq_ok.mp h
      obtain ⟨hErrors, h⟩ := throw_or_eq_ok.mp h
      cases h
      exact ⟨⟨rfl, hHelp, hPath, hArguments, Nat.le_of_not_lt hErrors, rfl⟩, rfl,
        by simpa using hRegistered, by simpa using hNew⟩
  · rintro ⟨⟨hKey, hHelp, hPath, hArguments, hErrors, hMayFail⟩, rfl, rfl, hNew⟩
    rw [hKey] at hHelp hNew
    refine ⟨by simp, hHelp, by simpa using hNew, ?_⟩
    simp only [hPath, hArguments, ok_bind]
    rw [if_neg (Nat.not_lt_of_le hErrors), ← hKey, ← hMayFail]
    rfl

/-! ## All commands -/

theorem of_checkCommands {keys : List String} {commands : List (String × Command)}
    {entries : List Entry} (h : checkCommands keys commands = .ok entries) :
    entries.map Entry.command = commands.map (·.2) ∧ (∀ e ∈ entries, e.IsChecked) ∧
      (entries.map Entry.key).Nodup ∧ ∀ e ∈ entries, e.key ∉ keys := by
  induction commands generalizing keys entries with
  | nil =>
    cases h
    simp
  | cons named commands ih =>
    obtain ⟨registered, c⟩ := named
    rw [checkCommands] at h
    obtain ⟨e, hEntry, h⟩ := bind_eq_ok.mp h
    obtain ⟨rest, hRest, h⟩ := bind_eq_ok.mp h
    cases h
    obtain ⟨hChecked, hCommand, -, hNew⟩ := checkCommand_eq_ok_iff.mp hEntry
    obtain ⟨hCommands, hAll, hNodup, hKeys⟩ := ih hRest
    refine ⟨by rw [List.map_cons, List.map_cons, hCommand, hCommands], ?_, ?_, ?_⟩
    · exact List.forall_mem_cons.mpr ⟨hChecked, hAll⟩
    · refine List.nodup_cons.mpr ⟨fun hMem => ?_, hNodup⟩
      obtain ⟨f, hf, hKey⟩ := List.mem_map.mp hMem
      exact hKeys f hf (hKey ▸ List.mem_cons_self)
    · exact List.forall_mem_cons.mpr
        ⟨hNew, fun f hf hMem => hKeys f hf (List.mem_cons_of_mem _ hMem)⟩

/-- The entries are those of the commands of the program, in the strict order of their keys. -/
structure IsCheckOf (p : Program) (entries : List Entry) : Prop where
  perm : (entries.map Entry.command).Perm (p.toList.map (·.2))
  isChecked : ∀ e ∈ entries, e.IsChecked
  sorted : (entries.map Entry.key).Pairwise (· < ·)

theorem pairwise_lt_mergeSort {entries : List Entry} (hNodup : (entries.map Entry.key).Nodup) :
    ((entries.mergeSort fun a b => a.key ≤ b.key).map Entry.key).Pairwise (· < ·) := by
  have hKeys : (entries.mergeSort fun a b => a.key ≤ b.key).map Entry.key =
      (entries.map Entry.key).mergeSort := List.map_mergeSort fun _ _ _ _ => rfl
  have hNe : (entries.map Entry.key).mergeSort.Nodup :=
    (List.mergeSort_perm _ _).nodup_iff.mpr hNodup
  rw [hKeys]
  exact (List.pairwise_mergeSort' (· ≤ ·) _).imp₂ (fun _ _ hLe hNe => lt_of_le_of_ne hLe hNe) hNe

theorem isCheckOf_of_check {p : Program} {entries : List Entry} (h : check p = .ok entries) :
    IsCheckOf p entries := by
  unfold check at h
  obtain ⟨-, h⟩ := throw_or_eq_ok.mp h
  obtain ⟨unsorted, hCommands, h⟩ := bind_eq_ok.mp h
  cases h
  obtain ⟨hPerm, hAll, hNodup, -⟩ := of_checkCommands hCommands
  have hSort := List.mergeSort_perm unsorted fun a b => a.key ≤ b.key
  refine ⟨?_, fun e he => hAll e (hSort.mem_iff.mp he), pairwise_lt_mergeSort hNodup⟩
  exact (hSort.map Entry.command).trans (by rw [hPerm])

/-- A program of one command passes with the entry of that command. -/
theorem check_of_singleton {p : Program} {e : Entry}
    (hList : p.toList = [(e.command.exposed, e.command)]) (h : e.IsChecked)
    (hName : ¬ (parseName p.moduleName).isNone = true) : check p = .ok [e] := by
  have hEntry : checkCommand [] e.command.exposed e.command = .ok e :=
    checkCommand_eq_ok_iff.mpr ⟨h, rfl, rfl, by simp⟩
  have hAll : checkCommands [] p.toList = .ok [e] := by
    rw [hList, checkCommands, hEntry, ok_bind, checkCommands, ok_bind]
    rfl
  rw [check, if_neg hName, hAll, ok_bind, List.mergeSort_singleton]
  rfl

namespace IsCheckOf

variable {p : Program} {entries : List Entry}

theorem eq_of_key_eq (h : IsCheckOf p entries) {e f : Entry} (he : e ∈ entries) (hf : f ∈ entries)
    (hKey : e.key = f.key) : e = f :=
  List.inj_on_of_nodup_map (h.sorted.imp fun hLt => ne_of_lt hLt) he hf hKey

theorem mem_commands_iff (h : IsCheckOf p entries) {c : Command} :
    c ∈ p.toList.map (·.2) ↔ ∃ e ∈ entries, e.command = c := by
  rw [← h.perm.mem_iff, List.mem_map]

/-- The first command with the lower-case form of a name is the only one. -/
theorem find_eq_some_iff (h : IsCheckOf p entries) {name : String} {c : Command} :
    p.find name = some c ↔ ∃ e ∈ entries, e.command = c ∧ e.key = lower name := by
  constructor
  · intro hFind
    obtain ⟨e, he, rfl⟩ := h.mem_commands_iff.mp (List.mem_of_find?_eq_some hFind)
    refine ⟨e, he, rfl, ?_⟩
    have hName := List.find?_some hFind
    rw [(h.isChecked e he).key_eq]
    simpa using hName
  · rintro ⟨e, he, rfl, hKey⟩
    cases hFind : p.find name with
    | none =>
      have hNone := List.find?_eq_none.mp hFind e.command (h.mem_commands_iff.mpr ⟨e, he, rfl⟩)
      rw [← (h.isChecked e he).key_eq, hKey] at hNone
      simp at hNone
    | some c =>
      obtain ⟨f, hf, rfl⟩ := h.mem_commands_iff.mp (List.mem_of_find?_eq_some hFind)
      have hName := List.find?_some hFind
      rw [← (h.isChecked f hf).key_eq, beq_iff_eq] at hName
      rw [h.eq_of_key_eq hf he (hName.trans hKey.symm)]

theorem find_eq_none_iff (h : IsCheckOf p entries) {name : String} :
    p.find name = none ↔ ∀ e ∈ entries, e.key ≠ lower name := by
  rw [Option.eq_none_iff_forall_ne_some]
  constructor
  · intro hNone e he hKey
    exact hNone e.command (h.find_eq_some_iff.mpr ⟨e, he, rfl, hKey⟩)
  · intro hNone c hFind
    obtain ⟨e, he, -, hKey⟩ := h.find_eq_some_iff.mp hFind
    exact hNone e he hKey

end IsCheckOf

end CommandDispatch.Dispatcher
