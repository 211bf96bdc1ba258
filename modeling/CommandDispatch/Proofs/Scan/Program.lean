import CommandDispatch.Proofs.Dispatcher.Fault
import CommandDispatch.Proofs.Scan.Command
import CommandDispatch.Scan.Directory

/-!
# What holds of a scanned program

While files are scanned, the lower-case forms of the names found so far are kept beside the
program, and a command whose form is among them is refused. This and what holds of every scanned
command are kept from command to command and from file to file.

* `Collected.IsSound` is what every step keeps,
* `isScannedProgram_of_scan`: every command of a scanned program is registered under its own name,
  and no two of their names have the same lower-case form,
* `check_of_scan`: a scanned program is refused only for the name of its module or for a fault of
  one of its commands.
-/

namespace CommandDispatch.Scan

open Command Dispatcher Files Source Text

/-! ## Collecting commands -/

/-- What holds of a program while its files are scanned. -/
structure Collected.IsSound (s : Collected) : Prop where
  isScanned : ∀ key c, s.program.commands[key]? = some c → key = c.exposed ∧ IsScanned c
  mem_owners : ∀ key c, s.program.commands[key]? = some c → lower key ∈ s.owners
  eq_of_lower_eq : ∀ key c key' c', s.program.commands[key]? = some c →
    s.program.commands[key']? = some c' → lower key = lower key' → key = key'

/-- How a program looks after one more command. -/
theorem getElem?_insert_eq_some {p : Program} {c c' : Command} {key : String}
    (h : (p.insert c).commands[key]? = some c') :
    key = c.exposed ∧ c' = c ∨ key ≠ c.exposed ∧ p.commands[key]? = some c' := by
  unfold Program.insert Program.insertAs at h
  rw [Std.ExtTreeMap.getElem?_insert] at h
  split at h
  · rename_i hKey
    cases h
    exact .inl ⟨(Std.LawfulEqCmp.eq_of_compare hKey).symm, rfl⟩
  · rename_i hKey
    refine .inr ⟨?_, h⟩
    rintro rfl
    exact hKey Std.ReflCmp.compare_self

theorem Collected.of_add {s s' : Collected} {c : Command} (h : s.add c = .ok s') :
    lower c.exposed ∉ s.owners ∧ s'.program = s.program.insert c ∧
      s'.owners = s.owners.insert (lower c.exposed) c.target := by
  unfold add at h
  dsimp only at h
  split at h
  · cases h
  · rename_i hNone
    cases h
    refine ⟨fun hMem => ?_, rfl, rfl⟩
    rw [Std.ExtTreeMap.mem_iff_isSome_getElem?, hNone] at hMem
    cases hMem

theorem Collected.IsSound.add {s s' : Collected} {c : Command} (hs : s.IsSound)
    (hc : IsScanned c) (h : s.add c = .ok s') : s'.IsSound := by
  obtain ⟨hNew, hProgram, hOwners⟩ := of_add h
  have hFresh : ∀ key d, s.program.commands[key]? = some d → lower key ≠ lower c.exposed := by
    intro key d hd hLower
    exact hNew (hLower ▸ hs.mem_owners key d hd)
  constructor
  · intro key d hd
    rw [hProgram] at hd
    rcases getElem?_insert_eq_some hd with ⟨rfl, rfl⟩ | ⟨-, hOld⟩
    · exact ⟨rfl, hc⟩
    · exact hs.isScanned key d hOld
  · intro key d hd
    rw [hProgram] at hd
    rw [hOwners, Std.ExtTreeMap.mem_insert]
    rcases getElem?_insert_eq_some hd with ⟨rfl, rfl⟩ | ⟨-, hOld⟩
    · exact .inl Std.ReflCmp.compare_self
    · exact .inr (hs.mem_owners key d hOld)
  · intro key d key' d' hd hd' hLower
    rw [hProgram] at hd hd'
    rcases getElem?_insert_eq_some hd with ⟨hKey, -⟩ | ⟨-, hOld⟩ <;>
      rcases getElem?_insert_eq_some hd' with ⟨hKey', -⟩ | ⟨-, hOld'⟩
    · exact hKey.trans hKey'.symm
    · exact absurd (hKey ▸ hLower.symm) (hFresh key' d' hOld')
    · exact absurd (hKey' ▸ hLower) (hFresh key d hOld)
    · exact hs.eq_of_lower_eq key d key' d' hOld hOld' hLower

theorem Collected.isSound_start (moduleName : String) :
    Collected.IsSound { program := { moduleName } } := by
  constructor <;> simp

theorem isScanned_of_scanFile {directory : String} {options : ScanOptions} {f : NamedFile}
    {commands : List Command} (h : scanFile directory options f = .ok commands) :
    ∀ c ∈ commands, IsScanned c := by
  unfold scanFile at h
  obtain ⟨text, -, h⟩ := bind_eq_ok.mp h
  unfold scanText at h
  split at h
  · exact isScanned_of_commandsOf h
  · cases h

/-- A file keeps what holds of the program, and the name of its module. -/
theorem Collected.isSound_addFile {directory : String} {options : ScanOptions} {f : NamedFile}
    {s s' : Collected} (hs : s.IsSound ∧ s.program.moduleName = options.moduleName)
    (h : s.addFile directory options f = .ok s') :
    s'.IsSound ∧ s'.program.moduleName = options.moduleName := by
  unfold Collected.addFile at h
  obtain ⟨commands, hCommands, h⟩ := bind_eq_ok.mp h
  have hScanned := isScanned_of_scanFile hCommands
  refine foldlM_invariant
    (P := fun x : Collected => x.IsSound ∧ x.program.moduleName = options.moduleName) hs ?_ h
  intro c hc x x' hx hAdd
  refine ⟨hx.1.add (hScanned c hc) hAdd, ?_⟩
  rw [(of_add hAdd).2.1]
  exact hx.2

/-! ## Scanned programs -/

/-- What holds of every scanned program. -/
structure IsScannedProgram (p : Program) : Prop where
  isScanned : ∀ named ∈ p.toList, named.1 = named.2.exposed ∧ IsScanned named.2
  nodup : (p.toList.map fun named => lower named.1).Nodup

theorem Collected.IsSound.isScannedProgram {s : Collected} (h : s.IsSound) :
    IsScannedProgram s.program := by
  have hGet : ∀ named ∈ s.program.toList, s.program.commands[named.1]? = some named.2 :=
    fun _ hMem => Std.ExtTreeMap.mem_toList_iff_getElem?_eq_some.mp hMem
  refine ⟨fun named hMem => h.isScanned _ _ (hGet named hMem), ?_⟩
  -- Two entries with the same lower-case form would have the same key.
  have hDistinct : s.program.toList.Pairwise fun a b => a.1 ≠ b.1 :=
    (Std.ExtTreeMap.distinct_keys_toList (t := s.program.commands)).imp
      fun hKeys hEq => hKeys (by rw [hEq]; exact Std.ReflCmp.compare_self)
  refine List.pairwise_map.mpr (hDistinct.imp_of_mem ?_)
  intro a b ha hb hKeys hLower
  exact hKeys (h.eq_of_lower_eq _ _ _ _ (hGet a ha) (hGet b hb) hLower)

theorem isScannedProgram_of_scan {directory : String} {options : ScanOptions}
    {files : List NamedFile} {p : Program} (h : scan directory options files = .ok p) :
    IsScannedProgram p ∧ p.moduleName = options.moduleName := by
  unfold scan at h
  obtain ⟨s, hRun, h⟩ := bind_eq_ok.mp h
  cases h
  have hEnd : s.IsSound ∧ s.program.moduleName = options.moduleName := by
    refine foldlM_invariant
      (P := fun x : Collected => x.IsSound ∧ x.program.moduleName = options.moduleName)
      ⟨Collected.isSound_start _, rfl⟩ ?_ hRun
    intro f _ x x' hx hFile
    exact Collected.isSound_addFile hx hFile
  exact ⟨hEnd.1.isScannedProgram, hEnd.2⟩

/-! ## Checking a scanned program -/

theorem checkCommands_eq_error {keys : List String} {commands : List (String × Command)}
    {e : GenerationError}
    (hScanned : ∀ named ∈ commands, named.1 = named.2.exposed ∧ IsScanned named.2)
    (hNodup : (commands.map fun named => lower named.1).Nodup)
    (hKeys : ∀ named ∈ commands, lower named.1 ∉ keys)
    (h : checkCommands keys commands = .error e) : ∃ c ∈ commands.map (·.2), HasFault c e := by
  induction commands generalizing keys with
  | nil => cases h
  | cons named commands ih =>
    obtain ⟨registered, c⟩ := named
    obtain ⟨⟨hRegistered, hc⟩, hOthers⟩ := List.forall_mem_cons.mp hScanned
    obtain ⟨hNew, hOtherKeys⟩ := List.forall_mem_cons.mp hKeys
    obtain ⟨hFirst, hOtherNodup⟩ := List.nodup_cons.mp hNodup
    dsimp only at hRegistered hc hNew hFirst
    subst hRegistered
    rw [checkCommands] at h
    rcases bind_eq_error.mp h with hCommand | ⟨entry, hEntry, h⟩
    · exact ⟨c, List.mem_cons_self, checkCommand_eq_error hc.lower_ne hNew hc.kind_ne_error
        hc.errorReturns_le hCommand⟩
    · rcases bind_eq_error.mp h with hRest | ⟨entries, -, h⟩
      · have hEntryKey : entry.key = lower c.exposed := by
          obtain ⟨hChecked, hEq, -, -⟩ := checkCommand_eq_ok_iff.mp hEntry
          rw [hChecked.key_eq, hEq]
        have hStill : ∀ named ∈ commands, lower named.1 ∉ entry.key :: keys := by
          intro named hMem hIn
          rcases List.mem_cons.mp hIn with hEq | hIn
          · exact hFirst (List.mem_map.mpr ⟨named, hMem, hEq.trans hEntryKey⟩)
          · exact hOtherKeys named hMem hIn
        obtain ⟨d, hd, hFault⟩ := ih hOthers hOtherNodup hStill hRest
        exact ⟨d, List.mem_cons_of_mem _ hd, hFault⟩
      · cases h

/-- The faults for which a scanned program is refused, each with the error that reports it. -/
inductive HasProgramFault (p : Program) : GenerationError → Prop
  | moduleName (h : parseName p.moduleName = none) :
      HasProgramFault p (.invalidModuleName p.moduleName)
  | command {c : Command} {e : GenerationError} (hc : c ∈ p.toList.map (·.2))
      (hFault : HasFault c e) : HasProgramFault p e

/-- A scanned program is checked for nothing that scanning has established: what it is refused for
is the name of its module, a target that is no path, a required argument that no text stands for,
or an optional argument without a name. It passes if it has none of these faults. -/
theorem check_of_scan {directory : String} {options : ScanOptions} {files : List NamedFile}
    {p : Program} (h : scan directory options files = .ok p) :
    p.moduleName = options.moduleName ∧ (∀ e, check p = .error e → HasProgramFault p e) ∧
      ((∃ entries, check p = .ok entries) ↔ ∀ e, ¬ HasProgramFault p e) := by
  obtain ⟨hProgram, hModule⟩ := isScannedProgram_of_scan h
  have hErrors : ∀ e, check p = .error e → HasProgramFault p e := by
    intro e he
    unfold check at he
    rcases throw_or_eq_error.mp he with ⟨hName, rfl⟩ | ⟨-, he⟩
    · exact .moduleName (Option.isNone_iff_eq_none.mp hName)
    · rcases bind_eq_error.mp he with hCommands | ⟨entries, -, he⟩
      · obtain ⟨c, hc, hFault⟩ := checkCommands_eq_error hProgram.isScanned hProgram.nodup
          (fun _ _ hMem => by cases hMem) hCommands
        exact .command hc hFault
      · cases he
  refine ⟨hModule, hErrors, ?_, ?_⟩
  · rintro ⟨entries, hEntries⟩ e hFault
    cases hFault with
    | moduleName hName =>
      unfold check at hEntries
      exact (throw_or_eq_ok.mp hEntries).1 (Option.isNone_iff_eq_none.mpr hName)
    | command hc hFault =>
      have hCheck := isCheckOf_of_check hEntries
      obtain ⟨entry, hEntry, rfl⟩ := hCheck.mem_commands_iff.mp hc
      exact (hCheck.isChecked entry hEntry).not_hasFault e hFault
  · intro hNone
    cases hCheck : check p with
    | ok entries => exact ⟨entries, rfl⟩
    | error e => exact absurd (hErrors e hCheck) (hNone e)

/-! ## An argument that is borrowed -/

/-- A file with one command, whose only argument is a reference. -/
def borrowingFile : NamedFile :=
  ⟨"echo.rs", .ok "/// cligen:cmd say\nfn echo(text: &str) {}"⟩

def borrowingCommand : Command where
  target := "crate::echo::echo"
  exposed := "say"
  signature := ⟨[⟨some "text", .foreign, false⟩], []⟩
  description := ""

def borrowingProgram : Program :=
  Program.insert { moduleName := "cli" } borrowingCommand

theorem scan_borrowingFile : scan "src" {} [borrowingFile] = .ok borrowingProgram := by
  have hSource : isSourceName borrowingFile.name = true := by decide +kernel
  have hFiles : sources [borrowingFile] = [borrowingFile] := by
    simp [sources, hSource]
  have hFile : scanFile "src" {} borrowingFile = .ok [borrowingCommand] := by
    decide +kernel
  rw [scan, hFiles, List.foldlM_cons, Collected.addFile, hFile]
  rfl

theorem check_borrowingProgram :
    check borrowingProgram = .error (.unsupportedType "say" "text") := by
  have hName : ¬ (parseName borrowingProgram.moduleName).isNone = true := by decide +kernel
  have hList : borrowingProgram.toList = [("say", borrowingCommand)] := rfl
  have hCommand : checkCommand [] "say" borrowingCommand =
      .error (.unsupportedType "say" "text") := by
    obtain ⟨path, hPath⟩ := Option.isSome_iff_exists.mp
      (show (parsePath borrowingCommand.target).isSome = true by decide +kernel)
    have hKey : lower borrowingCommand.exposed ≠ helpName := by decide
    unfold checkCommand
    dsimp only
    rw [if_neg (by decide), if_neg hKey, if_neg (by decide), hPath]
    rfl
  rw [check, if_neg hName, hList, checkCommands, hCommand]
  rfl

/-- The file is scanned, and its program is refused for the argument. -/
theorem check_borrowingFile :
    scan "src" {} [borrowingFile] = .ok borrowingProgram ∧ borrowingProgram.moduleName = "cli" ∧
      check borrowingProgram = .error (.unsupportedType "say" "text") ∧
      HasProgramFault borrowingProgram (.unsupportedType "say" "text") := by
  obtain ⟨hModule, hFaults, -⟩ := check_of_scan scan_borrowingFile
  exact ⟨scan_borrowingFile, hModule, check_borrowingProgram, hFaults _ check_borrowingProgram⟩

end CommandDispatch.Scan
