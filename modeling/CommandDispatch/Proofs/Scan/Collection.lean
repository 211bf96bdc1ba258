import Mathlib.Data.List.Perm.Basic
import CommandDispatch.Proofs.Scan.Program

/-!
# How the commands of a directory make a program

The commands that are found in the sources of a directory are added to a program one after the
other. All that matters is whether two of them have names with the same lower-case form: if not, the
program holds them all, in whatever order they were found.

* `foldlM_add_eq_ok_iff`, `foldlM_addFile_eq_ok_iff`: adding commands, and files,
* `scan_eq_ok_iff`: when a directory is scanned, and what its program is,
* `foldl_insert_eq`: the order in which commands are registered does not matter.
-/

namespace CommandDispatch.Scan

open Command Files Text

/-- The lower-case forms of the names of commands. -/
def lowerNames (commands : List Command) : List String :=
  commands.map fun c => lower c.exposed

/-! ## Adding commands -/

/-- A program with some more commands, and what it knows of their names. -/
def Collected.addAll (s : Collected) (commands : List Command) : Collected where
  program := commands.foldl Program.insert s.program
  owners := commands.foldl (fun owners c => owners.insert (lower c.exposed) c.target) s.owners

theorem Collected.add_eq_ok_iff {s s' : Collected} {c : Command} :
    s.add c = .ok s' ↔ lower c.exposed ∉ s.owners ∧ s' = s.addAll [c] := by
  constructor
  · intro h
    obtain ⟨hNew, hProgram, hOwners⟩ := of_add h
    cases s'
    exact ⟨hNew, congrArg₂ Collected.mk hProgram hOwners⟩
  · rintro ⟨hNew, rfl⟩
    have hNone : s.owners[lower c.exposed]? = none := Std.ExtTreeMap.getElem?_eq_none hNew
    unfold add
    dsimp only
    rw [hNone]
    rfl

/-- Commands are added if their names are new and differ in their lower-case forms. -/
theorem foldlM_add_eq_ok_iff {commands : List Command} {s s' : Collected} :
    commands.foldlM Collected.add s = .ok s' ↔
      (∀ name ∈ lowerNames commands, name ∉ s.owners) ∧ (lowerNames commands).Nodup ∧
        s' = s.addAll commands := by
  induction commands generalizing s with
  | nil =>
    refine ⟨fun h => ?_, fun h => ?_⟩
    · cases h
      exact ⟨by simp [lowerNames], .nil, rfl⟩
    · rw [h.2.2]
      rfl
  | cons c commands ih =>
    -- The names of the other commands must also differ from the one that is added.
    have hOwners : ∀ name, name ∉ (s.addAll [c]).owners ↔
        lower c.exposed ≠ name ∧ name ∉ s.owners := by
      intro name
      have hMem : name ∈ (s.addAll [c]).owners ↔ lower c.exposed = name ∨ name ∈ s.owners := by
        simp [Collected.addAll, Std.ExtTreeMap.mem_insert]
      rw [hMem, not_or]
    rw [List.foldlM_cons, bind_eq_ok]
    simp only [Collected.add_eq_ok_iff, lowerNames, List.map_cons, List.forall_mem_cons,
      List.nodup_cons]
    constructor
    · rintro ⟨_, ⟨hNew, rfl⟩, h⟩
      obtain ⟨hOthers, hNodup, rfl⟩ := ih.mp h
      refine ⟨⟨hNew, fun name hName => ((hOwners name).mp (hOthers name hName)).2⟩,
        ⟨fun hMem => ((hOwners _).mp (hOthers _ hMem)).1 rfl, hNodup⟩, rfl⟩
    · rintro ⟨⟨hNew, hOthers⟩, ⟨hFirst, hNodup⟩, rfl⟩
      refine ⟨_, ⟨hNew, rfl⟩, ih.mpr ⟨fun name hName => (hOwners name).mpr ⟨?_, hOthers name hName⟩,
        hNodup, rfl⟩⟩
      rintro rfl
      exact hFirst hName

/-! ## Adding files -/

variable {directory : String} {options : ScanOptions}

/-- The commands of each of these files. -/
def HaveCommands (directory : String) (options : ScanOptions) :
    List NamedFile → List (List Command) → Prop :=
  List.Forall₂ fun f commands => scanFile directory options f = .ok commands

/-- Files are added if they can be read, and their commands can be added all together. -/
theorem foldlM_addFile_eq_ok_iff {files : List NamedFile} {s s' : Collected} :
    files.foldlM (Collected.addFile directory options) s = .ok s' ↔
      ∃ found, HaveCommands directory options files found ∧
        found.flatten.foldlM Collected.add s = .ok s' := by
  unfold HaveCommands
  induction files generalizing s with
  | nil => simp
  | cons f files ih =>
    rw [List.foldlM_cons, bind_eq_ok]
    simp only [Collected.addFile, bind_eq_ok, ih, List.forall₂_cons_left_iff]
    constructor
    · rintro ⟨t, ⟨commands, hFile, hFirst⟩, found, hFound, hRest⟩
      refine ⟨commands :: found, ⟨commands, found, hFile, hFound, rfl⟩, ?_⟩
      rw [List.flatten_cons, List.foldlM_append, hFirst]
      exact hRest
    · rintro ⟨_, ⟨commands, found, hFile, hFound, rfl⟩, hAll⟩
      rw [List.flatten_cons, List.foldlM_append] at hAll
      obtain ⟨t, hFirst, hRest⟩ := bind_eq_ok.mp hAll
      exact ⟨t, ⟨commands, hFile, hFirst⟩, found, hFound, hRest⟩

/-- A directory is scanned if and only if each of its sources is, and no two commands have names
with the same lower-case form. The program holds the commands of all sources. -/
theorem scan_eq_ok_iff {files : List NamedFile} {p : Program} :
    scan directory options files = .ok p ↔
      ∃ found, HaveCommands directory options (sources files) found ∧
        (lowerNames found.flatten).Nodup ∧
        p = found.flatten.foldl Program.insert { moduleName := options.moduleName } := by
  unfold scan
  simp only [bind_eq_ok, foldlM_addFile_eq_ok_iff, foldlM_add_eq_ok_iff]
  constructor
  · rintro ⟨_, ⟨found, hFound, -, hNodup, rfl⟩, h⟩
    cases h
    exact ⟨found, hFound, hNodup, rfl⟩
  · rintro ⟨found, hFound, hNodup, rfl⟩
    refine ⟨_, ⟨found, hFound, fun name _ => Std.ExtTreeMap.not_mem_empty, hNodup, rfl⟩, rfl⟩

/-! ## The order of registration -/

theorem CommandMap.insert_comm (m : CommandMap) {key key' : String} (h : key ≠ key')
    (c c' : Command) : (m.insert key c).insert key' c' = (m.insert key' c').insert key c := by
  apply Std.ExtTreeMap.ext_getElem?
  intro name
  simp only [Std.ExtTreeMap.getElem?_insert, Std.LawfulEqCmp.compare_eq_iff_eq]
  split <;> split <;> simp_all

/-- Commands with different names are registered in either order. -/
theorem insert_comm (p : Program) {c d : Command} (h : c.exposed ≠ d.exposed) :
    (p.insert c).insert d = (p.insert d).insert c :=
  congrArg (Program.mk p.moduleName) (CommandMap.insert_comm p.commands h c d)

/-- Commands with different names are registered in any order. -/
theorem foldl_insert_eq {commands others : List Command} (hPerm : commands.Perm others)
    (hNodup : (commands.map (·.exposed)).Nodup) (p : Program) :
    others.foldl Program.insert p = commands.foldl Program.insert p := by
  refine (hPerm.foldl_eq' (fun c hc d hd q => ?_) p).symm
  by_cases hSame : c = d
  · rw [hSame]
  · exact insert_comm q fun hNames => hSame (List.inj_on_of_nodup_map hNodup hc hd hNames)

theorem nodup_exposed_of_nodup_lowerNames {commands : List Command}
    (h : (lowerNames commands).Nodup) : (commands.map (·.exposed)).Nodup := by
  have hMap : lowerNames commands = (commands.map (·.exposed)).map lower := by
    rw [lowerNames, List.map_map]
    rfl
  rw [hMap] at h
  exact List.Nodup.of_map lower h

end CommandDispatch.Scan
