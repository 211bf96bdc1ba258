import CommandDispatch.Proofs.Scan.Collection
import CommandDispatch.Proofs.Scan.Sources

/-!
# Commands that exclude each other

While a directory is scanned, a command is refused if the lower-case form of its name is that of a
command before it. The names of the commands so far are kept with their targets beside the program,
so that both targets can be reported, and no command takes the place of another one.

* `IsClash`: the first command of a list that is refused, and the error that reports it,
* `scan_eq_error_iff`: why a directory is refused,
* `toList_foldl_insert`: a program holds all commands that were registered under different names,
* `scan_of_haveCommands`: what comes of a directory whose sources all have their commands.
-/

namespace CommandDispatch.Scan

open Command Files Source Text

variable {directory : String} {options : ScanOptions} {files before : List NamedFile}
  {f : NamedFile} {commands : List Command} {found : List (List Command)} {e : ScanError}

/-! ## Registering -/

/-- What is at a key after pairs with different keys were inserted. -/
theorem getElem?_foldl_insert {α β : Type} {key : α → String} {value : α → β} {l : List α}
    (hNodup : (l.map key).Nodup) (m : Std.ExtTreeMap String β) (k : String) (v : β) :
    (l.foldl (fun m a => m.insert (key a) (value a)) m)[k]? = some v ↔
      (∃ a ∈ l, key a = k ∧ value a = v) ∨ k ∉ l.map key ∧ m[k]? = some v := by
  induction l generalizing m with
  | nil => simp
  | cons a l ih =>
    obtain ⟨hNew, hNodup⟩ := List.nodup_cons.mp hNodup
    rw [List.foldl_cons, ih hNodup, Std.ExtTreeMap.getElem?_insert]
    simp only [Std.LawfulEqCmp.compare_eq_iff_eq, List.map_cons, List.mem_cons, not_or,
      or_and_right, exists_or, exists_eq_left]
    by_cases hKey : key a = k
    · subst hKey
      simp [hNew, or_comm]
    · simp [hKey, Ne.symm hKey]

theorem commands_foldl_insert (p : Program) (commands : List Command) :
    (commands.foldl Program.insert p).commands =
      commands.foldl (fun m c => m.insert c.exposed c) p.commands := by
  induction commands generalizing p with
  | nil => rfl
  | cons c commands ih => exact ih (p.insert c)

theorem moduleName_foldl_insert (p : Program) (commands : List Command) :
    (commands.foldl Program.insert p).moduleName = p.moduleName := by
  induction commands generalizing p with
  | nil => rfl
  | cons c commands ih => exact ih (p.insert c)

/-- A program holds all commands that were registered under different names, and nothing else. -/
theorem toList_foldl_insert (moduleName : String) (h : (commands.map (·.exposed)).Nodup) :
    (commands.foldl Program.insert { moduleName }).toList.Perm
      (commands.map fun c => (c.exposed, c)) := by
  have hPairs : (commands.map fun c => (c.exposed, c)).Nodup := by
    refine List.Nodup.of_map Prod.fst ?_
    rw [List.map_map]
    exact h
  have hList : (commands.foldl Program.insert { moduleName }).toList.Nodup :=
    Std.ExtTreeMap.distinct_keys_toList.imp fun hKeys hEq =>
      hKeys (by rw [hEq]; exact Std.ReflCmp.compare_self)
  refine (List.perm_ext_iff_of_nodup hList hPairs).mpr ?_
  rintro ⟨name, c⟩
  rw [Program.toList, Std.ExtTreeMap.mem_toList_iff_getElem?_eq_some, commands_foldl_insert,
    getElem?_foldl_insert h]
  simp

/-! ## Clashes -/

/-- The first command of a list with a name that is taken, up to case, by a command before it. The
error reports the targets of both. -/
inductive IsClash (commands : List Command) : ScanError → Prop
  | mk {before after : List Command} {first second : Command}
      (hCommands : commands = before ++ second :: after) (hNodup : (lowerNames before).Nodup)
      (hFirst : first ∈ before) (hSame : lower first.exposed = lower second.exposed) :
      IsClash commands (.duplicateCommand second.exposed first.target second.target)

theorem Collected.add_eq_error_iff {s : Collected} {c : Command} :
    s.add c = .error e ↔ ∃ target, s.owners[lower c.exposed]? = some target ∧
      e = .duplicateCommand c.exposed target c.target := by
  unfold add
  dsimp only
  cases s.owners[lower c.exposed]? with
  | none => simp
  | some target => simp [eq_comm]

/-- The names that are known are those of the commands that were added. -/
theorem owners_addAll (program : Program) (h : (lowerNames commands).Nodup) (name target : String) :
    (Collected.addAll { program } commands).owners[name]? = some target ↔
      ∃ c ∈ commands, lower c.exposed = name ∧ c.target = target := by
  rw [Collected.addAll, getElem?_foldl_insert h]
  simp

theorem foldlM_add_start (program : Program) {s : Collected} :
    commands.foldlM Collected.add { program } = .ok s ↔
      (lowerNames commands).Nodup ∧ s = Collected.addAll { program } commands :=
  foldlM_add_eq_ok_iff.trans (and_iff_right fun _ _ => Std.ExtTreeMap.not_mem_empty)

theorem foldlM_add_eq_error_iff {program : Program} :
    commands.foldlM Collected.add { program } = .error e ↔ IsClash commands e := by
  simp only [foldlM_eq_error_iff, foldlM_add_start, Collected.add_eq_error_iff]
  constructor
  · rintro ⟨before, c, after, _, rfl, ⟨hNodup, rfl⟩, target, hOwner, rfl⟩
    obtain ⟨first, hFirst, hSame, rfl⟩ := (owners_addAll program hNodup _ _).mp hOwner
    exact .mk rfl hNodup hFirst hSame
  · rintro ⟨rfl, hNodup, hFirst, hSame⟩
    exact ⟨_, _, _, _, rfl, ⟨hNodup, rfl⟩, _,
      (owners_addAll program hNodup _ _).mpr ⟨_, hFirst, hSame, rfl⟩, rfl⟩

/-! ## Files -/

/-- The error is about something that is wrong with a file by itself. -/
inductive IsOwnFault : ScanError → Prop
  | unreadable (path : String) (fault : ReadFault) : IsOwnFault (.unreadable path fault)
  | malformed (path : String) : IsOwnFault (.malformed path)
  | directive (function : String) (fault : DirectiveFault) : IsOwnFault (.directive function fault)
  | unsupported (function : String) (cause : Unfit) : IsOwnFault (.unsupported function cause)
  | reservedName (function : String) : IsOwnFault (.reservedName function)

theorem isOwnFault_of_commandOfLines {target : String} {s : FunctionSignature}
    {lines : List String} (h : commandOfLines target s lines = .error e) : IsOwnFault e := by
  unfold commandOfLines at h
  rcases bind_eq_error.mp h with hSignature | ⟨signature, -, h⟩
  · obtain ⟨cause, -, rfl⟩ := mapError_eq_error.mp hSignature
    exact .unsupported target cause
  rcases bind_eq_error.mp h with hDraft | ⟨draft, -, h⟩
  · obtain ⟨fault, -, rfl⟩ := mapError_eq_error.mp hDraft
    exact .directive target fault
  rcases throw_or_eq_error.mp h with ⟨-, rfl⟩ | ⟨-, h⟩
  · exact .reservedName target
  · cases h

theorem isOwnFault_of_commandsOf {modulePath : String} {items : List Item}
    (h : commandsOf modulePath items = .error e) : IsOwnFault e := by
  unfold commandsOf at h
  rcases bind_eq_error.mp h with hItems | ⟨commands, -, h⟩
  · obtain ⟨item, -, hItem⟩ := exists_of_mapM_eq_error hItems
    cases item with
    | other => cases hItem
    | function f =>
      unfold commandOfItem commandOf at hItem
      dsimp only at hItem
      split at hItem
      · cases hItem
      · exact isOwnFault_of_commandOfLines (map_eq_error.mp hItem)
  · cases h

theorem isOwnFault_of_scanFile (h : scanFile directory options f = .error e) : IsOwnFault e := by
  unfold scanFile at h
  rcases bind_eq_error.mp h with hText | ⟨text, -, h⟩
  · obtain ⟨fault, -, rfl⟩ := mapError_eq_error.mp hText
    exact .unreadable _ fault
  · unfold scanText at h
    split at h
    · exact isOwnFault_of_commandsOf h
    · cases h
      exact .malformed _

/-- Of sources that all have their commands, the commands are added. -/
theorem foldlM_addFile_of_haveCommands (h : HaveCommands directory options files found)
    (s : Collected) :
    files.foldlM (Collected.addFile directory options) s = found.flatten.foldlM Collected.add s := by
  unfold HaveCommands at h
  induction h generalizing s with
  | nil => rfl
  | @cons f commands files found hFile _ ih =>
    rw [List.foldlM_cons, Collected.addFile, hFile, ok_bind, List.flatten_cons, List.foldlM_append]
    exact congrArg _ (funext ih)

theorem scan_eq_error_iff_foldlM : scan directory options files = .error e ↔
    (sources files).foldlM (Collected.addFile directory options)
      { program := { moduleName := options.moduleName } } = .error e := by
  rw [scan, bind_eq_error]
  simp [pure, Except.pure]

/-- A directory is refused for the first of its sources that is wrong by itself, or that has a
command whose name is taken by one before it. -/
theorem scan_eq_error_iff : scan directory options files = .error e ↔
    ∃ before f after found, sources files = before ++ f :: after ∧
      HaveCommands directory options before found ∧ (lowerNames found.flatten).Nodup ∧
      (scanFile directory options f = .error e ∨
        ∃ commands, scanFile directory options f = .ok commands ∧
          IsClash (found.flatten ++ commands) e) := by
  rw [scan_eq_error_iff_foldlM, foldlM_eq_error_iff]
  refine exists_congr fun before => exists_congr fun f => exists_congr fun after => ?_
  -- What was collected from the sources before is put in the place of the commands in them.
  have hAddFile : ∀ {found : List (List Command)} {s : Collected},
      found.flatten.foldlM Collected.add { program := { moduleName := options.moduleName } } =
        .ok s →
      (s.addFile directory options f = .error e ↔ scanFile directory options f = .error e ∨
        ∃ commands, scanFile directory options f = .ok commands ∧
          IsClash (found.flatten ++ commands) e) := by
    intro found s hFound
    rw [Collected.addFile, bind_eq_error]
    refine or_congr_right (exists_congr fun commands => and_congr_right fun _ => ?_)
    rw [← foldlM_add_eq_error_iff, List.foldlM_append, hFound, ok_bind]
  constructor
  · rintro ⟨s, hSources, hBefore, hError⟩
    obtain ⟨found, hFound, hAdd⟩ := foldlM_addFile_eq_ok_iff.mp hBefore
    exact ⟨found, hSources, hFound, ((foldlM_add_start _).mp hAdd).1, (hAddFile hAdd).mp hError⟩
  · rintro ⟨found, hSources, hFound, hNodup, hError⟩
    have hAdd := (foldlM_add_start { moduleName := options.moduleName }).mpr ⟨hNodup, rfl⟩
    exact ⟨_, hSources, foldlM_addFile_eq_ok_iff.mpr ⟨found, hFound, hAdd⟩,
      (hAddFile hAdd).mpr hError⟩

theorem scan_eq_ok_iff_of_haveCommands {p : Program}
    (h : HaveCommands directory options (sources files) found) :
    scan directory options files = .ok p ↔ (lowerNames found.flatten).Nodup ∧
      p = found.flatten.foldl Program.insert { moduleName := options.moduleName } := by
  unfold scan
  dsimp only
  rw [foldlM_addFile_of_haveCommands h, bind_eq_ok]
  simp only [foldlM_add_start]
  constructor
  · rintro ⟨_, ⟨hNodup, rfl⟩, hProgram⟩
    cases hProgram
    exact ⟨hNodup, rfl⟩
  · rintro ⟨hNodup, rfl⟩
    exact ⟨_, ⟨hNodup, rfl⟩, rfl⟩

theorem scan_eq_error_iff_of_haveCommands
    (h : HaveCommands directory options (sources files) found) :
    scan directory options files = .error e ↔ IsClash found.flatten e := by
  rw [scan_eq_error_iff_foldlM, foldlM_addFile_of_haveCommands h, foldlM_add_eq_error_iff]

/-! ## Directories -/

theorem endsWith_iff {s ending : String} : endsWith s ending = true ↔ ∃ t, s = t ++ ending := by
  rw [endsWith, List.isSuffixOf_iff_suffix]
  constructor
  · rintro ⟨t, ht⟩
    refine ⟨String.ofList t, String.toList_inj.mp ?_⟩
    rw [String.toList_append, String.toList_ofList, ht]
  · rintro ⟨t, rfl⟩
    exact ⟨t.toList, String.toList_append.symm⟩

theorem isSourceName_iff {name : String} : isSourceName name = true ↔
    (∃ s, name = s ++ ".rs") ∧ ¬ ∃ s, name = s ++ ".cligen.rs" := by
  rw [isSourceName, Bool.and_eq_true, Bool.not_eq_true', ← Bool.not_eq_true, endsWith_iff,
    endsWith_iff]

/-- No command is lost and none is made twice. The sources are the files with the right names, in
the order of these. If all of them have their commands, the program is that of these commands,
unless the names of two are the same up to case: then the first command whose name is taken is
reported. In general, a directory is refused for the first of its sources that fails, and for a
command whose name is taken only if that source has nothing else wrong with it. -/
theorem scan_of_haveCommands (directory : String) (options : ScanOptions)
    (files : List NamedFile) :
    ((sources files).Perm (files.filter fun f => isSourceName f.name) ∧
      (sources files).Pairwise (fun f g => f.name ≤ g.name) ∧
      ∀ name, isSourceName name = true ↔
        (∃ s, name = s ++ ".rs") ∧ ¬ ∃ s, name = s ++ ".cligen.rs") ∧
    (∀ found, HaveCommands directory options (sources files) found →
      ((∃ p, scan directory options files = .ok p) ↔ (lowerNames found.flatten).Nodup) ∧
      (∀ p, scan directory options files = .ok p → p.moduleName = options.moduleName ∧
        p.toList.Perm (found.flatten.map fun c => (c.exposed, c))) ∧
      ∀ e, scan directory options files = .error e ↔ IsClash found.flatten e) ∧
    (∀ e, scan directory options files = .error e ↔
      ∃ before f after found, sources files = before ++ f :: after ∧
        HaveCommands directory options before found ∧ (lowerNames found.flatten).Nodup ∧
        (scanFile directory options f = .error e ∨
          ∃ commands, scanFile directory options f = .ok commands ∧
            IsClash (found.flatten ++ commands) e)) ∧
    ∀ f e, scanFile directory options f = .error e → IsOwnFault e := by
  refine ⟨⟨List.mergeSort_perm _ _, pairwise_le_sources files, fun _ => isSourceName_iff⟩,
    fun found hFound => ⟨⟨?_, ?_⟩, ?_, fun e => scan_eq_error_iff_of_haveCommands hFound⟩,
    fun e => scan_eq_error_iff, fun f e => isOwnFault_of_scanFile⟩
  · rintro ⟨p, hScan⟩
    exact ((scan_eq_ok_iff_of_haveCommands hFound).mp hScan).1
  · intro hNodup
    exact ⟨_, (scan_eq_ok_iff_of_haveCommands hFound).mpr ⟨hNodup, rfl⟩⟩
  · intro p hScan
    obtain ⟨hNodup, rfl⟩ := (scan_eq_ok_iff_of_haveCommands hFound).mp hScan
    exact ⟨moduleName_foldl_insert _ _,
      toList_foldl_insert _ (nodup_exposed_of_nodup_lowerNames hNodup)⟩

/-! ## Two files -/

/-- A file whose only command has the name of `borrowingCommand` in capitals. -/
def shoutingFile : NamedFile :=
  ⟨"shout.rs", .ok "/// cligen:cmd SAY\nfn shout() {}"⟩

def shoutingCommand : Command where
  target := "crate::shout::shout"
  exposed := "SAY"
  signature := ⟨[], []⟩
  description := ""

/-- The name in the second file is taken, up to case, by the command in the first one. -/
theorem scan_shoutingFile :
    HaveCommands "src" {} (sources [shoutingFile, borrowingFile])
      [[borrowingCommand], [shoutingCommand]] ∧
    scan "src" {} [shoutingFile, borrowingFile] =
      .error (.duplicateCommand "SAY" "crate::echo::echo" "crate::shout::shout") := by
  have hSources : sources [shoutingFile, borrowingFile] = [borrowingFile, shoutingFile] := by
    have hFilter : [shoutingFile, borrowingFile].filter (fun f => isSourceName f.name) =
        [shoutingFile, borrowingFile] := List.filter_eq_self.mpr (by decide +kernel)
    have hOrder : ¬ shoutingFile.name ≤ borrowingFile.name := by decide
    rw [sources, hFilter]
    simp [List.mergeSort, List.MergeSort.Internal.splitInTwo, hOrder]
  have hFound : HaveCommands "src" {} (sources [shoutingFile, borrowingFile])
      [[borrowingCommand], [shoutingCommand]] := by
    rw [hSources]
    exact .cons (by decide +kernel) (.cons (by decide +kernel) .nil)
  obtain ⟨-, hCommands, -⟩ := scan_of_haveCommands "src" {} [shoutingFile, borrowingFile]
  obtain ⟨-, -, hError⟩ := hCommands _ hFound
  have hNodup : (lowerNames [borrowingCommand]).Nodup := List.nodup_singleton _
  have hSame : lower borrowingCommand.exposed = lower shoutingCommand.exposed := by decide
  have hClash : IsClash [borrowingCommand, shoutingCommand]
      (.duplicateCommand shoutingCommand.exposed borrowingCommand.target shoutingCommand.target) :=
    .mk rfl hNodup List.mem_cons_self hSame
  exact ⟨hFound, (hError _).mpr hClash⟩

end CommandDispatch.Scan
