import CommandDispatch.Dispatcher.Generate
import CommandDispatch.Proofs.Scan.Collection
import CommandDispatch.Proofs.Scan.Sources

/-!
# Revisions of a directory

Of a file only the functions with directives matter, and not their order; of a directory, not the
order in which its files are listed. So a directory that is scanned is still scanned to the same
program after all changes to other things, and the same text is generated.

* `commandsOf_eq_ok_iff`: which commands the items of a file are,
* `IsRevision`: a file with the same functions that have directives,
* `scan_of_isRevision`: the files of a directory are listed in another order and revised.
-/

namespace CommandDispatch.Scan

open Command Dispatcher Files Source Text

/-! ## The commands of a file -/

/-- The item is a function with directives. -/
def isAnnotated : Item → Bool
  | .function f => !(directiveLines f.attributes).isEmpty
  | .other => false

variable {modulePath directory : String} {options : ScanOptions} {item : Item} {items : List Item}
  {f f' : NamedFile}

theorem commandOfItem_of_not_isAnnotated (h : isAnnotated item = false) :
    commandOfItem modulePath item = .ok none := by
  cases item with
  | function f =>
    have hNil : directiveLines f.attributes = [] := by
      simpa [isAnnotated] using h
    simp only [commandOfItem, commandOf, hNil]
  | other => rfl

theorem commandOfItem_ne_none (h : isAnnotated item = true) :
    commandOfItem modulePath item ≠ .ok none := by
  cases item with
  | function f =>
    have hNe : directiveLines f.attributes ≠ [] := by
      simpa [isAnnotated] using h
    intro hNone
    unfold commandOfItem commandOf at hNone
    dsimp only at hNone
    split at hNone
    · rename_i hNil
      exact hNe hNil
    · obtain ⟨c, -, hc⟩ := map_eq_ok.mp hNone
      cases hc
  | other => cases h

theorem commandsOf_cons :
    commandsOf modulePath (item :: items) =
      commandOfItem modulePath item >>= fun c =>
        (commandsOf modulePath items).map (c.toList ++ ·) := by
  unfold commandsOf
  rw [List.mapM_cons]
  cases commandOfItem modulePath item with
  | error e => rfl
  | ok c =>
    cases items.mapM (commandOfItem modulePath) with
    | error e => rfl
    | ok cs => cases c <;> rfl

/-- The commands of a file are those of its functions with directives. -/
theorem commandsOf_eq_ok_iff {commands : List Command} :
    commandsOf modulePath items = .ok commands ↔
      List.Forall₂ (fun item c => commandOfItem modulePath item = .ok (some c))
        (items.filter isAnnotated) commands := by
  induction items generalizing commands with
  | nil =>
    rw [List.filter_nil, List.forall₂_nil_left_iff]
    exact ⟨fun h => by cases h; rfl, fun h => by rw [h]; rfl⟩
  | cons item items ih =>
    rw [commandsOf_cons, List.filter_cons]
    cases hAnnotated : isAnnotated item with
    | false =>
      rw [commandOfItem_of_not_isAnnotated hAnnotated, ok_bind, map_eq_ok]
      simpa using ih
    | true =>
      simp only [if_true, List.forall₂_cons_left_iff, bind_eq_ok, map_eq_ok, ih]
      constructor
      · rintro ⟨found, hItem, cs, hRest, rfl⟩
        cases found with
        | none => exact absurd hItem (commandOfItem_ne_none hAnnotated)
        | some c => exact ⟨c, cs, hItem, hRest, rfl⟩
      · rintro ⟨c, cs, hItem, hRest, rfl⟩
        exact ⟨some c, hItem, cs, hRest, rfl⟩

/-! ## Revisions -/

/-- A file of the same name with the same functions that have directives, in any order. Both texts
are source files; all else in them may differ. -/
inductive IsRevision : NamedFile → NamedFile → Prop where
  | same (f : NamedFile) : IsRevision f f
  | items {name text text' : String} {items items' : List Item}
      (hItems : parseFile text = some items) (hItems' : parseFile text' = some items')
      (hAnnotated : (items.filter isAnnotated).Perm (items'.filter isAnnotated)) :
      IsRevision ⟨name, .ok text⟩ ⟨name, .ok text'⟩

theorem IsRevision.name_eq (h : IsRevision f f') : f.name = f'.name := by
  cases h <;> rfl

/-- The commands of a file are those of its revisions, in another order. -/
theorem IsRevision.exists_perm (h : IsRevision f f') {commands : List Command}
    (hScan : scanFile directory options f = .ok commands) :
    ∃ commands', scanFile directory options f' = .ok commands' ∧ commands.Perm commands' := by
  cases h with
  | same => exact ⟨commands, hScan, .refl commands⟩
  | @items name text text' items items' hItems hItems' hAnnotated =>
    rw [scanFile_of_items rfl hItems, commandsOf_eq_ok_iff] at hScan
    obtain ⟨commands', hFound, hPerm⟩ := List.perm_comp_forall₂ hAnnotated.symm hScan
    exact ⟨commands', by rwa [scanFile_of_items rfl hItems', commandsOf_eq_ok_iff], hPerm.symm⟩

theorem exists_of_forall₂_isRevision {files files' : List NamedFile}
    (h : List.Forall₂ IsRevision files files') {found : List (List Command)}
    (hFound : HaveCommands directory options files found) :
    ∃ found', HaveCommands directory options files' found' ∧
      List.Forall₂ List.Perm found found' := by
  unfold HaveCommands at hFound ⊢
  induction h generalizing found with
  | nil =>
    cases hFound
    exact ⟨[], .nil, .nil⟩
  | cons hFile _ ih =>
    obtain ⟨commands, found, hCommands, hRest, rfl⟩ := List.forall₂_cons_left_iff.mp hFound
    obtain ⟨commands', hCommands', hPerm⟩ := hFile.exists_perm hCommands
    obtain ⟨found', hRest', hPerms⟩ := ih hRest
    exact ⟨commands' :: found', .cons hCommands' hRest', .cons hPerm hPerms⟩

/-- The sources of a directory are revised with its files, whatever their order. -/
theorem exists_perm_sources {files listed files' : List NamedFile} (hPerm : files.Perm listed)
    (hRevised : List.Forall₂ IsRevision listed files') :
    ∃ between, (sources files).Perm between ∧ List.Forall₂ IsRevision between (sources files') := by
  have hFilter : List.Forall₂ IsRevision (listed.filter fun f => isSourceName f.name)
      (files'.filter fun f => isSourceName f.name) :=
    List.rel_filter (fun f f' h => by dsimp only; rw [h.name_eq]) hRevised
  have hSources : (sources files).Perm (listed.filter fun f => isSourceName f.name) :=
    (List.mergeSort_perm _ _).trans (hPerm.filter _)
  have hSources' : (files'.filter fun f => isSourceName f.name).Perm (sources files') :=
    (List.mergeSort_perm _ _).symm
  -- The files are revised and then sorted. The sorting is moved before the revision.
  have hComp : Relation.Comp (List.Forall₂ IsRevision) List.Perm
      (listed.filter fun f => isSourceName f.name) (sources files') :=
    ⟨_, hFilter, hSources'⟩
  rw [List.forall₂_comp_perm_eq_perm_comp_forall₂] at hComp
  obtain ⟨between, hBetween, hRevisedSources⟩ := hComp
  exact ⟨between, hSources.trans hBetween, hRevisedSources⟩

/-! ## The program of a directory -/

/-- A directory is scanned to the same program when its files are listed in another order and
revised. -/
theorem scan_of_isRevision {files listed files' : List NamedFile} {p : Program}
    (hPerm : files.Perm listed) (hRevised : List.Forall₂ IsRevision listed files')
    (hScan : scan directory options files = .ok p) : scan directory options files' = .ok p := by
  obtain ⟨found, hFound, hNodup, hProgram⟩ := scan_eq_ok_iff.mp hScan
  obtain ⟨between, hBetween, hRevisedSources⟩ := exists_perm_sources hPerm hRevised
  obtain ⟨reordered, hReordered, hFoundPerm⟩ := List.perm_comp_forall₂ hBetween.symm hFound
  obtain ⟨found', hFound', hPerms⟩ := exists_of_forall₂_isRevision hRevisedSources hReordered
  have hAll : found.flatten.Perm found'.flatten :=
    hFoundPerm.symm.flatten.trans (List.Perm.flatten_congr hPerms)
  have hNames : (lowerNames found.flatten).Perm (lowerNames found'.flatten) := hAll.map _
  have hNodup' : (lowerNames found'.flatten).Nodup := hNames.nodup_iff.mp hNodup
  have hSame := foldl_insert_eq hAll (nodup_exposed_of_nodup_lowerNames hNodup)
    { moduleName := options.moduleName }
  exact scan_eq_ok_iff.mpr ⟨found', hFound', hNodup', hProgram.trans hSame.symm⟩

/-- Of a directory that is scanned only the functions with directives matter, and of commands with
different names only which they are. The order in which these are written, listed or registered and
anything else in the files change neither the program nor the text that is generated. -/
theorem scan_and_generate_of_isRevision :
    (∀ directory options files listed files' p, files.Perm listed →
      List.Forall₂ IsRevision listed files' → scan directory options files = .ok p →
      scan directory options files' = .ok p ∧
        (scan directory options files').map generate =
          (scan directory options files).map generate) ∧
    ∀ (p : Program) (commands others : List Command), commands.Perm others →
      (commands.map (·.exposed)).Nodup →
      others.foldl Program.insert p = commands.foldl Program.insert p ∧
        generate (others.foldl Program.insert p) = generate (commands.foldl Program.insert p) := by
  refine ⟨fun directory options files listed files' p hPerm hRevised hScan => ?_,
    fun p commands others hPerm hNodup => ?_⟩
  · have hScan' := scan_of_isRevision hPerm hRevised hScan
    exact ⟨hScan', by rw [hScan', hScan]⟩
  · have hSame := foldl_insert_eq hPerm hNodup p
    exact ⟨hSame, by rw [hSame]⟩

/-! ## A file without commands -/

/-- A file with this text. -/
def helperFile (text : String) : NamedFile :=
  ⟨"helper.rs", .ok text⟩

/-- The text is a source file in which no function has directives. -/
def holdsNoCommand (text : String) : Bool :=
  (parseFile text).any fun items => (items.filter isAnnotated).isEmpty

theorem isRevision_helperFile {text text' : String} (h : holdsNoCommand text = true)
    (h' : holdsNoCommand text' = true) : IsRevision (helperFile text) (helperFile text') := by
  obtain ⟨items, hItems, hNil⟩ := (Option.any_eq_true _ _).mp h
  obtain ⟨items', hItems', hNil'⟩ := (Option.any_eq_true _ _).mp h'
  refine .items hItems hItems' ?_
  rw [List.isEmpty_iff.mp hNil, List.isEmpty_iff.mp hNil']

theorem scan_beside_helperFile :
    scan "src" {} [borrowingFile, helperFile "fn f() {}"] = .ok borrowingProgram := by
  have hSources : sources [borrowingFile, helperFile "fn f() {}"] =
      [borrowingFile, helperFile "fn f() {}"] := by
    have hFilter : [borrowingFile, helperFile "fn f() {}"].filter (fun f => isSourceName f.name) =
        [borrowingFile, helperFile "fn f() {}"] :=
      List.filter_eq_self.mpr (by decide +kernel)
    rw [sources, hFilter]
    exact List.mergeSort_of_pairwise (by decide +kernel)
  have hFound : HaveCommands "src" {} [borrowingFile, helperFile "fn f() {}"]
      [[borrowingCommand], []] :=
    .cons (by decide +kernel) (.cons (by decide +kernel) .nil)
  rw [scan_eq_ok_iff, hSources]
  exact ⟨_, hFound, List.nodup_singleton _, rfl⟩

/-- A command that is known by another name. -/
def tellCommand : Command :=
  { borrowingCommand with exposed := "tell" }

/-- The file without commands is listed first, and has other items. Two commands are registered in
either order. -/
theorem scan_and_generate_of_helperFile :
    scan "src" {} [borrowingFile, helperFile "fn f() {}"] = .ok borrowingProgram ∧
      scan "src" {} [helperFile "struct S;\nfn g() {}", borrowingFile] = .ok borrowingProgram ∧
      (borrowingProgram.insert tellCommand).commands =
        ((Program.insert { moduleName := "cli" } tellCommand).insert borrowingCommand).commands := by
  have hRevised : List.Forall₂ IsRevision [helperFile "fn f() {}", borrowingFile]
      [helperFile "struct S;\nfn g() {}", borrowingFile] :=
    .cons (isRevision_helperFile (by decide +kernel) (by decide +kernel)) (.cons (.same _) .nil)
  have hScan := (scan_and_generate_of_isRevision.1 "src" {} _ _ _ _ (.swap _ _ [])
    hRevised scan_beside_helperFile).1
  have hInsert := (scan_and_generate_of_isRevision.2 { moduleName := "cli" }
    [tellCommand, borrowingCommand] [borrowingCommand, tellCommand] (.swap _ _ [])
    (by decide)).1
  exact ⟨scan_beside_helperFile, hScan, congrArg Program.commands hInsert⟩

end CommandDispatch.Scan
