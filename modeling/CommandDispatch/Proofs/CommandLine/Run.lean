import CommandDispatch.CommandLine.Run
import CommandDispatch.Proofs.Dispatcher.Completeness
import CommandDispatch.Proofs.Files.Tree
import CommandDispatch.Proofs.Scan.Sources

/-!
# Running the tool

A run that fails or prints leaves the files as they are. A run that writes changes one file. Unless
that file is one of the sources, running again changes nothing: in the text that was written there
is no command, so the directory is scanned to the same program, wherever the text was written and
whatever the name of its file.

* `IsSourcePlace`: where the sources of a run are,
* `run_cases`: what becomes of the files, of the text, and of an error,
* `scanProgram_insert`: the program of a directory after a text without functions was written,
* `run_allOrNothing`: what a run leaves behind, and what the same run does after it.
-/

namespace CommandDispatch.CommandLine

open Command Dispatcher Files Scan Source

variable {o : Options} {t : Tree} {p d here : Place} {text : String} {content : ByteArray}
  {files : Except ReadFault (List NamedFile)} {f : NamedFile} {program : Program}

/-- At this place of the tree is one of the sources of a run. -/
def IsSourcePlace (o : Options) (here : Place) (t : Tree) (p : Place) : Prop :=
  ∃ d files f, t.resolve here o.directory = .ok d ∧ t.list here o.directory = .ok files ∧
    f ∈ sources files ∧ p = d ++ [f.name]

/-! ## One run -/

theorem dispatcherText_eq_ok : dispatcherText o files = .ok text ↔
    ∃ program, scanProgram o files = .ok program ∧ generate program = .ok text := by
  simp only [dispatcherText, bind_eq_ok, mapError_eq_ok]

theorem run_of_dispatcherText (h : dispatcherText o (t.list here o.directory) = .ok text) :
    run o here t = deliver o here text t := by
  rw [run, h]

theorem deliver_of_writable? (hOutput : o.toStandardOutput = false)
    (hPlace : t.writable? here o.target = some p) :
    deliver o here text t = { files := t.insert p (.file text.toUTF8) } := by
  rw [deliver, hOutput, Tree.write?, hPlace]
  rfl

/-- A run fails, or it prints its text, or it writes it to one place. -/
theorem run_cases (o : Options) (here : Place) (t : Tree) :
    (∃ e, run o here t = { files := t, error := some e }) ∨
      ∃ text, dispatcherText o (t.list here o.directory) = .ok text ∧
        (o.toStandardOutput = true ∧ run o here t = { printed := text, files := t } ∨
          o.toStandardOutput = false ∧ ∃ p, t.writable? here o.target = some p ∧
            run o here t = { files := t.insert p (.file text.toUTF8) }) := by
  cases hText : dispatcherText o (t.list here o.directory) with
  | error e => exact .inl ⟨e, by rw [run, hText]⟩
  | ok text =>
    rw [run_of_dispatcherText hText]
    cases hOutput : o.toStandardOutput with
    | true => exact .inr ⟨text, rfl, .inl ⟨rfl, by rw [deliver, hOutput]; rfl⟩⟩
    | false =>
      cases hPlace : t.writable? here o.target with
      | none =>
        refine .inl ⟨.write o.target, ?_⟩
        rw [deliver, hOutput, Tree.write?, hPlace]
        rfl
      | some p => exact .inr ⟨text, rfl, .inr ⟨rfl, p, rfl, deliver_of_writable? hOutput hPlace⟩⟩

theorem error_eq_none_iff : (run o here t).error = none ↔
    ∃ text, dispatcherText o (t.list here o.directory) = .ok text ∧
      (o.toStandardOutput = true ∨ (t.writable? here o.target).isSome = true) := by
  constructor
  · intro h
    rcases run_cases o here t with ⟨e, hRun⟩ | ⟨text, hText, ⟨hOutput, -⟩ | ⟨-, p, hPlace, -⟩⟩
    · rw [hRun] at h
      cases h
    · exact ⟨text, hText, .inl hOutput⟩
    · exact ⟨text, hText, .inr (by rw [hPlace]; rfl)⟩
  · rintro ⟨text, hText, hEmits⟩
    rw [run_of_dispatcherText hText]
    cases hOutput : o.toStandardOutput with
    | true =>
      rw [deliver, hOutput]
      rfl
    | false =>
      have hSome := hEmits.resolve_left (hOutput ▸ Bool.false_ne_true)
      obtain ⟨p, hPlace⟩ := Option.isSome_iff_exists.mp hSome
      rw [deliver_of_writable? hOutput hPlace]

/-! ## Running again -/

theorem mem_list_insert (hf : d ++ [f.name] ≠ p) :
    f ∈ (t.insert p (.file content)).toList.filterMap (Tree.fileIn d) ↔
      f ∈ t.toList.filterMap (Tree.fileIn d) := by
  rw [Tree.mem_list, Tree.mem_list, Tree.getElem?_insert_of_ne hf]

theorem text_eq_of_mem_list_insert (hf : d ++ [f.name] = p)
    (hMem : f ∈ (t.insert p (.file text.toUTF8)).toList.filterMap (Tree.fileIn d)) :
    f.text = .ok text := by
  obtain ⟨content, hAt, hText⟩ := Tree.mem_list.mp hMem
  rw [hf, Tree.getElem?_insert_self] at hAt
  cases hAt
  rw [hText, Tree.textOf_toUTF8]

/-- There is no command in a text without functions, so the program is the one from before. -/
theorem scanProgram_insert (hPlace : t.IsFilePlace p) (hSource : ¬ IsSourcePlace o here t p)
    (hItems : parseFile text = some [.other])
    (h : scanProgram o (t.list here o.directory) = .ok program) :
    scanProgram o (Tree.list (t.insert p (.file text.toUTF8)) here o.directory) = .ok program := by
  cases hList : t.list here o.directory with
  | error fault =>
    rw [hList] at h
    cases h
  | ok files =>
    rw [hList] at h
    obtain ⟨d, hResolve, hDirectory, hFiles⟩ := Tree.list_eq_ok.mp hList
    have hAfter : Tree.list (t.insert p (.file text.toUTF8)) here o.directory =
        .ok ((t.insert p (.file text.toUTF8)).toList.filterMap (Tree.fileIn d)) := by
      refine Tree.list_eq_ok.mpr ⟨d, Tree.resolve_insert hPlace hResolve, ?_, rfl⟩
      rw [Tree.isDirectory_insert hPlace, hDirectory]
    rw [hAfter, ← h]
    -- The file at `p` was no source. If it is one now, then it is the only one to leave out.
    refine scan_eq_scan (p := fun f => d ++ [f.name] != p) (hFiles ▸ Tree.pairwise_name_ne t d)
      (Tree.pairwise_name_ne _ d) (fun f => ?_) fun f hMem hNot => ?_
    · by_cases hf : d ++ [f.name] = p
      · refine iff_of_false (fun hMem => ?_) fun hKept => bne_iff_ne.mp hKept.2 hf
        exact hSource ⟨d, files, f, hResolve, hList, hMem, hf.symm⟩
      · rw [and_iff_left (bne_iff_ne.mpr hf), mem_sources, mem_sources, mem_list_insert hf, hFiles]
    · have hf : d ++ [f.name] = p := bne_eq_false_iff_eq.mp hNot
      exact addFile_eq_self (text_eq_of_mem_list_insert hf (mem_sources.mp hMem).1) hItems

/-- A run after one that wrote its text beside the sources writes the same text again. -/
theorem run_insert (hText : dispatcherText o (t.list here o.directory) = .ok text)
    (hOutput : o.toStandardOutput = false) (hPlace : t.writable? here o.target = some p)
    (hSource : ¬ IsSourcePlace o here t p) :
    run o here (t.insert p (.file text.toUTF8)) = { files := t.insert p (.file text.toUTF8) } := by
  obtain ⟨program, hScan, hGenerate⟩ := dispatcherText_eq_ok.mp hText
  have hAgain : dispatcherText o (Tree.list (t.insert p (.file text.toUTF8)) here o.directory) =
      .ok text := by
    refine dispatcherText_eq_ok.mpr ⟨program, ?_, hGenerate⟩
    exact scanProgram_insert (Tree.isFilePlace_of_writable? hPlace) hSource
      (parseFile_of_generateWith hGenerate) hScan
  rw [run_of_dispatcherText hAgain, deliver_of_writable? hOutput (Tree.writable?_insert hPlace),
    Tree.insert_insert]

/-! ## Any run -/

/-- A run succeeds only if the directory is scanned and its dispatcher generated. If it fails or
prints, the files stay as they are, and a run that fails prints nothing. A run that writes changes
one file, to the text of the dispatcher. If that file was no source, then the same run succeeds
again and changes nothing. -/
theorem run_allOrNothing (o : Options) (here : Place) (t : Tree) :
    ((run o here t).error = none ↔ ∃ program text,
      scanProgram o (t.list here o.directory) = .ok program ∧ generate program = .ok text ∧
        (o.toStandardOutput = true ∨ (t.writable? here o.target).isSome = true)) ∧
    ((run o here t).error ≠ none → (run o here t).files = t ∧ (run o here t).printed = "") ∧
    (o.toStandardOutput = true → (run o here t).files = t) ∧
    ((run o here t).error = none → o.toStandardOutput = false → ∃ program text p,
      scanProgram o (t.list here o.directory) = .ok program ∧ generate program = .ok text ∧
      t.writable? here o.target = some p ∧ (run o here t).printed = "" ∧
      (run o here t).files[p]? = some (.file text.toUTF8) ∧
      (∀ q, q ≠ p → (run o here t).files[q]? = t[q]?) ∧
      (¬ IsSourcePlace o here t p →
        run o here (run o here t).files = { files := (run o here t).files })) := by
  refine ⟨?_, fun hFails => ?_, fun hOutput => ?_, fun hSucceeds hOutput => ?_⟩
  · simp only [error_eq_none_iff, dispatcherText_eq_ok]
    exact ⟨fun ⟨text, ⟨program, hScan, hGenerate⟩, hEmits⟩ =>
        ⟨program, text, hScan, hGenerate, hEmits⟩,
      fun ⟨program, text, hScan, hGenerate, hEmits⟩ =>
        ⟨text, ⟨program, hScan, hGenerate⟩, hEmits⟩⟩
  · rcases run_cases o here t with ⟨e, hRun⟩ | ⟨text, -, ⟨-, hRun⟩ | ⟨-, p, -, hRun⟩⟩
    · rw [hRun]
      exact ⟨rfl, rfl⟩
    · exact absurd (by rw [hRun]) hFails
    · exact absurd (by rw [hRun]) hFails
  · rcases run_cases o here t with ⟨e, hRun⟩ | ⟨text, -, ⟨-, hRun⟩ | ⟨hFile, -⟩⟩
    · rw [hRun]
    · rw [hRun]
    · rw [hFile] at hOutput
      cases hOutput
  · rcases run_cases o here t with ⟨e, hRun⟩ | ⟨text, hText, ⟨hPrints, -⟩ | ⟨-, p, hPlace, hRun⟩⟩
    · rw [hRun] at hSucceeds
      cases hSucceeds
    · rw [hOutput] at hPrints
      cases hPrints
    · obtain ⟨program, hScan, hGenerate⟩ := dispatcherText_eq_ok.mp hText
      rw [hRun]
      refine ⟨program, text, p, hScan, hGenerate, hPlace, rfl, Tree.getElem?_insert_self,
        fun q hq => Tree.getElem?_insert_of_ne hq, fun hSource => ?_⟩
      exact run_insert hText hOutput hPlace hSource

end CommandDispatch.CommandLine
