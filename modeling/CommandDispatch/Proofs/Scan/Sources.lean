import Mathlib.Data.List.Sort
import Mathlib.Data.String.Basic
import CommandDispatch.Proofs.Except
import CommandDispatch.Scan.Directory

/-!
# The sources of a directory

The sources are read in the order of their names, and no two have the same name. So a directory is
scanned to the same program if its sources are the same but for some in which there is no command.

* `pairwise_sources`, `mem_sources`: the order of the sources, and which they are,
* `scanFile_of_items`: a file that is read as items,
* `addFile_eq_self`: a file in which there is no command,
* `scan_eq_scan`: sources in which there is no command may be left out.
-/

namespace CommandDispatch.Scan

open Files Source

variable {files files' : List NamedFile} {f : NamedFile} {directory : String}
  {options : ScanOptions}

theorem mem_sources : f ∈ sources files ↔ f ∈ files ∧ isSourceName f.name = true := by
  rw [sources, List.mem_mergeSort, List.mem_filter]

theorem pairwise_le_sources (files : List NamedFile) :
    (sources files).Pairwise fun f g => f.name ≤ g.name := by
  refine (List.pairwise_mergeSort ?_ ?_ _).imp of_decide_eq_true
  · intro a b c hab hbc
    exact decide_eq_true (le_trans (of_decide_eq_true hab) (of_decide_eq_true hbc))
  · intro a b
    rw [Bool.or_eq_true, decide_eq_true_eq, decide_eq_true_eq]
    exact le_total a.name b.name

theorem pairwise_sources (h : files.Pairwise fun f g => f.name ≠ g.name) :
    (sources files).Pairwise fun f g => f.name < g.name := by
  have hNe : (sources files).Pairwise fun f g => f.name ≠ g.name :=
    (List.mergeSort_perm _ _).symm.pairwise (h.filter _) fun hNe => hNe.symm
  exact (pairwise_le_sources files).imp₂ (fun _ _ hLe hNe => lt_of_le_of_ne hLe hNe) hNe

/-- The commands of a file are those of its items. -/
theorem scanFile_of_items {text : String} {items : List Item} (hText : f.text = .ok text)
    (hItems : parseFile text = some items) :
    scanFile directory options f = commandsOf (modulePath options.rootPath f.name) items := by
  have hScan : scanFile directory options f =
      scanText (joinPath directory f.name) (modulePath options.rootPath f.name) text := by
    unfold scanFile
    rw [hText]
    rfl
  rw [hScan]
  unfold scanText
  rw [hItems]

/-- Nothing is added by a file of one item that is no function. -/
theorem addFile_eq_self {text : String} (hText : f.text = .ok text)
    (hItems : parseFile text = some [.other]) (s : Collected) :
    s.addFile directory options f = .ok s := by
  have hNone : commandsOf (modulePath options.rootPath f.name) [.other] = .ok [] := rfl
  rw [Collected.addFile, scanFile_of_items hText hItems, hNone]
  rfl

instance : Std.Irrefl fun f g : NamedFile => f.name < g.name :=
  ⟨fun f => lt_irrefl f.name⟩

instance : Std.Antisymm fun f g : NamedFile => f.name < g.name :=
  ⟨fun _ _ h h' => absurd h' (lt_asymm h)⟩

/-- Sources in which there is no command may be left out. -/
theorem scan_eq_scan {p : NamedFile → Bool} (h : files.Pairwise fun f g => f.name ≠ g.name)
    (h' : files'.Pairwise fun f g => f.name ≠ g.name)
    (hMem : ∀ f, f ∈ sources files ↔ f ∈ sources files' ∧ p f = true)
    (hOthers : ∀ f ∈ sources files', p f = false →
      ∀ s, Collected.addFile directory options s f = .ok s) :
    scan directory options files' = scan directory options files := by
  have hSources : sources files = (sources files').filter p := by
    refine List.Pairwise.eq_of_mem_iff (pairwise_sources h) ((pairwise_sources h').filter _) ?_
    intro f
    rw [hMem, List.mem_filter]
  rw [scan, scan, hSources, foldlM_filter hOthers]

end CommandDispatch.Scan
