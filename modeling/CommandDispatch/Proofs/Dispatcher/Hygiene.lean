import CommandDispatch.Proofs.Dispatcher.Check
import CommandDispatch.Proofs.Dispatcher.Realize
import CommandDispatch.Proofs.Naming.Word

/-!
# Which names a dispatcher can hide

The names that a dispatcher binds must not hide each other, nor what every dispatcher defines, nor
the functions that it calls. A local name can hide only the first segment of a path, so these
segments are reserved before names are drawn. They are reserved as they are written: the mark `r#`
of a raw word is part of its text, but no part of the identifier.

* `identifier` is the identifier that a word stands for,
* `binders_apart`: no name hides another one or a defined one, and a first segment is hidden only if
  it is a raw word,
* `binders_rawCommand`: such a segment is hidden, if the name is drawn.
-/

namespace CommandDispatch.Dispatcher

open Command Naming Source

/-- The identifier that a word stands for. A raw word stands for the word after its mark. -/
def identifier (word : String) : List Char :=
  if beginsWith word.toList "r#" then word.toList.drop 2 else word.toList

theorem identifier_of_notMem {word : String} (h : '#' ∉ word.toList) :
    identifier word = word.toList := by
  unfold identifier
  split
  · rename_i hRaw
    have hPrefix : ['r', '#'] <+: word.toList := List.isPrefixOf_iff_prefix.mp hRaw
    exact absurd (hPrefix.subset (by simp)) h
  · rfl

/-- Two different words are one identifier only if one of them is the other as a raw word. -/
theorem eq_raw_of_identifier_eq {w s : String} (hw : '#' ∉ w.toList) (hNe : w ≠ s)
    (h : identifier w = identifier s) : s = "r#" ++ w := by
  rw [identifier_of_notMem hw, identifier] at h
  split at h
  · rename_i hRaw
    obtain ⟨rest, hRest⟩ := List.isPrefixOf_iff_prefix.mp hRaw
    have hList : s.toList = 'r' :: '#' :: rest := hRest.symm
    rw [hList] at h
    apply String.toList_inj.mp
    rw [hList, String.toList_append, h]
    rfl
  · exact absurd (String.toList_inj.mp h) hNe

/-! ## Drawn names -/

variable {σ : Type} [Naming.Source σ]

/-- What holds of each name that a dispatcher binds. -/
structure IsLocalName (entries : List Entry) (w : String) : Prop where
  notMem_reserved : w ∉ reservedNames entries
  hash_notMem : '#' ∉ w.toList

omit [Naming.Source σ] in
theorem isLocalName_of_isDrawn {entries : List Entry} {a : Allocator σ} {exported : Bool}
    {w : String}
    (h : Allocator.IsDrawn ((reservedNames entries).foldl Allocator.reserve a).used exported w) :
    IsLocalName entries w := by
  obtain ⟨hFree, n, rfl⟩ := h
  refine ⟨(Allocator.isFree_foldl_reserve.mp hFree).1, ?_⟩
  intro hMem
  have hAlpha := isAlpha_of_mem_wordOf hMem
  exact absurd hAlpha (by decide)

/-- The names of a dispatcher were drawn for it alone. -/
theorem IsGenerated.isLocalName {p : Program} {a : Allocator σ} {entries : List Entry}
    {names : List String} {d : Dispatcher String} (h : IsGenerated p a entries names d) :
    d.binders.Nodup ∧ ∀ w ∈ d.binders, IsLocalName entries w := by
  obtain ⟨b, hNames⟩ := h.nextEach_eq
  obtain ⟨hAll, hNodup⟩ := Allocator.nextEach_eq_some hNames
  rw [h.binders_eq]
  refine ⟨hNodup, ?_⟩
  intro w hw
  obtain ⟨exported, -, hDrawn⟩ := exists_of_forall₂_of_mem hAll hw
  exact isLocalName_of_isDrawn hDrawn

theorem nodup_map_identifier {l : List String} (hNodup : l.Nodup)
    (hHash : ∀ w ∈ l, '#' ∉ w.toList) : (l.map identifier).Nodup := by
  apply List.Nodup.map_on ?_ hNodup
  intro v hv w hw hEq
  rw [identifier_of_notMem (hHash v hv), identifier_of_notMem (hHash w hw)] at hEq
  exact String.toList_inj.mp hEq

theorem mem_reservedNames_of_mem_head? {entries : List Entry} {e : Entry} (he : e ∈ entries)
    {s : Segment} (hs : s ∈ e.path.segments.head?) : s.name ∈ reservedNames entries := by
  have hFirst : s.name ∈ firstWord e.path := by
    rw [firstWord, Option.mem_toList]
    exact Option.mem_map_of_mem Segment.name hs
  exact List.mem_append_right _ (List.mem_flatMap.mpr ⟨e, he, hFirst⟩)

/-- The names that a generated dispatcher binds are different identifiers, and none of them is one
that every dispatcher defines. If one of them is the first segment of the path of a command, the
segment is a raw word. -/
theorem binders_apart (p : Program) (a : Allocator σ) :
    (∀ text, (generateWith p a).1 = .ok text → ∃ d, (ofProgram p a).1 = .ok d ∧ d.text = text) ∧
    ∀ d, (ofProgram p a).1 = .ok d →
      (d.binders.map identifier).Nodup ∧
      (∀ w ∈ d.binders, ∀ n ∈ definedNames, identifier w ≠ identifier n) ∧
      ∀ c ∈ p.toList.map (·.2), ∃ path, parsePath c.target = some path ∧
        ∀ s ∈ path.segments.head?, ∀ w ∈ d.binders,
          identifier w = identifier s.name → s.name = "r#" ++ w := by
  refine ⟨fun text h => exists_of_generateWith h, ?_⟩
  intro d hDispatcher
  obtain ⟨entries, names, h⟩ := exists_isGenerated_of_ofProgram hDispatcher
  obtain ⟨hNodup, hLocal⟩ := h.isLocalName
  have hCheck := isCheckOf_of_check h.check_eq
  refine ⟨nodup_map_identifier hNodup fun w hw => (hLocal w hw).hash_notMem, ?_, ?_⟩
  · intro w hw n hn hEq
    have hDefined : ∀ n ∈ definedNames, '#' ∉ n.toList := by decide
    rw [identifier_of_notMem (hLocal w hw).hash_notMem,
      identifier_of_notMem (hDefined n hn)] at hEq
    apply (hLocal w hw).notMem_reserved
    rw [String.toList_inj.mp hEq]
    exact List.mem_append_left _ hn
  · intro c hc
    obtain ⟨e, he, rfl⟩ := hCheck.mem_commands_iff.mp hc
    refine ⟨e.path, (hCheck.isChecked e he).path_eq, ?_⟩
    intro s hs w hw hEq
    have hNe : w ≠ s.name := by
      rintro rfl
      exact (hLocal _ hw).notMem_reserved (mem_reservedNames_of_mem_head? he hs)
    exact eq_raw_of_identifier_eq (hLocal w hw).hash_notMem hNe hEq

/-! ## A raw word -/

/-- The command `f`, whose function has the path `r#f`. -/
def rawCommand : Command where
  target := "r#f"
  exposed := "f"
  signature := ⟨[], []⟩
  description := ""

def rawProgram : Program :=
  Program.insert { moduleName := "m" } rawCommand

def rawEntry : Entry where
  key := "f"
  command := rawCommand
  path := .mk false [.mk "r#f" .none]
  arguments := []
  mayFail := false

theorem isChecked_rawEntry : rawEntry.IsChecked where
  key_eq := by decide
  key_ne := by decide
  path_eq := rfl
  arguments_eq := rfl
  errorReturns_le := by decide
  mayFail_eq := by decide

theorem check_rawProgram : check rawProgram = .ok [rawEntry] :=
  check_of_singleton rfl isChecked_rawEntry (by decide +kernel)

def rawDispatcher : Dispatcher String :=
  (ofEntries "m" [rawEntry]).withNames ["A", "b", "c", "d", "e", "f", "g", "h", "i", "j"]

theorem ofProgram_rawProgram :
    (ofProgram rawProgram ⟨Script.mk [0, 1, 2, 3, 4, 5, 6, 7, 8, 9], ∅⟩).1 = .ok rawDispatcher :=
  ofProgram_script check_rawProgram (by decide +kernel) (by decide) (by decide) (by decide)
    (by decide) (by decide)

/-- The parameter of `start` is the identifier of the path that `start` calls. This is the only name
of the dispatcher that is. -/
theorem binders_rawCommand :
    rawDispatcher.startNames.input = "f" ∧ identifier "f" = identifier "r#f" ∧
      (rawDispatcher.binders.map identifier).Nodup ∧
      ∀ w ∈ rawDispatcher.binders, identifier w = identifier "r#f" → w = "f" := by
  obtain ⟨hNodup, -, hCommands⟩ := (binders_apart rawProgram _).2 _ ofProgram_rawProgram
  obtain ⟨path, hPath, hHidden⟩ := hCommands rawCommand (by decide)
  obtain rfl : rawEntry.path = path := Option.some.inj hPath
  refine ⟨rfl, rfl, hNodup, ?_⟩
  intro w hw hEq
  have hRaw : "r#" ++ "f" = "r#" ++ w := hHidden _ rfl w hw hEq
  have hList := congrArg String.toList hRaw
  rw [String.toList_append, String.toList_append] at hList
  exact String.toList_inj.mp (List.append_cancel_left hList).symm

end CommandDispatch.Dispatcher
