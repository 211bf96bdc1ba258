import CommandDispatch.Files.Tree
import CommandDispatch.Proofs.Except

/-!
# Writing a file

A file is written into a directory that exists, and not in the place of a directory. So the
directories of the tree stay the same, and with them the places that paths lead to. Of the files of
a directory, only the one that is written may be another.

* `IsFilePlace t p`: a file may stand at this place,
* `isDirectory_insert`, `resolve_insert`, `writable?_insert`: what stays the same,
* `list_eq_ok`, `mem_list`: the files of a directory.
-/

namespace CommandDispatch.Files.Tree

variable {t : Tree} {p q d here : Place} {path name : String} {content : ByteArray}

/-- A file may stand at this place: the directory above it exists, and no directory is there. -/
structure IsFilePlace (t : Tree) (p : Place) : Prop where
  exists_above : ∃ d name, p = d ++ [name] ∧ t.isDirectory d = true
  isDirectory_eq : t.isDirectory p = false

/-! ## Directories -/

theorem isDirectory_iff : t.isDirectory q = true ↔
    q = [] ∨ ∃ r n, t[r]? = some n ∧ q <+: r ∧ (q ≠ r ∨ n.isDirectory = true) := by
  rw [isDirectory, Bool.or_eq_true, List.isEmpty_iff, List.any_eq_true]
  refine or_congr_right ⟨?_, ?_⟩
  · rintro ⟨⟨r, n⟩, hMem, hHolds⟩
    rw [Bool.and_eq_true, List.isPrefixOf_iff_prefix, Bool.or_eq_true, bne_iff_ne] at hHolds
    exact ⟨r, n, Std.ExtTreeMap.mem_toList_iff_getElem?_eq_some.mp hMem, hHolds⟩
  · rintro ⟨r, n, hAt, hHolds⟩
    refine ⟨(r, n), Std.ExtTreeMap.mem_toList_iff_getElem?_eq_some.mpr hAt, ?_⟩
    rwa [Bool.and_eq_true, List.isPrefixOf_iff_prefix, Bool.or_eq_true, bne_iff_ne]

theorem getElem?_insert_self {n : Node} : (t.insert p n)[p]? = some n := by
  simp

theorem getElem?_insert_of_ne {n : Node} (h : q ≠ p) : (t.insert p n)[q]? = t[q]? := by
  rw [Std.ExtTreeMap.getElem?_insert, if_neg]
  exact fun hSame => h (Std.LawfulEqCmp.eq_of_compare hSame).symm

/-- Above a directory there are only directories. -/
theorem isDirectory_of_prefix (h : t.isDirectory d = true) (hq : q <+: d) :
    t.isDirectory q = true := by
  rw [isDirectory_iff] at h ⊢
  rcases h with rfl | ⟨r, n, hAt, hPrefix, hBelow⟩
  · exact .inl (List.prefix_nil.mp hq)
  · refine .inr ⟨r, n, hAt, hq.trans hPrefix, ?_⟩
    by_cases hEq : q = r
    · subst hEq
      rw [List.IsPrefix.eq_of_length_le hPrefix hq.length_le] at hBelow
      exact hBelow
    · exact .inl hEq

/-- Writing a file neither makes a directory nor removes one. -/
theorem isDirectory_insert (hp : t.IsFilePlace p) (q : Place) :
    isDirectory (t.insert p (.file content)) q = t.isDirectory q := by
  obtain ⟨d, name, rfl, hAbove⟩ := hp.exists_above
  have hPlace : q <+: d ++ [name] → q ≠ d ++ [name] → q <+: d := by
    intro hPrefix hNe
    exact (List.prefix_concat_iff.mp hPrefix).resolve_left hNe
  rw [Bool.eq_iff_iff]
  constructor
  · intro h
    rcases isDirectory_iff.mp h with rfl | ⟨r, n, hAt, hPrefix, hBelow⟩
    · rfl
    -- The new file is below directories only that were there before.
    · by_cases hr : r = d ++ [name]
      · subst hr
        rw [getElem?_insert_self] at hAt
        cases hAt
        have hNe := hBelow.resolve_right Bool.false_ne_true
        exact isDirectory_of_prefix hAbove (hPlace hPrefix hNe)
      · rw [getElem?_insert_of_ne hr] at hAt
        exact isDirectory_iff.mpr (.inr ⟨r, n, hAt, hPrefix, hBelow⟩)
  · intro h
    rcases isDirectory_iff.mp h with rfl | ⟨r, n, hAt, hPrefix, hBelow⟩
    · rfl
    -- The place of the file was no directory, so the one in question is above it.
    · by_cases hr : r = d ++ [name]
      · subst hr
        have hNe : q ≠ d ++ [name] := by
          rintro rfl
          rw [hp.isDirectory_eq] at h
          cases h
        exact isDirectory_iff.mpr (.inr ⟨_, _, getElem?_insert_self, hPrefix, .inl hNe⟩)
      · refine isDirectory_iff.mpr (.inr ⟨r, n, ?_, hPrefix, hBelow⟩)
        rwa [getElem?_insert_of_ne hr]

/-! ## Paths -/

theorem follow_eq_ok : t.follow p name = .ok q ↔ t.isDirectory p = true ∧
    q = if name == "" || name == "." then p else if name == ".." then p.dropLast
      else p ++ [name] := by
  unfold follow
  cases t.isDirectory p with
  | false => simp
  | true =>
    simp only [Bool.not_true, Bool.false_eq_true, if_false, true_and]
    split
    · exact ⟨fun h => (Except.ok.inj h).symm, fun h => h ▸ rfl⟩
    · split
      · exact ⟨fun h => (Except.ok.inj h).symm, fun h => h ▸ rfl⟩
      · exact ⟨fun h => (Except.ok.inj h).symm, fun h => h ▸ rfl⟩

theorem resolve_insert (hp : t.IsFilePlace p) (h : t.resolve here path = .ok q) :
    resolve (t.insert p (.file content)) here path = .ok q := by
  unfold resolve at h ⊢
  split at h
  · cases h
  · rename_i hNul
    split at h
    · cases h
    · rename_i hEmpty
      rw [if_neg hNul, if_neg hEmpty]
      refine foldlM_mono (fun a name r hStep => ?_) h
      rw [follow_eq_ok] at hStep ⊢
      rwa [isDirectory_insert hp]

theorem writable?_eq_some : t.writable? here path = some p ↔
    t.resolve here path = .ok p ∧ t.isDirectory p = false ∧
      ∃ last, (pathNames path).getLast? = some last ∧ ["", ".", ".."].contains last = false := by
  unfold writable?
  dsimp only
  constructor
  · intro h
    split at h
    · rename_i last r hLast hResolve
      split at h
      · cases h
      · rename_i hFile
        cases h
        rw [Bool.not_eq_true, Bool.or_eq_false_iff] at hFile
        exact ⟨hResolve, hFile.2, last, hLast, hFile.1⟩
    · cases h
  · rintro ⟨hResolve, hFile, last, hLast, hPlain⟩
    rw [hLast, hResolve]
    dsimp only
    rw [hPlain, hFile]
    rfl

theorem isFilePlace_of_writable? (h : t.writable? here path = some p) : t.IsFilePlace p := by
  obtain ⟨hResolve, hFile, last, hLast, hPlain⟩ := writable?_eq_some.mp h
  refine ⟨?_, hFile⟩
  unfold resolve at hResolve
  split at hResolve
  · cases hResolve
  · split at hResolve
    · cases hResolve
    · obtain ⟨names, hNames⟩ := List.getLast?_eq_some_iff.mp hLast
      rw [hNames, List.foldlM_append] at hResolve
      obtain ⟨d, -, hStep⟩ := bind_eq_ok.mp hResolve
      rw [List.foldlM_cons] at hStep
      obtain ⟨q, hFollow, hEnd⟩ := bind_eq_ok.mp hStep
      cases hEnd
      obtain ⟨hAbove, rfl⟩ := follow_eq_ok.mp hFollow
      simp only [List.contains_cons, List.contains_nil, Bool.or_false, Bool.or_eq_false_iff]
        at hPlain
      refine ⟨d, last, ?_, hAbove⟩
      simp [hPlain]

/-- Writing a file does not change where it can be written. -/
theorem writable?_insert (h : t.writable? here path = some p) :
    writable? (t.insert p (.file content)) here path = some p := by
  have hPlace := isFilePlace_of_writable? h
  obtain ⟨hResolve, hFile, hLast⟩ := writable?_eq_some.mp h
  refine writable?_eq_some.mpr ⟨resolve_insert hPlace hResolve, ?_, hLast⟩
  rw [isDirectory_insert hPlace, hFile]

theorem insert_insert {n : Node} : (t.insert p n).insert p n = t.insert p n := by
  refine Std.ExtTreeMap.ext_getElem? fun q => ?_
  by_cases hq : q = p
  · rw [hq, getElem?_insert_self, getElem?_insert_self]
  · rw [getElem?_insert_of_ne hq]

/-! ## Files of a directory -/

theorem textOf_toUTF8 (s : String) : textOf s.toUTF8 = .ok s := by
  have hText : String.fromUTF8? s.toUTF8 = some s := dif_pos s.isValidUTF8
  rw [textOf, hText]

theorem list_eq_ok {files : List NamedFile} : t.list here path = .ok files ↔
    ∃ d, t.resolve here path = .ok d ∧ t.isDirectory d = true ∧
      files = t.toList.filterMap (fileIn d) := by
  rw [list, bind_eq_ok]
  refine exists_congr fun d => and_congr_right fun _ => ?_
  cases hDirectory : t.isDirectory d with
  | false => simp [throw, throwThe, MonadExceptOf.throw]
  | true =>
    simp only [if_true, true_and]
    exact ⟨fun h => (Except.ok.inj h).symm, fun h => h ▸ rfl⟩

theorem fileIn_eq_some {n : Node} {f : NamedFile} : fileIn d (p, n) = some f ↔
    ∃ content, n = .file content ∧ p = d ++ [f.name] ∧ f.text = textOf content := by
  cases n with
  | directory => exact ⟨fun h => (nomatch h), fun ⟨_, h, _⟩ => (nomatch h)⟩
  | file content =>
    rw [fileIn]
    constructor
    · intro h
      split at h
      · rename_i name hLast
        split at h
        · rename_i hAbove
          cases h
          refine ⟨content, rfl, ?_, rfl⟩
          rw [← hAbove, List.dropLast_append_getLast? name hLast]
        · cases h
      · cases h
    · rintro ⟨_, hEq, rfl, hText⟩
      cases hEq
      rw [List.getLast?_concat]
      dsimp only
      rw [List.dropLast_concat, if_pos rfl, ← hText]

theorem mem_list {f : NamedFile} : f ∈ t.toList.filterMap (fileIn d) ↔
    ∃ content, t[d ++ [f.name]]? = some (.file content) ∧ f.text = textOf content := by
  rw [List.mem_filterMap]
  constructor
  · rintro ⟨⟨p, n⟩, hMem, hFile⟩
    obtain ⟨content, rfl, rfl, hText⟩ := fileIn_eq_some.mp hFile
    exact ⟨content, Std.ExtTreeMap.mem_toList_iff_getElem?_eq_some.mp hMem, hText⟩
  · rintro ⟨content, hAt, hText⟩
    exact ⟨_, Std.ExtTreeMap.mem_toList_iff_getElem?_eq_some.mpr hAt,
      fileIn_eq_some.mpr ⟨content, rfl, rfl, hText⟩⟩

/-- No two files of a directory have the same name. -/
theorem pairwise_name_ne (t : Tree) (d : Place) :
    (t.toList.filterMap (fileIn d)).Pairwise fun f g => f.name ≠ g.name := by
  refine List.Pairwise.filterMap _ ?_ Std.ExtTreeMap.distinct_keys_toList
  rintro ⟨p, n⟩ ⟨q, m⟩ hNe f hf g hg hName
  obtain ⟨-, -, rfl, -⟩ := fileIn_eq_some.mp hf
  obtain ⟨-, -, rfl, -⟩ := fileIn_eq_some.mp hg
  exact hNe (by rw [hName]; exact Std.ReflCmp.compare_self)

end CommandDispatch.Files.Tree
