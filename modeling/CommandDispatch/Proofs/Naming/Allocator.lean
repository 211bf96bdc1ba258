import CommandDispatch.Naming.Allocator
import CommandDispatch.Proofs.Except

/-!
# Words given out are new

* `Allocator.isDrawn_of_search`: a search ends with the word of a number, and a free one,
* `Allocator.nextEach_eq_some`: one run gives out a word for each that is asked for, all of them
  free and no two the same,
* `Allocator.nextEach_script`: a source that is a list of numbers gives out their words, if these
  are free and no two are the same.
-/

namespace CommandDispatch.Naming

namespace Allocator

variable {σ : Type} [Source σ]

theorem isFree_iff {used : Std.HashSet String} {w : String} :
    isFree used w = true ↔ w ∉ keywords ∧ w ∉ used := by
  simp [isFree]

theorem isFree_insert {used : Std.HashSet String} {w v : String} :
    isFree (used.insert v) w = true ↔ w ≠ v ∧ isFree used w = true := by
  rw [isFree_iff, isFree_iff, Std.HashSet.mem_insert, beq_iff_eq, not_or, and_left_comm,
    eq_comm (a := v)]

/-- What an allocator with these used words may give out: the word of a number, which is free. -/
structure IsDrawn (used : Std.HashSet String) (exported : Bool) (w : String) : Prop where
  isFree : isFree used w = true
  eq_wordOf : ∃ n : Fin drawRange, w = wordOf n exported

theorem IsDrawn.of_insert {used : Std.HashSet String} {v w : String} {exported : Bool}
    (h : IsDrawn (used.insert v) exported w) : w ≠ v ∧ IsDrawn used exported w := by
  obtain ⟨hFree, hWord⟩ := h
  obtain ⟨hNe, hFree⟩ := isFree_insert.mp hFree
  exact ⟨hNe, hFree, hWord⟩

theorem isDrawn_of_search {used : Std.HashSet String} {exported : Bool} {attempts : Nat} {s r : σ}
    {w : String} (h : search used exported attempts s = (some w, r)) : IsDrawn used exported w := by
  induction attempts generalizing s with
  | zero => cases h
  | succ attempts ih =>
    rw [search] at h
    dsimp only at h
    split at h
    · rename_i hFree
      cases h
      exact ⟨hFree, (Source.draw s).1, rfl⟩
    · exact ih h

theorem next_eq_some {a b : Allocator σ} {exported : Bool} {w : String}
    (h : a.next exported = (some w, b)) :
    IsDrawn a.used exported w ∧ b.used = a.used.insert w := by
  unfold next at h
  split at h
  · rename_i hSearch
    cases h
    exact ⟨isDrawn_of_search hSearch, rfl⟩
  · cases h

theorem nextEach_cons_eq_some {a c : Allocator σ} {e : Bool} {exported : List Bool}
    {words : List String} :
    a.nextEach (e :: exported) = (some words, c) ↔
      ∃ w b rest, a.next e = (some w, b) ∧ b.nextEach exported = (some rest, c) ∧
        words = w :: rest := by
  rw [nextEach]
  rcases a.next e with ⟨_ | w, b⟩
  · simp
  · dsimp only
    rcases hEach : b.nextEach exported with ⟨_ | rest, d⟩
    · simp [hEach]
    · constructor
      · intro h
        cases h
        exact ⟨w, b, rest, rfl, hEach, rfl⟩
      · rintro ⟨v, b', rest', hNext, hEach', rfl⟩
        cases hNext
        cases hEach.symm.trans hEach'
        rfl

/-- The induction is on the words asked for: a word given out is used from then on. -/
theorem nextEach_eq_some {a b : Allocator σ} {exported : List Bool} {words : List String}
    (h : a.nextEach exported = (some words, b)) :
    List.Forall₂ (IsDrawn a.used) exported words ∧ words.Nodup := by
  induction exported generalizing a words with
  | nil =>
    cases h
    exact ⟨.nil, List.nodup_nil⟩
  | cons e exported ih =>
    obtain ⟨word, c, ws, hNext, hEach, rfl⟩ := nextEach_cons_eq_some.mp h
    obtain ⟨hDrawn, hUsed⟩ := next_eq_some hNext
    obtain ⟨hAll, hNodup⟩ := ih hEach
    rw [hUsed] at hAll
    have hNotMem : word ∉ ws := by
      intro hMem
      obtain ⟨e', -, hDrawn'⟩ := exists_of_forall₂_of_mem hAll hMem
      exact hDrawn'.of_insert.1 rfl
    have hRest : List.Forall₂ (IsDrawn a.used) exported ws :=
      hAll.imp fun _ _ hDrawn' => hDrawn'.of_insert.2
    exact ⟨.cons hDrawn hRest, List.nodup_cons.mpr ⟨hNotMem, hNodup⟩⟩

omit [Source σ] in
theorem isFree_foldl_reserve {a : Allocator σ} {reserved : List String} {w : String} :
    isFree (reserved.foldl reserve a).used w = true ↔ w ∉ reserved ∧ isFree a.used w = true := by
  induction reserved generalizing a with
  | nil => simp
  | cons v reserved ih =>
    rw [List.foldl_cons, ih, reserve, isFree_insert, List.mem_cons, not_or, ← and_assoc,
      and_comm (a := w ∉ reserved)]

omit [Source σ] in
theorem source_foldl_reserve (a : Allocator σ) (reserved : List String) :
    (reserved.foldl reserve a).source = a.source := by
  induction reserved generalizing a with
  | nil => rfl
  | cons v reserved ih => rw [List.foldl_cons, ih, reserve]

theorem next_of_isFree {a : Allocator σ} {exported : Bool} {n : Fin drawRange} {rest : σ}
    (hDraw : Source.draw a.source = (n, rest))
    (hFree : isFree a.used (wordOf n exported) = true) :
    a.next exported = (some (wordOf n exported), ⟨rest, a.used.insert (wordOf n exported)⟩) := by
  have hSearch : search a.used exported maxAttempts a.source =
      (some (wordOf n exported), rest) := by
    change search a.used exported (399999 + 1) a.source = _
    rw [search, hDraw]
    exact if_pos hFree
  rw [next, hSearch]

end Allocator

/-! ## Sources that are lists -/

/-- Numbers that are drawn one after the other, then zeros. -/
structure Script where
  numbers : List Nat

instance : Source Script where
  draw s :=
    (⟨s.numbers.headD 0 % drawRange, Nat.mod_lt _ (by decide)⟩, ⟨s.numbers.tail⟩)

def Script.words (s : Script) (exported : List Bool) : List String :=
  s.numbers.zipWith (fun n e => wordOf (n % drawRange) e) exported

theorem Allocator.nextEach_script {numbers : List Nat} {used : Std.HashSet String}
    {exported : List Bool} (hLength : numbers.length = exported.length)
    (hNodup : (Script.words ⟨numbers⟩ exported).Nodup)
    (hFree : ∀ w ∈ Script.words ⟨numbers⟩ exported, isFree used w = true) :
    nextEach ⟨Script.mk numbers, used⟩ exported =
      (some (Script.words ⟨numbers⟩ exported),
        ⟨⟨[]⟩, (Script.words ⟨numbers⟩ exported).foldl Std.HashSet.insert used⟩) := by
  induction numbers generalizing used exported with
  | nil =>
    obtain rfl : exported = [] := List.eq_nil_of_length_eq_zero hLength.symm
    rfl
  | cons n numbers ih =>
    obtain ⟨e, exported, rfl⟩ : ∃ e others, exported = e :: others := by
      cases exported <;> simp_all
    have hWords : Script.words ⟨n :: numbers⟩ (e :: exported) =
        wordOf (n % drawRange) e :: Script.words ⟨numbers⟩ exported := rfl
    rw [hWords, List.nodup_cons] at hNodup
    rw [hWords, List.forall_mem_cons] at hFree
    have hNext : next ⟨Script.mk (n :: numbers), used⟩ e =
        (some (wordOf (n % drawRange) e), ⟨⟨numbers⟩, used.insert (wordOf (n % drawRange) e)⟩) :=
      next_of_isFree (n := ⟨n % drawRange, Nat.mod_lt _ (by decide)⟩) rfl hFree.1
    have hStillFree : ∀ w ∈ Script.words ⟨numbers⟩ exported,
        isFree (used.insert (wordOf (n % drawRange) e)) w = true := fun w hw =>
      isFree_insert.mpr ⟨fun hEq => hNodup.1 (hEq ▸ hw), hFree.2 w hw⟩
    have hRest := ih (by simpa using hLength) hNodup.2 hStillFree
    rw [nextEach, hNext]
    simp only [hRest]
    rfl

end CommandDispatch.Naming
