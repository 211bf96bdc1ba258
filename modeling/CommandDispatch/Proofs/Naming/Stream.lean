import CommandDispatch.Proofs.Naming.History

/-!
# The words given out as a part of the words drawn

An allocator that is asked for words of one kind gives out the words that it draws, without the
keywords, the used words and those that came before. It draws no further than to the last of them.
So reserved words only drop out, and others follow at the end in their place.

* `drawn`, `newWords`: the words of some draws, and the ones among them that are new,
* `search_eq_some_iff`: a search ends at the first free word,
* `AreFirstNew`: what a run of successful requests comes to; `AreFirstNew.append` puts two together,
* `newWords_foldl_reserve`: reserved words drop out of the new ones,
* `areFirstNew_nextEach`: the words of a run, with and without further words reserved.
-/

namespace CommandDispatch.Naming

variable {σ : Type} [Source σ] {s : σ} {exported : Bool}

/-! ## Words drawn -/

theorem Source.skip_add (m n : Nat) (s : σ) :
    Source.skip (m + n) s = Source.skip n (Source.skip m s) := by
  induction m generalizing s with
  | zero => rw [Nat.zero_add]; rfl
  | succ m ih =>
    rw [Nat.add_right_comm]
    exact ih (Source.draw s).2

/-- The words of the first numbers that are drawn. -/
def drawn (s : σ) (exported : Bool) (k : Nat) : List String :=
  (List.range k).map fun i => wordOf (Source.number s i) exported

theorem drawn_succ (s : σ) (exported : Bool) (k : Nat) :
    drawn s exported (k + 1) = drawn s exported k ++ [wordOf (Source.number s k) exported] := by
  rw [drawn, List.range_succ, List.map_append]
  rfl

theorem drawn_cons (s : σ) (exported : Bool) (k : Nat) :
    drawn s exported (k + 1) =
      wordOf (Source.draw s).1 exported :: drawn (Source.draw s).2 exported k := by
  rw [drawn, List.range_succ_eq_map, List.map_cons, List.map_map]
  rfl

theorem drawn_add (s : σ) (exported : Bool) (m n : Nat) :
    drawn s exported (m + n) = drawn s exported m ++ drawn (Source.skip m s) exported n := by
  induction n with
  | zero => exact (List.append_nil _).symm
  | succ n ih =>
    rw [← Nat.add_assoc, drawn_succ, drawn_succ, ih, List.append_assoc, Source.number,
      Source.skip_add]
    rfl

theorem drawn_prefix_of_le (s : σ) (exported : Bool) {k m : Nat} (h : k ≤ m) :
    drawn s exported k <+: drawn s exported m := by
  obtain ⟨n, rfl⟩ := Nat.exists_eq_add_of_le h
  rw [drawn_add]
  exact List.prefix_append _ _

/-! ## New words -/

/-- The words that are neither keywords nor used, each where it comes first. -/
def newWords (used : Std.HashSet String) (words : List String) : List String :=
  (words.filter fun w => w ∉ keywords ∧ w ∉ used).eraseDups

variable {used used' : Std.HashSet String} {words words' : List String} {w : String}

theorem mem_newWords : w ∈ newWords used words ↔ w ∈ words ∧ w ∉ keywords ∧ w ∉ used := by
  simp [newWords, List.mem_eraseDups]

/-- Words that come later are new if they are so when the earlier ones are used. -/
theorem newWords_append (hUsed : ∀ w, w ∈ used' ↔ w ∈ used ∨ w ∈ newWords used words) :
    newWords used (words ++ words') = newWords used words ++ newWords used' words' := by
  have hNew : ∀ w, (w ∉ words.filter (fun v => v ∉ keywords ∧ v ∉ used) ∧ w ∉ keywords ∧
      w ∉ used) ↔ w ∉ keywords ∧ w ∉ used' := by
    intro w
    rw [hUsed, mem_newWords, List.mem_filter, decide_eq_true_eq]
    tauto
  rw [newWords, List.filter_append, List.eraseDups_append, newWords, newWords, List.removeAll,
    List.filter_filter]
  congr 3
  funext w
  rw [Bool.eq_iff_iff, Bool.and_eq_true, Bool.not_eq_true', ← Bool.not_eq_true, List.elem_iff,
    decide_eq_true_eq, decide_eq_true_eq]
  exact hNew w

theorem newWords_prefix_mono (used : Std.HashSet String) (h : words <+: words') :
    newWords used words <+: newWords used words' := by
  obtain ⟨others, rfl⟩ := h
  rw [newWords, newWords, List.filter_append, List.eraseDups_append]
  exact List.prefix_append _ _

/-- The induction is at the end of the list: an element that was there before adds nothing. -/
theorem eraseDups_filter (p : String → Bool) (l : List String) :
    (l.filter p).eraseDups = l.eraseDups.filter p := by
  induction l using List.reverseRecOn with
  | nil => rfl
  | append_singleton l w ih =>
    rw [List.filter_append, List.eraseDups_append, List.eraseDups_append, List.filter_append, ih]
    congr 1
    by_cases hMem : w ∈ l <;> by_cases hp : p w <;>
      simp [List.removeAll, List.eraseDups_cons, hMem, hp]

omit [Source σ] in
theorem newWords_foldl_reserve {a : Allocator σ} {reserved : List String} :
    newWords (reserved.foldl Allocator.reserve a).used words =
      (newWords a.used words).filter (· ∉ reserved) := by
  rw [newWords, newWords, ← eraseDups_filter, List.filter_filter]
  congr 2
  funext w
  have hFree : Allocator.isFree (reserved.foldl Allocator.reserve a).used w = true ↔
      w ∉ reserved ∧ Allocator.isFree a.used w = true := Allocator.isFree_foldl_reserve
  rw [Allocator.isFree_iff, Allocator.isFree_iff] at hFree
  rw [Bool.eq_iff_iff, Bool.and_eq_true, decide_eq_true_eq, decide_eq_true_eq, decide_eq_true_eq]
  exact hFree

namespace Allocator

/-! ## One request -/

theorem search_eq_some_iff {attempts : Nat} {rest : σ} :
    search used exported attempts s = (some w, rest) ↔
      ∃ i < attempts, w = wordOf (Source.number s i) exported ∧ isFree used w = true ∧
        (∀ v ∈ drawn s exported i, isFree used v = false) ∧ rest = Source.skip (i + 1) s := by
  induction attempts generalizing s with
  | zero => simp [search]
  | succ attempts ih =>
    rw [search]
    dsimp only
    -- The first draw is given out, or it is taken and the search goes on after it.
    constructor
    · intro h
      split at h
      · rename_i hFree
        cases h
        exact ⟨0, Nat.succ_pos _, rfl, hFree, fun _ hv => absurd hv List.not_mem_nil, rfl⟩
      · rename_i hTaken
        obtain ⟨i, hi, hWord, hFree, hBefore, hRest⟩ := ih.mp h
        refine ⟨i + 1, Nat.succ_lt_succ hi, hWord, hFree, ?_, hRest⟩
        rw [drawn_cons, List.forall_mem_cons]
        exact ⟨Bool.eq_false_iff.mpr hTaken, hBefore⟩
    · rintro ⟨_ | i, hi, hWord, hFree, hBefore, hRest⟩
      · subst hWord hRest
        exact if_pos hFree
      · rw [drawn_cons, List.forall_mem_cons] at hBefore
        rw [if_neg (Bool.eq_false_iff.mp hBefore.1)]
        exact ih.mpr ⟨i, Nat.lt_of_succ_lt_succ hi, hWord, hFree, hBefore.2, hRest⟩

theorem next_eq_some_iff {a b : Allocator σ} :
    a.next exported = (some w, b) ↔
      ∃ i < maxAttempts, w = wordOf (Source.number a.source i) exported ∧
        isFree a.used w = true ∧ (∀ v ∈ drawn a.source exported i, isFree a.used v = false) ∧
        b = ⟨Source.skip (i + 1) a.source, a.used.insert w⟩ := by
  have hNext : a.next exported = (some w, b) ↔
      ∃ rest, search a.used exported maxAttempts a.source = (some w, rest) ∧
        b = ⟨rest, a.used.insert w⟩ := by
    rw [next]
    rcases search a.used exported maxAttempts a.source with ⟨_ | v, rest⟩
    · simp
    · constructor
      · intro h
        cases h
        exact ⟨rest, rfl, rfl⟩
      · rintro ⟨_, h, rfl⟩
        cases h
        rfl
  rw [hNext]
  simp only [search_eq_some_iff]
  constructor
  · rintro ⟨_, ⟨i, hi, hWord, hFree, hBefore, rfl⟩, hb⟩
    exact ⟨i, hi, hWord, hFree, hBefore, hb⟩
  · rintro ⟨i, hi, hWord, hFree, hBefore, hb⟩
    exact ⟨_, ⟨i, hi, hWord, hFree, hBefore, rfl⟩, hb⟩

/-! ## Runs -/

/-- What comes of requests for words that are all granted: the words are the new ones among some
draws, no fewer draws have as many new words, and the allocator goes on after these draws with the
words used. -/
structure AreFirstNew (a : Allocator σ) (exported : Bool) (draws : Nat) (names : List String)
    (b : Allocator σ) : Prop where
  names_eq : names = newWords a.used (drawn a.source exported draws)
  shorter : ∀ k < draws, (newWords a.used (drawn a.source exported k)).length < names.length
  source_eq : b.source = Source.skip draws a.source
  mem_used_iff : ∀ w, w ∈ b.used ↔ w ∈ a.used ∨ w ∈ names

variable {a b c : Allocator σ} {names names' : List String} {draws draws' : Nat}

theorem AreFirstNew.nil (a : Allocator σ) (exported : Bool) : AreFirstNew a exported 0 [] a where
  names_eq := rfl
  shorter := fun _ hk => absurd hk (Nat.not_lt_zero _)
  source_eq := rfl
  mem_used_iff := by simp

theorem AreFirstNew.newWords_add (h : AreFirstNew a exported draws names b) (k : Nat) :
    newWords a.used (drawn a.source exported (draws + k)) =
      names ++ newWords b.used (drawn b.source exported k) := by
  have hUsed : ∀ w, w ∈ b.used ↔
      w ∈ a.used ∨ w ∈ newWords a.used (drawn a.source exported draws) := by
    rw [← h.names_eq]
    exact h.mem_used_iff
  rw [drawn_add, newWords_append hUsed, ← h.names_eq, h.source_eq]

theorem AreFirstNew.append (h : AreFirstNew a exported draws names b)
    (h' : AreFirstNew b exported draws' names' c) :
    AreFirstNew a exported (draws + draws') (names ++ names') c where
  names_eq := by
    rw [h.newWords_add, ← h'.names_eq]
  shorter := fun k hk => by
    rw [List.length_append]
    by_cases hEarly : k < draws
    · exact Nat.lt_add_right _ (h.shorter k hEarly)
    · obtain ⟨j, rfl⟩ := Nat.exists_eq_add_of_le (Nat.le_of_not_lt hEarly)
      rw [h.newWords_add, List.length_append]
      exact Nat.add_lt_add_left (h'.shorter j (Nat.lt_of_add_lt_add_left hk)) _
  source_eq := by
    rw [h'.source_eq, h.source_eq, Source.skip_add]
  mem_used_iff := fun w => by
    rw [h'.mem_used_iff, h.mem_used_iff, List.mem_append, or_assoc]

theorem newWords_eq_nil (hTaken : ∀ v ∈ words, isFree used v = false) :
    newWords used words = [] := by
  rw [List.eq_nil_iff_forall_not_mem]
  intro w hw
  rw [mem_newWords, ← isFree_iff] at hw
  exact absurd hw.2 (Bool.eq_false_iff.mp (hTaken w hw.1))

/-- The words drawn before the one that is given out are all taken. -/
theorem exists_areFirstNew_next (h : a.next exported = (some w, b)) :
    ∃ i < maxAttempts, AreFirstNew a exported (i + 1) [w] b := by
  obtain ⟨i, hi, hWord, hFree, hBefore, rfl⟩ := next_eq_some_iff.mp h
  refine ⟨i, hi, ?_, fun k hk => ?_, rfl, fun v => ?_⟩
  · have hNone := newWords_eq_nil hBefore
    have hUsed : ∀ v, v ∈ a.used ↔
        v ∈ a.used ∨ v ∈ newWords a.used (drawn a.source exported i) := by
      simp [hNone]
    rw [drawn_succ, newWords_append hUsed, hNone, ← hWord, newWords]
    simp [isFree_iff.mp hFree, List.eraseDups_cons]
  · have hPrefix := drawn_prefix_of_le a.source exported (Nat.le_of_lt_succ hk)
    rw [newWords_eq_nil fun v hv => hBefore v (hPrefix.subset hv)]
    exact Nat.one_pos
  · rw [Std.HashSet.mem_insert, beq_iff_eq, List.mem_singleton, or_comm, eq_comm]

/-- The induction is on the number of requests, with the first one taken off. -/
theorem exists_areFirstNew_nextEach {n : Nat}
    (h : a.nextEach (List.replicate n exported) = (some names, b)) :
    names.length = n ∧ ∃ draws, AreFirstNew a exported draws names b := by
  induction n generalizing a names with
  | zero =>
    cases h
    exact ⟨rfl, 0, .nil b exported⟩
  | succ n ih =>
    obtain ⟨w, c, rest, hNext, hEach, rfl⟩ := nextEach_cons_eq_some.mp h
    obtain ⟨hLength, draws, hRest⟩ := ih hEach
    obtain ⟨i, -, hFirst⟩ := exists_areFirstNew_next hNext
    exact ⟨congrArg Nat.succ hLength, _, hFirst.append hRest⟩

theorem nextEach_take {flags : List Bool} (h : a.nextEach flags = (some names, b)) (m : Nat) :
    ∃ c, a.nextEach (flags.take m) = (some (names.take m), c) := by
  induction flags generalizing a names m with
  | nil =>
    cases h
    exact ⟨b, by rw [List.take_nil, List.take_nil]; rfl⟩
  | cons e flags ih =>
    obtain ⟨w, c, rest, hNext, hEach, rfl⟩ := nextEach_cons_eq_some.mp h
    cases m with
    | zero => exact ⟨a, rfl⟩
    | succ m =>
      obtain ⟨d, hTake⟩ := ih hEach m
      exact ⟨d, nextEach_cons_eq_some.mpr ⟨w, c, _, hNext, hTake, rfl⟩⟩

/-! ## Reserved words -/

/-- The second allocator is like the first one, but with further words reserved. -/
structure IsReserving (reserved : List String) (a a' : Allocator σ) : Prop where
  source_eq : a'.source = a.source
  isFree_iff : ∀ w, isFree a'.used w = true ↔ w ∉ reserved ∧ isFree a.used w = true

variable {a' : Allocator σ} {reserved : List String}

omit [Source σ] in
theorem isReserving_foldl (reserved : List String) (a : Allocator σ) :
    IsReserving reserved a (reserved.foldl reserve a) where
  source_eq := source_foldl_reserve a reserved
  isFree_iff := fun _ => isFree_foldl_reserve

/-- A word that is given out and not reserved is the first free one also when others are
reserved. -/
theorem IsReserving.next (h : IsReserving reserved a a') (hNext : a.next exported = (some w, b))
    (hKept : w ∉ reserved) :
    ∃ b', a'.next exported = (some w, b') ∧ IsReserving reserved b b' := by
  obtain ⟨i, hi, hWord, hFree, hBefore, rfl⟩ := next_eq_some_iff.mp hNext
  have hStillTaken : ∀ v ∈ drawn a.source exported i, isFree a'.used v = false := by
    intro v hv
    rw [Bool.eq_false_iff]
    intro hFree'
    exact Bool.eq_false_iff.mp (hBefore v hv) ((h.isFree_iff v).mp hFree').2
  refine ⟨⟨Source.skip (i + 1) a'.source, a'.used.insert w⟩, next_eq_some_iff.mpr
    ⟨i, hi, ?_, (h.isFree_iff w).mpr ⟨hKept, hFree⟩, ?_, rfl⟩, ?_, fun v => ?_⟩
  · rw [h.source_eq]
    exact hWord
  · rw [h.source_eq]
    exact hStillTaken
  · rw [h.source_eq]
  · rw [isFree_insert, isFree_insert, h.isFree_iff, and_left_comm]

theorem IsReserving.nextEach {flags : List Bool} (h : IsReserving reserved a a')
    (hEach : a.nextEach flags = (some names, b)) (hKept : ∀ w ∈ names, w ∉ reserved) :
    ∃ b', a'.nextEach flags = (some names, b') ∧ IsReserving reserved b b' := by
  induction flags generalizing a a' names with
  | nil =>
    cases hEach
    exact ⟨a', rfl, h⟩
  | cons e flags ih =>
    obtain ⟨w, c, rest, hNext, hOthers, rfl⟩ := nextEach_cons_eq_some.mp hEach
    obtain ⟨hw, hRest⟩ := List.forall_mem_cons.mp hKept
    obtain ⟨c', hNext', hSame⟩ := h.next hNext hw
    obtain ⟨b', hOthers', hLast⟩ := ih hSame hOthers hRest
    exact ⟨b', nextEach_cons_eq_some.mpr ⟨w, c', rest, hNext', hOthers', rfl⟩, hLast⟩

/-- The words that are given out when others are reserved are those that would be given out without
that, and then further new ones, less the reserved ones. -/
theorem exists_append_of_reserve {n : Nat} {b' : Allocator σ}
    (h : a.nextEach (List.replicate n exported) = (some names, b))
    (h' : (reserved.foldl reserve a).nextEach (List.replicate n exported) = (some names', b')) :
    ∃ more draws, names ++ more = newWords a.used (drawn a.source exported draws) ∧
      names' = (names ++ more).filter (· ∉ reserved) ∧
      b'.source = Source.skip draws a.source := by
  obtain ⟨hLength, draws, hFirst⟩ := exists_areFirstNew_nextEach h
  obtain ⟨hLength', draws', hFirst'⟩ := exists_areFirstNew_nextEach h'
  have hNames' := hFirst'.names_eq
  rw [source_foldl_reserve, newWords_foldl_reserve] at hNames'
  have hEnough : draws ≤ draws' := by
    by_contra hLess
    have hFew := hFirst.shorter draws' (Nat.lt_of_not_le hLess)
    have hFilter := List.length_filter_le (fun w => decide (w ∉ reserved))
      (newWords a.used (drawn a.source exported draws'))
    rw [← hNames'] at hFilter
    omega
  obtain ⟨more, hMore⟩ : names <+: newWords a.used (drawn a.source exported draws') := by
    rw [hFirst.names_eq]
    exact newWords_prefix_mono a.used (drawn_prefix_of_le a.source exported hEnough)
  refine ⟨more, draws', hMore, ?_, ?_⟩
  · rw [hMore]
    exact hNames'
  · rw [hFirst'.source_eq, source_foldl_reserve]

/-- Words that are asked for one after the other are the first new ones among the words drawn, and
each is the last one drawn for it. When others are reserved before, these drop out and further new
words follow; if none of the words is reserved, nothing changes. -/
theorem areFirstNew_nextEach {n : Nat}
    (h : a.nextEach (List.replicate n exported) = (some names, b)) :
    names.length = n ∧
      (∃ draws, AreFirstNew a exported draws names b) ∧
      (∀ m ≤ n, ∃ c draws, a.nextEach (List.replicate m exported) = (some (names.take m), c) ∧
        AreFirstNew a exported draws (names.take m) c) ∧
      ∀ reserved : List String,
        (∀ names' b',
          (reserved.foldl reserve a).nextEach (List.replicate n exported) = (some names', b') →
            ∃ more draws, names ++ more = newWords a.used (drawn a.source exported draws) ∧
              names' = (names ++ more).filter (· ∉ reserved) ∧
              b'.source = Source.skip draws a.source) ∧
        ((∀ w ∈ names, w ∉ reserved) →
          ∃ b', (reserved.foldl reserve a).nextEach (List.replicate n exported) =
              (some names, b') ∧ b'.source = b.source) := by
  obtain ⟨hLength, hFirst⟩ := exists_areFirstNew_nextEach h
  refine ⟨hLength, hFirst, fun m hm => ?_,
    fun reserved => ⟨fun names' b' h' => ?_, fun hKept => ?_⟩⟩
  · obtain ⟨c, hTake⟩ := nextEach_take h m
    rw [List.take_replicate, Nat.min_eq_left hm] at hTake
    obtain ⟨-, draws, hFirst⟩ := exists_areFirstNew_nextEach hTake
    exact ⟨c, draws, hTake, hFirst⟩
  · exact exists_append_of_reserve h h'
  · obtain ⟨b', hEach, hSame⟩ := (isReserving_foldl reserved a).nextEach h hKept
    exact ⟨b', hEach, hSame.source_eq⟩

/-- The numbers of the words `if`, `a`, `a` again, and `b`. -/
def repetitive : Script := ⟨[143, 0, 10, 1]⟩

theorem nextEach_repetitive :
    ∃ b, nextEach ⟨repetitive, ∅⟩ (List.replicate 2 false) = (some ["a", "b"], b) := by
  have hKeyword : drawn repetitive false 1 = ["if"] := by decide
  have hFirst : next ⟨repetitive, ∅⟩ false = (some "a", ⟨⟨[10, 1]⟩, {"a"}⟩) :=
    next_eq_some_iff.mpr ⟨1, by decide, by decide, by simp [isFree, keywords],
      by simp [hKeyword, isFree, keywords], rfl⟩
  have hRepeated : drawn (Script.mk [10, 1]) false 1 = ["a"] := by decide
  have hSecond : next ⟨Script.mk [10, 1], {"a"}⟩ false =
      (some "b", ⟨⟨[]⟩, Std.HashSet.insert {"a"} "b"⟩) :=
    next_eq_some_iff.mpr ⟨1, by decide, by decide, by simp [isFree, keywords],
      by simp [hRepeated, isFree], rfl⟩
  have hLast : nextEach ⟨Script.mk [10, 1], {"a"}⟩ [false] =
      (some ["b"], ⟨⟨[]⟩, Std.HashSet.insert {"a"} "b"⟩) :=
    nextEach_cons_eq_some.mpr ⟨_, _, [], hSecond, rfl, rfl⟩
  exact ⟨_, nextEach_cons_eq_some.mpr ⟨_, _, _, hFirst, hLast, rfl⟩⟩

theorem areFirstNew_repetitive :
    ∃ b, nextEach ⟨repetitive, ∅⟩ (List.replicate 2 false) = (some ["a", "b"], b) ∧
      (∃ draws, AreFirstNew ⟨repetitive, ∅⟩ false draws ["a", "b"] b) ∧
      ∃ b', nextEach (["c", "d"].foldl reserve ⟨repetitive, ∅⟩) (List.replicate 2 false) =
        (some ["a", "b"], b') ∧ b'.source = b.source := by
  obtain ⟨b, h⟩ := nextEach_repetitive
  obtain ⟨-, hFirst, -, hReserved⟩ := areFirstNew_nextEach h
  exact ⟨b, h, hFirst, (hReserved ["c", "d"]).2 (by decide)⟩

end Allocator

end CommandDispatch.Naming
