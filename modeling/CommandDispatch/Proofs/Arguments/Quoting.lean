import CommandDispatch.Proofs.Arguments.SliceCut

/-!
# Values that can be written

Some values cannot be given to a command at all: a literal cannot hold its own mark, and the first
token of a flag cannot hold a second equals sign. This module says which values can be written, and
writes them.

* `IsFlagValue`, `ArePositionals`: the values that can be given to a flag, and the positionals that
  can be given,
* `write` is a list of tokens for given flags and positionals,
* `slice_write`: slicing undoes it,
* `isFlagValue_of_slice`, `arePositionals_of_slice`: no other values are ever sliced.
-/

namespace CommandDispatch.Arguments

open Text

/-! ## Values -/

/-- One of the two quote marks does not occur. -/
def LacksMark (s : List Char) : Prop :=
  '"' ∉ s ∨ '\'' ∉ s

/-- Every equals sign has a space somewhere before it. -/
def BreaksBeforeEquals (s : List Char) : Prop :=
  '=' ∈ s → ' ' ∈ s.takeWhile (· != '=')

/-- The value can be given to a flag: as it is, or as a literal, whose first token ends before the
first equals sign. -/
def IsFlagValue (v : String) : Prop :=
  ('=' ∉ v.toList ∧ ¬ StartsQuoted v.toList) ∨
    (LacksMark v.toList ∧ BreaksBeforeEquals v.toList)

/-- The positionals can be given. The first one has to be quoted if it begins with a hyphen. -/
def ArePositionals (ps : List String) : Prop :=
  (∀ p ∈ ps, ¬ StartsQuoted p.toList ∨ LacksMark p.toList) ∧
    ∀ p ∈ ps.head?, p.toList.head? = some '-' → LacksMark p.toList

instance (s : List Char) : Decidable (LacksMark s) :=
  inferInstanceAs (Decidable (_ ∨ _))

instance (s : List Char) : Decidable (BreaksBeforeEquals s) :=
  inferInstanceAs (Decidable (_ → _))

instance (v : String) : Decidable (IsFlagValue v) :=
  inferInstanceAs (Decidable (_ ∨ _))

instance (ps : List String) : Decidable (ArePositionals ps) :=
  inferInstanceAs (Decidable (_ ∧ _))

/-- A name that every flag of this name has: it is its own lower-case form, and can be written after
two hyphens. -/
structure IsFlagName (key : String) : Prop where
  ne_nil : key.toList ≠ []
  lower_eq : lower key = key
  equals_notMem : '=' ∉ key.toList
  head?_ne : key.toList.head? ≠ some '-'

/-! ## What is sliced can be written -/

theorem mem_intercalate_space {c : Char} {ps : List (List Char)}
    (h : c ∈ [' '].intercalate ps) : c = ' ' ∨ ∃ p ∈ ps, c ∈ p := by
  induction ps with
  | nil => simp at h
  | cons p ps ih =>
    by_cases hNe : ps = []
    · subst hNe
      exact Or.inr ⟨p, by simp, by simpa using h⟩
    · rw [List.intercalate_cons_of_ne_nil hNe, List.mem_append, List.mem_append,
        List.mem_singleton] at h
      rcases h with (h | h) | h
      · exact Or.inr ⟨p, by simp, h⟩
      · exact Or.inl h
      · rcases ih h with h | ⟨q, hq, h⟩
        · exact Or.inl h
        · exact Or.inr ⟨q, by simp [hq], h⟩

theorem lacksMark_of_notMem {mark : Char} (hMark : isQuoteMark mark = true) {s : List Char}
    (h : mark ∉ s) : LacksMark s := by
  have hCases : mark = '"' ∨ mark = '\'' := by simpa [isQuoteMark] using hMark
  rcases hCases with rfl | rfl
  · exact Or.inl h
  · exact Or.inr h

namespace Literal

theorem mark_notMem_value (l : Literal) : l.mark ∉ l.value := by
  intro hMem
  rcases mem_intercalate_space hMem with h | ⟨p, hp, h⟩
  · exact ne_of_isQuoteMark l.isQuoteMark_mark (by decide) h
  · rcases List.mem_append.mp hp with hp | hp
    · exact l.mark_notMem_init p hp h
    · rw [List.mem_singleton.mp hp] at h
      exact l.mark_notMem_last h

theorem lacksMark_value (l : Literal) : LacksMark l.value :=
  lacksMark_of_notMem l.isQuoteMark_mark l.mark_notMem_value

/-- A literal whose first token has no equals sign has a space before the first one. -/
theorem breaksBeforeEquals_value {l : Literal}
    (h : '=' ∉ (Spelling.quoted l).opening) : BreaksBeforeEquals l.value := by
  obtain ⟨mark, _, init, last, _, _⟩ := l
  intro hMem
  cases init with
  | nil =>
    simp only [Spelling.opening, pieces, List.nil_append, List.head_cons, List.mem_cons,
      List.mem_append, not_or] at h
    simp only [value, List.nil_append, List.intercalate_singleton] at hMem
    exact absurd hMem h.2.1
  | cons a init =>
    simp only [Spelling.opening, pieces, List.cons_append, List.head_cons, List.mem_cons,
      not_or] at h
    have hAll : ∀ c ∈ a, (c != '=') = true := fun c hc => by
      simpa using fun he : c = '=' => h.2 (he ▸ hc)
    rw [value, List.cons_append, List.intercalate_cons_of_ne_nil (by simp), List.append_assoc,
      List.takeWhile_append_of_pos hAll]
    simp

end Literal

namespace Spelling

theorem lacksMark_value {s : Spelling} (h : StartsQuoted s.value) : LacksMark s.value := by
  cases s with
  | plain text hText => exact absurd h hText
  | quoted l => exact l.lacksMark_value

theorem isFlagValue_value {s : Spelling} (h : '=' ∉ s.opening) :
    IsFlagValue (String.ofList s.value) := by
  unfold IsFlagValue
  rw [String.toList_ofList]
  cases s with
  | plain text hText => exact Or.inl ⟨h, hText⟩
  | quoted l => exact Or.inr ⟨l.lacksMark_value, Literal.breaksBeforeEquals_value h⟩

end Spelling

theorem isFlagValue_impliedValue : IsFlagValue impliedValue := by
  decide

theorem FlagGroup.equals_notMem_spelling (g : FlagGroup) : '=' ∉ g.spelling.opening := by
  unfold spelling
  cases hGiven : g.given with
  | none => decide
  | some s => exact g.equals_notMem_opening s hGiven

theorem FlagGroup.isFlagValue_of_mem_settings {g : FlagGroup} {key value : String}
    (h : (key, value) ∈ g.settings) : IsFlagValue value := by
  have hLast := Spelling.isFlagValue_value g.equals_notMem_spelling
  unfold settings at h
  cases hLong : g.isLong with
  | true =>
    simp only [hLong, if_true, List.mem_singleton, Prod.mk.injEq] at h
    rwa [h.2]
  | false =>
    simp only [hLong, Bool.false_eq_true, if_false, List.mem_append, List.mem_map,
      List.mem_singleton, Prod.mk.injEq] at h
    rcases h with ⟨_, _, _, rfl⟩ | ⟨_, rfl⟩
    · exact isFlagValue_impliedValue
    · exact hLast

theorem mem_of_lookup_eq_some {α β : Type} [BEq α] [LawfulBEq α] {l : List (α × β)} {a : α}
    {b : β} (h : l.lookup a = some b) : (a, b) ∈ l := by
  obtain ⟨before, after, rfl, -⟩ := List.lookup_eq_some_iff.mp h
  simp

theorem isFlagValue_of_slice {tokens : List String} {s : Sliced} (h : slice tokens = .ok s)
    {key value : String} (hValue : s.flags[key]? = some value) : IsFlagValue value := by
  obtain ⟨c, rfl⟩ := Cut.exists_of_slice_eq_ok h
  rw [c.slice_tokens, Except.ok.injEq] at h
  subst h
  rw [Cut.sliced, FlagMap.getElem?_setAll, Std.ExtTreeMap.getElem?_empty, Option.or_none] at hValue
  have hMem := List.mem_reverse.mp (mem_of_lookup_eq_some hValue)
  obtain ⟨g, -, hg⟩ := List.mem_flatMap.mp hMem
  exact g.isFlagValue_of_mem_settings hg

theorem arePositionals_of_slice {tokens : List String} {s : Sliced} (h : slice tokens = .ok s) :
    ArePositionals s.positionals := by
  obtain ⟨c, rfl⟩ := Cut.exists_of_slice_eq_ok h
  rw [c.slice_tokens, Except.ok.injEq] at h
  subst h
  refine ⟨fun p hp => ?_, fun p hp hHyphen => ?_⟩
  · obtain ⟨s, -, rfl⟩ := List.mem_map.mp hp
    rw [String.toList_ofList]
    by_cases hQuoted : StartsQuoted s.value
    · exact Or.inr (Spelling.lacksMark_value hQuoted)
    · exact Or.inl hQuoted
  · simp only [Cut.sliced, List.head?_map, Option.mem_def, Option.map_eq_some_iff] at hp
    obtain ⟨s, hs, rfl⟩ := hp
    rw [String.toList_ofList] at hHyphen ⊢
    cases s with
    | plain text hText => exact absurd hHyphen (c.head?_opening_ne _ hs)
    | quoted l => exact l.lacksMark_value

/-! ## Writing -/

/-- A quote mark for the text: the single one if the double one occurs in it. -/
def freeMark (s : List Char) : Char :=
  if '"' ∈ s then '\'' else '"'

theorem isQuoteMark_freeMark (s : List Char) : isQuoteMark (freeMark s) = true := by
  unfold freeMark
  split <;> rfl

theorem freeMark_notMem {s : List Char} (h : LacksMark s) : freeMark s ∉ s := by
  unfold freeMark
  split
  · exact h.resolve_left (not_not_intro ‹_›)
  · assumption

/-- The text between two quote marks. -/
def quote (s : List Char) : List Char :=
  freeMark s :: (s ++ [freeMark s])

/-- What is written for a value of a flag: the end of the first token, and the tokens after it. A
value with an equals sign is divided at its first space. -/
def writeValue (s : List Char) : List Char × List (List Char) :=
  if '=' ∈ s then
    (freeMark s :: s.takeWhile (· != ' '), [(s.dropWhile (· != ' ')).tail ++ [freeMark s]])
  else if StartsQuoted s then (quote s, [])
  else (s, [])

def writeFlag (key value : String) : List String :=
  let (opening, following) := writeValue value.toList
  String.ofList ('-' :: '-' :: bodyOf key.toList (some opening)) :: following.map String.ofList

/-- The token of a positional. The first positional is not to be taken for a flag. -/
def writePositional (isFirst : Bool) (p : String) : String :=
  if StartsQuoted p.toList ∨ (isFirst ∧ p.toList.head? = some '-') then
    String.ofList (quote p.toList)
  else p

def writePositionals : List String → List String
  | [] => []
  | p :: ps => writePositional true p :: ps.map (writePositional false)

def write (flags : FlagMap) (positionals : List String) : List String :=
  (flags.toList.flatMap fun s => writeFlag s.1 s.2) ++ writePositionals positionals

/-! ## What is written is a cut -/

/-- The text as a literal of one piece. -/
def Literal.whole (s : List Char) (h : LacksMark s) : Literal where
  mark := freeMark s
  isQuoteMark_mark := isQuoteMark_freeMark s
  init := []
  last := s
  mark_notMem_init := by simp
  mark_notMem_last := freeMark_notMem h

/-- The text as a literal of two pieces, with its first space between them. -/
def Literal.broken (s : List Char) (h : LacksMark s) : Literal where
  mark := freeMark s
  isQuoteMark_mark := isQuoteMark_freeMark s
  init := [s.takeWhile (· != ' ')]
  last := (s.dropWhile (· != ' ')).tail
  mark_notMem_init := by
    intro piece hPiece hMem
    rw [List.mem_singleton.mp hPiece] at hMem
    exact freeMark_notMem h ((List.takeWhile_prefix _).subset hMem)
  mark_notMem_last := fun hMem =>
    freeMark_notMem h ((List.dropWhile_suffix _).subset (List.mem_of_mem_tail hMem))

theorem takeWhile_append_space_tail {s : List Char} (h : ' ' ∈ s) :
    s.takeWhile (· != ' ') ++ ' ' :: (s.dropWhile (· != ' ')).tail = s := by
  have hNe : s.dropWhile (· != ' ') ≠ [] := by
    simp only [ne_eq, List.dropWhile_eq_nil_iff]
    exact fun hAll => by simpa using hAll ' ' h
  have hHead : (s.dropWhile (· != ' ')).head hNe = ' ' := by
    simpa using List.head_dropWhile_not (· != ' ') hNe
  have hDrop : ' ' :: (s.dropWhile (· != ' ')).tail = s.dropWhile (· != ' ') :=
    (congrArg (· :: _) hHead.symm).trans (List.cons_head_tail hNe)
  rw [hDrop, List.takeWhile_append_dropWhile]

/-- Of a space and an equals sign only one comes first. -/
theorem equals_notMem_takeWhile {s : List Char} (h : ' ' ∈ s.takeWhile (· != '=')) :
    '=' ∉ s.takeWhile (· != ' ') := by
  induction s with
  | nil => simp
  | cons c s ih =>
    by_cases hSpace : c = ' '
    · simp [hSpace]
    · have hEquals : c ≠ '=' := by
        rintro rfl
        simp at h
      rw [List.takeWhile_cons_of_pos (by simpa using hEquals), List.mem_cons] at h
      rw [List.takeWhile_cons_of_pos (by simpa using hSpace), List.mem_cons, not_or]
      exact ⟨hEquals.symm, ih (h.resolve_left (Ne.symm hSpace))⟩

theorem whole_spelling {s : List Char} (h : LacksMark s) :
    let q := Spelling.quoted (.whole s h)
    q.opening = quote s ∧ q.following = [] ∧ q.value = s :=
  ⟨rfl, rfl, by simp [Spelling.value, Literal.value, Literal.whole]⟩

/-- What is written for a value of a flag is a spelling of it, without an equals sign in the first
token. -/
theorem exists_spelling_of_isFlagValue {v : String} (h : IsFlagValue v) :
    ∃ s : Spelling, writeValue v.toList = (s.opening, s.following) ∧ s.value = v.toList ∧
      '=' ∉ s.opening := by
  have hQuote : '=' ≠ freeMark v.toList := by
    unfold freeMark
    split <;> decide
  unfold writeValue
  by_cases hEquals : '=' ∈ v.toList
  · obtain ⟨hMark, hBreaks⟩ := h.resolve_left fun hPlain => hPlain.1 hEquals
    have hBefore := hBreaks hEquals
    have hSpace := (List.takeWhile_prefix _).subset hBefore
    refine ⟨.quoted (.broken v.toList hMark), if_pos hEquals, ?_, ?_⟩
    · simpa [Spelling.value, Literal.value, Literal.broken] using takeWhile_append_space_tail hSpace
    · simpa [Spelling.opening, Literal.pieces, Literal.broken, hQuote] using
        equals_notMem_takeWhile hBefore
  · rw [if_neg hEquals]
    by_cases hQuoted : StartsQuoted v.toList
    · have hMark := (h.resolve_left fun hPlain => hPlain.2 hQuoted).1
      obtain ⟨hOpening, hFollowing, hValue⟩ := whole_spelling hMark
      refine ⟨.quoted (.whole v.toList hMark), ?_, hValue, ?_⟩
      · rw [if_pos hQuoted, hOpening, hFollowing]
      · rw [hOpening, quote]
        simp [hQuote, hEquals]
    · exact ⟨.plain v.toList hQuoted, if_neg hQuoted, rfl, hEquals⟩

/-- The tokens written for a flag are those of a flag that sets it and nothing else. -/
theorem exists_flag_of_writeFlag {key value : String} (hKey : IsFlagName key)
    (hValue : IsFlagValue value) :
    ∃ g : FlagGroup, g.tokens = writeFlag key value ∧ g.settings = [(key, value)] := by
  obtain ⟨s, hWrite, hText, hEquals⟩ := exists_spelling_of_isFlagValue hValue
  let g : FlagGroup :=
    { isLong := true
      key := key.toList
      given := some s
      key_ne_nil := hKey.ne_nil
      equals_notMem_key := hKey.equals_notMem
      head?_key_ne := hKey.head?_ne
      equals_notMem_opening := by
        rintro t ⟨⟩
        exact hEquals }
  refine ⟨g, ?_, ?_⟩
  · rw [writeFlag, hWrite]
    rfl
  · have hLower : String.ofList (lowerChars key.toList) = key := hKey.lower_eq
    simp only [g, FlagGroup.settings, if_true, hLower, FlagGroup.spelling, Option.getD_some, hText,
      String.ofList_toList]

/-- The token written for a positional is a spelling of it. The first one does not look like a
flag. -/
theorem exists_spelling_of_writePositional (isFirst : Bool) {p : String}
    (hQuoted : ¬ StartsQuoted p.toList ∨ LacksMark p.toList)
    (hHyphen : isFirst = true → p.toList.head? = some '-' → LacksMark p.toList) :
    ∃ s : Spelling, s.tokens = [writePositional isFirst p] ∧ String.ofList s.value = p ∧
      (isFirst = true → s.opening.head? ≠ some '-') := by
  unfold writePositional
  by_cases hMust : StartsQuoted p.toList ∨ (isFirst ∧ p.toList.head? = some '-')
  · have hMark : LacksMark p.toList := by
      rcases hMust with hMust | ⟨hFirst, hHead⟩
      · exact hQuoted.resolve_left (not_not_intro hMust)
      · exact hHyphen hFirst hHead
    obtain ⟨hOpening, hFollowing, hValue⟩ := whole_spelling hMark
    refine ⟨.quoted (.whole p.toList hMark), ?_, ?_, fun _ => ?_⟩
    · rw [if_pos hMust, Spelling.tokens, hOpening, hFollowing, List.map_nil]
    · rw [hValue, String.ofList_toList]
    · rw [hOpening, quote, freeMark]
      split <;> simp
  · rw [if_neg hMust]
    rw [not_or] at hMust
    refine ⟨.plain p.toList hMust.1, ?_, String.ofList_toList, fun hFirst hHead => ?_⟩
    · simp only [Spelling.tokens, Spelling.opening, Spelling.following, String.ofList_toList,
        List.map_nil]
    · exact hMust.2 ⟨hFirst, hHead⟩

/-- The tokens written for flags are those of flags that set them in order. -/
theorem exists_flags_of_write (settings : List (String × String))
    (h : ∀ s ∈ settings, IsFlagName s.1 ∧ IsFlagValue s.2) :
    ∃ gs : List FlagGroup,
      gs.flatMap FlagGroup.tokens = settings.flatMap (fun s => writeFlag s.1 s.2) ∧
        gs.flatMap FlagGroup.settings = settings := by
  induction settings with
  | nil => exact ⟨[], rfl, rfl⟩
  | cons s settings ih =>
    obtain ⟨gs, hTokens, hSettings⟩ := ih fun t ht => h t (List.mem_cons_of_mem s ht)
    obtain ⟨hKey, hValue⟩ := h s List.mem_cons_self
    obtain ⟨g, hToken, hSetting⟩ := exists_flag_of_writeFlag hKey hValue
    refine ⟨g :: gs, ?_, ?_⟩
    · rw [List.flatMap_cons, List.flatMap_cons, hToken, hTokens]
    · rw [List.flatMap_cons, hSetting, hSettings, List.singleton_append]

theorem exists_spellings_of_write {ps : List String}
    (h : ∀ p ∈ ps, ¬ StartsQuoted p.toList ∨ LacksMark p.toList) :
    ∃ ss : List Spelling, ss.flatMap Spelling.tokens = ps.map (writePositional false) ∧
      ss.map (fun s => String.ofList s.value) = ps := by
  induction ps with
  | nil => exact ⟨[], rfl, rfl⟩
  | cons p ps ih =>
    obtain ⟨ss, hTokens, hValues⟩ := ih fun q hq => h q (List.mem_cons_of_mem p hq)
    obtain ⟨s, hToken, hValue, -⟩ :=
      exists_spelling_of_writePositional false (h p List.mem_cons_self) (by simp)
    refine ⟨s :: ss, ?_, ?_⟩
    · rw [List.flatMap_cons, hToken, hTokens, List.map_cons, List.singleton_append]
    · rw [List.map_cons, hValue, hValues]

/-- The tokens written for positionals are those of spellings of them. -/
theorem exists_spellings_of_writePositionals {ps : List String} (h : ArePositionals ps) :
    ∃ ss : List Spelling, ss.flatMap Spelling.tokens = writePositionals ps ∧
      ss.map (fun s => String.ofList s.value) = ps ∧
      ∀ s ∈ ss.head?, s.opening.head? ≠ some '-' := by
  cases ps with
  | nil => exact ⟨[], rfl, rfl, by simp⟩
  | cons p ps =>
    obtain ⟨ss, hTokens, hValues⟩ :=
      exists_spellings_of_write fun q hq => h.1 q (List.mem_cons_of_mem p hq)
    obtain ⟨s, hToken, hValue, hHead⟩ := exists_spelling_of_writePositional true
      (h.1 p List.mem_cons_self) fun _ => h.2 p rfl
    refine ⟨s :: ss, ?_, ?_, ?_⟩
    · rw [List.flatMap_cons, hToken, hTokens, writePositionals, List.singleton_append]
    · rw [List.map_cons, hValue, hValues]
    · rintro t ⟨⟩
      exact hHead rfl

/-! ## The round trip -/

/-- A map is made by the settings it lists. -/
theorem FlagMap.setAll_toList (m : FlagMap) : FlagMap.setAll ∅ m.toList = m := by
  apply Std.ExtTreeMap.ext_getElem?
  intro key
  rw [getElem?_setAll, Std.ExtTreeMap.getElem?_empty, Option.or_none]
  cases hLookup : m.toList.reverse.lookup key with
  | some value =>
    have hMem := List.mem_reverse.mp (mem_of_lookup_eq_some hLookup)
    exact (Std.ExtTreeMap.mem_toList_iff_getElem?_eq_some.mp hMem).symm
  | none =>
    cases hValue : m[key]? with
    | none => rfl
    | some value =>
      have hMem := Std.ExtTreeMap.mem_toList_iff_getElem?_eq_some.mpr hValue
      have hNone := List.lookup_eq_none_iff.mp hLookup (key, value) (List.mem_reverse.mpr hMem)
      simp at hNone

theorem slice_write {flags : FlagMap} {positionals : List String}
    (hFlags : ∀ key value, flags[key]? = some value → IsFlagName key ∧ IsFlagValue value)
    (hPositionals : ArePositionals positionals) :
    slice (write flags positionals) = .ok ⟨flags, positionals⟩ := by
  obtain ⟨gs, hFlagTokens, hSettings⟩ := exists_flags_of_write flags.toList
    fun s hs => hFlags s.1 s.2 (Std.ExtTreeMap.mem_toList_iff_getElem?_eq_some.mp hs)
  obtain ⟨ss, hPositionalTokens, hValues, hHead⟩ :=
    exists_spellings_of_writePositionals hPositionals
  let c : Cut := ⟨gs, ss, hHead⟩
  have hTokens : c.tokens = write flags positionals := by
    rw [Cut.tokens, hFlagTokens, hPositionalTokens, write]
  have hSliced : c.sliced = ⟨flags, positionals⟩ := by
    rw [Cut.sliced, Cut.settings, hSettings, FlagMap.setAll_toList, hValues]
  rw [← hTokens, c.slice_tokens, hSliced]

theorem isFlag_of_getElem?_insert {key value : String} (hKey : IsFlagName key)
    (hValue : IsFlagValue value) (name v : String)
    (h : ((∅ : FlagMap).insert key value)[name]? = some v) : IsFlagName name ∧ IsFlagValue v := by
  rw [Std.ExtTreeMap.getElem?_insert] at h
  split at h
  · rename_i hName
    obtain rfl : key = name := by simpa using hName
    cases h
    exact ⟨hKey, hValue⟩
  · simp at h

/-- What is sliced from some list of tokens: the values that can be given to one flag, the
positionals that can be given, and any of both together, since slicing undoes writing them. Nothing
else is ever sliced. -/
theorem slice_range :
    (∀ key value, IsFlagName key →
      ((∃ tokens, slice tokens = .ok ⟨(∅ : FlagMap).insert key value, []⟩) ↔ IsFlagValue value)) ∧
    (∀ positionals,
      (∃ tokens, slice tokens = .ok ⟨∅, positionals⟩) ↔ ArePositionals positionals) ∧
    (∀ (flags : FlagMap) (positionals : List String),
      (∀ key value, flags[key]? = some value → IsFlagName key ∧ IsFlagValue value) →
      ArePositionals positionals →
      slice (write flags positionals) = .ok ⟨flags, positionals⟩) ∧
    ∀ tokens s, slice tokens = .ok s →
      (∀ (key value : String), s.flags[key]? = some value → IsFlagValue value) ∧
        ArePositionals s.positionals := by
  have hNone : ArePositionals [] := ⟨by simp, by simp⟩
  refine ⟨fun key value hKey => ⟨?_, fun hValue => ?_⟩, fun positionals => ⟨?_, fun h => ?_⟩,
    fun flags positionals hFlags hPositionals => slice_write hFlags hPositionals,
    fun tokens s h => ⟨fun key value => isFlagValue_of_slice h, arePositionals_of_slice h⟩⟩
  · rintro ⟨tokens, hSlice⟩
    exact isFlagValue_of_slice hSlice Std.ExtTreeMap.getElem?_insert_self
  · have hFlags := isFlag_of_getElem?_insert hKey hValue
    exact ⟨write ((∅ : FlagMap).insert key value) [], slice_write hFlags hNone⟩
  · rintro ⟨tokens, hSlice⟩
    exact arePositionals_of_slice hSlice
  · exact ⟨write ∅ positionals, slice_write (by simp) h⟩

theorem isFlagName_k : IsFlagName "k" :=
  ⟨by decide, by decide, by decide, by decide⟩

/-- A second equals sign can be given to a flag only after a space. -/
theorem slice_range_of_equals :
    (∃ tokens, slice tokens = .ok ⟨(∅ : FlagMap).insert "k" "x a=b", []⟩) ∧
      (¬ ∃ tokens, slice tokens = .ok ⟨(∅ : FlagMap).insert "k" "a=b", []⟩) ∧
      write ((∅ : FlagMap).insert "k" "x a=b") ["-5", "it's"] =
        ["--k=\"x", "a=b\"", "\"-5\"", "it's"] ∧
      slice ["--k=\"x", "a=b\"", "\"-5\"", "it's"] =
        .ok ⟨(∅ : FlagMap).insert "k" "x a=b", ["-5", "it's"]⟩ := by
  have hValue : IsFlagValue "x a=b" := by decide
  have hNot : ¬ IsFlagValue "a=b" := by decide
  have hPositionals : ArePositionals ["-5", "it's"] := by decide
  have hWrite : write ((∅ : FlagMap).insert "k" "x a=b") ["-5", "it's"] =
      ["--k=\"x", "a=b\"", "\"-5\"", "it's"] := rfl
  refine ⟨(slice_range.1 "k" _ isFlagName_k).mpr hValue,
    fun h => hNot ((slice_range.1 "k" _ isFlagName_k).mp h), hWrite, ?_⟩
  rw [← hWrite]
  exact slice_range.2.2.1 _ _ (isFlag_of_getElem?_insert isFlagName_k hValue) hPositionals

end CommandDispatch.Arguments
