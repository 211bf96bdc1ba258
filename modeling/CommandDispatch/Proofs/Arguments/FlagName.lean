import CommandDispatch.Proofs.Arguments.Quoting
import CommandDispatch.Proofs.Text.LowerCase

/-!
# Names that flags can have

The key of a flag is a lower-case form without an equals sign, which does not begin with a hyphen
(`IsFlagName`), with one exception: in a bundle such as `-x-`, a hyphen after another character is a
flag of its own. It cannot be set without a flag before it.

* `isFlagName_or_hyphen_of_slice`: no other key is ever set,
* `exists_slice_iff`: the keys that can be set apart from some others.
-/

namespace CommandDispatch.Arguments

open Text

/-- The key of a hyphen in a bundle. -/
def hyphenKey : String :=
  "-"

/-- The character can begin a bundle. -/
def BeginsBundle (c : Char) : Prop :=
  c ≠ '-' ∧ c ≠ '='

/-! ## Keys that are set -/

theorem isFlagName_lowerChars {key : List Char} (hNe : key ≠ []) (hEquals : '=' ∉ key)
    (hHead : key.head? ≠ some '-') : IsFlagName (String.ofList (lowerChars key)) where
  ne_nil := by
    rw [String.toList_ofList]
    exact lowerChars_ne_nil hNe
  lower_eq := by
    have hForm : lower (String.ofList key) = String.ofList (lowerChars key) := by
      rw [lower, String.toList_ofList]
    rw [← hForm]
    exact lower_lower _
  equals_notMem := by
    rw [String.toList_ofList]
    exact fun hMem =>
      hEquals (mem_of_mem_lowerAfter (isNoImage_of_mem _ (by decide)) (by decide) hMem)
  head?_ne := by
    rw [String.toList_ofList]
    exact fun h => hHead (head?_of_head?_lowerChars (isNoImage_of_mem _ (by decide)) (by decide) h)

theorem isFlagName_lowerChar {c : Char} (h : BeginsBundle c) :
    IsFlagName (String.ofList (lowerChar c)) := by
  rw [← lowerChars_singleton]
  apply isFlagName_lowerChars
  · simp
  · simpa using h.2.symm
  · simpa using h.1

namespace FlagGroup

/-- A bundle sets a flag for each of its characters, and nothing else. -/
theorem map_fst_settings_of_short {g : FlagGroup} (h : g.isLong = false) :
    g.settings.map (·.1) = g.key.map fun c => String.ofList (lowerChar c) := by
  have hSplit := List.dropLast_concat_getLast g.key_ne_nil
  rw [settings, h, if_neg (by decide), List.map_append, List.map_map]
  nth_rewrite 3 [← hSplit]
  rw [List.map_append]
  rfl

/-- The first character of a bundle. -/
theorem exists_beginsBundle (g : FlagGroup) : ∃ c ∈ g.key, BeginsBundle c := by
  obtain ⟨c, rest, hKey⟩ := List.exists_cons_of_ne_nil g.key_ne_nil
  have hHead := g.head?_key_ne
  have hEquals := g.equals_notMem_key
  rw [hKey] at hHead hEquals
  refine ⟨c, by simp [hKey], fun h => hHead (by rw [h]; rfl), fun h => hEquals (by simp [h])⟩

/-- A flag sets keys that are names of flags, or a hyphen together with one of these. -/
theorem isFlagName_or_hyphen {g : FlagGroup} {key : String} (h : key ∈ g.settings.map (·.1)) :
    IsFlagName key ∨ key = hyphenKey ∧
      ∃ c, BeginsBundle c ∧ String.ofList (lowerChar c) ∈ g.settings.map (·.1) := by
  cases hLong : g.isLong with
  | true =>
    rw [settings, if_pos hLong, List.map_singleton, List.mem_singleton] at h
    rw [h]
    exact .inl (isFlagName_lowerChars g.key_ne_nil g.equals_notMem_key g.head?_key_ne)
  | false =>
    rw [map_fst_settings_of_short hLong] at h ⊢
    obtain ⟨c, hc, rfl⟩ := List.mem_map.mp h
    have hEquals : c ≠ '=' := fun hEq => g.equals_notMem_key (hEq ▸ hc)
    by_cases hHyphen : c = '-'
    · obtain ⟨first, hFirst, hBegins⟩ := g.exists_beginsBundle
      subst hHyphen
      exact .inr ⟨by rw [(isUnmapped_of_mem '-' (by decide)).lowerChar_eq]; rfl, first, hBegins,
        List.mem_map_of_mem hFirst⟩
    · exact .inl (isFlagName_lowerChar ⟨hHyphen, hEquals⟩)

end FlagGroup

/-- The keys of a map are those of the settings that it was made of. -/
theorem FlagMap.mem_setAll_iff {settings : List (String × String)} {key : String} :
    key ∈ FlagMap.setAll ∅ settings ↔ key ∈ settings.map (·.1) := by
  rw [Std.ExtTreeMap.mem_iff_isSome_getElem?, getElem?_setAll, Std.ExtTreeMap.getElem?_empty,
    Option.or_none]
  constructor
  · intro h
    obtain ⟨value, hValue⟩ := Option.isSome_iff_exists.mp h
    have hMem := List.mem_reverse.mp (mem_of_lookup_eq_some hValue)
    exact List.mem_map_of_mem hMem
  · intro h
    obtain ⟨setting, hSetting, rfl⟩ := List.mem_map.mp h
    by_contra hNone
    rw [Bool.not_eq_true, Option.isSome_eq_false_iff, Option.isNone_iff_eq_none,
      List.lookup_eq_none_iff] at hNone
    simpa using hNone setting (List.mem_reverse.mpr hSetting)

theorem isFlagName_or_hyphen_of_slice {tokens : List String} {s : Sliced}
    (h : slice tokens = .ok s) {key : String} (hKey : key ∈ s.flags) :
    IsFlagName key ∨ key = hyphenKey ∧
      ∃ c, BeginsBundle c ∧ String.ofList (lowerChar c) ∈ s.flags := by
  obtain ⟨c, rfl⟩ := Cut.exists_of_slice_eq_ok h
  rw [c.slice_tokens, Except.ok.injEq] at h
  subst h
  have hMem : ∀ key, key ∈ c.sliced.flags ↔ ∃ g ∈ c.flags, key ∈ g.settings.map (·.1) := by
    intro key
    rw [Cut.sliced, FlagMap.mem_setAll_iff, Cut.settings, List.map_flatMap, List.mem_flatMap]
  obtain ⟨g, hg, hIn⟩ := (hMem key).mp hKey
  rcases g.isFlagName_or_hyphen hIn with hName | ⟨hHyphen, first, hBegins, hFirst⟩
  · exact .inl hName
  · exact .inr ⟨hHyphen, first, hBegins, (hMem _).mpr ⟨g, hg, hFirst⟩⟩

/-! ## Setting a key -/

theorem exists_slice_of_isFlagName {key : String} (h : IsFlagName key) :
    ∃ tokens, slice tokens = .ok ⟨(∅ : FlagMap).insert key impliedValue, []⟩ :=
  ⟨_, slice_write (isFlag_of_getElem?_insert h isFlagValue_impliedValue) ⟨by simp, by simp⟩⟩

/-- The bundle of a character and a hyphen. -/
theorem exists_slice_of_beginsBundle {c : Char} (h : BeginsBundle c) :
    ∃ tokens s, slice tokens = .ok s ∧
      ∀ key, key ∈ s.flags ↔ key = String.ofList (lowerChar c) ∨ key = hyphenKey := by
  let g : FlagGroup :=
    { isLong := false
      key := [c, '-']
      given := none
      key_ne_nil := by simp
      equals_notMem_key := by simpa using h.2.symm
      head?_key_ne := by simpa using h.1
      equals_notMem_opening := by simp }
  let cut : Cut := ⟨[g], [], by simp⟩
  refine ⟨cut.tokens, cut.sliced, cut.slice_tokens, fun key => ?_⟩
  have hHyphen : String.ofList (lowerChar '-') = hyphenKey := by
    rw [(isUnmapped_of_mem '-' (by decide)).lowerChar_eq]
    rfl
  rw [Cut.sliced, FlagMap.mem_setAll_iff, Cut.settings, List.flatMap_singleton,
    FlagGroup.map_fst_settings_of_short rfl]
  simp [g, hHyphen]

/-- A key that can be set while some others are not: the name of a flag, or a hyphen if it can stand
in a bundle after a character that sets none of the others. -/
def CanBeSetApart (others : List String) (key : String) : Prop :=
  key ∉ others ∧
    (IsFlagName key ∨
      key = hyphenKey ∧ ∃ c, BeginsBundle c ∧ String.ofList (lowerChar c) ∉ others)

theorem exists_slice_iff {others : List String} {key : String} :
    (∃ tokens s, slice tokens = .ok s ∧ key ∈ s.flags ∧ ∀ other ∈ others, other ∉ s.flags) ↔
      CanBeSetApart others key := by
  constructor
  · rintro ⟨tokens, s, hSlice, hKey, hOthers⟩
    refine ⟨fun hMem => hOthers key hMem hKey, ?_⟩
    rcases isFlagName_or_hyphen_of_slice hSlice hKey with hName | ⟨hHyphen, c, hBegins, hFirst⟩
    · exact .inl hName
    · exact .inr ⟨hHyphen, c, hBegins, fun hMem => hOthers _ hMem hFirst⟩
  · rintro ⟨hNew, hName | ⟨rfl, c, hBegins, hFirst⟩⟩
    · obtain ⟨tokens, hSlice⟩ := exists_slice_of_isFlagName hName
      refine ⟨tokens, _, hSlice, Std.ExtTreeMap.mem_insert_self, fun other hOther hMem => ?_⟩
      rcases Std.ExtTreeMap.mem_insert.mp hMem with hEq | hEmpty
      · obtain rfl : key = other := by simpa using hEq
        exact hNew hOther
      · exact Std.ExtTreeMap.not_mem_empty hEmpty
    · obtain ⟨tokens, s, hSlice, hFlags⟩ := exists_slice_of_beginsBundle hBegins
      refine ⟨tokens, s, hSlice, (hFlags _).mpr (.inr rfl), fun other hOther hMem => ?_⟩
      rcases (hFlags other).mp hMem with rfl | rfl
      · exact hFirst hOther
      · exact hNew hOther

end CommandDispatch.Arguments
