import CommandDispatch.Proofs.Arguments.Concatenation
import CommandDispatch.Proofs.Arguments.FlagName

/-!
# Bundles of short flags

A bundle is read as the flags of its characters one after the other, whether each of them is written
with one hyphen or with two. The value is that of the last one, and a literal that begins in it goes
on behind either of them.

* `flagToken`, `separateFlags`: a token with some characters, and one token for each of them,
* `Progress.readAll_separateFlags`: reading the separate flags,
* `slice_separateFlags`: the bundle is sliced as the separate flags are.
-/

namespace CommandDispatch.Arguments

open Text

/-- The token of a flag, and of its value if it is given one. -/
def flagToken (isLong : Bool) (key : List Char) (text : Option (List Char)) : String :=
  String.ofList (List.replicate (if isLong then 2 else 1) '-' ++ bodyOf key text)

/-- Each character as a flag of its own. The last one takes the value. -/
def separateFlags (isLong : Bool) (keys : List Char) (last : Char) (text : Option (List Char)) :
    List String :=
  keys.map (fun c => flagToken isLong [c] none) ++ [flagToken isLong [last] text]

/-- An error without the text that it was found in. -/
def TokenizeError.withoutText : TokenizeError → TokenizeError
  | hyphenCount _ => hyphenCount ""
  | invalidFlagFormat _ => invalidFlagFormat ""
  | unterminatedString => unterminatedString
  | misplacedQuote _ => misplacedQuote ""
  | emptyFlagName => emptyFlagName

namespace Progress

variable {p : Progress} {isLong : Bool} {keys : List Char} {last : Char}
  {text : Option (List Char)}

theorem read_flagToken (hp : p.literal = none) (hMode : p.positionalsOnly = false)
    {key : List Char} (hHead : ∃ c ∈ key.head?, BeginsBundle c) :
    p.read (flagToken isLong key text) =
      if isLong then p.readLong (bodyOf key text) else p.readShort (bodyOf key text) := by
  obtain ⟨c, hc, hBegins⟩ := hHead
  have hKey : key ≠ [] := by
    rintro rfl
    cases hc
  have hBody : (bodyOf key text).head? ≠ some '-' := by
    rw [head?_bodyOf hKey, Option.mem_def.mp hc]
    exact fun hHyphen => hBegins.1 (Option.some.inj hHyphen)
  rw [flagToken, read_of_no_literal hp, String.toList_ofList, readGroup_hyphens hMode hBody]
  cases isLong <;> rfl

/-- A second equals sign is refused whatever the flag is. -/
theorem read_flagToken_of_equals (hp : p.literal = none) (hMode : p.positionalsOnly = false)
    {key : List Char} (hHead : ∃ c ∈ key.head?, BeginsBundle c) (hKey : '=' ∉ key)
    (hText : ∃ t ∈ text, '=' ∈ t) :
    p.read (flagToken isLong key text) =
      .error (.invalidFlagFormat (String.ofList (bodyOf key text))) := by
  rw [read_flagToken hp hMode hHead]
  cases isLong <;> simp only [readLong, readShort, splitBody_bodyOf hKey, if_pos hText] <;> rfl

/-- A bundle sets its characters before the last one, and begins the value of that one. -/
theorem readShort_bodyOf (hKey : '=' ∉ keys ++ [last]) (hText : ∀ t ∈ text, '=' ∉ t) :
    p.readShort (bodyOf (keys ++ [last]) text) =
      (p.imply keys).begin (text.getD impliedValue.toList)
        (.flag (String.ofList (lowerChar last))) := by
  have hSplit : splitBody (bodyOf (keys ++ [last]) text) = .ok (keys ++ [last], text) :=
    splitBody_eq_ok_iff.mpr ⟨by simp, hKey, hText, rfl⟩
  simp only [readShort, hSplit, ok_bind, List.getLast?_concat, List.dropLast_concat]

/-- A single character is in lower case what it is in a longer name. -/
theorem readLong_bodyOf (hKey : '=' ∉ [last]) (hText : ∀ t ∈ text, '=' ∉ t) :
    p.readLong (bodyOf [last] text) = p.readShort (bodyOf ([] ++ [last]) text) := by
  have hSplit : splitBody (bodyOf [last] text) = .ok ([last], text) :=
    splitBody_eq_ok_iff.mpr ⟨by simp, hKey, hText, rfl⟩
  rw [readShort_bodyOf hKey hText]
  simp only [readLong, hSplit, ok_bind, lowerChars_singleton]
  rfl

/-- One character is read alike after one hyphen and after two. -/
theorem read_flagToken_singleton (hp : p.literal = none) (hMode : p.positionalsOnly = false)
    (hLast : BeginsBundle last) (hText : ∀ t ∈ text, '=' ∉ t) :
    p.read (flagToken isLong [last] text) =
      p.begin (text.getD impliedValue.toList) (.flag (String.ofList (lowerChar last))) := by
  have hKey : '=' ∉ [] ++ [last] := by simpa using hLast.2.symm
  rw [read_flagToken hp hMode ⟨last, rfl, hLast⟩]
  cases isLong with
  | true => exact (readLong_bodyOf hKey hText).trans (readShort_bodyOf hKey hText)
  | false => exact readShort_bodyOf hKey hText

theorem begin_impliedValue (d : Destination) :
    p.begin impliedValue.toList d = .ok (p.store impliedValue.toList d) :=
  rfl

/-- The separate flags set their characters before the last one. The induction is on these. -/
theorem readAll_separateFlags (hp : p.literal = none) (hMode : p.positionalsOnly = false)
    (hKeys : ∀ c ∈ keys, BeginsBundle c) :
    readAll (separateFlags isLong keys last text) p =
      (p.imply keys).read (flagToken isLong [last] text) := by
  induction keys generalizing p with
  | nil => exact readAll_singleton _ p
  | cons c keys ih =>
    obtain ⟨hFirst, hOthers⟩ := List.forall_mem_cons.mp hKeys
    let q := p.store impliedValue.toList (.flag (String.ofList (lowerChar c)))
    have hq : p.read (flagToken isLong [c] none) = .ok q := by
      rw [read_flagToken_singleton hp hMode hFirst (by simp)]
      exact begin_impliedValue _
    rw [separateFlags, List.map_cons, List.cons_append, readAll_cons, hq, ok_bind]
    exact ih (p := q) hp hMode hOthers

theorem imply_literal (keys : List Char) : (p.imply keys).literal = p.literal := by
  rw [imply_eq_give]
  rfl

theorem imply_positionalsOnly (keys : List Char) :
    (p.imply keys).positionalsOnly = p.positionalsOnly := by
  rw [imply_eq_give]
  rfl

end Progress

/-! ## Bundles -/

section

variable {isLong : Bool} {keys : List Char} {last : Char} {text : Option (List Char)}

theorem exists_head?_beginsBundle (hKeys : ∀ c ∈ keys ++ [last], BeginsBundle c) :
    ∃ c ∈ (keys ++ [last]).head?, BeginsBundle c := by
  obtain ⟨c, rest, hSplit⟩ := List.exists_cons_of_ne_nil (l := keys ++ [last]) (by simp)
  rw [hSplit] at hKeys ⊢
  exact ⟨c, rfl, hKeys c List.mem_cons_self⟩

theorem equals_notMem_of_beginsBundle (hKeys : ∀ c ∈ keys ++ [last], BeginsBundle c) :
    '=' ∉ keys ++ [last] :=
  fun hMem => (hKeys '=' hMem).2 rfl

/-- Unless it has a second equals sign, the bundle is read as the separate flags are. -/
theorem readAll_separateFlags_eq_read {p : Progress} (hp : p.literal = none)
    (hMode : p.positionalsOnly = false) (hKeys : ∀ c ∈ keys ++ [last], BeginsBundle c)
    (hText : ∀ t ∈ text, '=' ∉ t) :
    Progress.readAll (separateFlags isLong keys last text) p =
      p.read (flagToken false (keys ++ [last]) text) := by
  obtain ⟨hFirst, hLast⟩ := List.forall_mem_append.mp hKeys
  rw [Progress.readAll_separateFlags hp hMode hFirst,
    Progress.read_flagToken_singleton ((Progress.imply_literal keys).trans hp)
      ((Progress.imply_positionalsOnly keys).trans hMode) (hLast last List.mem_cons_self) hText,
    Progress.read_flagToken hp hMode (exists_head?_beginsBundle hKeys)]
  exact (Progress.readShort_bodyOf (equals_notMem_of_beginsBundle hKeys) hText).symm

theorem slice_separateFlags_of_notMem (isLong : Bool)
    (hKeys : ∀ c ∈ keys ++ [last], BeginsBundle c) (hText : ∀ t ∈ text, '=' ∉ t)
    (after : List String) :
    slice (flagToken false (keys ++ [last]) text :: after) =
      slice (separateFlags isLong keys last text ++ after) := by
  rw [← List.singleton_append, slice_append_eq_bind, slice_append_eq_bind,
    Progress.readAll_singleton, readAll_separateFlags_eq_read rfl rfl hKeys hText]

theorem slice_bundle_of_mem (hKeys : ∀ c ∈ keys ++ [last], BeginsBundle c)
    (hText : ∃ t ∈ text, '=' ∈ t) (after : List String) :
    slice (flagToken false (keys ++ [last]) text :: after) =
      .error (.invalidFlagFormat (String.ofList (bodyOf (keys ++ [last]) text))) := by
  rw [← List.singleton_append, slice_append_eq_bind, Progress.readAll_singleton,
    Progress.read_flagToken_of_equals rfl rfl (exists_head?_beginsBundle hKeys)
      (equals_notMem_of_beginsBundle hKeys) hText]
  rfl

theorem slice_separateFlags_of_mem (hKeys : ∀ c ∈ keys ++ [last], BeginsBundle c)
    (hText : ∃ t ∈ text, '=' ∈ t) (after : List String) :
    slice (separateFlags isLong keys last text ++ after) =
      .error (.invalidFlagFormat (String.ofList (bodyOf [last] text))) := by
  obtain ⟨hFirst, hLast⟩ := List.forall_mem_append.mp hKeys
  have hBegins := hLast last List.mem_cons_self
  rw [slice_append_eq_bind, Progress.readAll_separateFlags rfl rfl hFirst,
    Progress.read_flagToken_of_equals (Progress.imply_literal keys)
      (Progress.imply_positionalsOnly keys) ⟨last, rfl, hBegins⟩
      (by simpa using hBegins.2.symm) hText]
  rfl

/-- After other flags, a bundle stands for the flags of its characters, whether these are written
with one hyphen or with two: both are sliced into the same, or they are refused for the same cause.
What an error shows differs only if the value has an equals sign. -/
theorem slice_separateFlags {before : List String} {f : FlagMap}
    (hBefore : slice before = .ok ⟨f, []⟩) (hKeys : ∀ c ∈ keys ++ [last], BeginsBundle c)
    (text : Option (List Char)) (after : List String) (isLong : Bool) :
    (slice (before ++ flagToken false (keys ++ [last]) text :: after)).mapError
        TokenizeError.withoutText =
      (slice (before ++ separateFlags isLong keys last text ++ after)).mapError
        TokenizeError.withoutText ∧
    ((∀ t ∈ text, '=' ∉ t) →
      slice (before ++ flagToken false (keys ++ [last]) text :: after) =
        slice (before ++ separateFlags isLong keys last text ++ after)) := by
  rw [List.append_assoc, slice_append_of_flags hBefore, slice_append_of_flags hBefore]
  by_cases hText : ∃ t ∈ text, '=' ∈ t
  · rw [slice_bundle_of_mem hKeys hText, slice_separateFlags_of_mem hKeys hText]
    refine ⟨rfl, fun hNone => ?_⟩
    obtain ⟨t, ht, hMem⟩ := hText
    exact absurd hMem (hNone t ht)
  · have hNone : ∀ t ∈ text, '=' ∉ t := fun t ht hMem => hText ⟨t, ht, hMem⟩
    rw [slice_separateFlags_of_notMem isLong hKeys hNone]
    exact ⟨rfl, fun _ => rfl⟩

end

/-- A bundle with a capital sigma and a letter whose lower-case form has two characters, and a
literal that goes on behind it. -/
theorem slice_separateFlags_sigma :
    slice ["--Level=3"] = .ok ⟨(∅ : FlagMap).insert "level" "3", []⟩ ∧
      slice ["--Level=3", "-vΣİ='x", "y'", "p"] =
        slice ["--Level=3", "--v", "--Σ", "--İ='x", "y'", "p"] := by
  have hLevel : slice ["--Level=3"] = .ok ⟨(∅ : FlagMap).insert "level" "3", []⟩ := rfl
  have hBegins : ∀ c ∈ ['v', 'Σ'] ++ ['İ'], BeginsBundle c := by
    simp [BeginsBundle]
  refine ⟨hLevel, ?_⟩
  exact (slice_separateFlags hLevel hBegins (some ['\'', 'x']) ["y'", "p"] true).2 (by simp)

end CommandDispatch.Arguments
