import CommandDispatch.Text.Case

/-!
# Lower-case forms have no lower-case form but themselves

The table of lower-case forms is read twice: once for the characters of a text, and once more for
what came of them. That the second reading changes nothing is a fact about its runs, which are
compared two by two.

* `lower_lower`: a lower-case form is its own lower-case form,
* `sameUpToAsciiCase_iff_lower_eq`: for a word of plain letters, comparison up to the case of ASCII
  letters is comparison of lower-case forms. The letters `i` and `k` are not plain, since a dotted
  capital `İ` and the sign `K` for Kelvin have them in their lower-case forms.
-/

namespace CommandDispatch.Text

/-- What holds of all characters in a list is decided by the list, not by going through all
characters. -/
instance (priority := high) decidableForallMem {p : Char → Prop} [DecidablePred p] (s : List Char) :
    Decidable (∀ c ∈ s, p c) :=
  List.decidableBAll p s

/-! ## Runs -/

/-- No character in the first run has an image in the second one: the images are before it, or
after it, or between its characters. -/
def CaseRun.misses (r q : CaseRun) : Bool :=
  (r.image r.last).blt q.first || q.last.blt (r.image r.first) ||
    (q.step == 2 && (r.step == 2 || r.first == r.last) && (r.image r.first + q.first) % 2 == 1)

/-- The images in a run are characters. -/
def CaseRun.HasCharacters (r : CaseRun) : Prop :=
  (0 ≤ r.first + r.shift ∧ r.last + r.shift < 0xd800) ∨
    (0xdfff < r.first + r.shift ∧ r.last + r.shift < 0x110000)

instance (r : CaseRun) : Decidable r.HasCharacters :=
  inferInstanceAs (Decidable (_ ∨ _))

/-- The one character with several characters as lower-case form, as a run. -/
def severalRun : CaseRun :=
  ⟨0x130, 0x130, 1, 0⟩

theorem misses_of_mem {r q : CaseRun} (hr : r ∈ lowercaseRuns)
    (hq : q ∈ severalRun :: lowercaseRuns) : r.misses q = true := by
  have hAll : (lowercaseRuns.all fun r => (severalRun :: lowercaseRuns).all r.misses) = true := by
    decide +kernel
  exact List.all_eq_true.mp (List.all_eq_true.mp hAll r hr) q hq

theorem hasCharacters_of_mem : ∀ r ∈ lowercaseRuns, r.HasCharacters := by
  decide +kernel

theorem CaseRun.contains_iff {r : CaseRun} {n : Nat} :
    r.contains n = true ↔ r.first ≤ n ∧ n ≤ r.last ∧ (n - r.first) % r.step = 0 := by
  simp [contains, and_assoc]

theorem CaseRun.HasCharacters.isValidChar_image {r : CaseRun} (h : r.HasCharacters) {n : Nat}
    (hn : r.contains n = true) : (r.image n).isValidChar := by
  obtain ⟨hFirst, hLast, -⟩ := contains_iff.mp hn
  unfold image
  rcases h with ⟨hLow, hHigh⟩ | ⟨hLow, hHigh⟩
  · left
    omega
  · right
    omega

theorem CaseRun.contains_image {r q : CaseRun} (h : r.misses q = true) (hr : r.HasCharacters)
    {n : Nat} (hn : r.contains n = true) : q.contains (r.image n) = false := by
  rw [← Bool.not_eq_true, contains_iff]
  obtain ⟨hFirst, hLast, hStep⟩ := contains_iff.mp hn
  have hPositive : 0 ≤ r.first + r.shift := by
    rcases hr with hr | hr <;> omega
  rintro ⟨hFirst', hLast', hStep'⟩
  simp only [misses, Bool.or_eq_true, Bool.and_eq_true, Nat.blt_eq, beq_iff_eq] at h
  unfold image at h hFirst' hLast' hStep'
  -- The image is beyond an end of the run, or both go by twos and it is of the other parity.
  rcases h with (h | h) | ⟨⟨hTwo, hSteps⟩, hOdd⟩
  · omega
  · omega
  · rw [hTwo] at hStep'
    rcases hSteps with hSteps | hSteps
    · rw [hSteps] at hStep
      omega
    · omega

theorem toNat_ofNat {n : Nat} (h : n.isValidChar) : (Char.ofNat n).toNat = n := by
  rw [Char.ofNat, dif_pos h]
  rfl

/-! ## Characters -/

/-- No run holds the character, so that it is left as it is. -/
def IsUnmapped (c : Char) : Prop :=
  ∀ r ∈ severalRun :: lowercaseRuns, r.contains c.toNat = false

instance (c : Char) : Decidable (IsUnmapped c) :=
  inferInstanceAs (Decidable (∀ r ∈ severalRun :: lowercaseRuns, r.contains c.toNat = false))

/-- No run has the character for an image. -/
def IsNoImage (x : Char) : Prop :=
  x ≠ 'i' ∧ x ≠ Char.ofNat 0x307 ∧
    ∀ r ∈ lowercaseRuns, r.contains (x.toNat - r.shift).toNat = false

instance (x : Char) : Decidable (IsNoImage x) :=
  inferInstanceAs (Decidable (_ ∧ _ ∧ ∀ r ∈ lowercaseRuns, _))

/-- The lower-case form of a character is one of two characters, or an image in a run, or the
character itself. -/
theorem lowerChar_cases (c : Char) :
    (c.toNat = 0x130 ∧ lowerChar c = ['i', Char.ofNat 0x307]) ∨
      (∃ r ∈ lowercaseRuns, r.contains c.toNat = true ∧
        lowerChar c = [Char.ofNat (r.image c.toNat)]) ∨
      (IsUnmapped c ∧ lowerChar c = [c]) := by
  unfold lowerChar mapCase
  by_cases hSeveral : c.toNat = 0x130
  · left
    exact ⟨hSeveral, by simp [lowercaseSeveral, hSeveral]⟩
  · right
    have hNone : lowercaseSeveral.lookup c.toNat = none := by
      simp [lowercaseSeveral, List.lookup_cons, beq_false_of_ne hSeveral]
    rw [hNone]
    cases hFind : lowercaseRuns.find? (·.contains c.toNat) with
    | some r =>
      left
      have hContains : r.contains c.toNat = true := by
        simpa using List.find?_some hFind
      exact ⟨r, List.mem_of_find?_eq_some hFind, hContains, rfl⟩
    | none =>
      right
      refine ⟨fun r hr => ?_, rfl⟩
      rcases List.mem_cons.mp hr with rfl | hr
      · rw [← Bool.not_eq_true, CaseRun.contains_iff]
        rintro ⟨hFirst, hLast, -⟩
        exact hSeveral (Nat.le_antisymm hLast hFirst)
      · simpa using List.find?_eq_none.mp hFind r hr

theorem IsUnmapped.lowerChar_eq {c : Char} (h : IsUnmapped c) : lowerChar c = [c] := by
  rcases lowerChar_cases c with ⟨hSeveral, -⟩ | ⟨r, hr, hContains, -⟩ | ⟨-, hSame⟩
  · have hContains := h severalRun List.mem_cons_self
    rw [hSeveral] at hContains
    cases hContains
  · exact absurd hContains (by simp [h r (List.mem_cons_of_mem _ hr)])
  · exact hSame

theorem isUnmapped_of_mem :
    ∀ x ∈ ['i', Char.ofNat 0x307, 'ς', 'σ', '-', '='], IsUnmapped x := by
  decide +kernel

theorem isNoImage_of_mem : ∀ x ∈ ['-', '='], IsNoImage x := by
  decide +kernel

theorem IsUnmapped.ne_sigma {c : Char} (h : IsUnmapped c) : c ≠ 'Σ' := by
  rintro rfl
  exact absurd h (by decide)

/-- What comes of a character is left as it is. -/
theorem isUnmapped_of_mem_lowerChar {c d : Char} (h : d ∈ lowerChar c) : IsUnmapped d := by
  rcases lowerChar_cases c with ⟨-, hSeveral⟩ | ⟨r, hr, hContains, hImage⟩ | ⟨hSame, hEq⟩
  · rw [hSeveral] at h
    exact isUnmapped_of_mem d (List.mem_append_left _ h)
  · rw [hImage, List.mem_singleton] at h
    subst h
    have hCharacters := hasCharacters_of_mem r hr
    intro q hq
    rw [toNat_ofNat (hCharacters.isValidChar_image hContains)]
    exact CaseRun.contains_image (misses_of_mem hr hq) hCharacters hContains
  · rw [hEq, List.mem_singleton] at h
    exact h ▸ hSame

/-- A character that is no image comes of itself only. -/
theorem eq_of_mem_lowerChar {c x : Char} (hx : IsNoImage x) (h : x ∈ lowerChar c) : c = x := by
  obtain ⟨hLetter, hDot, hRuns⟩ := hx
  rcases lowerChar_cases c with ⟨-, hSeveral⟩ | ⟨r, hr, hContains, hImage⟩ | ⟨-, hSame⟩
  · simp [hSeveral, hLetter, hDot] at h
  · rw [hImage, List.mem_singleton] at h
    have hNat := congrArg Char.toNat h
    rw [toNat_ofNat ((hasCharacters_of_mem r hr).isValidChar_image hContains),
      CaseRun.image] at hNat
    have hPositive : 0 ≤ (c.toNat : Int) + r.shift := by
      obtain ⟨hFirst, -, -⟩ := CaseRun.contains_iff.mp hContains
      rcases hasCharacters_of_mem r hr with h | h <;> omega
    have hBack : (x.toNat - r.shift).toNat = c.toNat := by omega
    have hNot := hRuns r hr
    rw [hBack, hContains] at hNot
    cases hNot
  · rw [hSame, List.mem_singleton] at h
    exact h.symm

theorem lowerChar_ne_nil (c : Char) : lowerChar c ≠ [] := by
  rcases lowerChar_cases c with ⟨-, h⟩ | ⟨_, -, -, h⟩ | ⟨-, h⟩ <;> simp [h]

/-! ## Texts -/

theorem isUnmapped_of_mem_lowerAfter {before s : List Char} {d : Char}
    (h : d ∈ lowerAfter before s) : IsUnmapped d := by
  induction s generalizing before with
  | nil => cases h
  | cons c s ih =>
    rw [lowerAfter, List.mem_append] at h
    rcases h with h | h
    · split at h
      · split at h
        · exact isUnmapped_of_mem d (by simp_all)
        · exact isUnmapped_of_mem d (by simp_all)
      · exact isUnmapped_of_mem_lowerChar h
    · exact ih h

/-- A character that is left as it is stays where it was. -/
theorem lowerAfter_cons_of_isUnmapped {before s : List Char} {c : Char} (h : IsUnmapped c) :
    lowerAfter before (c :: s) = c :: lowerAfter (c :: before) s := by
  rw [lowerAfter, if_neg h.ne_sigma, h.lowerChar_eq, List.singleton_append]

theorem mem_lowerAfter_of_isUnmapped {before s : List Char} {c : Char} (hc : IsUnmapped c)
    (h : c ∈ s) : c ∈ lowerAfter before s := by
  induction s generalizing before with
  | nil => cases h
  | cons d s ih =>
    rcases List.mem_cons.mp h with rfl | h
    · rw [lowerAfter_cons_of_isUnmapped hc]
      exact List.mem_cons_self
    · rw [lowerAfter]
      exact List.mem_append_right _ (ih h)

theorem head?_lowerAfter_of_isUnmapped {before s : List Char} {c : Char} (hc : IsUnmapped c)
    (h : s.head? = some c) : (lowerAfter before s).head? = some c := by
  cases s with
  | nil => cases h
  | cons d s =>
    obtain rfl : d = c := Option.some.inj h
    rw [lowerAfter_cons_of_isUnmapped hc]
    rfl

theorem lowerAfter_eq_self {before s : List Char} (h : ∀ c ∈ s, IsUnmapped c) :
    lowerAfter before s = s := by
  induction s generalizing before with
  | nil => rfl
  | cons c s ih =>
    rw [lowerAfter_cons_of_isUnmapped (h c List.mem_cons_self),
      ih fun d hd => h d (List.mem_cons_of_mem c hd)]

theorem lower_lower (s : String) : lower (lower s) = lower s := by
  unfold lower lowerChars
  rw [String.toList_ofList, lowerAfter_eq_self fun _ => isUnmapped_of_mem_lowerAfter]

/-- The lower-case form of a text that is one character: a sigma in it ends no word. -/
theorem lowerChars_singleton (c : Char) : lowerChars [c] = lowerChar c := by
  rw [lowerChars, lowerAfter, lowerAfter, List.append_nil]
  split
  · rename_i hSigma
    subst hSigma
    rfl
  · rfl

/-- A character that is no image is only where it was before. -/
theorem mem_of_mem_lowerAfter {before s : List Char} {x : Char} (hx : IsNoImage x)
    (hSigma : x ≠ 'ς' ∧ x ≠ 'σ') (h : x ∈ lowerAfter before s) : x ∈ s := by
  induction s generalizing before with
  | nil => cases h
  | cons c s ih =>
    rw [lowerAfter, List.mem_append] at h
    rcases h with h | h
    · split at h
      · split at h
        · exact absurd (List.mem_singleton.mp h) hSigma.1
        · exact absurd (List.mem_singleton.mp h) hSigma.2
      · rw [eq_of_mem_lowerChar hx h]
        exact List.mem_cons_self
    · exact List.mem_cons_of_mem c (ih h)

/-- The first character of a lower-case form comes of the first character. -/
theorem head?_of_head?_lowerChars {s : List Char} {x : Char} (hx : IsNoImage x)
    (hSigma : x ≠ 'ς' ∧ x ≠ 'σ') (h : (lowerChars s).head? = some x) : s.head? = some x := by
  cases s with
  | nil => cases h
  | cons c s =>
    rw [lowerChars, lowerAfter] at h
    split at h
    · split at h
      · exact absurd (Option.some.inj h).symm hSigma.1
      · exact absurd (Option.some.inj h).symm hSigma.2
    · obtain ⟨d, ds, hLower⟩ := List.exists_cons_of_ne_nil (lowerChar_ne_nil c)
      rw [hLower] at h
      have hMem : x ∈ lowerChar c := by
        rw [hLower, ← Option.some.inj h]
        exact List.mem_cons_self
      rw [eq_of_mem_lowerChar hx hMem]
      rfl

theorem lowerChars_ne_nil {s : List Char} (h : s ≠ []) : lowerChars s ≠ [] := by
  obtain ⟨c, s, rfl⟩ := List.exists_cons_of_ne_nil h
  rw [lowerChars, lowerAfter]
  split
  · split <;> simp
  · simp [lowerChar_ne_nil c]

/-! ## Plain letters -/

/-- The small ASCII letters in no lower-case form but those of themselves and of their capitals. -/
def plainLetters : List Char :=
  "abcdefghjlmnopqrstuvwxyz".toList

def capital (x : Char) : Char :=
  Char.ofNat (x.toNat - 32)

theorem toLower_eq_iff {c x : Char} (hx : x ∈ plainLetters) :
    c.toLower = x ↔ c = x ∨ c = capital x := by
  constructor
  · intro h
    by_cases hCapital : c.val ≥ 'A'.val ∧ c.val ≤ 'Z'.val
    · have hAll : ∀ n ∈ List.range' 65 26, ∀ x ∈ plainLetters,
          (Char.ofNat n).toLower = x → Char.ofNat n = capital x := by decide
      have hRange : c.toNat ∈ List.range' 65 26 :=
        List.mem_range'_1.mpr ⟨hCapital.1, Nat.lt_succ_of_le hCapital.2⟩
      have hc := hAll _ hRange x hx
      rw [Char.ofNat_toNat] at hc
      exact Or.inr (hc h)
    · have hSame : c.toLower = c := dif_neg hCapital
      exact Or.inl (hSame.symm.trans h)
  · have hAll : ∀ x ∈ plainLetters, x.toLower = x ∧ (capital x).toLower = x := by decide
    rintro (rfl | rfl)
    · exact (hAll _ hx).1
    · exact (hAll _ hx).2

theorem shift_of_contains : ∀ x ∈ plainLetters, ∀ r ∈ lowercaseRuns,
    r.contains (x.toNat - r.shift).toNat = true → r.shift = 32 := by
  decide +kernel

theorem lowerChar_eq_singleton_iff {c x : Char} (hx : x ∈ plainLetters) :
    lowerChar c = [x] ↔ c = x ∨ c = capital x := by
  constructor
  · intro h
    rcases lowerChar_cases c with ⟨-, hSeveral⟩ | ⟨r, hr, hContains, hImage⟩ | ⟨-, hSame⟩
    · simp [hSeveral] at h
    · right
      rw [hImage, List.singleton_inj] at h
      have hPositive : 32 ≤ x.toNat := by
        have hAll : ∀ x ∈ plainLetters, 32 ≤ x.toNat := by decide
        exact hAll x hx
      have hNat := congrArg Char.toNat h
      rw [toNat_ofNat ((hasCharacters_of_mem r hr).isValidChar_image hContains),
        CaseRun.image] at hNat
      have hBack : (x.toNat - r.shift).toNat = c.toNat := by omega
      have hShift := shift_of_contains x hx r hr (hBack ▸ hContains)
      have hc : c.toNat = x.toNat - 32 := by omega
      rw [capital, ← hc, Char.ofNat_toNat]
    · rw [hSame, List.singleton_inj] at h
      exact Or.inl h
  · have hAll : ∀ x ∈ plainLetters, lowerChar x = [x] ∧ lowerChar (capital x) = [x] := by
      decide +kernel
    rintro (rfl | rfl)
    · exact (hAll _ hx).1
    · exact (hAll _ hx).2

/-- What comes of a character begins with a plain letter only if it is that letter. -/
theorem lowerChar_append_eq_cons_iff {c x : Char} (hx : x ∈ plainLetters) {r u : List Char} :
    lowerChar c ++ r = x :: u ↔ c.toLower = x ∧ r = u := by
  rw [toLower_eq_iff hx, ← lowerChar_eq_singleton_iff hx]
  rcases lowerChar_cases c with ⟨-, hSeveral⟩ | ⟨_, -, -, hImage⟩ | ⟨-, hSame⟩
  · have hNe : x ≠ 'i' := by
      rintro rfl
      exact absurd hx (by decide)
    simp [hSeveral, hNe.symm]
  · simp [hImage]
  · simp [hSame]

theorem lowerAfter_eq_iff (before : List Char) {s t : List Char} (ht : ∀ x ∈ t, x ∈ plainLetters) :
    lowerAfter before s = t ↔ s.map Char.toLower = t := by
  induction s generalizing before t with
  | nil => rfl
  | cons c s ih =>
    rw [lowerAfter, List.map_cons]
    cases t with
    | nil =>
      split
      · split <;> simp
      · simp [lowerChar_ne_nil c]
    | cons x t =>
      have hx := ht x List.mem_cons_self
      rw [List.cons.injEq, ← ih (c :: before) fun y hy => ht y (List.mem_cons_of_mem x hy)]
      split
      · rename_i hSigma
        have hAll : ∀ x ∈ plainLetters, 'ς' ≠ x ∧ 'σ' ≠ x ∧ 'Σ' ≠ x := by decide
        obtain ⟨hFinal, hMedial, hCapital⟩ := hAll x hx
        subst hSigma
        split <;> simp [hFinal, hMedial, hCapital]
      · exact lowerChar_append_eq_cons_iff hx

/-- Against a word of plain letters, comparison up to the case of ASCII letters is comparison of
lower-case forms. -/
theorem sameUpToAsciiCase_iff_lower_eq {s t : String} (ht : ∀ x ∈ t.toList, x ∈ plainLetters) :
    sameUpToAsciiCase s t = true ↔ lower s = t := by
  have hSmall : t.toList.map Char.toLower = t.toList := (lowerAfter_eq_iff [] ht).mp <|
    lowerAfter_eq_self fun c hc => by
      have hAll : ∀ x ∈ plainLetters, IsUnmapped x := by decide +kernel
      exact hAll c (ht c hc)
  rw [sameUpToAsciiCase, beq_iff_eq, hSmall, ← lowerAfter_eq_iff [] ht, lower,
    ← String.toList_inj, String.toList_ofList, lowerChars]

end CommandDispatch.Text
