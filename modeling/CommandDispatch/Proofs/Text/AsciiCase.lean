import Mathlib.Data.List.Forall2
import CommandDispatch.Proofs.Text.LowerCase

/-!
# Comparison up to the case of ASCII letters

Two comparisons disregard case: that of lower-case forms, and that up to the case of ASCII letters.
Texts that are the same for the second are the same for the first, since their letters of ASCII
decide alike on the form of a sigma. The converse holds if the texts have the same characters
outside ASCII.

* `lowerAfter_eq`: texts that are the same up to the case of ASCII letters, after texts that are,
  have the same lower-case form,
* `SameBeyondAscii`: the two texts have the same characters outside ASCII, in the same places,
* `sameUpToAsciiCase_iff`: what comparison up to the case of ASCII letters is in terms of lower-case
  forms.
-/

namespace CommandDispatch.Text

/-! ## Characters -/

def IsAscii (c : Char) : Prop :=
  c.toNat < 128

theorem toNat_toLower (c : Char) :
    c.toLower.toNat = if 65 ≤ c.toNat ∧ c.toNat ≤ 90 then c.toNat + 32 else c.toNat := by
  unfold Char.toLower
  split
  · rename_i h
    have hRange : 65 ≤ c.toNat ∧ c.toNat ≤ 90 := h
    rw [if_pos hRange]
    have hSum : (c.val + 32).toNat = (c.val.toNat + 32) % 2 ^ 32 := UInt32.toNat_add _ _
    have hSmall : c.val.toNat ≤ 90 := hRange.2
    exact hSum.trans (Nat.mod_eq_of_lt (by omega))
  · rename_i h
    exact (if_neg h).symm

theorem isAlpha_iff {c : Char} :
    c.isAlpha = true ↔ 65 ≤ c.toNat ∧ c.toNat ≤ 90 ∨ 97 ≤ c.toNat ∧ c.toNat ≤ 122 := by
  change (decide (c.val ≥ 'A'.val ∧ c.val ≤ 'Z'.val) ||
    (decide (c.val ≥ 'a'.val) && decide (c.val ≤ 'z'.val))) = true ↔ _
  rw [Bool.or_eq_true, Bool.and_eq_true, decide_eq_true_eq, decide_eq_true_eq, decide_eq_true_eq]
  rfl

/-- Different characters with the same small letter are letters of ASCII. -/
theorem eq_or_isAlpha_of_toLower_eq {c d : Char} (h : c.toLower = d.toLower) :
    c = d ∨ c.isAlpha = true ∧ d.isAlpha = true := by
  have hNat := congrArg Char.toNat h
  rw [toNat_toLower, toNat_toLower] at hNat
  by_cases hEq : c.toNat = d.toNat
  · exact .inl (Char.toNat_inj.mp hEq)
  · right
    rw [isAlpha_iff, isAlpha_iff]
    split at hNat <;> split at hNat <;> omega

theorem eq_or_le_first_of_mem : ∀ r ∈ severalRun :: lowercaseRuns,
    r = ⟨0x41, 0x5a, 1, 32⟩ ∨ 128 ≤ r.first := by
  decide +kernel

/-- A character of ASCII is no sigma, and it has one small letter. -/
theorem IsAscii.lowerChar_eq {c : Char} (h : IsAscii c) : c ≠ 'Σ' ∧ lowerChar c = [c.toLower] := by
  have hSmall : c.toNat < 128 := h
  have hSigma : c ≠ 'Σ' := by
    rintro rfl
    exact absurd hSmall (by decide)
  refine ⟨hSigma, ?_⟩
  rcases lowerChar_cases c with ⟨hSeveral, -⟩ | ⟨r, hr, hContains, hImage⟩ | ⟨hUnmapped, hSame⟩
  · omega
  · have hRange := CaseRun.contains_iff.mp hContains
    rcases eq_or_le_first_of_mem r (List.mem_cons_of_mem _ hr) with rfl | hFirst
    · dsimp only at hRange
      rw [hImage, List.singleton_inj, ← Char.toNat_inj, toNat_toLower, if_pos (by omega),
        toNat_ofNat ((hasCharacters_of_mem _ hr).isValidChar_image hContains)]
      change ((c.toNat : Int) + 32).toNat = c.toNat + 32
      omega
    · omega
  · have hNotMem : ¬ (65 ≤ c.toNat ∧ c.toNat ≤ 90) := by
      intro hRange
      have hFirst := hUnmapped ⟨0x41, 0x5a, 1, 32⟩ (by decide)
      rw [← Bool.not_eq_true, CaseRun.contains_iff] at hFirst
      exact hFirst ⟨hRange.1, hRange.2, Nat.mod_one _⟩
    rw [hSame, List.singleton_inj, ← Char.toNat_inj, toNat_toLower, if_neg hNotMem]

/-- Case does not ignore the letters of ASCII. -/
theorem of_isAlpha {c : Char} (h : c.isAlpha = true) :
    IsAscii c ∧ CharSet.contains caseIgnorable c = false ∧
      CharSet.contains casedLetter c = true := by
  have hRange := isAlpha_iff.mp h
  have hAscii : IsAscii c := by
    unfold IsAscii
    omega
  refine ⟨hAscii, ?_, ?_⟩
  · have hAll : ∀ r ∈ caseIgnorable,
        r.last < 65 ∨ (90 < r.first ∧ r.last < 97) ∨ 122 < r.first := by decide +kernel
    rw [← Bool.not_eq_true, CharSet.contains_iff]
    rintro ⟨r, hr, hFirst, hLast⟩
    have hApart := hAll r hr
    omega
  · rw [CharSet.contains_iff]
    rcases hRange with hRange | hRange
    · exact ⟨⟨0x41, 0x5a⟩, by decide, hRange⟩
    · exact ⟨⟨0x61, 0x7a⟩, by decide, hRange⟩

/-- Characters with the same small letter decide alike on the form of a sigma near them. -/
theorem contains_eq_of_toLower_eq {c d : Char} (h : c.toLower = d.toLower) :
    CharSet.contains caseIgnorable c = CharSet.contains caseIgnorable d ∧
      CharSet.contains casedLetter c = CharSet.contains casedLetter d := by
  rcases eq_or_isAlpha_of_toLower_eq h with rfl | ⟨hc, hd⟩
  · exact ⟨rfl, rfl⟩
  · obtain ⟨-, hIgnored, hCased⟩ := of_isAlpha hc
    obtain ⟨-, hIgnored', hCased'⟩ := of_isAlpha hd
    exact ⟨hIgnored.trans hIgnored'.symm, hCased.trans hCased'.symm⟩

/-! ## Texts -/

variable {s t before before' : List Char}

theorem startsCased_eq (h : s.map Char.toLower = t.map Char.toLower) :
    startsCased s = startsCased t := by
  induction s generalizing t with
  | nil =>
    obtain rfl : t = [] := List.map_eq_nil_iff.mp h.symm
    rfl
  | cons c s ih =>
    obtain ⟨d, t, rfl, hFirst, hRest⟩ := List.map_eq_cons_iff.mp h.symm
    obtain ⟨hIgnored, hCased⟩ := contains_eq_of_toLower_eq hFirst
    have hSame := ih hRest.symm
    unfold startsCased at hSame ⊢
    rw [List.dropWhile_cons, List.dropWhile_cons, ← hIgnored]
    by_cases hSkip : CharSet.contains caseIgnorable d = true
    · rw [if_pos hSkip, if_pos hSkip]
      exact hSame
    · rw [if_neg hSkip, if_neg hSkip]
      exact hCased.symm

theorem lowerAfter_eq (hBefore : before.map Char.toLower = before'.map Char.toLower)
    (h : s.map Char.toLower = t.map Char.toLower) :
    lowerAfter before s = lowerAfter before' t := by
  induction s generalizing t before before' with
  | nil =>
    obtain rfl : t = [] := List.map_eq_nil_iff.mp h.symm
    rfl
  | cons c s ih =>
    obtain ⟨d, t, rfl, hFirst, hRest⟩ := List.map_eq_cons_iff.mp h.symm
    have hNext : (c :: before).map Char.toLower = (d :: before').map Char.toLower := by
      rw [List.map_cons, List.map_cons, hBefore, hFirst]
    rw [lowerAfter, lowerAfter, ih hNext hRest.symm]
    congr 1
    rcases eq_or_isAlpha_of_toLower_eq hFirst with rfl | ⟨hd, hc⟩
    · rw [startsCased_eq hBefore, startsCased_eq hRest.symm]
    · obtain ⟨hSigma, hLower⟩ := (of_isAlpha hc).1.lowerChar_eq
      obtain ⟨hSigma', hLower'⟩ := (of_isAlpha hd).1.lowerChar_eq
      rw [if_neg hSigma, if_neg hSigma', hLower, hLower', hFirst]

/-- Both characters are of ASCII, or they are the same. -/
def SameUnlessAscii (c d : Char) : Prop :=
  c = d ∨ IsAscii c ∧ IsAscii d

/-- The two texts have the same characters outside ASCII, in the same places. -/
def SameBeyondAscii (s t : String) : Prop :=
  List.Forall₂ SameUnlessAscii s.toList t.toList

theorem forall₂_sameUnlessAscii (h : s.map Char.toLower = t.map Char.toLower) :
    List.Forall₂ SameUnlessAscii s t := by
  have hSmall : List.Forall₂ (· = ·) (s.map Char.toLower) (t.map Char.toLower) := by
    rw [List.forall₂_eq_eq_eq]
    exact h
  rw [List.forall₂_map_left_iff, List.forall₂_map_right_iff] at hSmall
  refine hSmall.imp fun c d hSame => ?_
  rcases eq_or_isAlpha_of_toLower_eq hSame with hEq | ⟨hc, hd⟩
  · exact .inl hEq
  · exact .inr ⟨(of_isAlpha hc).1, (of_isAlpha hd).1⟩

/-- Of a character that both texts begin with comes the same number of characters, whatever the form
of a sigma. -/
theorem lowerAfter_tail_eq {c : Char}
    (h : lowerAfter before (c :: s) = lowerAfter before' (c :: t)) :
    lowerAfter (c :: before) s = lowerAfter (c :: before') t := by
  rw [lowerAfter, lowerAfter] at h
  refine List.append_inj_right h ?_
  by_cases hSigma : c = 'Σ'
  · rw [if_pos hSigma, if_pos hSigma]
    split <;> split <;> rfl
  · rw [if_neg hSigma, if_neg hSigma]

/-- Texts with the same lower-case form whose characters outside ASCII are the same differ in the
case of letters of ASCII only. -/
theorem map_toLower_eq (h : List.Forall₂ SameUnlessAscii s t)
    (hLower : lowerAfter before s = lowerAfter before' t) :
    s.map Char.toLower = t.map Char.toLower := by
  induction h generalizing before before' with
  | nil => rfl
  | @cons c d s t hFirst _ ih =>
    rw [List.map_cons, List.map_cons]
    rcases hFirst with rfl | ⟨hc, hd⟩
    · rw [ih (lowerAfter_tail_eq hLower)]
    · obtain ⟨hSigma, hOne⟩ := hc.lowerChar_eq
      obtain ⟨hSigma', hOne'⟩ := hd.lowerChar_eq
      rw [lowerAfter, lowerAfter, if_neg hSigma, if_neg hSigma', hOne, hOne',
        List.singleton_append, List.singleton_append, List.cons.injEq] at hLower
      rw [hLower.1, ih hLower.2]

/-- Two texts are the same up to the case of ASCII letters if and only if they have the same
lower-case form and the same characters outside ASCII. -/
theorem sameUpToAsciiCase_iff {s t : String} :
    sameUpToAsciiCase s t = true ↔ lower s = lower t ∧ SameBeyondAscii s t := by
  rw [sameUpToAsciiCase, beq_iff_eq]
  constructor
  · intro h
    refine ⟨?_, forall₂_sameUnlessAscii h⟩
    rw [lower, lower, lowerChars, lowerChars, lowerAfter_eq rfl h]
  · rintro ⟨hLower, hSame⟩
    exact map_toLower_eq hSame (String.ofList_injective hLower)

end CommandDispatch.Text
