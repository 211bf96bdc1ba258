import Mathlib.Data.Finset.Card
import Mathlib.Order.Interval.Finset.Nat
import CommandDispatch.Proofs.Naming.History

/-!
# How many words there are

The numbers that are drawn have far fewer words, since six letters stand for two digits each. Words
are counted by their codes: the decimal numbers with a one and then a digit for each letter.

* `wordOf_eq_iff`: two numbers have the same word if and only if they have the same code,
* `image_codeOf_mul`: the numbers of an interval with one more digit have the codes of an interval,
* `image_codeOf_range`: the codes of all numbers that are drawn are five intervals,
* `card_words`, `filter_mem_keywords`: so the words are 19810, and one of them is a keyword,
* `length_le_capacity`: different words that are given out are at most all others,
* `Allocator.countP_issued_le`: so many requests at most are answered by a word in a run.
-/

namespace CommandDispatch.Naming

open Finset

/-! ## Codes -/

/-- The code of the word of a number. -/
def codeOf (n : Nat) : Nat :=
  if n < 16 then 10 + n % 10 else 10 * codeOf (n / 16) + n % 16 % 10

theorem codeOf_of_lt {n : Nat} (h : n < 16) : codeOf n = 10 + n % 10 := by
  rw [codeOf, if_pos h]

theorem codeOf_of_le {n : Nat} (h : 16 ≤ n) :
    codeOf n = 10 * codeOf (n / 16) + n % 16 % 10 := by
  rw [codeOf, if_neg (Nat.not_lt_of_le h)]

theorem ten_le_codeOf (n : Nat) : 10 ≤ codeOf n := by
  induction n using Nat.strongRecOn with
  | ind n ih =>
    rcases Nat.lt_or_ge n 16 with h | h
    · rw [codeOf_of_lt h]
      exact Nat.le_add_right 10 _
    · have hFront := ih (n / 16) (by omega)
      rw [codeOf_of_le h]
      omega

theorem letterOf_digitChar_eq_iff {d d' : Nat} (h : d < 16) (h' : d' < 16) :
    letterOf (Nat.digitChar d) = letterOf (Nat.digitChar d') ↔ d % 10 = d' % 10 := by
  have hAll : ∀ d < 16, ∀ d' < 16,
      letterOf (Nat.digitChar d) = letterOf (Nat.digitChar d') ↔ d % 10 = d' % 10 := by decide
  exact hAll d h d' h'

/-- A short word has not the letters of a longer one, nor its code. -/
theorem lettersOf_ne_and_codeOf_ne {n m : Nat} (hn : n < 16) (hm : 16 ≤ m) :
    lettersOf n ≠ lettersOf m ∧ codeOf n ≠ codeOf m := by
  constructor
  · rw [lettersOf_of_lt hn, lettersOf_of_le hm]
    intro h
    have hLength := congrArg List.length h
    have hFront := List.length_pos_of_ne_nil (lettersOf_ne_nil (m / 16))
    rw [List.length_append, List.length_singleton, List.length_singleton] at hLength
    omega
  · rw [codeOf_of_lt hn, codeOf_of_le hm]
    have hFront := ten_le_codeOf (m / 16)
    omega

/-- Two numbers have the same letters if and only if they have the same code. -/
theorem lettersOf_eq_iff {n m : Nat} : lettersOf n = lettersOf m ↔ codeOf n = codeOf m := by
  induction n using Nat.strongRecOn generalizing m with
  | ind n ih =>
    rcases Nat.lt_or_ge n 16 with hn | hn <;> rcases Nat.lt_or_ge m 16 with hm | hm
    · rw [lettersOf_of_lt hn, lettersOf_of_lt hm, codeOf_of_lt hn, codeOf_of_lt hm,
        List.singleton_inj, letterOf_digitChar_eq_iff hn hm, Nat.add_left_cancel_iff]
    · obtain ⟨hLetters, hCode⟩ := lettersOf_ne_and_codeOf_ne hn hm
      exact iff_of_false hLetters hCode
    · obtain ⟨hLetters, hCode⟩ := lettersOf_ne_and_codeOf_ne hm hn
      exact iff_of_false hLetters.symm hCode.symm
    · have hDigit := letterOf_digitChar_eq_iff (Nat.mod_lt n (by decide : 16 > 0))
        (Nat.mod_lt m (by decide : 16 > 0))
      rw [lettersOf_of_le hn, lettersOf_of_le hm, codeOf_of_le hn, codeOf_of_le hm,
        List.append_singleton_inj, ih (n / 16) (by omega), hDigit]
      omega

/-! ## Words of codes -/

/-- Without its capital a word is the letters of its number. -/
theorem map_toLower_wordOf (n : Nat) (exported : Bool) :
    (wordOf n exported).toList.map Char.toLower = lettersOf n := by
  have hLetters : ∀ c ∈ lettersOf n, c ∈ wordLetters :=
    fun c hc => mem_wordLetters_of_mem_lettersOf hc
  rw [wordOf_eq_ofList, String.toList_ofList]
  cases hWord : lettersOf n with
  | nil => rfl
  | cons c rest =>
    rw [hWord] at hLetters
    obtain ⟨hFirst, hRest⟩ := List.forall_mem_cons.mp hLetters
    have hTail : rest.map Char.toLower = rest :=
      (List.map_congr_left fun x hx => (of_mem_wordLetters (hRest x hx)).1.2.2).trans
        (List.map_id' rest)
    obtain ⟨⟨-, -, hLower⟩, -, -, hUpper⟩ := of_mem_wordLetters hFirst
    rw [List.modifyHead_cons, List.map_cons, hTail]
    cases exported
    · exact congrArg (· :: rest) hLower
    · exact congrArg (· :: rest) hUpper

theorem wordOf_eq_iff {n m : Nat} {exported : Bool} :
    wordOf n exported = wordOf m exported ↔ codeOf n = codeOf m := by
  rw [← lettersOf_eq_iff]
  constructor
  · intro h
    rw [← map_toLower_wordOf n exported, h, map_toLower_wordOf]
  · intro h
    rw [wordOf_eq_ofList, wordOf_eq_ofList, h]

/-! ## Codes of intervals -/

theorem codeOf_mul_add {n d : Nat} (h : 1 ≤ n) (hd : d < 16) :
    codeOf (16 * n + d) = 10 * codeOf n + d % 10 := by
  rw [codeOf_of_le (by omega), show (16 * n + d) / 16 = n by omega,
    show (16 * n + d) % 16 = d by omega]

/-- With one more digit the codes of an interval are still an interval. -/
theorem image_codeOf_mul {lo hi lo' hi' : Nat} (pos : 1 ≤ lo)
    (h : (Ico lo hi).image codeOf = Ico lo' hi') :
    (Ico (16 * lo) (16 * hi)).image codeOf = Ico (10 * lo') (10 * hi') := by
  ext k
  rw [mem_image, mem_Ico]
  have hFront : ∀ k, (∃ n, n ∈ Ico lo hi ∧ codeOf n = k) ↔ lo' ≤ k ∧ k < hi' := by
    intro k
    rw [← mem_Ico, ← h, mem_image]
  constructor
  · rintro ⟨n, hn, rfl⟩
    rw [mem_Ico] at hn
    have hk := (hFront (codeOf (n / 16))).mp ⟨n / 16, mem_Ico.mpr (by omega), rfl⟩
    rw [codeOf_of_le (by omega)]
    omega
  · intro hk
    obtain ⟨n, hn, hCode⟩ := (hFront (k / 10)).mpr (by omega)
    rw [mem_Ico] at hn
    refine ⟨16 * n + k % 10, mem_Ico.mpr (by omega), ?_⟩
    rw [codeOf_mul_add (by omega) (by omega), hCode]
    omega

/-- The codes of up to ten numbers that differ in their last digits. -/
theorem image_codeOf_digits {n c : Nat} (pos : 1 ≤ n) (hc : c ≤ 10) :
    (Ico (16 * n) (16 * n + c)).image codeOf = Ico (10 * codeOf n) (10 * codeOf n + c) := by
  ext k
  rw [mem_image, mem_Ico]
  constructor
  · rintro ⟨m, hm, rfl⟩
    obtain ⟨d, rfl⟩ := Nat.exists_eq_add_of_le (mem_Ico.mp hm).1
    rw [mem_Ico] at hm
    rw [codeOf_mul_add pos (by omega)]
    omega
  · rintro ⟨hLe, hLt⟩
    obtain ⟨d, rfl⟩ := Nat.exists_eq_add_of_le hLe
    refine ⟨16 * n + d, mem_Ico.mpr (by omega), ?_⟩
    rw [codeOf_mul_add pos (by omega)]
    omega

theorem image_codeOf_union {lo mid hi lo' mid' hi' : Nat} (h₁ : lo ≤ mid) (h₂ : mid ≤ hi)
    (h₁' : lo' ≤ mid') (h₂' : mid' ≤ hi')
    (hFront : (Ico lo mid).image codeOf = Ico lo' mid')
    (hBack : (Ico mid hi).image codeOf = Ico mid' hi') :
    (Ico lo hi).image codeOf = Ico lo' hi' := by
  rw [← Ico_union_Ico_eq_Ico h₁ h₂, image_union, hFront, hBack, Ico_union_Ico_eq_Ico h₁' h₂']

theorem image_codeOf_Ico_zero : (Ico 0 16).image codeOf = Ico 10 20 := by
  ext k
  rw [mem_image, mem_Ico]
  constructor
  · rintro ⟨n, hn, rfl⟩
    rw [codeOf_of_lt (mem_Ico.mp hn).2]
    omega
  · intro hk
    refine ⟨k - 10, mem_Ico.mpr (by omega), ?_⟩
    rw [codeOf_of_lt (by omega)]
    omega

/-- A leading digit is not zero, but the letter of zero is also that of ten. -/
theorem image_codeOf_Ico_one : (Ico 1 16).image codeOf = Ico 10 20 := by
  refine subset_antisymm ?_ fun k hk => ?_
  · rw [← image_codeOf_Ico_zero]
    exact image_subset_image (Ico_subset_Ico_left (Nat.zero_le 1))
  · rw [mem_Ico] at hk
    rcases Nat.eq_or_lt_of_le hk.1 with rfl | hLt
    · exact mem_image.mpr ⟨10, by decide, codeOf_of_lt (by decide)⟩
    · refine mem_image.mpr ⟨k - 10, mem_Ico.mpr (by omega), ?_⟩
      rw [codeOf_of_lt (by omega)]
      omega

/-- The last interval stops in the middle of three digits: at `18`, at `186` and at `186a`. -/
theorem image_codeOf_Ico_last : (Ico 65536 100000).image codeOf = Ico 110000 118700 := by
  have hOne : codeOf 1 = 11 := codeOf_of_lt (by decide)
  have hTwo : codeOf 24 = 118 := by
    rw [codeOf_of_le (by decide), hOne]
  have hThree : codeOf 390 = 1186 := by
    rw [codeOf_of_le (by decide), hTwo]
  have hA : (Ico 16 24).image codeOf = Ico 110 118 := by
    have h := image_codeOf_digits (n := 1) (c := 8) (by decide) (by decide)
    rwa [hOne] at h
  have hB : (Ico 384 390).image codeOf = Ico 1180 1186 := by
    have h := image_codeOf_digits (n := 24) (c := 6) (by decide) (by decide)
    rwa [hTwo] at h
  have hC : (Ico 6240 6250).image codeOf = Ico 11860 11870 := by
    have h := image_codeOf_digits (n := 390) (c := 10) (by decide) (by decide)
    rwa [hThree] at h
  have hA : (Ico 256 384).image codeOf = Ico 1100 1180 := (image_codeOf_mul (by decide) hA :)
  have hAB : (Ico 256 390).image codeOf = Ico 1100 1186 :=
    image_codeOf_union (by decide) (by decide) (by decide) (by decide) hA hB
  have hAB : (Ico 4096 6240).image codeOf = Ico 11000 11860 := (image_codeOf_mul (by decide) hAB :)
  have hABC : (Ico 4096 6250).image codeOf = Ico 11000 11870 :=
    image_codeOf_union (by decide) (by decide) (by decide) (by decide) hAB hC
  exact (image_codeOf_mul (by decide) hABC :)

/-- The codes of all numbers that are drawn. -/
theorem image_codeOf_range :
    (range drawRange).image codeOf =
      Ico 10 20 ∪ Ico 100 200 ∪ Ico 1000 2000 ∪ Ico 10000 20000 ∪ Ico 110000 118700 := by
  have hTwo : (Ico 16 256).image codeOf = Ico 100 200 :=
    (image_codeOf_mul (by decide) image_codeOf_Ico_one :)
  have hThree : (Ico 256 4096).image codeOf = Ico 1000 2000 := (image_codeOf_mul (by decide) hTwo :)
  have hFour : (Ico 4096 65536).image codeOf = Ico 10000 20000 :=
    (image_codeOf_mul (by decide) hThree :)
  have hRange : range drawRange =
      Ico 0 16 ∪ Ico 16 256 ∪ Ico 256 4096 ∪ Ico 4096 65536 ∪ Ico 65536 100000 := by
    rw [Ico_union_Ico_eq_Ico (by decide) (by decide), Ico_union_Ico_eq_Ico (by decide) (by decide),
      Ico_union_Ico_eq_Ico (by decide) (by decide), Ico_union_Ico_eq_Ico (by decide) (by decide),
      range_eq_Ico, drawRange]
  rw [hRange, image_union, image_union, image_union, image_union, image_codeOf_Ico_zero, hTwo,
    hThree, hFour, image_codeOf_Ico_last]

theorem card_image_codeOf_range : ((range drawRange).image codeOf).card = 19810 := by
  have hDisjoint : ∀ {s : Finset ℕ} {lo hi : ℕ}, (∀ k ∈ s, k < lo) → Disjoint s (Ico lo hi) :=
    fun h => disjoint_left.mpr fun k hs hIco => absurd (mem_Ico.mp hIco).1 (Nat.not_le_of_lt (h k hs))
  rw [image_codeOf_range, card_union_of_disjoint, card_union_of_disjoint, card_union_of_disjoint,
    card_union_of_disjoint]
  · simp only [Nat.card_Ico]
  all_goals
    apply hDisjoint
    intro k hk
    simp only [mem_union, mem_Ico] at hk
    omega

/-! ## Words -/

/-- The words of all numbers that are drawn. -/
def words (exported : Bool) : Finset String :=
  (range drawRange).image fun n => wordOf n exported

/-- Words are counted by their codes: a word is that of all numbers with one code. -/
theorem card_words (exported : Bool) : (words exported).card = 19810 := by
  have hFactors : codeOf.FactorsThrough fun n => wordOf n exported :=
    fun _ _ h => wordOf_eq_iff.mp h
  obtain ⟨code, hCode⟩ : ∃ code : String → ℕ, ∀ n, code (wordOf n exported) = codeOf n :=
    ⟨_, hFactors.extend_apply 0⟩
  have hImage : (words exported).image code = (range drawRange).image codeOf := by
    rw [words, image_image]
    exact image_congr fun n _ => hCode n
  have hInj : Set.InjOn code (words exported) := by
    intro v hv w hw h
    obtain ⟨n, -, rfl⟩ := mem_image.mp hv
    obtain ⟨m, -, rfl⟩ := mem_image.mp hw
    exact wordOf_eq_iff.mpr (by simpa only [hCode] using h)
  rw [← card_image_of_injOn hInj, hImage, card_image_codeOf_range]

/-- Only one keyword has no letters but `a` to `j`. -/
theorem wordOf_mem_keywords_iff {n : Nat} {exported : Bool} :
    wordOf n exported ∈ keywords ↔ exported = false ∧ wordOf n exported = "if" := by
  constructor
  · intro h
    obtain ⟨c, rest, hWord, hFirst, hCapital, hRest⟩ := exists_letters_wordOf n exported
    have hCheck : (keywords.all fun w =>
        w == "if" || w.toList.any fun x => !wordLetters.contains x.toLower) = true := by decide
    have hAll : ∀ w ∈ keywords, w ≠ "if" → ∃ x ∈ w.toList, x.toLower ∉ wordLetters := by
      simpa [or_iff_not_imp_left] using hCheck
    have hIf : wordOf n exported = "if" := by
      by_contra hNe
      obtain ⟨x, hx, hOther⟩ := hAll _ h hNe
      rw [hWord] at hx
      rcases List.mem_cons.mp hx with rfl | hx
      · exact hOther hFirst
      · exact hOther ((of_mem_wordLetters (hRest x hx)).1.2.2.symm ▸ hRest x hx)
    refine ⟨?_, hIf⟩
    have hHead := congrArg List.head? (hWord.symm.trans (congrArg String.toList hIf))
    obtain rfl : c = 'i' := Option.some.inj hHead
    rw [← hCapital]
    rfl
  · rintro ⟨-, hIf⟩
    rw [hIf]
    decide

theorem filter_mem_keywords (exported : Bool) :
    (words exported).filter (· ∈ keywords) = if exported then ∅ else {"if"} := by
  have hIf : "if" ∈ words false := mem_image.mpr ⟨133, mem_range.mpr (by decide), by decide⟩
  ext w
  rw [mem_filter]
  constructor
  · rintro ⟨hw, hKeyword⟩
    obtain ⟨n, -, rfl⟩ := mem_image.mp hw
    obtain ⟨rfl, hIs⟩ := wordOf_mem_keywords_iff.mp hKeyword
    exact mem_singleton.mpr hIs
  · cases exported with
    | false =>
      intro hw
      rw [mem_singleton.mp hw]
      exact ⟨hIf, by decide⟩
    | true => exact fun hw => absurd hw (notMem_empty w)

/-- How many words can be given out. -/
def capacity (exported : Bool) : Nat :=
  if exported then 19810 else 19809

theorem card_filter_notMem_keywords (exported : Bool) :
    ((words exported).filter (· ∉ keywords)).card = capacity exported := by
  have hSum := card_filter_add_card_filter_not (s := words exported) (· ∈ keywords)
  rw [card_words, filter_mem_keywords] at hSum
  cases exported
  · rw [if_neg Bool.false_ne_true, card_singleton] at hSum
    exact Nat.add_left_cancel hSum
  · rw [if_pos rfl, card_empty] at hSum
    exact Nat.add_left_cancel hSum

/-- Words that are given out and all different are not more than there are. -/
theorem length_le_capacity {ws : List String} {exported : Bool} (hNodup : ws.Nodup)
    (h : ∀ w ∈ ws, IsIssuable exported w) : ws.length ≤ capacity exported := by
  rw [← List.toFinset_card_of_nodup hNodup, ← card_filter_notMem_keywords]
  refine card_le_card fun w hw => ?_
  have hIssuable := h w (List.mem_toFinset.mp hw)
  obtain ⟨n, hWord⟩ := hIssuable.eq_wordOf
  exact mem_filter.mpr
    ⟨mem_image.mpr ⟨n, mem_range.mpr n.isLt, hWord.symm⟩, hIssuable.notMem_keywords⟩

/-! ## Runs -/

namespace Allocator

variable {σ : Type} [Source σ]

/-- In a run no more requests are answered by a word than there are words. -/
theorem countP_issued_le (a : Allocator σ) (requests : List Request) (exported : Bool) :
    ((a.history requests).countP fun event =>
      event.2.word?.isSome && event.1.exported? == some exported) ≤ capacity exported := by
  let asked := (a.history requests).filter fun event => event.1.exported? == some exported
  have hNodup : (issuedWords asked).Nodup :=
    (nodup_issuedWords_history a requests).sublist (List.filter_sublist.filterMap _)
  have hIssuable : ∀ w ∈ issuedWords asked, IsIssuable exported w := by
    intro w hw
    obtain ⟨event, hMem, hWord⟩ := List.mem_filterMap.mp hw
    obtain ⟨hMem, hAsks⟩ := List.mem_filter.mp hMem
    obtain ⟨e, hExported, hIssuable⟩ := isIssuable_of_mem_history hMem hWord
    rw [hExported, beq_iff_eq, Option.some_inj] at hAsks
    exact hAsks ▸ hIssuable
  have hLength : (issuedWords asked).length = (a.history requests).countP fun event =>
      event.2.word?.isSome && event.1.exported? == some exported := by
    rw [issuedWords, List.length_filterMap_eq_countP, List.countP_filter]
  rw [← hLength]
  exact length_le_capacity hNodup hIssuable

end Allocator

end CommandDispatch.Naming
