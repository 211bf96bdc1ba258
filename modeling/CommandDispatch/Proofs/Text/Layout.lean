import Mathlib.Logic.Relation
import CommandDispatch.Proofs.Text.Blank

/-!
# Layouts of words

The same words can stand in a text with different blanks between them and around them.

* `Tightens`: a run of blanks becomes one space, or the blanks at an end are removed,
* `words_eq_of_tightens`: this changes no word,
* `isTight_intercalate`: nothing is left to change where single spaces are between the words,
* `exists_isTight`: so each text can be laid out.
-/

namespace CommandDispatch.Text

open Relation

variable {c : Char} {s t w : List Char} {ws : List (List Char)}

/-- A text is laid out tighter: a run of blanks becomes one space, or blanks at an end are
removed. -/
inductive Tightens : List Char → List Char → Prop where
  | run (before after : List Char) {blanks : List Char} (hNe : blanks ≠ [])
      (hBlanks : AreBlank blanks) : Tightens (before ++ blanks ++ after) (before ++ ' ' :: after)
  | start (s : List Char) {blanks : List Char} (hBlanks : AreBlank blanks) :
      Tightens (blanks ++ s) s
  | finish (s : List Char) {blanks : List Char} (hBlanks : AreBlank blanks) :
      Tightens (s ++ blanks) s

/-- The text cannot be laid out tighter. -/
def IsTight (s : List Char) : Prop :=
  ∀ t, Tightens s t → t = s

theorem Tightens.words_eq (h : Tightens s t) : words t = words s := by
  cases h with
  | run before after hNe hBlanks =>
    rw [words_append_blanks_append hNe hBlanks]
    exact words_append_cons rfl before after
  | start t hBlanks => exact (words_blanks_append hBlanks t).symm
  | finish t hBlanks => exact (words_append_blanks hBlanks t).symm

theorem words_eq_of_tightens (h : ReflTransGen Tightens s t) : words t = words s := by
  induction h with
  | refl => rfl
  | tail _ hStep ih => exact hStep.words_eq.trans ih

/-! ## Texts with single spaces -/

/-- Each blank of the text is a single space between two other characters. -/
def IsSpaced (s : List Char) : Prop :=
  ∀ before c after, s = before ++ c :: after → isBlank c = true →
    c = ' ' ∧ before ≠ [] ∧ ∃ d rest, after = d :: rest ∧ isBlank d = false

/-- A blank in a text that begins with a word comes after the word. -/
theorem IsWord.exists_of_append_eq (hw : IsWord w) {before after : List Char}
    (h : w ++ t = before ++ c :: after) (hc : isBlank c = true) :
    ∃ u, before = w ++ u ∧ t = u ++ c :: after := by
  rcases List.append_eq_append_iff.mp h with ⟨u, hBefore, ht⟩ | ⟨u, rfl, ht⟩
  · exact ⟨u, hBefore, ht⟩
  · cases u with
    | nil => exact ⟨[], by simp, ht.symm⟩
    | cons d u =>
      cases ht
      have hNot := hw.not_blank c (by simp)
      rw [hc] at hNot
      cases hNot

theorem intercalate_space_cons (w : List Char) (ws : List (List Char)) :
    [' '].intercalate (w :: ws) = w ++ ws.flatMap (' ' :: ·) := by
  induction ws generalizing w with
  | nil => rw [List.intercalate_singleton, List.flatMap_nil, List.append_nil]
  | cons v ws ih =>
    rw [List.intercalate_cons_cons, ih, List.append_assoc, List.flatMap_cons]
    rfl

theorem IsWord.exists_intercalate_eq (hw : IsWord w) (ws : List (List Char)) :
    ∃ c rest, [' '].intercalate (w :: ws) = c :: rest ∧ isBlank c = false := by
  obtain ⟨c, u, rfl⟩ := List.exists_cons_of_ne_nil hw.ne_nil
  exact ⟨c, _, intercalate_space_cons _ ws, hw.not_blank c List.mem_cons_self⟩

theorem isSpaced_intercalate (h : ∀ w ∈ ws, IsWord w) : IsSpaced ([' '].intercalate ws) := by
  induction ws with
  | nil =>
    intro before c after hSplit
    cases before <;> cases hSplit
  | cons w ws ih =>
    obtain ⟨hw, hws⟩ := List.forall_mem_cons.mp h
    intro before c after hSplit hc
    cases ws with
    | nil =>
      rw [List.intercalate_singleton, ← List.append_nil w] at hSplit
      obtain ⟨u, -, hNil⟩ := hw.exists_of_append_eq hSplit hc
      cases u <;> cases hNil
    | cons v ws =>
      rw [List.intercalate_cons_cons, List.append_assoc, List.singleton_append] at hSplit
      obtain ⟨u, rfl, hRest⟩ := hw.exists_of_append_eq hSplit hc
      cases u with
      | nil =>
        obtain ⟨rfl, rfl⟩ := List.cons.inj hRest
        exact ⟨rfl, by simp [hw.ne_nil], (hws v List.mem_cons_self).exists_intercalate_eq ws⟩
      | cons d u =>
        obtain ⟨-, hNext⟩ := List.cons.inj hRest
        obtain ⟨hSpace, -, hAfter⟩ := ih hws u c after hNext hc
        exact ⟨hSpace, by simp, hAfter⟩

theorem isTight_of_isSpaced (h : IsSpaced s) : IsTight s := by
  intro t hTightens
  cases hTightens with
  | @run before after blanks hNe hBlanks =>
    obtain ⟨c, others, rfl⟩ := List.exists_cons_of_ne_nil hNe
    obtain ⟨hc, hOthers⟩ := List.forall_mem_cons.mp hBlanks
    obtain ⟨rfl, -, d, rest, hAfter, hd⟩ := h before c (others ++ after) (by simp) hc
    cases others with
    | nil => simp
    | cons e others =>
      obtain ⟨rfl, -⟩ := List.cons.inj hAfter
      exact absurd (hOthers e List.mem_cons_self) (Bool.eq_false_iff.mp hd)
  | @start _ blanks hBlanks =>
    cases blanks with
    | nil => rfl
    | cons c others =>
      obtain ⟨-, hNe, -⟩ := h [] c (others ++ t) rfl (hBlanks c List.mem_cons_self)
      exact absurd rfl hNe
  | @finish _ blanks hBlanks =>
    rcases List.eq_nil_or_concat blanks with rfl | ⟨others, c, rfl⟩
    · exact (List.append_nil t).symm
    · have hc : isBlank c = true := hBlanks c (by simp)
      obtain ⟨-, -, d, rest, hAfter, -⟩ := h (t ++ others) c [] (by simp) hc
      cases hAfter

/-! ## The tight layout of a text -/

/-- A text has no words, or begins with its first word after some blanks. -/
theorem areBlank_or_exists_isWord (s : List Char) :
    AreBlank s ∨ ∃ blanks w t, s = blanks ++ (w ++ t) ∧ AreBlank blanks ∧ IsWord w ∧
      ∀ c ∈ t.head?, isBlank c = true := by
  induction s with
  | nil => exact .inl (by simp [AreBlank])
  | cons c s ih =>
    by_cases hc : isBlank c = true
    · rcases ih with hBlank | ⟨blanks, w, t, rfl, hBlanks, hw, ht⟩
      · exact .inl (List.forall_mem_cons.mpr ⟨hc, hBlank⟩)
      · exact .inr ⟨c :: blanks, w, t, rfl, List.forall_mem_cons.mpr ⟨hc, hBlanks⟩, hw, ht⟩
    · have hWord : IsWord (c :: s.takeWhile (!isBlank ·)) :=
        ⟨List.cons_ne_nil _ _, List.forall_mem_cons.mpr
          ⟨Bool.eq_false_iff.mpr hc, fun d hd => by simpa using List.mem_takeWhile_imp hd⟩⟩
      refine .inr ⟨[], _, s.dropWhile (!isBlank ·), ?_, by simp [AreBlank], hWord, fun d hd => ?_⟩
      · rw [List.nil_append, List.cons_append, List.takeWhile_append_dropWhile]
      · have hNot := List.head?_dropWhile_not (!isBlank ·) s
        rw [Option.mem_def.mp hd] at hNot
        simpa using hNot

/-- The words after another word are laid out with a single space before each. -/
theorem tightens_after (s : List Char) (ht : ∀ c ∈ t.head?, isBlank c = true) :
    ReflTransGen Tightens (s ++ t) (s ++ (words t).flatMap (' ' :: ·)) := by
  -- Each step takes some blanks and a word off the rest, so this gets shorter.
  induction hLength : t.length using Nat.strong_induction_on generalizing s t with
  | _ n ih =>
    rcases areBlank_or_exists_isWord t with hBlank | ⟨blanks, w, rest, rfl, hBlanks, hw, hRest⟩
    · rw [hBlank.words_eq_nil, List.flatMap_nil, List.append_nil]
      exact .single (.finish s hBlank)
    · have hNe : blanks ≠ [] := by
        rintro rfl
        obtain ⟨c, others, rfl⟩ := List.exists_cons_of_ne_nil hw.ne_nil
        exact absurd (ht c rfl) (Bool.eq_false_iff.mp (hw.not_blank c List.mem_cons_self))
      have hLess : rest.length < n := by
        have := List.length_pos_iff.mpr hNe
        simp only [List.length_append] at hLength
        omega
      have hStep : Tightens (s ++ (blanks ++ (w ++ rest))) (s ++ ' ' :: (w ++ rest)) := by
        rw [← List.append_assoc]
        exact .run s (w ++ rest) hNe hBlanks
      rw [words_blanks_append hBlanks, hw.words_append hRest, List.flatMap_cons]
      refine .head hStep ?_
      simpa using ih rest.length hLess (s ++ ' ' :: w) hRest rfl

/-- Each text is laid out as its words with single spaces between them. -/
theorem tightens_words (s : List Char) : ReflTransGen Tightens s ([' '].intercalate (words s)) := by
  rcases areBlank_or_exists_isWord s with hBlank | ⟨blanks, w, rest, rfl, hBlanks, hw, hRest⟩
  · rw [hBlank.words_eq_nil]
    exact .single (.finish [] hBlank)
  · rw [words_blanks_append hBlanks, hw.words_append hRest]
    refine .head (.start (w ++ rest) hBlanks) ?_
    rw [intercalate_space_cons]
    exact tightens_after w hRest

/-- Words with single spaces between them cannot be laid out tighter. -/
theorem isTight_intercalate (h : ∀ w ∈ ws, IsWord w) : IsTight ([' '].intercalate ws) :=
  isTight_of_isSpaced (isSpaced_intercalate h)

theorem IsTight.eq_of_tightens (h : IsTight s) (hTightens : ReflTransGen Tightens s t) :
    t = s := by
  induction hTightens with
  | refl => rfl
  | tail _ hStep ih =>
    subst ih
    exact h _ hStep

theorem IsTight.intercalate_words (h : IsTight s) : [' '].intercalate (words s) = s :=
  h.eq_of_tightens (tightens_words s)

/-- Each text can be laid out so that it cannot be laid out tighter. -/
theorem exists_isTight (s : List Char) : ∃ t, ReflTransGen Tightens s t ∧ IsTight t :=
  ⟨_, tightens_words s, isTight_intercalate fun _ => isWord_of_mem_words⟩

end CommandDispatch.Text
