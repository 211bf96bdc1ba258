import Mathlib.Data.List.TakeWhile
import CommandDispatch.Text.Blank

/-!
# Words and lines of texts in parts

What divides a text into pieces divides it into texts with their own pieces. All that is said of
words and lines here comes from this.

* `words_append_cons`: the words on the sides of a blank,
* `words_intercalate`: the words of texts with single spaces between them,
* `trim_eq_iff`: blanks around a trimmed text are what is trimmed,
* `filterMap_lines_append`: the lines on the sides of a line feed.
-/

namespace CommandDispatch.Text

variable {p : Char → Bool} {c : Char} {s t blanks w : List Char} {ws : List (List Char)}

/-! ## Pieces -/

theorem pieces_eq_splitOnP (p : Char → Bool) (s : List Char) : pieces p s = s.splitOnP p := by
  induction s with
  | nil => rw [pieces, List.splitOnP_nil]
  | cons c s ih =>
    rw [pieces, List.splitOnP_cons_eq_if_modifyHead, ← ih]
    obtain ⟨piece, others, hPieces⟩ := List.exists_cons_of_ne_nil (pieces_ne_nil p s)
    rw [hPieces]
    rfl

theorem pieces_append_cons (hc : p c = true) (s t : List Char) :
    pieces p (s ++ c :: t) = pieces p s ++ pieces p t := by
  simp only [pieces_eq_splitOnP]
  exact List.splitOnP_append_cons s t hc

theorem pieces_eq_singleton (h : ∀ c ∈ s, p c = false) : pieces p s = [s] := by
  rw [pieces_eq_splitOnP]
  exact List.splitOnP_eq_singleton h

/-- No piece holds a character that divides pieces. -/
theorem eq_false_of_mem_pieces (h : w ∈ pieces p s) : ∀ c ∈ w, p c = false := by
  induction s generalizing w with
  | nil =>
    rw [List.mem_singleton.mp h]
    simp
  | cons d s ih =>
    obtain ⟨piece, others, hPieces⟩ := List.exists_cons_of_ne_nil (pieces_ne_nil p s)
    rw [pieces] at h
    by_cases hd : p d = true
    · rw [if_pos hd] at h
      rcases List.mem_cons.mp h with rfl | h
      · simp
      · exact ih h
    · rw [if_neg hd, hPieces] at h
      rw [hPieces] at ih
      rcases List.mem_cons.mp h with rfl | h
      · exact List.forall_mem_cons.mpr ⟨Bool.eq_false_iff.mpr hd, ih List.mem_cons_self⟩
      · exact ih (List.mem_cons_of_mem piece h)

/-! ## Words -/

/-- The text is one word. -/
structure IsWord (w : List Char) : Prop where
  ne_nil : w ≠ []
  not_blank : ∀ c ∈ w, isBlank c = false

/-- The text has no words. -/
def AreBlank (s : List Char) : Prop :=
  ∀ c ∈ s, isBlank c = true

instance (s : List Char) : Decidable (AreBlank s) :=
  decidable_of_iff (s.all isBlank = true) List.all_eq_true

theorem isWord_of_mem_words (h : w ∈ words s) : IsWord w := by
  obtain ⟨hPiece, hNe⟩ := List.mem_filter.mp h
  exact ⟨by simpa using hNe, eq_false_of_mem_pieces hPiece⟩

theorem words_append_cons (hc : isBlank c = true) (s t : List Char) :
    words (s ++ c :: t) = words s ++ words t := by
  rw [words, pieces_append_cons hc, List.filter_append]
  rfl

theorem IsWord.words_eq (h : IsWord w) : words w = [w] := by
  rw [words, pieces_eq_singleton h.not_blank]
  simp [h.ne_nil]

theorem words_cons (hc : isBlank c = true) (s : List Char) : words (c :: s) = words s :=
  words_append_cons hc [] s

theorem words_blanks_append (h : AreBlank blanks) (s : List Char) :
    words (blanks ++ s) = words s := by
  induction blanks with
  | nil => rfl
  | cons c blanks ih =>
    obtain ⟨hc, hBlanks⟩ := List.forall_mem_cons.mp h
    rw [List.cons_append, words_cons hc, ih hBlanks]

/-- The first word of a text that goes on with a blank, or ends there. -/
theorem IsWord.words_append (hw : IsWord w) (ht : ∀ c ∈ t.head?, isBlank c = true) :
    words (w ++ t) = w :: words t := by
  cases t with
  | nil =>
    rw [List.append_nil, hw.words_eq]
    rfl
  | cons c t =>
    have hc : isBlank c = true := ht c rfl
    rw [words_append_cons hc, words_cons hc, hw.words_eq, List.singleton_append]

theorem AreBlank.words_eq_nil (h : AreBlank s) : words s = [] := by
  rw [← List.append_nil s, words_blanks_append h]
  rfl

theorem words_append_blanks_append (hNe : blanks ≠ []) (h : AreBlank blanks) (s t : List Char) :
    words (s ++ blanks ++ t) = words s ++ words t := by
  obtain ⟨c, others, rfl⟩ := List.exists_cons_of_ne_nil hNe
  obtain ⟨hc, hOthers⟩ := List.forall_mem_cons.mp h
  rw [List.append_assoc, List.cons_append, words_append_cons hc, words_blanks_append hOthers]

theorem words_append_blanks (h : AreBlank blanks) (s : List Char) :
    words (s ++ blanks) = words s := by
  by_cases hNe : blanks = []
  · rw [hNe, List.append_nil]
  · have hWords := words_append_blanks_append hNe h s []
    rw [List.append_nil] at hWords
    exact hWords.trans (List.append_nil _)

/-- A single space between texts divides their words. -/
theorem words_intercalate (ss : List (List Char)) :
    words ([' '].intercalate ss) = ss.flatMap words := by
  induction ss with
  | nil => rfl
  | cons s ss ih =>
    cases ss with
    | nil => rw [List.intercalate_singleton, List.flatMap_singleton]
    | cons t ss =>
      rw [List.intercalate_cons_cons, List.append_assoc, List.singleton_append,
        words_append_cons rfl, ih]
      exact List.flatMap_cons.symm

/-! ## Trimmed texts -/

/-- No blank is at an end of the text. -/
structure IsTrimmed (s : List Char) : Prop where
  head : ∀ c ∈ s.head?, isBlank c = false
  last : ∀ c ∈ s.getLast?, isBlank c = false

theorem dropWhile_eq_self (h : ∀ c ∈ s.head?, isBlank c = false) : s.dropWhile isBlank = s := by
  cases s with
  | nil => rfl
  | cons c s => exact List.dropWhile_cons_of_neg (Bool.eq_false_iff.mp (h c rfl))

theorem IsTrimmed.trim_eq (h : IsTrimmed s) : trim s = s := by
  have hLast : ∀ c ∈ s.reverse.head?, isBlank c = false := by
    rw [List.head?_reverse]
    exact h.last
  rw [trim, dropWhile_eq_self h.head, dropWhile_eq_self hLast, List.reverse_reverse]

theorem trim_append_blanks (h : AreBlank blanks) (s : List Char) :
    trim (s ++ blanks) = trim s := by
  rw [trim, trim, List.dropWhile_append]
  split
  · rename_i hAll
    rw [List.isEmpty_iff.mp hAll, List.dropWhile_eq_nil_iff.mpr h]
  · have hReverse : AreBlank blanks.reverse := fun c hc => h c (List.mem_reverse.mp hc)
    rw [List.reverse_append, List.dropWhile_append_of_pos hReverse]

theorem trim_blanks_append (h : AreBlank blanks) (s : List Char) :
    trim (blanks ++ s) = trim s := by
  rw [trim, List.dropWhile_append_of_pos h]
  rfl

theorem head?_dropWhile_isBlank (s : List Char) :
    ∀ c ∈ (s.dropWhile isBlank).head?, isBlank c = false := by
  intro c hc
  have hNot := List.head?_dropWhile_not isBlank s
  rw [Option.mem_def.mp hc] at hNot
  simpa using hNot

theorem areBlank_takeWhile (s : List Char) : AreBlank (s.takeWhile isBlank) :=
  fun _ hc => List.mem_takeWhile_imp hc

theorem exists_dropWhile_eq_trim_append (s : List Char) :
    ∃ after, AreBlank after ∧ s.dropWhile isBlank = trim s ++ after := by
  refine ⟨((s.dropWhile isBlank).reverse.takeWhile isBlank).reverse, ?_, ?_⟩
  · intro c hc
    exact areBlank_takeWhile _ c (List.mem_reverse.mp hc)
  · rw [trim, ← List.reverse_append, List.takeWhile_append_dropWhile, List.reverse_reverse]

theorem isTrimmed_trim (s : List Char) : IsTrimmed (trim s) := by
  obtain ⟨after, -, hDrop⟩ := exists_dropWhile_eq_trim_append s
  refine ⟨fun c hc => head?_dropWhile_isBlank s c ?_, ?_⟩
  · rw [hDrop, List.head?_append, Option.mem_def.mp hc]
    rfl
  · rw [trim, List.getLast?_reverse]
    exact head?_dropWhile_isBlank _

/-- Blanks around a trimmed text are what is trimmed. -/
theorem trim_eq_iff : trim s = t ↔
    IsTrimmed t ∧ ∃ before after, AreBlank before ∧ AreBlank after ∧ s = before ++ t ++ after := by
  constructor
  · rintro rfl
    obtain ⟨after, hAfter, hDrop⟩ := exists_dropWhile_eq_trim_append s
    refine ⟨isTrimmed_trim s, s.takeWhile isBlank, after, areBlank_takeWhile s, hAfter, ?_⟩
    rw [List.append_assoc, ← hDrop, List.takeWhile_append_dropWhile]
  · rintro ⟨ht, before, after, hBefore, hAfter, rfl⟩
    rw [trim_append_blanks hAfter, trim_blanks_append hBefore, ht.trim_eq]

/-! ## Lines -/

theorem trim_withoutReturn (line : List Char) : trim (withoutReturn line) = trim line := by
  unfold withoutReturn
  split
  · rename_i hReturn
    obtain ⟨s, rfl⟩ := List.getLast?_eq_some_iff.mp hReturn
    rw [List.dropLast_concat, trim_append_blanks (by decide)]
  · rfl

variable {α : Type} {f : List Char → Option α}

/-- What is not read off empty lines, and does not depend on a carriage return at the end of a line,
is read off the lines as off the pieces that they come from. -/
theorem filterMap_closeLines (hNil : f [] = none)
    (hReturn : ∀ line, f (withoutReturn line) = f line) (l : List (List Char)) :
    (closeLines l).filterMap f = l.filterMap f := by
  induction l using closeLines.induct with
  | case1 => rfl
  | case2 last hEmpty =>
    rw [closeLines, if_pos hEmpty, List.isEmpty_iff.mp hEmpty, List.filterMap_cons, hNil]
  | case3 last hEmpty => rw [closeLines, if_neg hEmpty]
  | case4 line others hNe ih =>
    rw [closeLines, List.filterMap_cons, List.filterMap_cons, hReturn, ih]
    exact hNe

/-- It is read off two texts with a line feed between them as off each by itself. -/
theorem filterMap_lines_append (hNil : f [] = none)
    (hReturn : ∀ line, f (withoutReturn line) = f line) (s t : List Char) :
    (lines (s ++ '\n' :: t)).filterMap f = (lines s).filterMap f ++ (lines t).filterMap f := by
  have hFeed : ('\n' == '\n') = true := rfl
  simp only [lines, filterMap_closeLines hNil hReturn]
  rw [pieces_append_cons (p := (· == '\n')) hFeed, List.filterMap_append]

/-- It is read off a text without line feeds as off one line. -/
theorem filterMap_lines_of_notMem (hNil : f [] = none)
    (hReturn : ∀ line, f (withoutReturn line) = f line) (hs : '\n' ∉ s) :
    (lines s).filterMap f = (f s).toList := by
  have hOther : ∀ c ∈ s, (c == '\n') = false :=
    fun c hc => beq_false_of_ne fun h => hs (h ▸ hc)
  rw [lines, pieces_eq_singleton (p := (· == '\n')) hOther, filterMap_closeLines hNil hReturn]
  cases hf : f s <;> simp [hf]

end CommandDispatch.Text
