import Mathlib.Data.List.TakeWhile
import CommandDispatch.Proofs.Source.Lexer
import CommandDispatch.Proofs.Source.StringLiteral

/-!
# Single lexemes

Names, marks, delimiters and literals are each cut off a text as one lexeme. Where a lexeme ends may
depend on the character after it, and on nothing else.

* `Edge` says what may follow a text, and `Follows` holds of what does,
* `IsName` holds of the texts that are one word,
* `cuts_name`, `cuts_mark`, `cuts_lifetime`, `cuts_opening`, `cuts_closing`, `cuts_stringLiteral`,
  `cuts_number`, `cuts_count`: each of these is cut off as one lexeme,
* `cuts_lineComment`, `cuts_innerComment`, `cuts_blockComment`: comments that document.
-/

namespace CommandDispatch.Source

open Text

/-! ## What follows -/

/-- What may follow a text without changing how the text is cut. -/
inductive Edge where
  /-- Anything. -/
  | free
  /-- Nothing that goes on with a word or makes a literal of it. -/
  | word
  /-- Nothing that goes on with a token of any kind. -/
  | token
  /-- The end of the line. -/
  | line
deriving DecidableEq

/-- The character goes on with a word, or makes a literal of it. -/
def isWordish (c : Char) : Bool :=
  isWordPart c || ['"', '\'', '#'].contains c

/-- The character goes on with a word, a number, or the slash of a comment. -/
def isTokenish (c : Char) : Bool :=
  isWordish c || ['.', '+', '-', '/', '*'].contains c

def Follows : Edge → List Char → Prop
  | .free, _ => True
  | .word, rest => ∀ c ∈ rest.head?, isWordish c = false
  | .token, rest => ∀ c ∈ rest.head?, isTokenish c = false
  | .line, rest => rest.head? = some '\n'

theorem follows_word_of_token {rest : List Char} (h : Follows .token rest) : Follows .word rest :=
  fun c hc => (Bool.or_eq_false_iff.mp (h c hc)).1

theorem takeMark_cons {c : Char} (h : c ≠ '/') (rest : List Char) :
    takeMark (c :: rest) = if markCharacters.contains c then some (c, rest) else none := by
  unfold takeMark
  split
  · rename_i hList
    exact absurd (List.cons.inj hList).1 h
  · rename_i hList
    exact absurd (List.cons.inj hList).1 h
  · rename_i hList
    cases hList
    rfl
  · rename_i hList
    cases hList

/-! ## First characters -/

theorem skipOne_eq_none {c : Char} (hSlash : c ≠ '/') (hSpace : isSpace c = false)
    (s : List Char) : skipOne (c :: s) = none := by
  have hNe : ('/' == c) = false := beq_false_of_ne hSlash.symm
  simp [skipOne, beginsLineComment, beginsBlockComment, beginsWith, List.isPrefixOf, hNe, hSpace]

theorem docComment_eq_none {c : Char} (hSlash : c ≠ '/') (s : List Char) :
    docComment (c :: s) = none := by
  have hNe : ('/' == c) = false := beq_false_of_ne hSlash.symm
  simp [docComment, beginsWith, List.isPrefixOf, hNe]

/-- A letter has no value of a decimal digit. -/
theorem hexValue?_any_eq_false {c : Char} (h : c.isDigit = false) :
    (hexValue? c).any (· < 10) = false := by
  unfold hexValue?
  rw [h]
  split
  · rename_i hFalse
    cases hFalse
  · split
    · simp
    · split <;> simp

theorem numberLiteral_eq_none {c : Char} (h : c.isDigit = false) (s : List Char) :
    numberLiteral (c :: s) = none := by
  have hFloat : floatDigits (c :: s) = none := by simp [floatDigits, h]
  have hZero : c ≠ '0' := by
    rintro rfl
    cases h
  have hDigits : digitsOfBase 10 false (c :: s) = none := by
    simp [digitsOfBase, h, hexValue?_any_eq_false h]
  have hInteger : integerDigits (c :: s) = none := by
    unfold integerDigits
    split
    · rename_i hList
      exact absurd (List.cons.inj hList).1 hZero
    · rename_i hList
      exact absurd (List.cons.inj hList).1 hZero
    · rename_i hList
      exact absurd (List.cons.inj hList).1 hZero
    · exact hDigits
  rw [numberLiteral, hFloat, hInteger]
  rfl

/-- The characters that a literal other than a number begins with. -/
def quotedStarts : List Char :=
  ['"', 'r', 'b', 'c', '\'']

theorem takeLiteral_of_notMem {c : Char} (hQuoted : c ∉ quotedStarts) (s : List Char) :
    takeLiteral (c :: s) = (numberLiteral (c :: s)).map (.number, ·) := by
  have hNe : ∀ d ∈ quotedStarts, c ≠ d := fun d hd hEq => hQuoted (hEq ▸ hd)
  rw [takeLiteral]
  all_goals
    intro _ hList
    exact hNe _ (by decide) (List.cons.inj hList).1

theorem takeLiteral_eq_none {c : Char} (hQuoted : c ∉ quotedStarts) (hDigit : c.isDigit = false)
    (s : List Char) : takeLiteral (c :: s) = none := by
  rw [takeLiteral_of_notMem hQuoted, numberLiteral_eq_none hDigit]
  rfl

/-- What holds of the ten digits holds of every digit. -/
theorem of_isDigit {p : Char → Bool}
    (h : (List.range' 48 10).all (fun n => p (Char.ofNat n)) = true) {d : Char}
    (hd : d.isDigit = true) : p d = true := by
  have hCode : d.toNat ∈ List.range' 48 10 := by
    rw [List.mem_range'_1]
    have hBounds := Char.isDigit_iff_toNat.mp hd
    exact ⟨hBounds.1, Nat.lt_succ_of_le hBounds.2⟩
  have hAt := List.all_eq_true.mp h _ hCode
  rwa [Char.ofNat_toNat] at hAt

theorem notMem_quotedStarts_of_isDigit {d : Char} (hd : d.isDigit = true) : d ∉ quotedStarts := by
  have hNone := of_isDigit (p := fun c => !quotedStarts.contains c) (by decide) hd
  simpa using hNone

/-! ## Leaves and delimiters -/

variable {φ : Prop} {rest : List Char}

/-- What a text begins with so that a token is read from it: no blank, no comment, no delimiter. -/
structure BeginsToken (c : Char) : Prop where
  ne_slash : c ≠ '/'
  isSpace_eq : isSpace c = false
  opens_eq : opens? c = none
  closes_eq : closes? c = none

theorem Cuts.leaf {c : Char} {s : List Char} {t : TokenTree} (hc : BeginsToken c)
    (h : leafToken (c :: (s ++ rest)) = some (t, rest)) : Cuts φ (c :: s) rest [.leaf t] := by
  intro level outer level' outer' r hNest hReads
  cases hNest
  refine .inl (ReadsAs.leaf (skipOne_eq_none hc.ne_slash hc.isSpace_eq _)
    (docComment_eq_none hc.ne_slash _) hc.opens_eq hc.closes_eq h ?_ hReads)
  have hLength : (s ++ rest).length = s.length + rest.length := List.length_append
  exact hLength ▸ Nat.le_add_left _ _

theorem cuts_opening {c : Char} {d : Delimiter} (h : opens? c = some d) :
    Cuts φ [c] rest [.opening d] := by
  have hc : c ≠ '/' ∧ isSpace c = false := by
    unfold opens? at h
    split at h <;> cases h <;> decide
  intro level outer level' outer' r hNest hReads
  cases hNest
  exact .inl (ReadsAs.opening (skipOne_eq_none hc.1 hc.2 _) (docComment_eq_none hc.1 _) h hReads)

theorem cuts_closing {c : Char} {d : Delimiter} (h : closes? c = some d) :
    Cuts φ [c] rest [.closing d] := by
  have hc : c ≠ '/' ∧ isSpace c = false ∧ opens? c = none := by
    unfold closes? at h
    split at h <;> cases h <;> decide
  intro level outer level' outer' r hNest hReads
  cases outer with
  | nil => cases hNest
  | cons first outer =>
    obtain ⟨opened, before⟩ := first
    rw [nest] at hNest
    split at hNest
    · rename_i hOpened
      subst hOpened
      cases hNest
      exact .inl (ReadsAs.closing (skipOne_eq_none hc.1 hc.2.1 _) (docComment_eq_none hc.1 _)
        hc.2.2 h hReads)
    · cases hNest

/-! ## Names -/

theorem ne_of_isWordPart {c d : Char} (hc : isWordPart c = true) (hd : isWordPart d = false) :
    c ≠ d := by
  rintro rfl
  rw [hc] at hd
  cases hd

theorem isWordPart_of_isWordStart {c : Char} (h : isWordStart c = true) : isWordPart c = true := by
  simp only [isWordStart, isWordPart, Bool.or_eq_true, Bool.and_eq_true, Char.isAlphanum] at h ⊢
  rcases h with (h | h) | ⟨hWide, h⟩
  · exact .inl (.inl (.inl h))
  · exact .inl (.inr h)
  · exact .inr ⟨hWide, .inl h⟩

/-- The code points of the blanks of source text. -/
def spaceCodes : List Nat :=
  (blank.flatMap fun r => List.range' r.first (r.last + 1 - r.first)) ++ [0x200e, 0x200f]

theorem toNat_mem_spaceCodes {c : Char} (h : isSpace c = true) : c.toNat ∈ spaceCodes := by
  simp only [isSpace, Bool.or_eq_true, beq_iff_eq] at h
  rw [spaceCodes, List.mem_append]
  rcases h with (h | rfl) | rfl
  · obtain ⟨r, hr, hFirst, hLast⟩ := CharSet.contains_iff.mp h
    refine .inl (List.mem_flatMap.mpr ⟨r, hr, ?_⟩)
    rw [List.mem_range'_1]
    omega
  · exact .inr (by decide)
  · exact .inr (by decide)

theorem isWordStart_eq_false {codes : List Nat}
    (hNone : codes.all (fun n => !isWordStart (Char.ofNat n)) = true) {c : Char}
    (h : c.toNat ∈ codes) : isWordStart c = false := by
  have hCode := List.all_eq_true.mp hNone _ h
  rwa [Char.ofNat_toNat, Bool.not_eq_true'] at hCode

theorem isSpace_of_isWordStart {c : Char} (h : isWordStart c = true) : isSpace c = false := by
  by_contra hSpace
  rw [Bool.not_eq_false] at hSpace
  rw [isWordStart_eq_false (by decide +kernel) (toNat_mem_spaceCodes hSpace)] at h
  cases h

theorem isDigit_of_isWordStart {c : Char} (h : isWordStart c = true) : c.isDigit = false := by
  by_contra hDigit
  rw [Bool.not_eq_false] at hDigit
  have hNone := of_isDigit (p := fun c => !isWordStart c) (by decide +kernel) hDigit
  rw [h] at hNone
  cases hNone

theorem markCharacters_contains_of_isWordStart {c : Char} (h : isWordStart c = true) :
    markCharacters.contains c = false := by
  have hNone : markCharacters.all (fun d => !isWordStart d) = true := by decide +kernel
  rw [Bool.eq_false_iff]
  intro hMem
  have hMark := List.all_eq_true.mp hNone c (List.contains_iff_mem.mp hMem)
  rw [h] at hMark
  cases hMark

theorem BeginsToken.of_isWordStart {c : Char} (h : isWordStart c = true) : BeginsToken c := by
  have hPart := isWordPart_of_isWordStart h
  refine ⟨ne_of_isWordPart hPart (by decide), isSpace_of_isWordStart h, ?_, ?_⟩
  · unfold opens?
    split <;> first | rfl | exact absurd hPart (by decide)
  · unfold closes?
    split <;> first | rfl | exact absurd hPart (by decide)

theorem markToken_of_isWordStart {c : Char} (h : isWordStart c = true) (s : List Char) :
    markToken (c :: s) = none := by
  have hSlash : c ≠ '/' := (BeginsToken.of_isWordStart h).ne_slash
  rw [markToken, takeMark_cons hSlash, markCharacters_contains_of_isWordStart h]
  rfl

/-- The text is one word, which may be a raw one. -/
def IsName (w : String) : Prop :=
  takeName w.toList = some (w, [])

instance (w : String) : Decidable (IsName w) :=
  inferInstanceAs (Decidable (takeName w.toList = some (w, [])))

/-- The text does not begin with a quote mark or a hash. -/
def IsUnquoted (s : List Char) : Prop :=
  ∀ c ∈ s.head?, c ∉ ['"', '\'', '#']

theorem isUnquoted_of_follows (h : Follows .word rest) : IsUnquoted rest := by
  intro c hc hMem
  have hWordish := h c hc
  rw [isWordish, List.contains_iff_mem.mpr hMem, Bool.or_true] at hWordish
  cases hWordish

theorem isUnquoted_cons {c : Char} (h : isWordPart c = true) (s : List Char) :
    IsUnquoted (c :: s) := by
  intro d hd hMem
  obtain rfl : c = d := Option.some.inj hd
  have hNone : ['"', '\'', '#'].all (fun d => !isWordPart d) = true := by decide +kernel
  have hPart := List.all_eq_true.mp hNone c hMem
  rw [h] at hPart
  cases hPart

theorem IsUnquoted.append {s : List Char} (hs : ∀ c ∈ s, isWordPart c = true)
    (h : Follows .word rest) : IsUnquoted (s ++ rest) := by
  cases s with
  | nil => exact isUnquoted_of_follows h
  | cons c s => exact isUnquoted_cons (hs c List.mem_cons_self) _

theorem rawString_eq_none {rules : StringRules} {s : List Char} (h : IsUnquoted s) :
    rawString rules s = none := by
  cases s with
  | nil => rfl
  | cons c s =>
    have hc := h c rfl
    simp only [List.mem_cons, List.not_mem_nil, or_false, not_or] at hc
    have hHash : (c == '#') = false := beq_false_of_ne hc.2.2
    simp only [rawString, List.takeWhile_cons, hHash, Bool.false_eq_true, if_false,
      List.length_nil, List.drop_zero]
    split
    · rename_i hList
      exact absurd (List.cons.inj hList).1 hc.1
    · rfl

/-- The marks that make a literal of a word stand at once after one or two letters. -/
structure IsPlainWord (c : Char) (s : List Char) : Prop where
  isWordStart_eq : isWordStart c = true
  isUnquoted : IsUnquoted s
  isUnquoted_tail : ∀ d t, s = d :: t → isWordPart d = true → IsUnquoted t

theorem isPlainWord_append {c : Char} {s : List Char} (hc : isWordStart c = true)
    (hs : ∀ d ∈ s, isWordPart d = true) (h : Follows .word rest) : IsPlainWord c (s ++ rest) := by
  refine ⟨hc, .append hs h, ?_⟩
  intro d t hList hPart
  cases s with
  | nil =>
    subst hList
    have hWordish := h d rfl
    rw [isWordish, hPart, Bool.true_or] at hWordish
    cases hWordish
  | cons e s =>
    obtain rfl := (List.cons.inj hList).2
    exact .append (fun x hx => hs x (List.mem_cons_of_mem e hx)) h

theorem IsPlainWord.takeLiteral_eq_none {c : Char} {s : List Char} (h : IsPlainWord c s) :
    takeLiteral (c :: s) = none := by
  have hNumber := numberLiteral_eq_none (isDigit_of_isWordStart h.isWordStart_eq) s
  have hNe : ∀ d t, s = d :: t → d ≠ '"' ∧ d ≠ '\'' := by
    rintro d t rfl
    have hd := h.isUnquoted d rfl
    simp only [List.mem_cons, List.not_mem_nil, or_false, not_or] at hd
    exact ⟨hd.1, hd.2.1⟩
  have hRaw : ∀ rules t, s = 'r' :: t → rawString rules t = none := fun rules t hs =>
    rawString_eq_none (h.isUnquoted_tail 'r' t hs (by decide))
  have hPart := isWordPart_of_isWordStart h.isWordStart_eq
  unfold takeLiteral
  rw [hNumber]
  split <;> rename_i hList
  · exact absurd (List.cons.inj hList).1 (ne_of_isWordPart hPart (by decide))
  · obtain ⟨rfl, rfl⟩ := List.cons.inj hList
    rw [rawString_eq_none h.isUnquoted]
    rfl
  · exact absurd rfl (hNe _ _ (List.cons.inj hList).2).1
  · rw [hRaw _ _ (List.cons.inj hList).2]
    rfl
  · exact absurd rfl (hNe _ _ (List.cons.inj hList).2).1
  · rw [hRaw _ _ (List.cons.inj hList).2]
    rfl
  · exact absurd rfl (hNe _ _ (List.cons.inj hList).2).2
  · exact absurd (List.cons.inj hList).1 (ne_of_isWordPart hPart (by decide))
  · rfl

theorem IsPlainWord.literalStarts_any {c : Char} {s : List Char} (h : IsPlainWord c s) :
    literalStarts.any (beginsWith (c :: s)) = false := by
  have hShape : literalStarts.all (fun start =>
      (start.toList[1]?).any (['"', '\'', '#'].contains ·) ||
        (start.toList[1]? == some 'r' && (start.toList[2]?).any (['"', '\'', '#'].contains ·))) =
      true := by decide
  rw [List.any_eq_false]
  intro start hStart hBegins
  obtain ⟨rest, hRest⟩ := exists_of_beginsWith hBegins
  have hAt : ∀ {i : Nat} {d : Char}, start.toList[i]? = some d → (c :: s)[i]? = some d := by
    intro i d hd
    rw [hRest, List.getElem?_append_left (List.getElem?_eq_some_iff.mp hd).1, hd]
  have hStartShape := List.all_eq_true.mp hShape start hStart
  rw [Bool.or_eq_true, Bool.and_eq_true, beq_iff_eq, Option.any_eq_true, Option.any_eq_true]
    at hStartShape
  rcases hStartShape with ⟨d, hd, hQuote⟩ | ⟨hRaw, d, hd, hQuote⟩
  · have hSecond : s[0]? = some d := hAt hd
    rw [← List.head?_eq_getElem?] at hSecond
    exact h.isUnquoted d hSecond (List.contains_iff_mem.mp hQuote)
  · have hSecond : s[0]? = some 'r' := hAt hRaw
    have hThird : s[1]? = some d := hAt hd
    cases s with
    | nil => cases hSecond
    | cons e t =>
      have hHead : t.head? = some d := List.head?_eq_getElem? ▸ hThird
      cases hSecond
      exact h.isUnquoted_tail 'r' t rfl (by decide) d hHead (List.contains_iff_mem.mp hQuote)

/-- A text that is one word begins like one and goes on like one. -/
theorem exists_of_takeWord {s word : List Char} (h : takeWord s = some (word, [])) :
    ∃ c t, s = c :: t ∧ isWordStart c = true ∧ (∀ d ∈ t, isWordPart d = true) ∧ word = s := by
  cases s with
  | nil => cases h
  | cons c s =>
    rw [takeWord] at h
    split at h
    · rename_i hc
      simp only [Option.some.injEq, Prod.mk.injEq] at h
      have hParts : ∀ d ∈ s, isWordPart d = true := List.dropWhile_eq_nil_iff.mp h.2
      exact ⟨c, s, rfl, hc, hParts, by rw [← h.1, List.takeWhile_eq_self_iff.mpr hParts]⟩
    · cases h

/-- What a word is taken from goes on after it. -/
theorem takeWord_takeWhile {c : Char} (hc : isWordStart c = true) (s : List Char) :
    takeWord (c :: s.takeWhile isWordPart) = some (c :: s.takeWhile isWordPart, []) := by
  have hParts : ∀ d ∈ s.takeWhile isWordPart, isWordPart d = true :=
    fun d hd => List.mem_takeWhile_imp hd
  rw [takeWord, if_pos hc, List.takeWhile_eq_self_iff.mpr hParts,
    List.dropWhile_eq_nil_iff.mpr hParts]

theorem takeWord_append {s word : List Char} (h : takeWord s = some (word, []))
    (hRest : Follows .word rest) : takeWord (s ++ rest) = some (word, rest) := by
  obtain ⟨c, t, rfl, hc, hParts, rfl⟩ := exists_of_takeWord h
  have hStop : rest.takeWhile isWordPart = [] ∧ rest.dropWhile isWordPart = rest := by
    cases rest with
    | nil => exact ⟨rfl, rfl⟩
    | cons d rest =>
      have hPart : isWordPart d = false := (Bool.or_eq_false_iff.mp (hRest d rfl)).1
      rw [List.takeWhile_cons_of_neg (by simp [hPart]),
        List.dropWhile_cons_of_neg (by simp [hPart])]
      exact ⟨rfl, rfl⟩
  rw [List.cons_append, takeWord, if_pos hc, List.takeWhile_append_of_pos hParts,
    List.dropWhile_append_of_pos hParts, hStop.1, hStop.2, List.append_nil]

/-- A name is a word, or a word after the mark of raw words. -/
theorem IsName.cases {w : String} (h : IsName w) :
    takeWord w.toList = some (w.toList, []) ∨
      ∃ s, w.toList = 'r' :: '#' :: s ∧ takeWord s = some (s, []) ∧
        rawExcluded.contains (String.ofList s) = false := by
  unfold IsName takeName at h
  split at h
  · rename_i s hList
    split at h
    · rename_i word after hWord
      split at h
      · cases h
      · rename_i hExcluded
        obtain rfl : after = [] := (Prod.mk.inj (Option.some.inj h)).2
        obtain ⟨-, -, -, -, -, rfl⟩ := exists_of_takeWord hWord
        exact .inr ⟨_, hList, hWord, Bool.eq_false_iff.mpr hExcluded⟩
    · cases h
  · obtain ⟨⟨word, after⟩, hWord, hEq⟩ := Option.map_eq_some_iff.mp h
    obtain rfl : after = [] := (Prod.mk.inj hEq).2
    obtain ⟨-, -, -, -, -, hSame⟩ := exists_of_takeWord hWord
    rw [hSame] at hWord
    exact .inl hWord

theorem takeName_append {w : String} (h : IsName w) (hRest : Follows .word rest) :
    takeName (w.toList ++ rest) = some (w, rest) := by
  rcases h.cases with hWord | ⟨s, hList, hWord, hExcluded⟩
  · obtain ⟨c, t, hList, hc, hParts, -⟩ := exists_of_takeWord hWord
    have hTake := takeWord_append hWord hRest
    rw [hList, List.cons_append] at hTake ⊢
    unfold takeName
    split
    · rename_i hRaw
      have hUnquoted := (isPlainWord_append hc hParts hRest).isUnquoted
      rw [(List.cons.inj hRaw).2] at hUnquoted
      exact absurd (hUnquoted '#' rfl) (by decide)
    · rw [hTake, ← hList]
      simp
  · rw [hList, List.cons_append, List.cons_append, takeName, takeWord_append hWord hRest]
    simp only [hExcluded, Bool.false_eq_true, if_false]
    rw [← hList, String.ofList_toList]

/-- A raw word is no raw string. -/
theorem leafToken_rawWord {c : Char} (hc : isWordPart c = true) (s : List Char) :
    leafToken ('r' :: '#' :: c :: s) =
      (takeName ('r' :: '#' :: c :: s)).map fun (word, rest) => (.word word, rest) := by
  have hQuote : c ≠ '"' := ne_of_isWordPart hc (by decide)
  have hHash : c ≠ '#' := ne_of_isWordPart hc (by decide)
  have hString : rawString plainString ('#' :: c :: s) = none := by
    have hBeq : (c == '#') = false := beq_false_of_ne hHash
    simp only [rawString, List.takeWhile_cons, hBeq, beq_self_eq_true, if_true, Bool.false_eq_true,
      if_false, List.length_cons, List.length_nil, List.drop_succ_cons, List.drop_zero]
    split
    · rename_i hList
      exact absurd (List.cons.inj hList).1 hQuote
    · rfl
  have hLiteral : takeLiteral ('r' :: '#' :: c :: s) = none := by
    rw [takeLiteral, hString, numberLiteral_eq_none (by decide)]
    rfl
  have hStarts : literalStarts.any (beginsWith ('r' :: '#' :: c :: s)) = false := by
    simp [literalStarts, beginsWith, List.isPrefixOf, hQuote.symm, hHash.symm]
  rw [leafToken, hLiteral, markToken_of_isWordStart (by decide), hStarts]
  rfl

/-- Names are cut off where they end. -/
theorem cuts_name {w : String} (h : IsName w) (hRest : Follows .word rest) :
    Cuts φ w.toList rest [.leaf (.word w)] := by
  have hTake := takeName_append h hRest
  rcases h.cases with hWord | ⟨s, hList, hWord, -⟩
  · obtain ⟨c, t, hList, hc, hParts, -⟩ := exists_of_takeWord hWord
    have hPlain := isPlainWord_append hc hParts hRest
    rw [hList, List.cons_append] at hTake
    rw [hList]
    apply Cuts.leaf (.of_isWordStart hc)
    rw [leafToken, hPlain.takeLiteral_eq_none, markToken_of_isWordStart hc,
      hPlain.literalStarts_any, hTake]
    rfl
  · obtain ⟨c, t, rfl, hc, hParts, -⟩ := exists_of_takeWord hWord
    rw [hList, List.cons_append, List.cons_append, List.cons_append] at hTake
    rw [hList]
    apply Cuts.leaf (.of_isWordStart (by decide))
    rw [List.cons_append, List.cons_append, leafToken_rawWord (isWordPart_of_isWordStart hc), hTake]
    rfl

/-! ## Marks -/

theorem BeginsToken.of_mark {c : Char} (h : markCharacters.contains c = true) (hSlash : c ≠ '/') :
    BeginsToken c := by
  have hAll : markCharacters.all (fun c =>
      !isSpace c && (opens? c).isNone && (closes? c).isNone) = true := by decide
  have hc := List.all_eq_true.mp hAll c (List.contains_iff_mem.mp h)
  simp only [Bool.and_eq_true, Bool.not_eq_true', Option.isNone_iff_eq_none] at hc
  exact ⟨hSlash, hc.1.1, hc.1.2, hc.2⟩

/-- A mark other than that of lifetimes is cut off with its neighbourhood. -/
theorem cuts_mark {c : Char} (h : markCharacters.contains c = true) (hSlash : c ≠ '/')
    (hTick : c ≠ '\'') : Cuts φ [c] rest [.leaf (.mark c (takeMark rest).isSome)] := by
  have hAll : markCharacters.all (fun c =>
      c == '\'' || !quotedStarts.contains c && !c.isDigit) = true := by decide
  have hc := List.all_eq_true.mp hAll c (List.contains_iff_mem.mp h)
  rw [beq_false_of_ne hTick, Bool.false_or, Bool.and_eq_true, Bool.not_eq_true',
    Bool.not_eq_true'] at hc
  have hQuoted : c ∉ quotedStarts := fun hMem => by
    rw [List.contains_iff_mem.mpr hMem] at hc
    cases hc.1
  apply Cuts.leaf (.of_mark h hSlash)
  rw [List.nil_append, leafToken, takeLiteral_eq_none hQuoted hc.2, markToken,
    takeMark_cons hSlash, if_pos h]
  simp [hTick]

theorem IsName.exists_cons {w : String} (h : IsName w) (hRest : Follows .word rest) :
    ∃ c t, w.toList ++ rest = c :: t ∧ isWordStart c = true ∧ t.head? ≠ some '\'' := by
  rcases h.cases with hWord | ⟨s, hList, -, -⟩
  · obtain ⟨c, t, hList, hc, hParts, -⟩ := exists_of_takeWord hWord
    refine ⟨c, t ++ rest, by rw [hList, List.cons_append], hc, ?_⟩
    intro hHead
    exact (isPlainWord_append hc hParts hRest).isUnquoted _ hHead (by decide)
  · exact ⟨'r', '#' :: (s ++ rest), by rw [hList]; rfl, by decide, by simp⟩

/-- What begins like a name is no single character, without a mark after its first letter. -/
theorem takeLiteral_tick_eq_none {c : Char} {s : List Char} (hc : isWordStart c = true)
    (hTick : s.head? ≠ some '\'') : takeLiteral ('\'' :: c :: s) = none := by
  have hSingle : singleCharacter plainString (c :: s) = none := by
    unfold singleCharacter
    split
    · rename_i hEq
      exact absurd (List.cons.inj hEq).1
        (ne_of_isWordPart (isWordPart_of_isWordStart hc) (by decide))
    · rename_i hEq
      rw [(List.cons.inj hEq).2] at hTick
      exact absurd rfl hTick
    · rfl
  rw [takeLiteral, hSingle, numberLiteral_eq_none (by decide)]
  rfl

/-- The mark of a lifetime is joined to the name after it. -/
theorem cuts_lifetime {w : String} (h : IsName w) (hRest : Follows .word rest) :
    Cuts φ ['\''] (w.toList ++ rest) [.leaf (.mark '\'' true)] := by
  have hTake := takeName_append h hRest
  have hHead : ∀ c ∈ ['\'', '#'], rest.head? ≠ some c := by
    intro c hc hHead
    exact isUnquoted_of_follows hRest c hHead (List.mem_cons_of_mem _ hc)
  have hLiteral : takeLiteral ('\'' :: (w.toList ++ rest)) = none := by
    obtain ⟨c, t, hList, hc, hTick⟩ := h.exists_cons hRest
    rw [hList]
    exact takeLiteral_tick_eq_none hc hTick
  apply Cuts.leaf (.of_mark (by decide) (by decide))
  rw [List.nil_append, leafToken, hLiteral, markToken, takeMark_cons (by decide),
    if_pos (by decide)]
  simp [hTake, hHead '\'' (by decide), hHead '#' (by decide)]

/-! ## Literals -/

theorem cuts_literal {s : List Char} {c : Char} {kind : Literal} (hc : BeginsToken c)
    (h : takeLiteral (c :: s ++ rest) = some (kind, rest)) :
    Cuts φ (c :: s) rest [.leaf (.literal kind (String.ofList (c :: s)))] := by
  apply Cuts.leaf hc
  rw [← List.cons_append, leafToken, h]
  simp only [List.length_append, Nat.add_sub_cancel, List.take_left]

theorem dropWord_of_follows (h : Follows .word rest) : dropWord rest = rest := by
  cases rest with
  | nil => rfl
  | cons c rest =>
    have hPart : isWordPart c = false := (Bool.or_eq_false_iff.mp (h c rfl)).1
    have hStart : ¬ isWordStart c = true := fun hStart => by
      rw [isWordPart_of_isWordStart hStart] at hPart
      cases hPart
    rw [dropWord, takeWord, if_neg hStart]

theorem cuts_stringLiteral (s : String) (hRest : Follows .word rest) :
    Cuts φ (stringLiteral s).toList rest [.leaf (.literal (.string s) (stringLiteral s))] := by
  have hList : (stringLiteral s).toList = '"' :: (literalBody s.toList ++ ['"']) := by
    rw [stringLiteral, String.toList_ofList]
    rfl
  have hRead := takeLiteral_stringLiteral s rest
  rw [dropWord_of_follows hRest, hList] at hRead
  have hCuts : Cuts φ _ rest _ := cuts_literal ⟨by decide, by decide, by decide, by decide⟩ hRead
  rw [← hList, String.ofList_toList] at hCuts
  exact hCuts

/-- What stands after the digits of a number without a point and without an exponent: no letter that
goes on with the number, and a point only before another one. -/
def EndsDigits (s : List Char) : Prop :=
  (∀ c ∈ s.head?, isNumberPart c = false ∧ c ∉ ['e', 'E', 'x', 'o', 'b']) ∧
    ∀ t, s = '.' :: t → t.head? = some '.'

theorem EndsDigits.isNumberPart_eq {c : Char} {s : List Char} (h : EndsDigits (c :: s)) :
    c.isDigit = false ∧ c ≠ '_' := by
  have hPart := (h.1 c rfl).1
  rw [isNumberPart, Bool.or_eq_false_iff] at hPart
  exact ⟨hPart.1, ne_of_beq_false hPart.2⟩

theorem floatDigits_eq_none {ds s : List Char} (hds : ∀ d ∈ ds, d.isDigit = true)
    (hs : EndsDigits s) : floatDigits (ds ++ s) = none := by
  have hParts : ∀ d ∈ ds, isNumberPart d = true := fun d hd => by simp [isNumberPart, hds d hd]
  have hStop : s.dropWhile isNumberPart = s := by
    cases s with
    | nil => rfl
    | cons c s => exact List.dropWhile_cons_of_neg (by simp [(hs.1 c rfl).1])
  have hDrop : (ds ++ s).dropWhile isNumberPart = s := by
    rw [List.dropWhile_append_of_pos hParts, hStop]
  have hPoint : ∀ t, s = '.' :: t → t.head?.any (fun c => c == '.' || isWordStart c) = true := by
    intro t ht
    rw [hs.2 t ht]
    rfl
  have hLetter : ∀ c t, s = c :: t → c ≠ 'e' ∧ c ≠ 'E' := by
    rintro c t rfl
    have hc := (hs.1 c rfl).2
    exact ⟨fun h => hc (by simp [h]), fun h => hc (by simp [h])⟩
  have hAfter : afterDigits s = none := by
    unfold afterDigits
    split
    · rw [if_pos (hPoint _ rfl)]
    · rw [if_neg (by simp [hLetter _ _ rfl])]
    · rfl
  unfold floatDigits
  rw [hDrop, hAfter]
  split <;> [rfl; split <;> rfl]

theorem digitsOfBase_cons {d : Char} (hd : d.isDigit = true) (seen : Bool) (s : List Char) :
    digitsOfBase 10 seen (d :: s) = digitsOfBase 10 true s := by
  have hSmall : d.toNat - '0'.toNat < 10 := by
    have hCode := (Char.isDigit_iff_toNat.mp hd).2
    have hZero : '0'.toNat = 48 := rfl
    have hNine : '9'.toNat = 57 := rfl
    omega
  rw [digitsOfBase, if_pos hd, if_pos hSmall]

theorem digitsOfBase_append {ds s : List Char} (hds : ∀ d ∈ ds, d.isDigit = true)
    (hs : EndsDigits s) : digitsOfBase 10 true (ds ++ s) = some s := by
  induction ds with
  | nil =>
    cases s with
    | nil => rfl
    | cons c s =>
      obtain ⟨hDigit, hUnderscore⟩ := hs.isNumberPart_eq
      rw [List.nil_append, digitsOfBase, hDigit, hexValue?_any_eq_false hDigit]
      simp [hUnderscore]
  | cons d ds ih =>
    rw [List.cons_append, digitsOfBase_cons (hds d List.mem_cons_self)]
    exact ih fun x hx => hds x (List.mem_cons_of_mem d hx)

theorem integerDigits_append {d : Char} {ds s : List Char} (hd : d.isDigit = true)
    (hds : ∀ d ∈ ds, d.isDigit = true) (hs : EndsDigits s) :
    integerDigits (d :: ds ++ s) = some s := by
  have hSecond : ∀ c t, ds ++ s = c :: t → c ∉ ['x', 'o', 'b'] := by
    intro c t hList hMem
    cases ds with
    | nil =>
      rw [List.nil_append] at hList
      subst hList
      exact (hs.1 c rfl).2 (List.mem_cons_of_mem _ (List.mem_cons_of_mem _ hMem))
    | cons e ds =>
      have hDigit := hds e List.mem_cons_self
      rw [(List.cons.inj hList).1] at hDigit
      have hNone : ['x', 'o', 'b'].all (fun c => !c.isDigit) = true := by decide
      have hc := List.all_eq_true.mp hNone c hMem
      rw [hDigit] at hc
      cases hc
  unfold integerDigits
  split <;> rename_i hList
  · exact absurd (hSecond _ _ (List.cons.inj hList).2) (by decide)
  · exact absurd (hSecond _ _ (List.cons.inj hList).2) (by decide)
  · exact absurd (hSecond _ _ (List.cons.inj hList).2) (by decide)
  · rw [List.cons_append, digitsOfBase_cons hd, digitsOfBase_append hds hs]

/-- A number is cut off with its suffix. -/
theorem cuts_number {d : Char} {ds suffix : List Char} (hd : d.isDigit = true)
    (hds : ∀ d ∈ ds, d.isDigit = true) (hEnds : EndsDigits (suffix ++ rest))
    (hSuffix : numberEnd (suffix ++ rest) = some rest) :
    Cuts φ (d :: (ds ++ suffix)) rest
      [.leaf (.literal .number (String.ofList (d :: (ds ++ suffix))))] := by
  have hAll : ∀ x ∈ d :: ds, x.isDigit = true := List.forall_mem_cons.mpr ⟨hd, hds⟩
  have hBegins : BeginsToken d := by
    have hAll := of_isDigit (p := fun c =>
      c != '/' && !isSpace c && (opens? c).isNone && (closes? c).isNone) (by decide) hd
    simp only [Bool.and_eq_true, Bool.not_eq_true', Option.isNone_iff_eq_none, bne_iff_ne] at hAll
    exact ⟨hAll.1.1.1, hAll.1.1.2, hAll.1.2, hAll.2⟩
  have hQuoted : d ∉ quotedStarts := notMem_quotedStarts_of_isDigit hd
  have hNumber : numberLiteral (d :: ds ++ (suffix ++ rest)) = some rest := by
    rw [numberLiteral, floatDigits_eq_none hAll hEnds, integerDigits_append hd hds hEnds]
    exact hSuffix
  apply cuts_literal hBegins
  rw [List.cons_append, List.append_assoc, takeLiteral_of_notMem hQuoted]
  exact congrArg _ hNumber

theorem endsDigits_cons {c : Char} {s : List Char} (hPart : isNumberPart c = false)
    (hLetter : c ∉ ['e', 'E', 'x', 'o', 'b']) (hPoint : c ≠ '.') : EndsDigits (c :: s) := by
  refine ⟨?_, fun t ht => absurd (List.cons.inj ht).1 hPoint⟩
  intro d hd
  obtain rfl : c = d := Option.some.inj hd
  exact ⟨hPart, hLetter⟩

/-- A number of positions is cut off with its suffix. -/
theorem cuts_count (n : Nat) (hRest : Follows .word rest) :
    Cuts φ (toString n ++ "usize").toList rest
      [.leaf (.literal .number (toString n ++ "usize"))] := by
  have hDigits : (toString n ++ "usize").toList = Nat.toDigits 10 n ++ "usize".toList := by
    rw [String.toList_append, Nat.toString_eq_ofList_toDigits, String.toList_ofList]
  obtain ⟨d, ds, hList⟩ := List.exists_cons_of_ne_nil
    (List.ne_nil_of_length_pos (Nat.length_toDigits_pos (b := 10) (n := n)))
  have hAll : ∀ x ∈ d :: ds, x.isDigit = true := fun x hx =>
    Nat.isDigit_of_mem_toDigits (by decide) (by decide) (hList ▸ hx)
  obtain ⟨hd, hds⟩ := List.forall_mem_cons.mp hAll
  have hSuffix : numberEnd ("usize".toList ++ rest) = some rest := by
    have hWord : takeWord "usize".toList = some ("usize".toList, []) := by decide
    have hEnds : wordEnds rest = true := by
      cases rest with
      | nil => rfl
      | cons c rest => simp [wordEnds, (Bool.or_eq_false_iff.mp (hRest c rfl)).1]
    rw [numberEnd, dropWord, takeWord_append hWord hRest]
    exact if_pos hEnds
  have hCuts : Cuts φ _ rest _ := cuts_number hd hds
    (endsDigits_cons (by decide) (by decide) (by decide)) hSuffix
  rw [← List.cons_append, ← hList, ← hDigits, String.ofList_toList] at hCuts
  exact hCuts

/-! ## Comments that document -/

theorem restOfLine_append {s : List Char} (hLine : '\n' ∉ s) (hReturn : s.getLast? ≠ some '\r')
    (hRest : Follows .line rest) : restOfLine (s ++ rest) = (s, rest) := by
  induction s with
  | nil =>
    obtain ⟨t, rfl⟩ := List.head?_eq_some_iff.mp hRest
    rfl
  | cons c s ih =>
    rw [List.mem_cons, not_or] at hLine
    have hEnd : s.getLast? ≠ some '\r' := fun h => hReturn (by rw [List.getLast?_cons, h]; rfl)
    rw [List.cons_append, restOfLine, ih hLine.2 hEnd]
    · rintro t rfl hList
      cases s with
      | nil => exact hReturn rfl
      | cons d s => exact hLine.2 ((List.cons.inj hList).1 ▸ List.mem_cons_self)
    · exact fun h => hLine.1 h.symm

theorem getLast?_ne_of_notMem {c : Char} {s : List Char} (h : c ∉ s) : s.getLast? ≠ some c :=
  fun hLast => h (List.mem_of_getLast? hLast)

theorem noBareReturn_of_notMem {s : List Char} (h : '\r' ∉ s) : noBareReturn s = true := by
  induction s with
  | nil => rfl
  | cons c s ih =>
    rw [List.mem_cons, not_or] at h
    rw [noBareReturn]
    · exact ih h.2
    · exact fun _ hc _ => h.1 hc.symm
    · exact fun hc => h.1 hc.symm

theorem Cuts.comment {s text : List Char} {inner : Bool} (hNe : s ≠ [])
    (hSkip : skipOne (s ++ rest) = none)
    (hDoc : docComment (s ++ rest) = some (inner, text, rest)) :
    Cuts φ s rest ((docAttribute inner text).map .leaf) := by
  intro level outer level' outer' r hNest hReads
  have hLeaves : nest ((docAttribute inner text).map .leaf) level outer =
      some ((docAttribute inner text).reverse ++ level, outer) := by
    cases inner <;> rfl
  rw [hLeaves] at hNest
  cases hNest
  have hLength : rest.length < (s ++ rest).length := by
    have hPositive := List.length_pos_of_ne_nil hNe
    rw [List.length_append]
    omega
  exact .inl (ReadsAs.comment hSkip hDoc hLength hReads)

theorem isSpace_slash : isSpace '/' = false := by
  decide

/-- The slash of a comment is no token. -/
theorem leafToken_comment {c : Char} (hc : c = '/' ∨ c = '*') (s : List Char) :
    leafToken ('/' :: c :: s) = none := by
  have hMark : takeMark ('/' :: c :: s) = none := by
    rcases hc with rfl | rfl <;> rfl
  have hStarts : literalStarts.all (fun start => start.toList.head? != some '/') = true := by decide
  have hLiteral : literalStarts.any (beginsWith ('/' :: c :: s)) = false := by
    rw [List.any_eq_false]
    intro start hStart hBegins
    obtain ⟨rest, hRest⟩ := exists_of_beginsWith hBegins
    have hHead := List.all_eq_true.mp hStarts start hStart
    cases hList : start.toList with
    | nil =>
      have hNone : literalStarts.all (fun start => !start.toList.isEmpty) = true := by decide
      have hNe := List.all_eq_true.mp hNone start hStart
      rw [hList] at hNe
      cases hNe
    | cons d t =>
      rw [hList] at hRest hHead
      rw [← (List.cons.inj hRest).1] at hHead
      cases hHead
  have hName : takeName ('/' :: c :: s) = none := rfl
  rw [leafToken, takeLiteral_eq_none (by decide) (by decide), markToken, hMark]
  simp [hLiteral, hName]

/-- Nothing is read from a comment that documents if it has a bare carriage return. -/
theorem Cuts.of_bareReturn {c : Char} {s : List Char} {ls : List Lexeme} (hφ : φ)
    (hc : c = '/' ∨ c = '*') (hSkip : skipOne ('/' :: c :: (s ++ rest)) = none)
    (hDoc : docComment ('/' :: c :: (s ++ rest)) = none) : Cuts φ ('/' :: c :: s) rest ls :=
  .of_not_read hφ fun _ _ => ReadsAs.stuck hSkip hDoc rfl rfl (leafToken_comment hc _)

/-- A comment that documents is cut off as its attribute, unless it has a bare carriage return. -/
theorem Cuts.documentation {c : Char} {s text : List Char} (hc : c = '/' ∨ c = '*')
    (hReturn : ¬ φ → noBareReturn text = true)
    (hSkip : skipOne ('/' :: c :: (s ++ rest)) = none)
    (hDoc : docComment ('/' :: c :: (s ++ rest)) =
      if noBareReturn text then some (false, text, rest) else none) :
    Cuts φ ('/' :: c :: s) rest ((docAttribute false text).map .leaf) := by
  cases hBare : noBareReturn text with
  | true =>
    rw [hBare, if_pos rfl] at hDoc
    exact Cuts.comment (List.cons_ne_nil _ _) hSkip hDoc
  | false =>
    rw [hBare, if_neg Bool.false_ne_true] at hDoc
    have hφ : φ := by
      by_contra hNot
      rw [hReturn hNot] at hBare
      cases hBare
    exact .of_bareReturn hφ hc hSkip hDoc

/-- What is read of a line of documentation. -/
theorem docComment_line {text : List Char} (hSlash : text.head? ≠ some '/') (hLine : '\n' ∉ text)
    (hReturn : text.getLast? ≠ some '\r') (hRest : Follows .line rest) :
    skipOne ('/' :: '/' :: ('/' :: text ++ rest)) = none ∧
      docComment ('/' :: '/' :: ('/' :: text ++ rest)) =
        if noBareReturn text then some (false, text, rest) else none := by
  have hFirst : ¬ ['/'] <+: text ++ rest := by
    rintro ⟨t, ht⟩
    cases text with
    | nil =>
      have hHead : rest.head? = some '/' := by rw [← List.nil_append rest, ← ht]; rfl
      rw [hRest] at hHead
      exact absurd hHead (by decide)
    | cons c text => exact hSlash (by rw [← (List.cons.inj ht).1]; rfl)
  have hRead := restOfLine_append hLine hReturn hRest
  constructor
  · simp [skipOne, beginsLineComment, beginsBlockComment, beginsWith, hFirst, isSpace_slash]
  · simp [docComment, beginsWith, hFirst, hRead]

/-- A line of documentation is cut off at the end of the line. -/
theorem cuts_lineComment {text : List Char} (hSlash : text.head? ≠ some '/') (hLine : '\n' ∉ text)
    (hEnd : text.getLast? ≠ some '\r') (hReturn : ¬ φ → noBareReturn text = true)
    (hRest : Follows .line rest) :
    Cuts φ ('/' :: '/' :: '/' :: text) rest ((docAttribute false text).map .leaf) := by
  obtain ⟨hSkip, hDoc⟩ := docComment_line hSlash hLine hEnd hRest
  exact .documentation (.inl rfl) hReturn hSkip hDoc

/-- So is a line that documents what encloses it. -/
theorem cuts_innerComment {text : List Char} (hLine : '\n' ∉ text) (hReturn : '\r' ∉ text)
    (hRest : Follows .line rest) :
    Cuts φ ('/' :: '/' :: '!' :: text) rest ((docAttribute true text).map .leaf) := by
  have hRead := restOfLine_append hLine (getLast?_ne_of_notMem hReturn) hRest
  have hNoReturn := noBareReturn_of_notMem hReturn
  refine Cuts.comment (List.cons_ne_nil _ _) ?_ ?_
  · simp [skipOne, beginsLineComment, beginsBlockComment, beginsWith, isSpace_slash]
  · simp [docComment, beginsWith, hRead, hNoReturn]

/-- A block comment is cut off where its inside ends. -/
theorem cuts_blockComment {text : List Char} (hHead : ∀ c ∈ text.head?, c ∉ ['*', '/'])
    (hNe : text ≠ [])
    (hRead : blockComment 1 [] ('*' :: (text ++ '*' :: '/' :: rest)) = some ('*' :: text, rest))
    (hReturn : ¬ φ → noBareReturn text = true) :
    Cuts φ ('/' :: '*' :: '*' :: (text ++ ['*', '/'])) rest
      ((docAttribute false text).map .leaf) := by
  obtain ⟨c, t, rfl⟩ := List.exists_cons_of_ne_nil hNe
  have hc := hHead c rfl
  simp only [List.mem_cons, List.not_mem_nil, or_false, not_or] at hc
  have hStar : ¬ '*' = c := fun h => hc.1 h.symm
  have hSlash : ¬ '/' = c := fun h => hc.2 h.symm
  rw [List.cons_append] at hRead
  have hSkip : skipOne ('/' :: '*' :: ('*' :: (c :: t ++ ['*', '/']) ++ rest)) = none := by
    simp [skipOne, beginsLineComment, beginsBlockComment, beginsWith, isSpace_slash, hStar, hSlash]
  have hDoc : docComment ('/' :: '*' :: ('*' :: (c :: t ++ ['*', '/']) ++ rest)) =
      if noBareReturn (c :: t) then some (false, c :: t, rest) else none := by
    simp [docComment, beginsWith, hStar, hRead]
  exact .documentation (.inr rfl) hReturn hSkip hDoc

end CommandDispatch.Source
