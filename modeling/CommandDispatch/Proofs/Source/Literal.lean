import CommandDispatch.Proofs.Source.Lexeme

/-!
# Literals are read back

A literal is read up to its end, whatever stands there, as long as that does not go on with a word
or a number. So a literal that was read somewhere is read again as the same where it is written.

* `IsBody`, `stringBody_append`: the inside of a string, one lemma for each step in it,
* `rawString_append`, `singleCharacter_append`: other literals in quote marks,
* `numberLiteral_append`: numbers,
* `Opens`, `takeLiteral_append`: any literal, by the mark that opens it.
-/

namespace CommandDispatch.Source

variable {rules : StringRules} {s rest : List Char}

/-! ## Escapes -/

theorem codePointDigits_append {value digits : Nat} {c : Char}
    (h : codePointDigits value digits s = some (c, rest)) :
    ∃ u, s = u ++ rest ∧ ∀ rest', codePointDigits value digits (u ++ rest') = some (c, rest') := by
  fun_induction codePointDigits value digits s with
  | case1 => cases h
  | case2 value digits d s hUnderscore ih =>
    obtain ⟨u, rfl, hu⟩ := ih h
    refine ⟨d :: u, rfl, fun rest' => ?_⟩
    rw [List.cons_append, codePointDigits, if_pos hUnderscore, hu]
  | case3 value digits d s hUnderscore hBrace =>
    obtain ⟨c, hChar, hEq⟩ := Option.map_eq_some_iff.mp h
    cases hEq
    refine ⟨[d], rfl, fun rest' => ?_⟩
    rw [List.cons_append, codePointDigits, if_neg hUnderscore, if_pos hBrace, hChar]
    rfl
  | case4 => cases h
  | case5 value digits d s hUnderscore hBrace hSix x hx ih =>
    obtain ⟨u, rfl, hu⟩ := ih h
    refine ⟨d :: u, rfl, fun rest' => ?_⟩
    rw [List.cons_append, codePointDigits, if_neg hUnderscore, if_neg hBrace, if_neg hSix, hx]
    exact hu rest'
  | case6 => cases h

theorem hexEscape_append {high low c : Char}
    (h : escapeSequence rules ('x' :: high :: low :: s) = some (c, rest)) :
    s = rest ∧ ∀ rest', escapeSequence rules ('x' :: high :: low :: rest') = some (c, rest') := by
  simp only [escapeSequence, Option.bind_eq_bind, Option.bind_eq_some_iff] at h
  obtain ⟨x, hx, y, hy, hValue⟩ := h
  split at hValue
  · rename_i hAllowed
    cases hValue
    refine ⟨rfl, fun rest' => ?_⟩
    simp only [escapeSequence, hx, hy, Option.bind_eq_bind, Option.bind_some]
    rw [if_pos hAllowed]
  · cases hValue

theorem codePointEscape_append {c : Char}
    (h : escapeSequence rules ('u' :: '\x7b' :: s) = some (c, rest)) :
    ∃ u, s = u ++ rest ∧
      ∀ rest', escapeSequence rules ('u' :: '\x7b' :: (u ++ rest')) = some (c, rest') := by
  cases hWide : rules.wide with
  | false =>
    simp only [escapeSequence, hWide] at h
    cases h
  | true =>
    simp only [escapeSequence, hWide, if_true] at h
    obtain ⟨⟨d, after⟩, hDigits, hValue⟩ := Option.bind_eq_some_iff.mp h
    dsimp only at hValue
    split at hValue
    · rename_i hAllowed
      cases hValue
      obtain ⟨u, rfl, hu⟩ := codePointDigits_append hDigits
      refine ⟨u, rfl, fun rest' => ?_⟩
      simp only [escapeSequence, hWide, if_true, hu, Option.bind_eq_bind, Option.bind_some]
      rw [if_pos hAllowed]
    · cases hValue

theorem escapeSequence_append {c : Char} (h : escapeSequence rules s = some (c, rest)) :
    ∃ u, u ≠ [] ∧ s = u ++ rest ∧
      ∀ rest', escapeSequence rules (u ++ rest') = some (c, rest') := by
  unfold escapeSequence at h
  split at h
  · cases h
    exact ⟨['n'], List.cons_ne_nil _ _, rfl, fun _ => rfl⟩
  · cases h
    exact ⟨['r'], List.cons_ne_nil _ _, rfl, fun _ => rfl⟩
  · cases h
    exact ⟨['t'], List.cons_ne_nil _ _, rfl, fun _ => rfl⟩
  · cases h
    exact ⟨['\\'], List.cons_ne_nil _ _, rfl, fun _ => rfl⟩
  · cases h
    exact ⟨['\''], List.cons_ne_nil _ _, rfl, fun _ => rfl⟩
  · cases h
    exact ⟨['"'], List.cons_ne_nil _ _, rfl, fun _ => rfl⟩
  · split at h
    · rename_i hNul
      cases h
      exact ⟨['0'], List.cons_ne_nil _ _, rfl, fun _ => by simp [escapeSequence, hNul]⟩
    · cases h
  · rename_i high low s
    obtain ⟨rfl, hRead⟩ := hexEscape_append h
    exact ⟨['x', high, low], List.cons_ne_nil _ _, rfl, hRead⟩
  · obtain ⟨u, rfl, hRead⟩ := codePointEscape_append h
    exact ⟨'u' :: '\x7b' :: u, List.cons_ne_nil _ _, rfl, hRead⟩
  · cases h

/-! ## Strings -/

/-- The blanks that are skipped do not depend on what follows the character after them. -/
theorem skipLineStart_append {t : List Char} (h : skipLineStart s = some t) :
    ∃ u, s = u ++ t ∧ ∀ t', t'.head? = t.head? → skipLineStart (u ++ t') = some t' := by
  fun_induction skipLineStart s with
  | case1 s ih =>
    obtain ⟨u, rfl, hu⟩ := ih h
    exact ⟨'\r' :: '\n' :: u, rfl, hu⟩
  | case2 => cases h
  | case3 c s hPair hReturn hBlank ih =>
    obtain ⟨u, rfl, hu⟩ := ih h
    refine ⟨c :: u, rfl, fun t' ht' => ?_⟩
    rw [List.cons_append, skipLineStart, if_pos hBlank]
    · exact hu t' ht'
    · rintro v rfl hList
      exact hReturn rfl
    · exact hReturn
  | case4 c s hPair hReturn hBlank =>
    cases h
    refine ⟨[], rfl, fun t' ht' => ?_⟩
    obtain ⟨v, rfl⟩ := List.head?_eq_some_iff.mp ht'
    rw [List.nil_append, skipLineStart, if_neg hBlank]
    · rintro w rfl hList
      exact hReturn rfl
    · exact hReturn
  | case5 => cases h

theorem head?_append_of_ne_nil {u t t' : List Char} (h : u ≠ []) :
    (u ++ t).head? = (u ++ t').head? := by
  rw [List.head?_append_of_ne_nil u h, List.head?_append_of_ne_nil u h]

/-- Wherever this text stands inside a string, it is read to the end of the string: with what was
read before, the string has the value `v`. Each step reads at least one character, so that no more
steps than characters are needed. -/
structure IsBody (rules : StringRules) (value u v : List Char) : Prop where
  ne_nil : u ≠ []
  stringBody_eq : ∀ rest steps, u.length ≤ steps →
    stringBody rules steps value (u ++ rest) = some (v, rest)

theorem IsBody.close (value : List Char) : IsBody rules value ['"'] value.reverse where
  ne_nil := List.cons_ne_nil _ _
  stringBody_eq := by
    intro rest steps hSteps
    obtain ⟨n, rfl⟩ := Nat.exists_eq_succ_of_ne_zero (Nat.one_le_iff_ne_zero.mp hSteps)
    rfl

/-- What one step reads may stand in front. -/
theorem IsBody.of_step {value value' w u v : List Char} (h : IsBody rules value' u v) (hNe : w ≠ [])
    (hStep : ∀ steps rest, stringBody rules (steps + 1) value (w ++ (u ++ rest)) =
      stringBody rules steps value' (u ++ rest)) :
    IsBody rules value (w ++ u) v where
  ne_nil := List.append_ne_nil_of_left_ne_nil hNe u
  stringBody_eq := by
    intro rest steps hSteps
    have hLength := List.length_pos_of_ne_nil hNe
    rw [List.length_append] at hSteps
    obtain ⟨n, rfl⟩ := Nat.exists_eq_succ_of_ne_zero (by omega : steps ≠ 0)
    rw [List.append_assoc, hStep]
    exact h.stringBody_eq rest n (by omega)

theorem stringBody_lineStart {t : List Char} (h : t.head? = some '\n' ∨ t.head? = some '\r')
    (steps : Nat) (value : List Char) : stringBody rules (steps + 1) value ('\\' :: t) =
      (skipLineStart t).bind (stringBody rules steps value) := by
  rcases h with hLine | hReturn
  · obtain ⟨t, rfl⟩ := List.head?_eq_some_iff.mp hLine
    rfl
  · obtain ⟨t, rfl⟩ := List.head?_eq_some_iff.mp hReturn
    rfl

/-- A backslash at the end of a line may stand in front, with the blanks that it skips. -/
theorem IsBody.lineStart {value u v t : List Char} (h : IsBody rules value u v)
    (hMark : t.head? = some '\n' ∨ t.head? = some '\r') (hSkip : skipLineStart t = some (u ++ rest)) :
    ∃ w, '\\' :: t = w ++ rest ∧ IsBody rules value w v := by
  obtain ⟨b, rfl, hb⟩ := skipLineStart_append hSkip
  refine ⟨'\\' :: b ++ u, by simp, h.of_step (List.cons_ne_nil _ _) fun steps rest' => ?_⟩
  have hHead : (b ++ (u ++ rest')).head? = (b ++ (u ++ rest)).head? := by
    rw [← List.append_assoc, ← List.append_assoc]
    exact head?_append_of_ne_nil (List.append_ne_nil_of_right_ne_nil b h.ne_nil)
  rw [List.cons_append, stringBody_lineStart (by rwa [hHead]),
    hb _ (head?_append_of_ne_nil h.ne_nil), Option.bind_some]

/-- An escape may stand in front of what is read after its character. -/
theorem IsBody.escape {value u v t : List Char} {c : Char} (h : IsBody rules (c :: value) u v)
    (hLine : ∀ t', t ≠ '\n' :: t') (hReturn : ∀ t', t ≠ '\r' :: t')
    (hEscape : escapeSequence rules t = some (c, u ++ rest)) :
    ∃ w, '\\' :: t = w ++ rest ∧ IsBody rules value w v := by
  obtain ⟨w, hNe, rfl, hw⟩ := escapeSequence_append hEscape
  obtain ⟨d, w, rfl⟩ := List.exists_cons_of_ne_nil hNe
  refine ⟨'\\' :: (d :: w) ++ u, by simp, h.of_step (List.cons_ne_nil _ _) fun steps rest' => ?_⟩
  refine stringBody_escape ?_ ?_ (hw (u ++ rest')) steps value
  · rintro rfl
    exact hLine _ rfl
  · rintro rfl
    exact hReturn _ rfl

/-- The inside of a string is read up to the mark that closes it. -/
theorem stringBody_append {steps : Nat} {value v : List Char}
    (h : stringBody rules steps value s = some (v, rest)) :
    ∃ u, s = u ++ rest ∧ IsBody rules value u v := by
  induction steps generalizing value s with
  | zero => cases h
  | succ steps ih =>
    unfold stringBody at h
    split at h
    · cases h
      exact ⟨['"'], rfl, .close value⟩
    · obtain ⟨u, rfl, hu⟩ := ih h
      exact ⟨['\r', '\n'] ++ u, rfl, hu.of_step (List.cons_ne_nil _ _) fun _ _ => rfl⟩
    · cases h
    · obtain ⟨after, hSkip, hBody⟩ := Option.bind_eq_some_iff.mp h
      obtain ⟨u, rfl, hu⟩ := ih hBody
      exact hu.lineStart (.inl rfl) hSkip
    · obtain ⟨after, hSkip, hBody⟩ := Option.bind_eq_some_iff.mp h
      obtain ⟨u, rfl, hu⟩ := ih hBody
      exact hu.lineStart (.inr rfl) hSkip
    · rename_i t hLine hReturn
      obtain ⟨⟨c, after⟩, hEscape, hBody⟩ := Option.bind_eq_some_iff.mp h
      obtain ⟨u, rfl, hu⟩ := ih hBody
      exact hu.escape hLine hReturn hEscape
    · rename_i c t hQuote hPair hReturn hLine hLineReturn hBackslash
      split at h
      · rename_i hAllowed
        obtain ⟨u, rfl, hu⟩ := ih h
        exact ⟨[c] ++ u, rfl, hu.of_step (List.cons_ne_nil _ _) fun steps rest' =>
          stringBody_visible hQuote hBackslash hReturn hAllowed steps value (u ++ rest')⟩
      · cases h
    · cases h

theorem cookedString_append {v : List Char} (h : cookedString rules s = some (v, rest)) :
    ∃ u, s = u ++ rest ∧ ∀ rest', cookedString rules (u ++ rest') = some (v, rest') := by
  obtain ⟨u, rfl, hu⟩ := stringBody_append h
  refine ⟨u, rfl, fun rest' => hu.stringBody_eq rest' _ ?_⟩
  rw [List.length_append]
  omega

/-! ## Raw strings -/

theorem rawBody_append {hashes : Nat} {value v : List Char}
    (h : rawBody rules hashes value s = some (v, rest)) :
    ∃ u, hashes < u.length ∧ s = u ++ rest ∧
      ∀ rest', rawBody rules hashes value (u ++ rest') = some (v, rest') := by
  fun_induction rawBody rules hashes value s with
  | case1 => cases h
  | case2 value s ih =>
    obtain ⟨u, hLength, rfl, hu⟩ := ih h
    exact ⟨'\r' :: '\n' :: u, by simp; omega, rfl, hu⟩
  | case3 => cases h
  | case4 value c s hPair hReturn hCloses =>
    cases h
    rw [Bool.and_eq_true, decide_eq_true_iff] at hCloses
    obtain ⟨rfl, hHashes⟩ := hCloses
    obtain ⟨t, ht⟩ := List.isPrefixOf_iff_prefix.mp hHashes
    refine ⟨'"' :: List.replicate hashes '#', by simp, ?_, fun rest' => ?_⟩
    · rw [← ht]
      simp
    · rw [List.cons_append, rawBody]
      · simp
      · simp
      · simp
  | case5 value c s hPair hReturn hCloses hAllowed ih =>
    obtain ⟨u, hLength, rfl, hu⟩ := ih h
    refine ⟨c :: u, by simp; omega, rfl, fun rest' => ?_⟩
    -- The hashes that would close the string here would have closed it before.
    have hOpen : ¬ (decide (c = '"') && (List.replicate hashes '#').isPrefixOf (u ++ rest')) =
        true := by
      rw [Bool.and_eq_true, List.isPrefixOf_iff_prefix] at hCloses ⊢
      rintro ⟨hQuote, hHashes⟩
      refine hCloses ⟨hQuote, ?_⟩
      have hInside : List.replicate hashes '#' <+: u :=
        List.prefix_of_prefix_length_le hHashes (List.prefix_append u rest') (by simp; omega)
      exact hInside.trans (List.prefix_append u rest)
    rw [List.cons_append, rawBody, if_neg hOpen, if_pos hAllowed]
    · exact hu rest'
    · exact fun _ hc _ => hReturn hc
    · exact hReturn
  | case6 => cases h

theorem rawString_hashes {hashes : List Char} (h : ∀ c ∈ hashes, (c == '#') = true)
    (t : List Char) : rawString rules (hashes ++ '"' :: t) =
      if hashes.length ≤ 255 then rawBody rules hashes.length [] t else none := by
  have hTake : (hashes ++ '"' :: t).takeWhile (· == '#') = hashes := by
    rw [List.takeWhile_append_of_pos h]
    simp
  rw [rawString, hTake, List.drop_left]
  rfl

theorem rawString_append {v : List Char} (h : rawString rules s = some (v, rest)) :
    ∃ u, s = u ++ rest ∧ ∀ rest', rawString rules (u ++ rest') = some (v, rest') := by
  rw [rawString] at h
  split at h
  · rename_i t hOpens
    split at h
    · rename_i hHashes
      obtain ⟨u, -, rfl, hu⟩ := rawBody_append h
      have hAll : ∀ c ∈ s.takeWhile (· == '#'), (c == '#') = true := by
        intro c hc
        exact List.mem_takeWhile_imp (p := (· == '#')) hc
      have hSplit : s = s.takeWhile (· == '#') ++ '"' :: (u ++ rest) := by
        have hPrefix :=
          List.prefix_iff_eq_append.mp (List.takeWhile_prefix (p := (· == '#')) (l := s))
        rw [hOpens] at hPrefix
        exact hPrefix.symm
      refine ⟨s.takeWhile (· == '#') ++ '"' :: u, ?_, fun rest' => ?_⟩
      · rwa [List.append_assoc, List.cons_append]
      · rw [List.append_assoc, List.cons_append, rawString_hashes hAll, if_pos hHashes, hu]
    · cases h
  · cases h

/-! ## Single characters -/

theorem singleCharacter_append (h : singleCharacter rules s = some rest) :
    ∃ u, s = u ++ rest ∧ ∀ rest', singleCharacter rules (u ++ rest') = some rest' := by
  unfold singleCharacter at h
  split at h
  · obtain ⟨⟨c, after⟩, hEscape, hCloses⟩ := Option.bind_eq_some_iff.mp h
    obtain ⟨u, -, rfl, hu⟩ := escapeSequence_append hEscape
    split at hCloses
    · rename_i d t hEq
      cases hEq
      cases hCloses
      refine ⟨'\\' :: (u ++ ['\'']), by simp, fun rest' => ?_⟩
      rw [List.cons_append, List.append_assoc, singleCharacter, hu]
      rfl
    · cases hCloses
  · rename_i c t hBackslash
    split at h
    · rename_i hAllowed
      cases h
      refine ⟨[c, '\''], rfl, fun rest' => ?_⟩
      rw [List.cons_append, List.cons_append, singleCharacter]
      · exact if_pos hAllowed
      · exact hBackslash
    · cases h
  · cases h

/-! ## Where texts stop -/

/-- The text does not go on with a character of this kind. -/
def Stops (p : Char → Bool) (s : List Char) : Prop :=
  ∀ c ∈ s.head?, p c = false

theorem Stops.imp {p q : Char → Bool} (h : Stops p s) (hpq : ∀ c, q c = true → p c = true) :
    Stops q s := by
  intro c hc
  by_contra hq
  rw [Bool.not_eq_false] at hq
  have hp := h c hc
  rw [hpq c hq] at hp
  cases hp

theorem stops_dropWhile (p : Char → Bool) (s : List Char) : Stops p (s.dropWhile p) := by
  intro c hc
  have hNot := List.head?_dropWhile_not p s
  rw [hc] at hNot
  simpa using hNot

theorem takeWhile_append_of_stops {p : Char → Bool} (u : List Char) (h : Stops p rest) :
    (u ++ rest).takeWhile p = u.takeWhile p := by
  induction u with
  | nil =>
    cases rest with
    | nil => rfl
    | cons c rest => exact List.takeWhile_cons_of_neg (by simp [h c rfl])
  | cons c u ih => rw [List.cons_append, List.takeWhile_cons, List.takeWhile_cons, ih]

theorem dropWhile_append_of_stops {p : Char → Bool} (u : List Char) (h : Stops p rest) :
    (u ++ rest).dropWhile p = u.dropWhile p ++ rest := by
  induction u with
  | nil =>
    cases rest with
    | nil => rfl
    | cons c rest => exact List.dropWhile_cons_of_neg (by simp [h c rfl])
  | cons c u ih =>
    rw [List.cons_append, List.dropWhile_cons, List.dropWhile_cons, ih]
    split <;> rfl

/-! ## Suffixes -/

/-- The text does not go on with a word. -/
abbrev EndsWord (s : List Char) : Prop :=
  Stops isWordPart s

theorem dropWord_eq_self (h : EndsWord s) : dropWord s = s := by
  cases s with
  | nil => rfl
  | cons c s =>
    have hStart : ¬ isWordStart c = true := fun hStart => by
      have hPart := h c rfl
      rw [isWordPart_of_isWordStart hStart] at hPart
      cases hPart
    rw [dropWord, takeWord, if_neg hStart]

/-- A suffix is read up to its end. -/
theorem dropWord_append (s : List Char) :
    ∃ u, s = u ++ dropWord s ∧ (∀ c ∈ u, isWordPart c = true) ∧
      ∀ rest', EndsWord rest' → dropWord (u ++ rest') = rest' := by
  cases s with
  | nil => exact ⟨[], rfl, List.forall_mem_nil _, fun _ h => dropWord_eq_self h⟩
  | cons c s =>
    by_cases hc : isWordStart c = true
    · have hDrop : dropWord (c :: s) = s.dropWhile isWordPart := by
        rw [dropWord, takeWord, if_pos hc]
      have hParts : ∀ d ∈ s.takeWhile isWordPart, isWordPart d = true :=
        fun d hd => List.mem_takeWhile_imp hd
      refine ⟨c :: s.takeWhile isWordPart, ?_,
        List.forall_mem_cons.mpr ⟨isWordPart_of_isWordStart hc, hParts⟩, fun rest' h => ?_⟩
      · rw [hDrop, List.cons_append, List.takeWhile_append_dropWhile]
      · rw [List.cons_append, dropWord, takeWord, if_pos hc, dropWhile_append_of_stops _ h,
          List.dropWhile_eq_nil_iff.mpr hParts, List.nil_append]
    · have hDrop : dropWord (c :: s) = c :: s := by rw [dropWord, takeWord, if_neg hc]
      exact ⟨[], by rw [hDrop]; rfl, List.forall_mem_nil _, fun rest' h => dropWord_eq_self h⟩

theorem wordEnds_iff : wordEnds s = true ↔ EndsWord s := by
  cases s with
  | nil => simp [wordEnds, Stops]
  | cons c s => simp [wordEnds, Stops]

theorem numberEnd_append (h : numberEnd s = some rest) :
    ∃ u, s = u ++ rest ∧ (∀ c ∈ u, isWordPart c = true) ∧ EndsWord rest ∧
      ∀ rest', EndsWord rest' → numberEnd (u ++ rest') = some rest' := by
  unfold numberEnd at h
  dsimp only at h
  split at h
  · rename_i hEnds
    cases h
    obtain ⟨u, hList, hParts, hu⟩ := dropWord_append s
    refine ⟨u, hList, hParts, wordEnds_iff.mp hEnds, fun rest' h => ?_⟩
    rw [numberEnd, hu rest' h]
    exact if_pos (wordEnds_iff.mpr h)
  · cases h

/-! ## Exponents -/

theorem isWordPart_of_isNumberPart {c : Char} (h : isNumberPart c = true) :
    isWordPart c = true := by
  simp only [isNumberPart, isWordPart, Char.isAlphanum, Bool.or_eq_true] at h ⊢
  tauto

theorem unsigned_append (s : List Char) :
    ∃ u, s = u ++ unsigned s ∧
      ∀ t, (u = [] → t.head? = s.head?) → unsigned (u ++ t) = t := by
  unfold unsigned
  split
  · exact ⟨['+'], rfl, fun _ _ => rfl⟩
  · exact ⟨['-'], rfl, fun _ _ => rfl⟩
  · rename_i hPlus hMinus
    refine ⟨[], rfl, fun t ht => ?_⟩
    have hHead := ht rfl
    rw [List.nil_append]
    split
    · obtain ⟨v, rfl⟩ := List.head?_eq_some_iff.mp hHead.symm
      exact absurd rfl (hPlus v)
    · obtain ⟨v, rfl⟩ := List.head?_eq_some_iff.mp hHead.symm
      exact absurd rfl (hMinus v)
    · rfl

/-- An exponent is read up to its last digit or underscore. -/
theorem exponentPart_append {r : List Char} (h : exponentPart s = some r) :
    Stops isNumberPart r ∧ ∃ u, s = u ++ r ∧
      ∀ r', Stops isNumberPart r' → exponentPart (u ++ r') = some r' := by
  rw [exponentPart] at h
  obtain ⟨sign, hSign, hUnsigned⟩ := unsigned_append (s.dropWhile (· == '_'))
  generalize unsigned (s.dropWhile (· == '_')) = digits at h hSign hUnsigned
  split at h
  · rename_i hDigit
    cases h
    refine ⟨stops_dropWhile _ _, s.takeWhile (· == '_') ++ (sign ++ digits.takeWhile isNumberPart),
      ?_, fun r' hr' => ?_⟩
    · rw [List.append_assoc, List.append_assoc, List.takeWhile_append_dropWhile, ← hSign,
        List.takeWhile_append_dropWhile]
    · have hNe : digits.takeWhile isNumberPart ≠ [] := by
        intro hNil
        rw [hNil] at hDigit
        cases hDigit
      -- There are digits, so what follows the sign begins as it did.
      have hDigits : (digits.takeWhile isNumberPart ++ r').head? = digits.head? := calc
        (digits.takeWhile isNumberPart ++ r').head? =
            (digits.takeWhile isNumberPart ++ digits.dropWhile isNumberPart).head? :=
          head?_append_of_ne_nil hNe
        _ = digits.head? := by rw [List.takeWhile_append_dropWhile]
      have hHead : (sign ++ (digits.takeWhile isNumberPart ++ r')).head? =
          (s.dropWhile (· == '_')).head? := by
        rw [hSign, List.head?_append, hDigits, List.head?_append]
      have hStops : Stops (· == '_') (sign ++ (digits.takeWhile isNumberPart ++ r')) := by
        rw [Stops, hHead]
        exact stops_dropWhile _ s
      have hBlank : ∀ c ∈ s.takeWhile (· == '_'), (c == '_') = true := fun c hc =>
        List.mem_takeWhile_imp (p := (· == '_')) hc
      rw [exponentPart, List.append_assoc, List.append_assoc, dropWhile_append_of_stops _ hStops,
        List.dropWhile_eq_nil_iff.mpr hBlank, List.nil_append,
        hUnsigned _ fun hNil => by rw [hDigits, hSign, hNil, List.nil_append]]
      have hParts : ∀ c ∈ digits.takeWhile isNumberPart, isNumberPart c = true := fun c hc =>
        List.mem_takeWhile_imp hc
      rw [takeWhile_append_of_stops _ hr', dropWhile_append_of_stops _ hr',
        List.takeWhile_eq_self_iff.mpr hParts, List.dropWhile_eq_nil_iff.mpr hParts, if_pos hDigit,
        List.nil_append]
  · cases h

/-- What a number goes on with. -/
def isNumberish (c : Char) : Bool :=
  isWordPart c || ['.', '+', '-'].contains c

/-- The text goes on neither with a word nor with a number. -/
abbrev EndsNumber (s : List Char) : Prop :=
  Stops isNumberish s

theorem EndsNumber.endsWord (h : EndsNumber s) : EndsWord s :=
  Stops.imp h fun c hc => by rw [isNumberish, hc, Bool.true_or]

theorem EndsWord.stops (h : EndsWord s) : Stops isNumberPart s :=
  Stops.imp h fun _ => isWordPart_of_isNumberPart

theorem unsigned_eq_self (h : ∀ c ∈ s.head?, c ≠ '+' ∧ c ≠ '-') : unsigned s = s := by
  unfold unsigned
  split
  · exact absurd rfl (h '+' rfl).1
  · exact absurd rfl (h '-' rfl).2
  · rfl

theorem EndsNumber.ne_sign (h : EndsNumber s) : ∀ c ∈ s.head?, c ≠ '+' ∧ c ≠ '-' := by
  intro c hc
  have hPart := h c hc
  constructor <;> rintro rfl <;> cases hPart

/-- A word without a number after it has no more of an exponent than it had. -/
theorem exponentPart_eq_none {x r' : List Char} (hx : ∀ c ∈ x, isWordPart c = true)
    (hr' : EndsNumber r') (h : exponentPart (x ++ rest) = none) :
    exponentPart (x ++ r') = none := by
  have hStops : Stops isNumberPart r' := hr'.endsWord.stops
  have hBlank : Stops (· == '_') r' := hr'.endsWord.imp fun c hc => by
    rw [beq_iff_eq.mp hc]
    decide
  rw [exponentPart, dropWhile_append_of_stops _ hBlank]
  cases hList : x.dropWhile (· == '_') with
  | nil =>
    have hNone : r'.takeWhile isNumberPart = [] := by
      rw [← List.nil_append r', takeWhile_append_of_stops [] hStops]
      rfl
    simp [unsigned_eq_self hr'.ne_sign, hNone]
  | cons c y =>
    have hPart : isWordPart c = true := by
      have hMem : c ∈ x.dropWhile (· == '_') := by simp [hList]
      exact hx c ((List.dropWhile_suffix _).subset hMem)
    -- A character of a word is no sign, whatever follows it.
    have hUnsigned : ∀ t, unsigned (c :: y ++ t) = c :: y ++ t := by
      refine fun t => unsigned_eq_self fun d hd => ?_
      obtain rfl : c = d := Option.some.inj hd
      exact ⟨ne_of_isWordPart hPart (by decide), ne_of_isWordPart hPart (by decide)⟩
    have hBefore : (x ++ rest).dropWhile (· == '_') = c :: y ++ rest := by
      rw [List.dropWhile_append, hList]
      rfl
    rw [exponentPart, hBefore, hUnsigned] at h
    rw [hUnsigned, takeWhile_append_of_stops _ hStops]
    -- A digit that is read with the new rest would have been read with the old one.
    refine if_neg fun hDigit => ?_
    rw [if_pos] at h
    · cases h
    · obtain ⟨d, hd, hDigit⟩ := List.any_eq_true.mp hDigit
      refine List.any_eq_true.mpr ⟨d, ?_, hDigit⟩
      rw [List.takeWhile_append]
      split
      · exact List.mem_append_left _ ((List.takeWhile_prefix _).subset hd)
      · exact hd

/-! ## Numbers with a point or an exponent -/

theorem Stops.append {p : Char → Bool} {x r' : List Char} (h : Stops p (x ++ rest))
    (hr' : Stops p r') : Stops p (x ++ r') := by
  cases x with
  | nil => exact hr'
  | cons c x => exact h

theorem optionalExponent_eq_self (h : ∀ c ∈ s.head?, c ≠ 'e' ∧ c ≠ 'E') :
    optionalExponent s = s := by
  cases s with
  | nil => rfl
  | cons c s =>
    obtain ⟨hLower, hUpper⟩ := h c rfl
    simp [optionalExponent, hLower, hUpper]

theorem EndsWord.ne_exponent (h : EndsWord s) : ∀ c ∈ s.head?, c ≠ 'e' ∧ c ≠ 'E' := by
  intro c hc
  have hPart := h c hc
  constructor <;> rintro rfl <;> cases hPart

theorem optionalExponent_mark {mark : Char} (h : mark = 'e' ∨ mark = 'E') (t : List Char) :
    optionalExponent (mark :: t) = (exponentPart t).getD (mark :: t) := by
  rcases h with rfl | rfl <;> rfl

/-- After a mark there is an exponent, or the mark begins the suffix. -/
theorem optionalExponent_append_of_mark {mark : Char} {x : List Char}
    (hMark : mark = 'e' ∨ mark = 'E') (hs : Stops isNumberPart (mark :: s))
    (h : optionalExponent (mark :: s) = x ++ rest) (hx : ∀ c ∈ x, isWordPart c = true)
    (hRest : EndsWord rest) :
    ∃ u, mark :: s = u ++ (x ++ rest) ∧ ∀ rest', EndsNumber rest' →
      Stops isNumberPart (u ++ (x ++ rest')) ∧
        optionalExponent (u ++ (x ++ rest')) = x ++ rest' := by
  rw [optionalExponent_mark hMark] at h
  cases hExponent : exponentPart s with
  | some r =>
    obtain rfl : r = x ++ rest := by rwa [hExponent] at h
    obtain ⟨hStops, u, rfl, hu⟩ := exponentPart_append hExponent
    refine ⟨mark :: u, rfl, fun rest' h' => ⟨hs, ?_⟩⟩
    rw [List.cons_append, optionalExponent_mark hMark, hu _ (hStops.append h'.endsWord.stops),
      Option.getD_some]
  | none =>
    rw [hExponent, Option.getD_none] at h
    cases x with
    | nil =>
      have hPart := hRest mark (by rw [← List.nil_append rest, ← h]; rfl)
      rcases hMark with rfl | rfl <;> cases hPart
    | cons c x =>
      obtain ⟨rfl, rfl⟩ := List.cons.inj h
      refine ⟨[], rfl, fun rest' h' => ⟨hs, ?_⟩⟩
      have hNone := exponentPart_eq_none (List.forall_mem_cons.mp hx).2 h' hExponent
      rw [List.nil_append, List.cons_append, optionalExponent_mark hMark, hNone, Option.getD_none]

/-- The suffix `x` of a number and what follows it are not read. -/
theorem optionalExponent_append {x : List Char} (hs : Stops isNumberPart s)
    (h : optionalExponent s = x ++ rest) (hx : ∀ c ∈ x, isWordPart c = true)
    (hRest : EndsWord rest) :
    ∃ u, s = u ++ (x ++ rest) ∧ ∀ rest', EndsNumber rest' →
      Stops isNumberPart (u ++ (x ++ rest')) ∧
        optionalExponent (u ++ (x ++ rest')) = x ++ rest' := by
  by_cases hMark : ∃ mark t, s = mark :: t ∧ (mark = 'e' ∨ mark = 'E')
  · obtain ⟨mark, t, rfl, hMark⟩ := hMark
    exact optionalExponent_append_of_mark hMark hs h hx hRest
  · have hNe : ∀ c ∈ s.head?, c ≠ 'e' ∧ c ≠ 'E' := by
      intro c hc
      obtain ⟨t, rfl⟩ := List.head?_eq_some_iff.mp hc
      exact not_or.mp fun hIs => hMark ⟨c, t, rfl, hIs⟩
    obtain rfl : s = x ++ rest := by rw [← h, optionalExponent_eq_self hNe]
    refine ⟨[], rfl, fun rest' h' => ⟨hs.append h'.endsWord.stops, optionalExponent_eq_self ?_⟩⟩
    cases x with
    | nil => exact h'.endsWord.ne_exponent
    | cons c x => exact hNe

theorem afterDigits_of_ne {c : Char} (hc : c ≠ '.') (t : List Char) :
    afterDigits (c :: t) = if c = 'e' || c = 'E' then exponentPart t else none := by
  rw [afterDigits]
  exact fun h => hc h

theorem EndsNumber.not_begins (h : EndsNumber s) :
    ¬ s.head?.any (fun c => c == '.' || isWordStart c) = true := by
  intro hAny
  obtain ⟨c, hc, hBegins⟩ := (Option.any_eq_true ..).mp hAny
  have hPart := h c hc
  rcases Bool.or_eq_true_iff.mp hBegins with hPoint | hStart
  · rw [beq_iff_eq.mp hPoint] at hPart
    cases hPart
  · rw [isNumberish, isWordPart_of_isWordStart hStart] at hPart
    cases hPart

theorem EndsNumber.not_begins_append {v r' : List Char} (h' : EndsNumber r')
    (h : ¬ (v ++ rest).head?.any (fun c => c == '.' || isWordStart c) = true) :
    ¬ (v ++ r').head?.any (fun c => c == '.' || isWordStart c) = true := by
  cases v with
  | nil => exact h'.not_begins
  | cons c v => exact h

theorem afterDigits_append {x : List Char} (hs : Stops isNumberPart s)
    (h : afterDigits s = some (x ++ rest)) (hx : ∀ c ∈ x, isWordPart c = true)
    (hRest : EndsWord rest) :
    ∃ u, s = u ++ (x ++ rest) ∧ ∀ rest', EndsNumber rest' →
      Stops isNumberPart (u ++ (x ++ rest')) ∧
        afterDigits (u ++ (x ++ rest')) = some (x ++ rest') := by
  unfold afterDigits at h
  split at h
  · rename_i t
    split at h
    · cases h
    · rename_i hPoint
      obtain ⟨u, hList, hu⟩ := optionalExponent_append (stops_dropWhile _ t)
        (Option.some.inj h) hx hRest
      let ds := t.takeWhile isNumberPart
      have hds : ∀ d ∈ ds, isNumberPart d = true := fun d hd => List.mem_takeWhile_imp hd
      have hSplit : t = ds ++ (u ++ (x ++ rest)) := by
        rw [← hList, List.takeWhile_append_dropWhile]
      refine ⟨'.' :: (ds ++ u), by rw [hSplit]; simp, fun rest' h' => ⟨hs, ?_⟩⟩
      obtain ⟨hStops, hRead⟩ := hu rest' h'
      have hPoint' : ¬ (ds ++ (u ++ (x ++ rest'))).head?.any
          (fun c => c == '.' || isWordStart c) = true := by
        rw [hSplit] at hPoint
        simpa only [List.append_assoc] using
          h'.not_begins_append (v := ds ++ (u ++ x)) (by simpa only [List.append_assoc] using hPoint)
      rw [List.cons_append, List.append_assoc, afterDigits, if_neg hPoint',
        dropWhile_append_of_stops _ hStops, List.dropWhile_eq_nil_iff.mpr hds, List.nil_append,
        hRead]
  · rename_i mark after hNoPoint
    split at h
    · rename_i hMark
      obtain ⟨hAfter, u, rfl, hu⟩ := exponentPart_append h
      refine ⟨mark :: u, rfl, fun rest' h' => ⟨hs, ?_⟩⟩
      rw [List.cons_append, afterDigits_of_ne (fun hc => hNoPoint hc), if_pos hMark,
        hu _ (hAfter.append h'.endsWord.stops)]
    · cases h
  · cases h

theorem floatDigits_append {x : List Char} (h : floatDigits s = some (x ++ rest))
    (hx : ∀ c ∈ x, isWordPart c = true) (hRest : EndsWord rest) :
    ∃ u, u ≠ [] ∧ s = u ++ (x ++ rest) ∧
      ∀ rest', EndsNumber rest' → floatDigits (u ++ (x ++ rest')) = some (x ++ rest') := by
  unfold floatDigits at h
  split at h
  · cases h
  · rename_i c t
    split at h
    · cases h
    · rename_i hc
      have hPart : isNumberPart c = true := by
        rw [Bool.not_eq_true, Bool.not_eq_false'] at hc
        rw [isNumberPart, hc, Bool.true_or]
      obtain ⟨u, hList, hu⟩ := afterDigits_append (stops_dropWhile _ _) h hx hRest
      rw [List.dropWhile_cons_of_pos hPart] at hList
      let ds := t.takeWhile isNumberPart
      have hds : ∀ d ∈ c :: ds, isNumberPart d = true :=
        List.forall_mem_cons.mpr ⟨hPart, fun d hd => List.mem_takeWhile_imp hd⟩
      have hSplit : t = ds ++ (u ++ (x ++ rest)) := by
        rw [← hList, List.takeWhile_append_dropWhile]
      refine ⟨c :: ds ++ u, by simp, by rw [hSplit]; simp, fun rest' h' => ?_⟩
      obtain ⟨hStops, hRead⟩ := hu rest' h'
      have hStep : floatDigits (c :: ds ++ (u ++ (x ++ rest'))) =
          if !c.isDigit then none
          else afterDigits ((c :: ds ++ (u ++ (x ++ rest'))).dropWhile isNumberPart) := rfl
      rw [List.append_assoc, hStep, if_neg hc, dropWhile_append_of_stops _ hStops,
        List.dropWhile_eq_nil_iff.mpr hds, List.nil_append, hRead]

/-! ## Numbers of digits -/

theorem isWordPart_of_isDigit {c : Char} (h : c.isDigit = true) : isWordPart c = true :=
  isWordPart_of_isNumberPart (by rw [isNumberPart, h, Bool.true_or])

theorem isWordPart_of_hexValue? {c : Char} {base : Nat} (h : (hexValue? c).any (· < base) = true) :
    isWordPart c = true := by
  have hAlphanum : c.isAlphanum = true := by
    unfold hexValue? at h
    change (decide (c.val ≥ 'A'.val ∧ c.val ≤ 'Z'.val) ||
      decide (c.val ≥ 'a'.val) && decide (c.val ≤ 'z'.val) || c.isDigit) = true
    split at h
    · rename_i hDigit
      simp [hDigit]
    · split at h
      · rename_i hLower
        simp only [Bool.and_eq_true, decide_eq_true_eq, Char.le_def, UInt32.le_iff_toNat_le]
          at hLower
        simp only [Bool.or_eq_true, Bool.and_eq_true, decide_eq_true_eq, ge_iff_le,
          UInt32.le_iff_toNat_le]
        have hA : 'a'.val.toNat = 97 := rfl
        have hF : 'f'.val.toNat = 102 := rfl
        have hZ : 'z'.val.toNat = 122 := rfl
        omega
      · split at h
        · rename_i hUpper
          simp only [Bool.and_eq_true, decide_eq_true_eq, Char.le_def, UInt32.le_iff_toNat_le]
            at hUpper
          simp only [Bool.or_eq_true, Bool.and_eq_true, decide_eq_true_eq, ge_iff_le,
            UInt32.le_iff_toNat_le]
          have hA : 'A'.val.toNat = 65 := rfl
          have hF : 'F'.val.toNat = 70 := rfl
          have hZ : 'Z'.val.toNat = 90 := rfl
          omega
        · cases h
  rw [isWordPart, hAlphanum, Bool.true_or, Bool.true_or]

/-- Nothing that does not go on with a word is a digit. -/
theorem digitsOfBase_of_endsWord {base : Nat} (h : EndsWord s) :
    digitsOfBase base true s = some s := by
  cases s with
  | nil => rfl
  | cons c s =>
    have hPart := h c rfl
    have hDigit : ¬ c.isDigit = true := fun hDigit => by
      rw [isWordPart_of_isDigit hDigit] at hPart
      cases hPart
    have hUnderscore : ¬ c = '_' := by
      rintro rfl
      cases hPart
    have hHex : ¬ (hexValue? c).any (· < base) = true := fun hHex => by
      rw [isWordPart_of_hexValue? hHex] at hPart
      cases hPart
    rw [digitsOfBase, if_neg hDigit, if_neg hUnderscore, if_neg hHex, if_pos rfl]

/-- The suffix `x` of a number and what follows it are not read. -/
theorem digitsOfBase_suffix {base : Nat} {seen : Bool} {x : List Char}
    (h : digitsOfBase base seen s = some (x ++ rest)) :
    ∃ u, (seen = false → u ≠ []) ∧ s = u ++ (x ++ rest) ∧ (∀ c ∈ u, isWordPart c = true) ∧
      ∀ rest', EndsWord rest' →
        digitsOfBase base seen (u ++ (x ++ rest')) = some (x ++ rest') := by
  fun_induction digitsOfBase base seen s with
  | case1 =>
    obtain ⟨rfl, rfl⟩ := List.append_eq_nil_iff.mp (Option.some.inj h).symm
    exact ⟨[], nofun, rfl, List.forall_mem_nil _, fun rest' h' => digitsOfBase_of_endsWord h'⟩
  | case2 => cases h
  | case3 seen c s hDigit hSmall ih =>
    obtain ⟨u, -, rfl, hu, hRead⟩ := ih h
    refine ⟨c :: u, fun _ => List.cons_ne_nil _ _, rfl,
      List.forall_mem_cons.mpr ⟨isWordPart_of_isDigit hDigit, hu⟩, fun rest' h' => ?_⟩
    rw [List.cons_append, digitsOfBase, if_pos hDigit, if_pos hSmall, hRead rest' h']
  | case4 => cases h
  | case5 => cases h
  | case6 seen s hFirst hDigit ih =>
    obtain ⟨u, -, rfl, hu, hRead⟩ := ih h
    refine ⟨'_' :: u, fun _ => List.cons_ne_nil _ _, rfl, List.forall_mem_cons.mpr ⟨by decide, hu⟩,
      fun rest' h' => ?_⟩
    rw [List.cons_append, digitsOfBase, if_neg hDigit, if_pos rfl, if_neg hFirst, hRead rest' h']
  | case7 seen c s hDigit hUnderscore hHex ih =>
    obtain ⟨u, -, rfl, hu, hRead⟩ := ih h
    refine ⟨c :: u, fun _ => List.cons_ne_nil _ _, rfl,
      List.forall_mem_cons.mpr ⟨isWordPart_of_hexValue? hHex, hu⟩, fun rest' h' => ?_⟩
    rw [List.cons_append, digitsOfBase, if_neg hDigit, if_neg hUnderscore, if_pos hHex,
      hRead rest' h']
  | case8 c s hDigit hUnderscore hHex =>
    refine ⟨[], nofun, Option.some.inj h, List.forall_mem_nil _, fun rest' h' => ?_⟩
    cases x with
    | nil => exact digitsOfBase_of_endsWord h'
    | cons d x =>
      obtain ⟨rfl, -⟩ := List.cons.inj (Option.some.inj h)
      rw [List.nil_append, List.cons_append, digitsOfBase, if_neg hDigit, if_neg hUnderscore,
        if_neg hHex, if_pos rfl]
  | case9 => cases h

/-- A character that words go on with does not come from what ends one. -/
theorem head?_eq_of_endsWord {v r r' : List Char} {c : Char} (hr' : EndsWord r')
    (hc : isWordPart c = true) (h : (v ++ r').head? = some c) : (v ++ r).head? = some c := by
  cases v with
  | nil =>
    have hPart := hr' c h
    rw [hc] at hPart
    cases hPart
  | cons d v => exact h

theorem integerDigits_suffix {x : List Char} (h : integerDigits s = some (x ++ rest)) :
    ∃ u, u ≠ [] ∧ s = u ++ (x ++ rest) ∧ (∀ c ∈ u, isWordPart c = true) ∧
      ∀ rest', EndsWord rest' → integerDigits (u ++ (x ++ rest')) = some (x ++ rest') := by
  unfold integerDigits at h
  split at h
  · obtain ⟨u, -, rfl, hu, hRead⟩ := digitsOfBase_suffix h
    exact ⟨'0' :: 'x' :: u, List.cons_ne_nil _ _, rfl, List.forall_mem_cons.mpr
      ⟨by decide, List.forall_mem_cons.mpr ⟨by decide, hu⟩⟩, hRead⟩
  · obtain ⟨u, -, rfl, hu, hRead⟩ := digitsOfBase_suffix h
    exact ⟨'0' :: 'o' :: u, List.cons_ne_nil _ _, rfl, List.forall_mem_cons.mpr
      ⟨by decide, List.forall_mem_cons.mpr ⟨by decide, hu⟩⟩, hRead⟩
  · obtain ⟨u, -, rfl, hu, hRead⟩ := digitsOfBase_suffix h
    exact ⟨'0' :: 'b' :: u, List.cons_ne_nil _ _, rfl, List.forall_mem_cons.mpr
      ⟨by decide, List.forall_mem_cons.mpr ⟨by decide, hu⟩⟩, hRead⟩
  · rename_i hHex hOctal hBinary
    obtain ⟨u, hNe, rfl, hu, hRead⟩ := digitsOfBase_suffix h
    refine ⟨u, hNe rfl, rfl, hu, fun rest' h' => ?_⟩
    obtain ⟨c, u, rfl⟩ := List.exists_cons_of_ne_nil (hNe rfl)
    -- The first two characters are those from before, unless the number ends after the first.
    have hSame : ∀ {d t}, isWordPart d = true → c :: u ++ (x ++ rest') = '0' :: d :: t →
        ∃ t', c :: u ++ (x ++ rest) = '0' :: d :: t' := by
      intro d t hd hList
      obtain rfl : c = '0' := (List.cons.inj hList).1
      have hTail : u ++ (x ++ rest') = d :: t := (List.cons.inj hList).2
      have hHead : (u ++ x ++ rest').head? = some d := by
        rw [List.append_assoc, hTail]
        rfl
      obtain ⟨t', ht'⟩ := List.head?_eq_some_iff.mp (head?_eq_of_endsWord (r := rest) h' hd hHead)
      exact ⟨t', by rw [List.cons_append, ← List.append_assoc, ht']⟩
    unfold integerDigits
    split
    · rename_i hList
      obtain ⟨t', ht'⟩ := hSame (by decide) hList
      exact absurd ht' (hHex t')
    · rename_i hList
      obtain ⟨t', ht'⟩ := hSame (by decide) hList
      exact absurd ht' (hOctal t')
    · rename_i hList
      obtain ⟨t', ht'⟩ := hSame (by decide) hList
      exact absurd ht' (hBinary t')
    · exact hRead rest' h'

/-! ## Any number -/

/-- Of a word nothing is left, or it does not end. -/
theorem numberEnd_of_word {x r' : List Char} (hx : ∀ c ∈ x, isWordPart c = true)
    (hr' : EndsWord r') : numberEnd (x ++ r') = some r' ∨ numberEnd (x ++ r') = none := by
  unfold numberEnd
  cases x with
  | nil =>
    rw [List.nil_append, dropWord_eq_self hr']
    exact .inl (if_pos (wordEnds_iff.mpr hr'))
  | cons c x =>
    obtain ⟨hc, hx⟩ := List.forall_mem_cons.mp hx
    by_cases hStart : isWordStart c = true
    · have hDrop : dropWord (c :: x ++ r') = r' := by
        rw [List.cons_append, dropWord, takeWord, if_pos hStart]
        dsimp only
        rw [dropWhile_append_of_stops _ hr', List.dropWhile_eq_nil_iff.mpr hx, List.nil_append]
      rw [hDrop]
      exact .inl (if_pos (wordEnds_iff.mpr hr'))
    · have hDrop : dropWord (c :: x ++ r') = c :: x ++ r' := by
        rw [List.cons_append, dropWord, takeWord, if_neg hStart]
      rw [hDrop]
      refine .inr (if_neg fun hEnds => ?_)
      have hEnd := wordEnds_iff.mp hEnds c rfl
      rw [hc] at hEnd
      cases hEnd

theorem exponentPart_of_word {x r r' : List Char} (hx : ∀ c ∈ x, isWordPart c = true)
    (hr' : EndsNumber r') (h : exponentPart (x ++ r') = some r) :
    ∃ y, r = y ++ r' ∧ ∀ c ∈ y, isWordPart c = true := by
  have hBlank : Stops (· == '_') r' := hr'.endsWord.imp fun c hc => by
    rw [beq_iff_eq.mp hc]
    decide
  let y := x.dropWhile (· == '_')
  have hy : ∀ c ∈ y, isWordPart c = true := fun c hc =>
    hx c ((List.dropWhile_suffix _).subset hc)
  have hUnsigned : unsigned (y ++ r') = y ++ r' := by
    refine unsigned_eq_self fun d hd => ?_
    cases hList : y with
    | nil =>
      rw [hList] at hd
      exact hr'.ne_sign d hd
    | cons c z =>
      rw [hList] at hd hy
      obtain rfl : c = d := Option.some.inj hd
      have hPart := (List.forall_mem_cons.mp hy).1
      exact ⟨ne_of_isWordPart hPart (by decide), ne_of_isWordPart hPart (by decide)⟩
  rw [exponentPart, dropWhile_append_of_stops _ hBlank, hUnsigned,
    dropWhile_append_of_stops _ hr'.endsWord.stops] at h
  split at h
  · cases h
    exact ⟨_, rfl, fun c hc => hy c ((List.dropWhile_suffix _).subset hc)⟩
  · cases h

theorem afterDigits_of_word {x r r' : List Char} (hx : ∀ c ∈ x, isWordPart c = true)
    (hr' : EndsNumber r') (h : afterDigits (x ++ r') = some r) :
    ∃ y, r = y ++ r' ∧ ∀ c ∈ y, isWordPart c = true := by
  have hNoPoint : (x ++ r').head? ≠ some '.' := by
    intro hPoint
    cases x with
    | nil =>
      have hNot := hr' '.' hPoint
      exact absurd hNot (by decide)
    | cons c x =>
      obtain rfl : c = '.' := Option.some.inj hPoint
      exact absurd (List.forall_mem_cons.mp hx).1 (by decide)
  cases hList : x ++ r' with
  | nil =>
    rw [hList] at h
    cases h
  | cons c t =>
    rw [hList] at h hNoPoint
    rw [afterDigits_of_ne (by rintro rfl; exact hNoPoint rfl)] at h
    split at h
    · rename_i hMark
      cases x with
      | nil =>
        have hEnd := hr'.endsWord.ne_exponent c (by rw [← List.nil_append r', hList]; rfl)
        simp [hEnd.1, hEnd.2] at hMark
      | cons d x =>
        obtain ⟨rfl, rfl⟩ := List.cons.inj hList
        exact exponentPart_of_word (List.forall_mem_cons.mp hx).2 hr' h
    · cases h

/-- What a point or an exponent leaves of a word is a part of the word. -/
theorem floatDigits_of_word {x r r' : List Char} (hx : ∀ c ∈ x, isWordPart c = true)
    (hr' : EndsNumber r') (h : floatDigits (x ++ r') = some r) :
    ∃ y, r = y ++ r' ∧ ∀ c ∈ y, isWordPart c = true := by
  unfold floatDigits at h
  split at h
  · cases h
  · split at h
    · cases h
    · rw [dropWhile_append_of_stops _ hr'.endsWord.stops] at h
      exact afterDigits_of_word (fun c hc => hx c ((List.dropWhile_suffix _).subset hc)) hr' h

theorem numberLiteral_append (h : numberLiteral s = some rest) :
    ∃ u, u ≠ [] ∧ s = u ++ rest ∧
      ∀ rest', EndsNumber rest' → numberLiteral (u ++ rest') = some rest' := by
  unfold numberLiteral at h
  split at h
  · rename_i r hFloat
    cases h
    obtain ⟨r, hDigits, hEnd⟩ := Option.bind_eq_some_iff.mp hFloat
    obtain ⟨x, rfl, hx, hRest, hx'⟩ := numberEnd_append hEnd
    obtain ⟨u, hNe, rfl, hu⟩ := floatDigits_append hDigits hx hRest
    refine ⟨u ++ x, by simp [hNe], by simp, fun rest' h' => ?_⟩
    rw [numberLiteral, List.append_assoc, hu rest' h', Option.bind_some, hx' rest' h'.endsWord]
  · obtain ⟨r, hDigits, hEnd⟩ := Option.bind_eq_some_iff.mp h
    obtain ⟨x, rfl, hx, -, hx'⟩ := numberEnd_append hEnd
    obtain ⟨u, hNe, rfl, hu, hRead⟩ := integerDigits_suffix hDigits
    refine ⟨u ++ x, by simp [hNe], by simp, fun rest' h' => ?_⟩
    -- The integer is a word. A float is at most read up to a part of it, and ends where it does.
    have hWord : ∀ c ∈ u ++ x, isWordPart c = true := fun c hc =>
      (List.mem_append.mp hc).elim (hu c) (hx c)
    unfold numberLiteral
    split
    · rename_i r' hFloat
      obtain ⟨r', hDigits', hEnd'⟩ := Option.bind_eq_some_iff.mp hFloat
      obtain ⟨y, rfl, hy⟩ := floatDigits_of_word hWord h' hDigits'
      rcases numberEnd_of_word hy h'.endsWord with hSame | hNone
      · rw [← hEnd', hSame]
      · rw [hNone] at hEnd'
        cases hEnd'
    · rw [List.append_assoc, hRead rest' h'.endsWord, Option.bind_some, hx' rest' h'.endsWord]

/-! ## Any literal -/

/-- What a literal of this kind is not read on into. -/
def EndsLiteral : Literal → List Char → Prop
  | .number => EndsNumber
  | _ => EndsWord

theorem EndsLiteral.of_endsNumber {kind : Literal} (h : EndsNumber s) : EndsLiteral kind s := by
  cases kind with
  | number => exact h
  | string => exact h.endsWord
  | other => exact h.endsWord

theorem EndsLiteral.endsWord {kind : Literal} (h : EndsLiteral kind s) : EndsWord s := by
  cases kind with
  | number => exact EndsNumber.endsWord h
  | string => exact h
  | other => exact h

/-- What was read inside quote marks is read again, whatever follows. -/
def ReadsAgain {α : Type} (read : List Char → Option (α × List Char)) : Prop :=
  ∀ s a rest, read s = some (a, rest) →
    ∃ u, s = u ++ rest ∧ ∀ rest', read (u ++ rest') = some (a, rest')

theorem readsAgain_cookedString (rules : StringRules) : ReadsAgain (cookedString rules) :=
  fun _ _ _ => cookedString_append

theorem readsAgain_rawString (rules : StringRules) : ReadsAgain (rawString rules) :=
  fun _ _ _ => rawString_append

theorem readsAgain_singleCharacter (rules : StringRules) :
    ReadsAgain fun s => (singleCharacter rules s).map fun r => ((), r) := by
  intro s _ rest h
  obtain ⟨after, hAfter, hEq⟩ := Option.map_eq_some_iff.mp h
  cases hEq
  obtain ⟨u, rfl, hu⟩ := singleCharacter_append hAfter
  refine ⟨u, rfl, fun rest' => ?_⟩
  show (singleCharacter rules (u ++ rest')).map _ = _
  rw [hu, Option.map_some]

/-- The literals that were read are read again wherever they can end. -/
def ReadsLiterals (read : List Char → Option (Literal × List Char)) : Prop :=
  ∀ s kind rest, read s = some (kind, rest) →
    ∃ u, s = u ++ rest ∧ ∀ rest', EndsLiteral kind rest' → read (u ++ rest') = some (kind, rest')

theorem ReadsAgain.suffix {α : Type} {read : List Char → Option (α × List Char)}
    (hRead : ReadsAgain read) (kindOf : α → Literal) :
    ReadsLiterals fun s => (read s).map fun a => (kindOf a.1, dropWord a.2) := by
  intro s kind rest h
  obtain ⟨⟨a, after⟩, hValue, hEq⟩ := Option.map_eq_some_iff.mp h
  obtain ⟨u, rfl, hu⟩ := hRead s a after hValue
  obtain ⟨w, hSuffix, -, hw⟩ := dropWord_append after
  cases hEq
  refine ⟨u ++ w, by rw [List.append_assoc, ← hSuffix], fun rest' h' => ?_⟩
  show (read (u ++ w ++ rest')).map _ = _
  rw [List.append_assoc, hu, Option.map_some, hw rest' h'.endsWord]

/-- How a quoted literal is read after the mark that opens it. -/
inductive Opens : List Char → (List Char → Option (Literal × List Char)) → Prop
  | string : Opens ['"'] fun s => asString (cookedString plainString s)
  | rawString : Opens ['r'] fun s => asString (rawString plainString s)
  | byteString : Opens ['b', '"'] fun s => asOther (cookedString byteString s)
  | rawByteString : Opens ['b', 'r'] fun s => asOther (rawString byteString s)
  | cString : Opens ['c', '"'] fun s => asOther (cookedString cString s)
  | rawCString : Opens ['c', 'r'] fun s => asOther (rawString cString s)
  | byte : Opens ['b', '\''] fun s =>
      (singleCharacter byteString s).map fun r => (.other, dropWord r)
  | character : Opens ['\''] fun s =>
      (singleCharacter plainString s).map fun r => (.other, dropWord r)

section Opens

variable {o : List Char} {read : List Char → Option (Literal × List Char)}

theorem Opens.ne_nil (h : Opens o read) : o ≠ [] := by
  cases h <;> exact List.cons_ne_nil _ _

theorem Opens.takeLiteral_eq (h : Opens o read) {found : Literal × List Char}
    (hRead : read s = some found) : takeLiteral (o ++ s) = some found := by
  cases h <;> simp only [takeLiteral, List.cons_append, List.nil_append, hRead]

theorem Opens.readsLiterals (h : Opens o read) : ReadsLiterals read := by
  have hSingle : ∀ rules, ReadsLiterals fun s =>
      (singleCharacter rules s).map fun r => (.other, dropWord r) := fun rules => by
    simpa only [Option.map_map, Function.comp_def] using
      (readsAgain_singleCharacter rules).suffix fun _ => .other
  cases h with
  | string => exact (readsAgain_cookedString _).suffix fun v => .string (String.ofList v)
  | rawString => exact (readsAgain_rawString _).suffix fun v => .string (String.ofList v)
  | byteString => exact (readsAgain_cookedString _).suffix fun _ => .other
  | rawByteString => exact (readsAgain_rawString _).suffix fun _ => .other
  | cString => exact (readsAgain_cookedString _).suffix fun _ => .other
  | rawCString => exact (readsAgain_rawString _).suffix fun _ => .other
  | byte => exact hSingle _
  | character => exact hSingle _

end Opens

/-- A literal is quoted or a number. -/
theorem takeLiteral_cases {kind : Literal} (h : takeLiteral s = some (kind, rest)) :
    (∃ o read t, Opens o read ∧ s = o ++ t ∧ read t = some (kind, rest)) ∨
      kind = .number ∧ numberLiteral s = some rest := by
  unfold takeLiteral at h
  dsimp only at h
  split at h
  · rename_i found hQuoted
    cases h
    split at hQuoted
    · exact .inl ⟨_, _, _, .string, rfl, hQuoted⟩
    · exact .inl ⟨_, _, _, .rawString, rfl, hQuoted⟩
    · exact .inl ⟨_, _, _, .byteString, rfl, hQuoted⟩
    · exact .inl ⟨_, _, _, .rawByteString, rfl, hQuoted⟩
    · exact .inl ⟨_, _, _, .cString, rfl, hQuoted⟩
    · exact .inl ⟨_, _, _, .rawCString, rfl, hQuoted⟩
    · exact .inl ⟨_, _, _, .byte, rfl, hQuoted⟩
    · exact .inl ⟨_, _, _, .character, rfl, hQuoted⟩
    · cases hQuoted
  · obtain ⟨after, hNumber, hEq⟩ := Option.map_eq_some_iff.mp h
    cases hEq
    exact .inr ⟨rfl, hNumber⟩

/-- A number begins with a digit, and no quoted literal does. -/
theorem notMem_quotedStarts_of_numberLiteral {c : Char} (h : numberLiteral (c :: s) = some rest) :
    c ∉ quotedStarts := by
  have hDigit : c.isDigit = true := by
    by_contra hNot
    rw [Bool.not_eq_true] at hNot
    rw [numberLiteral_eq_none hNot] at h
    cases h
  exact notMem_quotedStarts_of_isDigit hDigit

/-- A literal that was read is read again wherever it can end. -/
theorem takeLiteral_append {kind : Literal} (h : takeLiteral s = some (kind, rest)) :
    ∃ u, u ≠ [] ∧ s = u ++ rest ∧
      ∀ rest', EndsLiteral kind rest' → takeLiteral (u ++ rest') = some (kind, rest') := by
  obtain ⟨o, read, t, hOpens, rfl, hRead⟩ | ⟨rfl, hNumber⟩ := takeLiteral_cases h
  · obtain ⟨u, rfl, hu⟩ := hOpens.readsLiterals t kind rest hRead
    refine ⟨o ++ u, List.append_ne_nil_of_left_ne_nil hOpens.ne_nil u,
      by rw [List.append_assoc], fun rest' h' => ?_⟩
    rw [List.append_assoc]
    exact hOpens.takeLiteral_eq (hu rest' h')
  · obtain ⟨u, hNe, rfl, hu⟩ := numberLiteral_append hNumber
    obtain ⟨c, u, rfl⟩ := List.exists_cons_of_ne_nil hNe
    refine ⟨c :: u, hNe, rfl, fun rest' h' => ?_⟩
    have hAgain := hu rest' h'
    rw [List.cons_append] at hAgain ⊢
    rw [takeLiteral_of_notMem (notMem_quotedStarts_of_numberLiteral hNumber), hAgain, Option.map_some]

end CommandDispatch.Source
