import CommandDispatch.Proofs.Source.Lexeme

/-!
# Phrases and what they nest into

A phrase is a text of words, marks, delimiters, digits and spaces that is known beforehand. Its
lexemes are computed. Only the last of them may depend on what follows: a word must not go on, and a
mark may be joined to another one.

* `phrase` computes the lexemes of a text, and `cuts_phrase` says that the text is cut into them,
* `Yields p ls`: the delimiters of `ls` match, and `p` holds of the tokens that `ls` nest into.
-/

namespace CommandDispatch.Source

variable {φ : Prop} {rest : List Char}

/-! ## Phrases -/

/-- The text does not go on with a word. If it is empty, `word` says whether what follows does
not. -/
def stopsWord (word : Bool) (s : List Char) : Bool :=
  match s with
  | [] => word
  | c :: _ => !isWordish c

/-- The text does not go on with a number. -/
def stopsNumber (s : List Char) : Bool :=
  match s with
  | [] => false
  | c :: t => !isWordPart c && (c != '.' || t.head? == some '.')

/-- The first lexemes of a phrase, and what follows them. If the phrase ends here, `word` says that
what follows it does not go on with a word, and `joint` whether it is a mark. -/
def firstLexeme (word joint : Bool) (c : Char) (s : List Char) :
    Option (List Lexeme × List Char) :=
  let after := s.dropWhile isWordPart
  match opens? c, closes? c with
  | some d, _ => some ([.opening d], s)
  | none, some d => some ([.closing d], s)
  | none, none =>
    if c = ' ' then some ([], s)
    else if isWordStart c then
      if stopsWord word after then
        some ([.leaf (.word (String.ofList (c :: s.takeWhile isWordPart)))], after)
      else none
    else if c.isDigit then
      if stopsNumber s then some ([.leaf (.literal .number (String.ofList [c]))], s) else none
    else if c = '\'' then
      if s.head?.any isWordStart && stopsWord word after then some ([.leaf (.mark c true)], s)
      else none
    else if markCharacters.contains c && c != '/' && s.head? != some '/' then
      let isJoint := if s.isEmpty then joint else s.head?.any markCharacters.contains
      some ([.leaf (.mark c isJoint)], s)
    else none

/-- The lexemes of a phrase, in at most the given number of steps. -/
def phraseSteps (word joint : Bool) : (steps : Nat) → List Char → Option (List Lexeme)
  | _, [] => some []
  | 0, _ :: _ => none
  | steps + 1, c :: s => do
    let (first, after) ← firstLexeme word joint c s
    return first ++ (← phraseSteps word joint steps after)

def phrase (word joint : Bool) (s : List Char) : Option (List Lexeme) :=
  phraseSteps word joint s.length s

theorem follows_of_stopsWord {word : Bool} {s : List Char} (h : stopsWord word s = true)
    (hWord : word = true → Follows .word rest) : Follows .word (s ++ rest) := by
  cases s with
  | nil => exact hWord h
  | cons c s =>
    intro d hd
    obtain rfl : c = d := Option.some.inj hd
    simpa [stopsWord] using h

/-- A word with what it goes on with is a name. -/
theorem isName_of_isWordStart {c : Char} (hc : isWordStart c = true) (s : List Char) :
    IsName (String.ofList (c :: s.takeWhile isWordPart)) := by
  have hParts : ∀ d ∈ s.takeWhile isWordPart, isWordPart d = true :=
    fun d hd => List.mem_takeWhile_imp hd
  rw [IsName, String.toList_ofList]
  unfold takeName
  split
  · rename_i hRaw
    have hMem : '#' ∈ s.takeWhile isWordPart := by
      rw [(List.cons.inj hRaw).2]
      exact List.mem_cons_self
    exact absurd (hParts '#' hMem) (by decide)
  · rw [takeWord_takeWhile hc]
    rfl

theorem endsDigits_of_stopsNumber {s : List Char} (h : stopsNumber s = true) :
    EndsDigits (s ++ rest) ∧ numberEnd (s ++ rest) = some (s ++ rest) := by
  cases s with
  | nil => cases h
  | cons c s =>
    simp only [stopsNumber, Bool.and_eq_true, Bool.not_eq_true', Bool.or_eq_true, bne_iff_ne,
      beq_iff_eq] at h
    obtain ⟨hPart, hPoint⟩ := h
    have hStart : ¬ isWordStart c = true := fun hStart => by
      rw [isWordPart_of_isWordStart hStart] at hPart
      cases hPart
    refine ⟨⟨?_, ?_⟩, ?_⟩
    · intro d hd
      obtain rfl : c = d := Option.some.inj hd
      refine ⟨?_, fun hMem => ?_⟩
      · simp only [isWordPart, Char.isAlphanum, Bool.or_eq_false_iff] at hPart
        simp [isNumberPart, hPart]
      · have hAll : ['e', 'E', 'x', 'o', 'b'].all isWordPart = true := by decide
        rw [List.all_eq_true.mp hAll c hMem] at hPart
        cases hPart
    · intro t ht
      obtain ⟨hc, rfl⟩ := List.cons.inj ht
      have hHead := hPoint.resolve_left fun hNe => hNe hc
      obtain ⟨u, rfl⟩ := List.head?_eq_some_iff.mp hHead
      rfl
    · rw [List.cons_append, numberEnd, dropWord, takeWord, if_neg hStart]
      simp [wordEnds, hPart]

theorem cuts_lifetimePhrase {word : Bool} {s : List Char}
    (h : (s.head?.any isWordStart && stopsWord word (s.dropWhile isWordPart)) = true)
    (hWord : word = true → Follows .word rest) :
    Cuts φ ['\''] (s ++ rest) [.leaf (.mark '\'' true)] := by
  rw [Bool.and_eq_true] at h
  cases s with
  | nil => cases h.1
  | cons c s =>
    have hc : isWordStart c = true := h.1
    rw [List.dropWhile_cons_of_pos (isWordPart_of_isWordStart hc)] at h
    have hCuts : Cuts φ ['\''] _ _ :=
      cuts_lifetime (isName_of_isWordStart hc s) (follows_of_stopsWord h.2 hWord)
    rwa [String.toList_ofList, ← List.append_assoc, List.cons_append,
      List.takeWhile_append_dropWhile] at hCuts

theorem cuts_markPhrase {joint : Bool} {c : Char} {s : List Char} (hTick : c ≠ '\'')
    (h : (markCharacters.contains c && c != '/' && s.head? != some '/') = true)
    (hJoint : joint = (takeMark rest).isSome) :
    Cuts φ [c] (s ++ rest)
      [.leaf (.mark c (if s.isEmpty then joint else s.head?.any markCharacters.contains))] := by
  simp only [Bool.and_eq_true, bne_iff_ne] at h
  obtain ⟨⟨hMark, hSlash⟩, hNext⟩ := h
  have hNeighbour : (if s.isEmpty then joint else s.head?.any markCharacters.contains) =
      (takeMark (s ++ rest)).isSome := by
    cases s with
    | nil => exact hJoint
    | cons d s =>
      have hd : d ≠ '/' := fun hEq => hNext (hEq ▸ rfl)
      rw [List.cons_append, takeMark_cons hd]
      simp only [List.isEmpty_cons, Bool.false_eq_true, if_false, List.head?_cons, Option.any_some]
      split <;> simp_all
  rw [hNeighbour]
  exact cuts_mark hMark hSlash hTick

theorem cuts_wordPhrase {word : Bool} {c : Char} {s : List Char} (hStart : isWordStart c = true)
    (hStops : stopsWord word (s.dropWhile isWordPart) = true)
    (hWord : word = true → Follows .word rest) :
    Cuts φ (c :: s.takeWhile isWordPart) (s.dropWhile isWordPart ++ rest)
      [.leaf (.word (String.ofList (c :: s.takeWhile isWordPart)))] := by
  have hCuts : Cuts φ _ (s.dropWhile isWordPart ++ rest) _ :=
    cuts_name (isName_of_isWordStart hStart s) (follows_of_stopsWord hStops hWord)
  rwa [String.toList_ofList] at hCuts

theorem cuts_digitPhrase {c : Char} {s : List Char} (hDigit : c.isDigit = true)
    (hStops : stopsNumber s = true) :
    Cuts φ [c] (s ++ rest) [.leaf (.literal .number (String.ofList [c]))] := by
  obtain ⟨hEnds, hSuffix⟩ : EndsDigits (s ++ rest) ∧ _ := endsDigits_of_stopsNumber hStops
  have hCuts : Cuts φ (c :: ([] ++ [])) (s ++ rest) _ :=
    cuts_number hDigit (List.forall_mem_nil _) hEnds hSuffix
  exact hCuts

/-- One case for each kind of lexeme, in the order in which they are tried. -/
theorem cuts_firstLexeme {word joint : Bool} {c : Char} {s t : List Char} {ls : List Lexeme}
    (h : firstLexeme word joint c s = some (ls, t)) (hWord : word = true → Follows .word rest)
    (hJoint : joint = (takeMark rest).isSome) :
    ∃ u, c :: s = u ++ t ∧ Cuts φ u (t ++ rest) ls := by
  unfold firstLexeme at h
  dsimp only at h
  split at h
  · rename_i hOpens
    cases h
    exact ⟨[c], rfl, cuts_opening hOpens⟩
  · rename_i hCloses
    cases h
    exact ⟨[c], rfl, cuts_closing hCloses⟩
  · split at h
    · rename_i hSpace
      cases h
      subst hSpace
      exact ⟨[' '], rfl, Cuts.skip rfl⟩
    · split at h
      · rename_i hStart
        split at h
        · rename_i hStops
          cases h
          refine ⟨c :: s.takeWhile isWordPart, ?_, cuts_wordPhrase hStart hStops hWord⟩
          rw [List.cons_append, List.takeWhile_append_dropWhile]
        · cases h
      · split at h
        · rename_i hDigit
          split at h
          · rename_i hStops
            cases h
            exact ⟨[c], rfl, cuts_digitPhrase hDigit hStops⟩
          · cases h
        · split at h
          · rename_i hTick
            split at h
            · rename_i hName
              cases h
              exact ⟨[c], rfl, hTick ▸ cuts_lifetimePhrase hName hWord⟩
            · cases h
          · rename_i hTick
            split at h
            · rename_i hMark
              cases h
              exact ⟨[c], rfl, cuts_markPhrase hTick hMark hJoint⟩
            · cases h

theorem cuts_phraseSteps {word joint : Bool} {steps : Nat} {s : List Char} {ls : List Lexeme}
    (h : phraseSteps word joint steps s = some ls) (hWord : word = true → Follows .word rest)
    (hJoint : joint = (takeMark rest).isSome) : Cuts φ s rest ls := by
  induction steps generalizing s ls with
  | zero =>
    cases s with
    | nil =>
      cases h
      exact .nil
    | cons c s => cases h
  | succ steps ih =>
    cases s with
    | nil =>
      cases h
      exact .nil
    | cons c s =>
      rw [phraseSteps] at h
      simp only [Option.bind_eq_bind, Option.bind_eq_some_iff, Option.pure_def,
        Option.some.injEq, Prod.exists] at h
      obtain ⟨first, after, hFirst, others, hOthers, rfl⟩ := h
      obtain ⟨u, hList, hCuts⟩ := cuts_firstLexeme hFirst hWord hJoint
      rw [hList]
      exact hCuts.append (ih hOthers)

/-- A phrase is cut into its lexemes. -/
theorem cuts_phrase {word joint : Bool} {s : List Char} {ls : List Lexeme}
    (h : phrase word joint s = some ls) (hWord : word = true → Follows .word rest)
    (hJoint : joint = (takeMark rest).isSome) : Cuts φ s rest ls :=
  cuts_phraseSteps h hWord hJoint

/-! ## Tokens -/

/-- The tokens are the ones followed by the others. -/
def Then (p q : Tokens → Prop) (ts : Tokens) : Prop :=
  ∃ us vs, ts = us ++ vs ∧ p us ∧ q vs

/-- The tokens are one group. -/
def Grouped (d : Delimiter) (p : Tokens → Prop) (ts : Tokens) : Prop :=
  ∃ us, ts = [.group d us] ∧ p us

/-- The delimiters match, and the property holds of the tokens that the lexemes nest into. -/
def Yields (p : Tokens → Prop) (ls : List Lexeme) : Prop :=
  ∃ ts, p ts ∧ ∀ level outer, nest ls level outer = some (ts.reverse ++ level, outer)

namespace Yields

variable {p q : Tokens → Prop} {ls ms : List Lexeme}

theorem nil : Yields (· = []) [] :=
  ⟨[], rfl, fun _ _ => rfl⟩

theorem leaf (t : TokenTree) : Yields (· = [t]) [.leaf t] :=
  ⟨[t], rfl, fun _ _ => rfl⟩

theorem append (h : Yields p ls) (h' : Yields q ms) :
    Yields (Then p q) (ls ++ ms) := by
  obtain ⟨us, hp, hus⟩ := h
  obtain ⟨vs, hq, hvs⟩ := h'
  refine ⟨us ++ vs, ⟨us, vs, rfl, hp, hq⟩, fun level outer => ?_⟩
  rw [nest_append, hus, Option.bind_some]
  dsimp only
  rw [hvs, List.reverse_append, List.append_assoc]

theorem group (d : Delimiter) (h : Yields p ls) :
    Yields (Grouped d p) (.opening d :: (ls ++ [.closing d])) := by
  obtain ⟨us, hp, hus⟩ := h
  refine ⟨[.group d us], ⟨us, rfl, hp⟩, fun level outer => ?_⟩
  rw [nest, nest_append, hus, Option.bind_some, List.append_nil]
  dsimp only
  rw [nest, if_pos rfl, List.reverse_reverse]
  rfl

theorem imp (h : Yields p ls) (hpq : ∀ ts, p ts → q ts) : Yields q ls := by
  obtain ⟨ts, hp, hts⟩ := h
  exact ⟨ts, hpq ts hp, hts⟩

end Yields

end CommandDispatch.Source
