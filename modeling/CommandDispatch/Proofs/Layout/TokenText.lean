import CommandDispatch.Proofs.Layout.Reading
import CommandDispatch.Proofs.Source.Readable
import CommandDispatch.Source.TokenText

/-!
# The text of tokens is read back

Tokens that were read from a text are written with spaces between those that would run together. So
their text is read as the same tokens, but for which marks are joined.

* `Stands t rest`: the token is cut off before this rest,
* `stands_afterText`: so it is before what is written after it,
* `AreAlike`: tokens that differ in which marks are joined,
* `reads_tokensText`: the text of tokens.
-/

namespace CommandDispatch.Layout

open Source

variable {φ : Prop} {inBlock : Bool} {rest : List Char}

/-! ## What follows a token -/

/-- The token is cut off before this rest. -/
def Stands : TokenTree → List Char → Prop
  | .word _, rest => Follows .word rest
  | .mark c _, rest => c = '/' → ∀ d ∈ rest.head?, d ≠ '/' ∧ d ≠ '*'
  | .literal kind _, rest => EndsLiteral kind rest
  | .group .., _ => True

theorem endsNumber_of_follows (h : Follows .token rest) : EndsNumber rest := by
  intro c hc
  have hWord : isWordPart c = false := (Bool.or_eq_false_iff.mp (follows_word_of_token h c hc)).1
  have hMarks := (Bool.or_eq_false_iff.mp (h c hc)).2
  simp only [List.contains_cons, List.contains_nil, Bool.or_false, Bool.or_eq_false_iff,
    beq_eq_false_iff_ne] at hMarks
  simp [isNumberish, hWord, hMarks]

theorem stands_of_follows (t : TokenTree) (h : Follows .token rest) : Stands t rest := by
  cases t with
  | word w => exact follows_word_of_token h
  | mark c joint =>
    rintro -
    intro d hd
    have hd := h d hd
    constructor <;> rintro rfl <;> cases hd
  | literal kind text => exact .of_endsNumber (endsNumber_of_follows h)
  | group d trees => trivial

theorem follows_space (rest : List Char) : Follows .token (' ' :: rest) := by
  intro c hc
  obtain rfl : ' ' = c := Option.some.inj hc
  decide

/-- What the text of a token begins with. -/
def Begins : TokenTree → Char → Prop
  | .word _, c => isWordStart c = true
  | .mark m _, c => c = m ∧ markCharacters.contains m = true
  | .literal .., c => c ∈ quotedStarts ∨ c.isDigit = true
  | .group .., c => ['(', '[', '\x7b'].contains c = true

theorem isWordPart_of_mark {c : Char} (h : markCharacters.contains c = true) :
    isWordPart c = false := by
  have hAll : markCharacters.all (fun c => !isWordPart c) = true := by decide
  simpa using List.all_eq_true.mp hAll c (List.contains_iff_mem.mp h)

/-- What holds of the opening marks holds of what a group begins with. -/
theorem of_begins_group {d : Delimiter} {trees : Tokens} {c : Char} {p : Char → Bool}
    (hAll : ['(', '[', '\x7b'].all p = true) (h : Begins (.group d trees) c) : p c = true :=
  List.all_eq_true.mp hAll c (List.contains_iff_mem.mp h)

theorem of_mem_head?_cons {p : Char → Prop} {c : Char} {s : List Char} (h : p c) :
    ∀ d ∈ (c :: s).head?, p d := by
  intro d hd
  obtain rfl : c = d := Option.some.inj hd
  exact h

section Begins

variable {u : TokenTree} {c : Char}

theorem isWordish_of_begins {w : String} (h : runsTogether (.word w) u = false)
    (hc : Begins u c) : isWordish c = false := by
  cases u with
  | word v => cases h
  | literal kind text => cases h
  | mark m joint =>
    obtain ⟨rfl, hMark⟩ := hc
    have hPart := isWordPart_of_mark hMark
    have hQuote : c ≠ '"' := by
      rintro rfl
      cases hMark
    simp only [runsTogether, List.contains_cons, List.contains_nil, Bool.or_false,
      Bool.or_eq_false_iff, beq_eq_false_iff_ne] at h
    simp [isWordish, hPart, hQuote, h]
  | group d trees =>
    have hNot := of_begins_group (p := fun c => !isWordish c) (by decide) hc
    simpa using hNot

/-- What does not run together with a slash does not make a comment of it. -/
theorem ne_of_begins {joint : Bool} (h : runsTogether (.mark '/' joint) u = false)
    (hc : Begins u c) : c ≠ '/' ∧ c ≠ '*' := by
  cases u with
  | word v =>
    have hPart := isWordPart_of_isWordStart hc
    exact ⟨ne_of_isWordPart hPart (by decide), ne_of_isWordPart hPart (by decide)⟩
  | literal kind text =>
    rcases hc with hQuoted | hDigit
    · constructor <;> rintro rfl <;> revert hQuoted <;> decide
    · constructor <;> rintro rfl <;> cases hDigit
  | mark m joint =>
    obtain ⟨rfl, -⟩ := hc
    simpa [runsTogether] using h
  | group d trees =>
    have hNot := of_begins_group (p := fun c => c != '/' && c != '*') (by decide) hc
    simpa using hNot

theorem endsLiteral_of_begins {kind : Literal} {text : String}
    (h : runsTogether (.literal kind text) u = false) (hc : Begins u c) (s : List Char) :
    EndsLiteral kind (c :: s) := by
  have hEnds : ∀ {p : Char → Bool}, p c = false → Stops p (c :: s) := fun hp =>
    of_mem_head?_cons hp
  cases u with
  | word v => cases kind <;> cases h
  | literal kind text => cases kind <;> cases h
  | mark m joint =>
    obtain ⟨rfl, hMark⟩ := hc
    have hPart := isWordPart_of_mark hMark
    cases kind with
    | number =>
      simp only [runsTogether, List.contains_cons, List.contains_nil, Bool.or_false,
        Bool.or_eq_false_iff, beq_eq_false_iff_ne] at h
      exact hEnds (p := isNumberish) (by simp [isNumberish, hPart, h])
    | string => exact hEnds hPart
    | other => exact hEnds hPart
  | group d trees =>
    have hNot := of_begins_group (p := fun c => !isNumberish c) (by decide) hc
    exact .of_endsNumber (hEnds (by simpa using hNot))

/-- Tokens that do not run together may stand at once after each other. -/
theorem stands_of_begins {t : TokenTree} (h : runsTogether t u = false) (hc : Begins u c)
    (s : List Char) : Stands t (c :: s) := by
  cases t with
  | word w => exact of_mem_head?_cons (p := fun c => isWordish c = false) (isWordish_of_begins h hc)
  | mark m joint =>
    rintro rfl
    exact of_mem_head?_cons (p := fun c => c ≠ '/' ∧ c ≠ '*') (ne_of_begins h hc)
  | literal kind text => exact endsLiteral_of_begins h hc s
  | group d trees => trivial

end Begins

theorem toList_treeText_mark (c : Char) (joint : Bool) :
    (treeText inBlock (.mark c joint)).toList = [c] := by
  rw [treeText, Char.toString_eq_singleton, String.toList_singleton]

/-- With another character in front, the text would not be read as a literal. -/
theorem begins_of_isLiteral {kind : Literal} {text : String} (h : IsLiteral kind text) {c : Char}
    {s : List Char} (hText : text.toList = c :: s) : Begins (.literal kind text) c := by
  by_contra hNot
  obtain ⟨hQuoted, hDigit⟩ := not_or.mp hNot
  have hRead := h.takeLiteral_append [] (.of_endsNumber fun _ h => nomatch h)
  rw [List.append_nil, hText,
    takeLiteral_eq_none hQuoted (Bool.not_eq_true _ ▸ hDigit)] at hRead
  cases hRead

/-- What the text of a token begins with, before anything that may follow. -/
theorem exists_treeText_cons {u : TokenTree} {ts : Tokens} (h : AreReadable (u :: ts)) :
    ∃ c s, (treeText inBlock u).toList = c :: s ∧ Begins u c := by
  cases h with
  | word hw _ =>
    have hEnd : Follows .word [] := fun _ h => nomatch h
    obtain ⟨c, s, hText, hc, -⟩ := hw.exists_cons hEnd
    rw [List.append_nil] at hText
    exact ⟨c, s, hText, hc⟩
  | mark hc _ _ => exact ⟨_, [], toList_treeText_mark _ _, rfl, hc⟩
  | lifetime _ _ => exact ⟨_, [], toList_treeText_mark _ _, rfl, by decide⟩
  | literal hText _ =>
    obtain ⟨c, s, hList⟩ := List.exists_cons_of_ne_nil hText.ne_nil
    exact ⟨c, s, hList, begins_of_isLiteral hText hList⟩
  | tick _ _ _ => exact ⟨_, [], toList_treeText_mark _ _, rfl, by decide⟩
  | @group d trees _ _ _ =>
    rw [treeText, String.toList_append, String.toList_append]
    cases d with
    | parenthesis => exact ⟨'(', _, rfl, rfl⟩
    | bracket => exact ⟨'[', _, rfl, rfl⟩
    | brace => exact ⟨'\x7b', _, rfl, rfl⟩

theorem exists_begins {u : TokenTree} {ts : Tokens} (h : AreReadable (u :: ts)) :
    ∃ c s, (tokensText inBlock (u :: ts)).toList = c :: s ∧ Begins u c := by
  obtain ⟨c, s, hText, hc⟩ := exists_treeText_cons h
  rw [tokensText, String.toList_append, String.toList_append, hText]
  exact ⟨c, _, rfl, hc⟩

/-- What is written after a token. -/
def afterText (inBlock : Bool) (t : TokenTree) (ts : Tokens) : List Char :=
  (if needsSpace inBlock t ts.head? then [' '] else []) ++ (tokensText inBlock ts).toList

theorem toList_tokensText_cons (t : TokenTree) (ts : Tokens) :
    (tokensText inBlock (t :: ts)).toList =
      (treeText inBlock t).toList ++ afterText inBlock t ts := by
  rw [tokensText, afterText, String.toList_append, String.toList_append, List.append_assoc]
  split <;> rfl

/-- A token is cut off before what is written after it. -/
theorem stands_afterText (inBlock : Bool) (t : TokenTree) {ts : Tokens} (hts : AreReadable ts)
    (hRest : Follows .token rest) : Stands t (afterText inBlock t ts ++ rest) := by
  unfold afterText
  split
  · exact stands_of_follows t (follows_space _)
  · rename_i hSpace
    cases ts with
    | nil => exact stands_of_follows t hRest
    | cons u ts =>
      obtain ⟨c, s, hText, hc⟩ := exists_begins hts
      have hApart : runsTogether t u = false := by
        cases hTogether : runsTogether t u with
        | false => rfl
        | true => exact absurd (by simp [needsSpace, hTogether]) hSpace
      rw [hText]
      exact stands_of_begins hApart hc _

/-! ## Reading tokens -/

/-- The mark of a lifetime before a literal that begins like a name. -/
theorem cuts_tick {text : String} (h : BeginsLikeName text) :
    Cuts φ ['\''] (text.toList ++ rest) [.leaf (.mark '\'' true)] := by
  obtain ⟨c, t, d, u, hList, hc, hDrop, hd⟩ := h
  simp only [List.mem_cons, List.not_mem_nil, or_false, not_or] at hd
  have hAfter : (t ++ rest).dropWhile isWordPart = d :: (u ++ rest) := by
    rw [List.dropWhile_append, hDrop]
    rfl
  -- No mark stands at once after the first letter.
  have hSecond : ∀ e v, t ++ rest = e :: v → e ≠ '\'' ∧ e ≠ '#' := by
    intro e v hEq
    by_cases he : isWordPart e = true
    · exact ⟨ne_of_isWordPart he (by decide), ne_of_isWordPart he (by decide)⟩
    · rw [hEq, List.dropWhile_cons_of_neg he] at hAfter
      rwa [(List.cons.inj hAfter).1]
  have hLiteral : takeLiteral ('\'' :: c :: (t ++ rest)) = none := by
    refine takeLiteral_tick_eq_none hc fun hTick => ?_
    obtain ⟨v, hEq⟩ := List.head?_eq_some_iff.mp hTick
    exact absurd rfl (hSecond _ _ hEq).1
  have hName : ∃ w, takeName (c :: (t ++ rest)) = some (w, d :: (u ++ rest)) := by
    unfold takeName
    split
    · rename_i hEq
      exact absurd rfl (hSecond _ _ (List.cons.inj hEq).2).2
    · rw [takeWord, if_pos hc, hAfter]
      exact ⟨_, rfl⟩
  obtain ⟨w, hName⟩ := hName
  rw [hList, List.cons_append]
  apply Cuts.leaf (.of_mark (by decide) (by decide))
  rw [List.nil_append, leafToken, hLiteral, markToken, takeMark_cons (by decide),
    if_pos (by decide)]
  simp [hName, hd]

/-- The slash is a mark unless it begins a comment. -/
theorem cuts_slash (h : ∀ d ∈ rest.head?, d ≠ '/' ∧ d ≠ '*') :
    Cuts φ ['/'] rest [.leaf (.mark '/' (takeMark rest).isSome)] := by
  have hMark : takeMark ('/' :: rest) = some ('/', rest) := by
    unfold takeMark
    split
    · rename_i hList
      exact absurd rfl (h '/' (by rw [(List.cons.inj hList).2]; rfl)).1
    · rename_i hList
      exact absurd rfl (h '*' (by rw [(List.cons.inj hList).2]; rfl)).2
    · rename_i hList
      cases hList
      rfl
    · rename_i hList
      cases hList
  have hPlain : skipOne ('/' :: rest) = none ∧ docComment ('/' :: rest) = none := by
    cases rest with
    | nil => exact ⟨by decide, by decide⟩
    | cons d rest =>
      obtain ⟨hSlash, hStar⟩ := h d rfl
      have hSlash : ('/' == d) = false := beq_false_of_ne hSlash.symm
      have hStar : ('*' == d) = false := beq_false_of_ne hStar.symm
      constructor
      · simp [skipOne, beginsLineComment, beginsBlockComment, beginsWith, List.isPrefixOf, hSlash,
          hStar, isSpace_slash]
      · simp [docComment, beginsWith, List.isPrefixOf, hSlash, hStar]
  have hLeaf : leafToken ('/' :: rest) = some (.mark '/' (takeMark rest).isSome, rest) := by
    rw [leafToken, takeLiteral_eq_none (by decide) (by decide), markToken, hMark]
    simp
  intro level outer level' outer' r hNest hReads
  cases hNest
  exact .inl (ReadsAs.leaf hPlain.1 hPlain.2 rfl rfl hLeaf (Nat.le_refl _) hReads)

theorem beginsToken_of_literal {c : Char} (h : c ∈ quotedStarts ∨ c.isDigit = true) :
    BeginsToken c := by
  let p (c : Char) := c != '/' && !isSpace c && (opens? c).isNone && (closes? c).isNone
  have hc : p c = true := by
    rcases h with hQuoted | hDigit
    · exact List.all_eq_true.mp (show quotedStarts.all p = true by decide) c hQuoted
    · exact of_isDigit (by decide) hDigit
  simp only [p, Bool.and_eq_true, Bool.not_eq_true', Option.isNone_iff_eq_none, bne_iff_ne] at hc
  exact ⟨hc.1.1.1, hc.1.1.2, hc.1.2, hc.2⟩

theorem cuts_isLiteral {kind : Literal} {text : String} (h : IsLiteral kind text)
    (hRest : EndsLiteral kind rest) :
    Cuts φ text.toList rest [.leaf (.literal kind text)] := by
  obtain ⟨c, s, hText⟩ := List.exists_cons_of_ne_nil h.ne_nil
  have hRead := h.takeLiteral_append rest hRest
  rw [hText] at hRead
  have hBegins : BeginsToken c := beginsToken_of_literal (begins_of_isLiteral h hText)
  have hCuts : Cuts φ _ rest _ := cuts_literal hBegins hRead
  rwa [← hText, String.ofList_toList] at hCuts

/-! ### Sequences -/

/-- The tokens differ at most in which marks are joined. -/
inductive AreAlike : Tokens → Tokens → Prop where
  | nil : AreAlike [] []
  | same (t : TokenTree) {ts us : Tokens} (h : AreAlike ts us) : AreAlike (t :: ts) (t :: us)
  | mark (c : Char) (joint joint' : Bool) {ts us : Tokens} (h : AreAlike ts us) :
      AreAlike (.mark c joint :: ts) (.mark c joint' :: us)
  | group (d : Delimiter) {trees inner ts us : Tokens} (hTrees : AreAlike trees inner)
      (h : AreAlike ts us) : AreAlike (.group d trees :: ts) (.group d inner :: us)

theorem AreAlike.append {ts us ts' us' : Tokens} (h : AreAlike ts us) (h' : AreAlike ts' us') :
    AreAlike (ts ++ ts') (us ++ us') := by
  induction h with
  | nil => exact h'
  | same t _ ih => exact .same t ih
  | mark c joint joint' _ ih => exact .mark c joint joint' ih
  | group d hTrees _ _ ih => exact .group d hTrees ih

/-- Before this rest, the text is cut into lexemes that nest into tokens like these. -/
def CutsAlike (φ : Prop) (ts : Tokens) (s rest : List Char) : Prop :=
  ∃ ls, Yields (AreAlike ts) ls ∧ Cuts φ s rest ls

/-- What the text of tokens is read as. -/
abbrev ReadsAlike (φ : Prop) (ts : Tokens) (s : List Char) : Prop :=
  Reads φ .free .token (Yields (AreAlike ts)) s

theorem cutsAlike_leaf {t : TokenTree} {s : List Char} (h : Cuts φ s rest [.leaf t]) :
    CutsAlike φ [t] s rest :=
  ⟨_, (Yields.leaf t).imp fun _ hts => hts ▸ .same t .nil, h⟩

theorem cutsAlike_group {d : Delimiter} {trees : Tokens}
    (h : ReadsAlike φ trees (tokensText (inBlock || d == .brace) trees).toList) :
    CutsAlike φ [.group d trees] (treeText inBlock (.group d trees)).toList rest := by
  have hOpens : isPhrase .free .free d.marks.1 = true ∧
      ∀ joint, lexemesOf .free joint d.marks.1 = [.opening d] := by
    cases d <;> exact ⟨by decide, fun joint => rfl⟩
  have hCloses : isPhrase .token .free d.marks.2 = true ∧
      ∀ joint, lexemesOf .free joint d.marks.2 = [.closing d] := by
    cases d <;> exact ⟨by decide, fun joint => rfl⟩
  have hAll := ((reads_phrase hOpens.1).append h).append (reads_phrase (φ := φ) hCloses.1)
  obtain ⟨-, ls, ⟨_, _, rfl, ⟨_, ms, rfl, ⟨joint, rfl⟩, hms⟩, joint', rfl⟩, hCuts⟩ :=
    hAll rest trivial
  rw [hOpens.2, hCloses.2, List.singleton_append, List.cons_append] at hCuts
  rw [treeText, String.toList_append, String.toList_append]
  refine ⟨_, (hms.group d).imp ?_, hCuts⟩
  rintro ts ⟨us, rfl, hus⟩
  exact .group d hus .nil

/-- A token and what is written after it. -/
theorem reads_cons {t : TokenTree} {ts : Tokens} (hts : AreReadable ts)
    (hTree : ∀ rest, Stands t rest → CutsAlike φ [t] (treeText inBlock t).toList rest)
    (h : ReadsAlike φ ts (tokensText inBlock ts).toList) :
    ReadsAlike φ (t :: ts) (tokensText inBlock (t :: ts)).toList := by
  intro rest hRest
  obtain ⟨-, ms, hms, hCuts⟩ := h rest hRest
  have hAfter : Cuts φ (afterText inBlock t ts) rest ms := by
    unfold afterText
    split
    · exact Cuts.append (Cuts.skip rfl) hCuts
    · exact hCuts
  obtain ⟨ls, hls, hFirst⟩ := hTree _ (stands_afterText inBlock t hts hRest)
  rw [toList_tokensText_cons]
  refine ⟨trivial, ls ++ ms, (hls.append hms).imp ?_, hFirst.append hAfter⟩
  rintro _ ⟨us, vs, rfl, hus, hvs⟩
  exact hus.append hvs

/-- The mark of a lifetime stands at once before the token that belongs to it. -/
theorem reads_lifetime {t : TokenTree} {ts : Tokens} (hts : AreReadable ts)
    (hAlone : needsSpace inBlock (.mark '\'' true) (some t) = false)
    (hTick : ∀ rest, Stands t rest →
      Cuts φ ['\''] ((treeText inBlock t).toList ++ rest) [.leaf (.mark '\'' true)])
    (h : ReadsAlike φ (t :: ts) (tokensText inBlock (t :: ts)).toList) :
    ReadsAlike φ (.mark '\'' true :: t :: ts)
      (tokensText inBlock (.mark '\'' true :: t :: ts)).toList := by
  intro rest hRest
  obtain ⟨-, ms, hms, hCuts⟩ := h rest hRest
  have hText : (tokensText inBlock (.mark '\'' true :: t :: ts)).toList =
      ['\''] ++ (tokensText inBlock (t :: ts)).toList := by
    rw [toList_tokensText_cons, toList_treeText_mark, afterText, List.head?_cons, hAlone]
    rfl
  have hFirst := hTick _ (stands_afterText inBlock t hts hRest)
  rw [← List.append_assoc, ← toList_tokensText_cons] at hFirst
  rw [hText]
  refine ⟨trivial, [_] ++ ms, ((Yields.leaf _).append hms).imp ?_, hFirst.append hCuts⟩
  rintro _ ⟨_, us, rfl, rfl, hus⟩
  exact .same _ hus

/-- The text of tokens is read as the same tokens, but for which marks are joined. -/
theorem reads_tokensText (inBlock : Bool) {ts : Tokens} (h : AreReadable ts) :
    ReadsAlike φ ts (tokensText inBlock ts).toList := by
  have hWord : ∀ {inBlock : Bool} {w : String}, IsName w → ∀ rest, Stands (.word w) rest →
      CutsAlike φ [.word w] (treeText inBlock (.word w)).toList rest :=
    fun hw _ hRest => cutsAlike_leaf (cuts_name hw hRest)
  have hLiteral : ∀ {inBlock : Bool} {kind : Literal} {text : String}, IsLiteral kind text →
      ∀ rest, Stands (.literal kind text) rest →
        CutsAlike φ [.literal kind text] (treeText inBlock (.literal kind text)).toList rest :=
    fun hText _ hRest => cutsAlike_leaf (cuts_isLiteral hText hRest)
  -- The mark of a lifetime, or before a literal, is read with the token after it.
  induction h generalizing inBlock with
  | nil =>
    intro rest hRest
    exact ⟨trivial, [], Yields.nil.imp fun _ hts => hts ▸ .nil, .nil⟩
  | word hw hts ih => exact reads_cons hts (hWord hw) (ih inBlock)
  | @mark c joint ts hc hTick hts ih =>
    refine reads_cons hts (fun rest hRest => ⟨[.leaf (.mark c (takeMark rest).isSome)], ?_, ?_⟩)
      (ih inBlock)
    · exact (Yields.leaf _).imp fun _ hts => hts ▸ .mark c joint _ .nil
    · rw [toList_treeText_mark]
      by_cases hSlash : c = '/'
      · subst hSlash
        exact cuts_slash (hRest rfl)
      · exact cuts_mark hc hSlash hTick
  | lifetime hw hts ih =>
    exact reads_lifetime hts (by cases inBlock <;> rfl) (fun rest hRest => cuts_lifetime hw hRest)
      (reads_cons hts (hWord hw) (ih inBlock))
  | literal hText hts ih => exact reads_cons hts (hLiteral hText) (ih inBlock)
  | @tick kind text ts hText hBegins hts ih =>
    exact reads_lifetime hts (by cases inBlock <;> rfl) (fun rest _ => cuts_tick hBegins)
      (reads_cons hts (hLiteral hText) (ih inBlock))
  | group hTrees hts ihTrees ih =>
    exact reads_cons hts (fun rest _ => cutsAlike_group (ihTrees _)) (ih inBlock)

end CommandDispatch.Layout
