import CommandDispatch.Proofs.Source.Literal
import CommandDispatch.Proofs.Source.Name

/-!
# Tokens that can be written and read again

The tokens of a text are names, marks, lifetimes, literals that are read back, and groups of such
tokens. The mark of a lifetime never stands alone: a name follows it, or a literal that begins like
one.

* `AreReadable` holds of such tokens,
* `areReadable_of_tokenize`: the tokens of every text are.
-/

namespace CommandDispatch.Source

open Text

/-- The text is a literal of this kind wherever that can end. -/
structure IsLiteral (kind : Literal) (text : String) : Prop where
  ne_nil : text.toList ≠ []
  takeLiteral_append : ∀ rest, EndsLiteral kind rest →
    takeLiteral (text.toList ++ rest) = some (kind, rest)

/-- The text begins with a word, after which no mark makes something else of it. -/
def BeginsLikeName (text : String) : Prop :=
  ∃ c t d u, text.toList = c :: t ∧ isWordStart c = true ∧ t.dropWhile isWordPart = d :: u ∧
    d ∉ ['\'', '#']

/-- Tokens as they are read from texts. -/
inductive AreReadable : Tokens → Prop where
  | nil : AreReadable []
  | word {w : String} {ts : Tokens} (hw : IsName w) (hts : AreReadable ts) :
      AreReadable (.word w :: ts)
  | mark {c : Char} {joint : Bool} {ts : Tokens} (hc : markCharacters.contains c = true)
      (hTick : c ≠ '\'') (hts : AreReadable ts) : AreReadable (.mark c joint :: ts)
  | lifetime {w : String} {ts : Tokens} (hw : IsName w) (hts : AreReadable ts) :
      AreReadable (.mark '\'' true :: .word w :: ts)
  | literal {kind : Literal} {text : String} {ts : Tokens} (h : IsLiteral kind text)
      (hts : AreReadable ts) : AreReadable (.literal kind text :: ts)
  | tick {kind : Literal} {text : String} {ts : Tokens} (h : IsLiteral kind text)
      (hBegins : BeginsLikeName text) (hts : AreReadable ts) :
      AreReadable (.mark '\'' true :: .literal kind text :: ts)
  | group {d : Delimiter} {trees ts : Tokens} (hTrees : AreReadable trees)
      (hts : AreReadable ts) : AreReadable (.group d trees :: ts)

theorem AreReadable.append {ts us : Tokens} (hts : AreReadable ts) (hus : AreReadable us) :
    AreReadable (ts ++ us) := by
  induction hts with
  | nil => exact hus
  | word hw _ ih => exact .word hw ih
  | mark hc hTick _ ih => exact .mark hc hTick ih
  | lifetime hw _ ih => exact .lifetime hw ih
  | literal h _ ih => exact .literal h ih
  | tick h hBegins _ ih => exact .tick h hBegins ih
  | group hTrees _ _ ih => exact .group hTrees ih

/-! ## Single tokens -/

/-- What is cut off as a literal is one wherever it stands. -/
theorem exists_isLiteral_of_takeLiteral {s rest : List Char} {kind : Literal}
    (h : takeLiteral s = some (kind, rest)) :
    ∃ text : String, IsLiteral kind text ∧ s = text.toList ++ rest ∧
      String.ofList (s.take (s.length - rest.length)) = text := by
  obtain ⟨u, hNe, rfl, hu⟩ := takeLiteral_append h
  refine ⟨String.ofList u, ⟨?_, ?_⟩, ?_, ?_⟩
  · rwa [String.toList_ofList]
  · rwa [String.toList_ofList]
  · rw [String.toList_ofList]
  · rw [List.length_append, Nat.add_sub_cancel, List.take_left]

theorem isLiteral_stringLiteral (s : String) : IsLiteral (.string s) (stringLiteral s) where
  ne_nil := by
    rw [stringLiteral, String.toList_ofList]
    exact List.cons_ne_nil _ _
  takeLiteral_append rest hRest := by
    rw [takeLiteral_stringLiteral, dropWord_eq_self hRest]

theorem areReadable_docAttribute (inner : Bool) (text : List Char) :
    AreReadable (docAttribute inner text) := by
  have hInside : AreReadable
      [.word "doc", .mark '=' false,
        .literal (.string (String.ofList text)) (stringLiteral (String.ofList text))] :=
    .word (by decide) (.mark (by decide) (by decide) (.literal (isLiteral_stringLiteral _) .nil))
  cases inner with
  | false => exact .mark (by decide) (by decide) (.group hInside .nil)
  | true =>
    exact .mark (by decide) (by decide) (.mark (by decide) (by decide) (.group hInside .nil))

/-- The text goes on like a lifetime after its mark. -/
inductive GoesOnLifetime : List Char → Prop where
  | raw {c : Char} {s : List Char} (hc : isWordStart c = true) :
      GoesOnLifetime ('r' :: '#' :: c :: s)
  | plain {c : Char} {s : List Char} (hc : isWordStart c = true)
      (hEnd : ∀ d ∈ (s.dropWhile isWordPart).head?, d ∉ ['\'', '#']) : GoesOnLifetime (c :: s)

theorem goesOnLifetime_of_takeName {s after : List Char} {w : String}
    (h : takeName s = some (w, after)) (hClosed : after.head? ≠ some '\'')
    (hHashed : after.head? = some '#' → beginsWith s "r#" = true) : GoesOnLifetime s := by
  unfold takeName at h
  split at h
  · split at h
    · rename_i word rest hWord
      obtain ⟨c, t, rfl, hc, -, -⟩ := takeWord_eq_some hWord
      exact .raw hc
    · cases h
  · rename_i hRaw
    obtain ⟨⟨word, rest⟩, hWord, hEq⟩ := Option.map_eq_some_iff.mp h
    cases hEq
    obtain ⟨c, t, rfl, hc, -, rfl⟩ := takeWord_eq_some hWord
    refine .plain hc fun d hd hMem => ?_
    rcases List.mem_cons.mp hMem with rfl | hMem
    · exact hClosed hd
    · obtain rfl := List.mem_singleton.mp hMem
      obtain ⟨u, hu⟩ := exists_of_beginsWith (hHashed hd)
      exact hRaw u hu

theorem contains_of_takeMark {s after : List Char} {c : Char} (h : takeMark s = some (c, after)) :
    markCharacters.contains c = true := by
  unfold takeMark at h
  split at h
  · cases h
  · cases h
  · split at h
    · rename_i hContains
      cases h
      exact hContains
    · cases h
  · cases h

theorem markToken_cases {s rest : List Char} {t : TokenTree} (h : markToken s = some (t, rest)) :
    (∃ c joint, t = .mark c joint ∧ markCharacters.contains c = true ∧ c ≠ '\'') ∨
      t = .mark '\'' true ∧ GoesOnLifetime rest := by
  simp only [markToken, Option.bind_eq_bind, Option.bind_eq_some_iff, Prod.exists] at h
  obtain ⟨c, after, hMark, h⟩ := h
  have hContains : markCharacters.contains c = true := contains_of_takeMark hMark
  split at h
  · rename_i hTick
    subst hTick
    simp only [Option.bind_eq_some_iff, Prod.exists] at h
    obtain ⟨w, tail, hName, h⟩ := h
    split at h
    · cases h
    · rename_i hOpen
      cases h
      simp only [Bool.or_eq_true, Bool.and_eq_true, decide_eq_true_eq, Bool.not_eq_true', not_or,
        not_and, Bool.not_eq_false] at hOpen
      exact .inr ⟨rfl, goesOnLifetime_of_takeName hName hOpen.1 hOpen.2⟩
  · rename_i hTick
    cases h
    exact .inl ⟨c, _, rfl, hContains, hTick⟩

theorem leafToken_cases {s rest : List Char} {t : TokenTree} (h : leafToken s = some (t, rest)) :
    AreReadable [t] ∨ t = .mark '\'' true ∧ GoesOnLifetime rest := by
  unfold leafToken at h
  split at h
  · rename_i kind after hLiteral
    cases h
    obtain ⟨text, hText, -, hTake⟩ := exists_isLiteral_of_takeLiteral hLiteral
    rw [hTake]
    exact .inl (.literal hText .nil)
  · split at h
    · rename_i found hMark
      cases h
      obtain ⟨c, joint, rfl, hc, hTick⟩ | hLifetime := markToken_cases hMark
      · exact .inl (.mark hc hTick .nil)
      · exact .inr hLifetime
    · split at h
      · cases h
      · obtain ⟨⟨w, after⟩, hName, hEq⟩ := Option.map_eq_some_iff.mp h
        cases hEq
        exact .inl (.word (isName_of_takeName hName) .nil)

/-! ## After the mark of a lifetime -/

theorem GoesOnLifetime.exists_cons {s : List Char} (h : GoesOnLifetime s) :
    ∃ c t, s = c :: t ∧ isWordStart c = true := by
  cases h with
  | raw _ => exact ⟨'r', _, rfl, by decide⟩
  | plain hc _ => exact ⟨_, _, rfl, hc⟩

/-- Something other than a word stands in a literal. -/
theorem exists_dropWhile_of_takeLiteral {c : Char} {t : List Char} {kind : Literal}
    (hc : isWordStart c = true) (h : takeLiteral (c :: t) = some (kind, [])) :
    ∃ d u, t.dropWhile isWordPart = d :: u := by
  cases hList : t.dropWhile isWordPart with
  | nil =>
    have hPlain : IsPlainWord c (t ++ []) :=
      isPlainWord_append hc (List.dropWhile_eq_nil_iff.mp hList) fun _ h => nomatch h
    rw [List.append_nil] at hPlain
    rw [hPlain.takeLiteral_eq_none] at h
    cases h
  | cons d u => exact ⟨d, u, rfl⟩

theorem beginsLikeName_of_isLiteral {c : Char} {s rest : List Char} {kind : Literal}
    {text : String} (hText : IsLiteral kind text) (hList : c :: s = text.toList ++ rest)
    (hc : isWordStart c = true) (hEnd : ∀ d ∈ (s.dropWhile isWordPart).head?, d ∉ ['\'', '#']) :
    BeginsLikeName text := by
  obtain ⟨d, v, hCons⟩ := List.exists_cons_of_ne_nil hText.ne_nil
  have hAlone := hText.takeLiteral_append [] (.of_endsNumber fun _ h => nomatch h)
  rw [hCons, List.cons_append] at hList
  obtain ⟨rfl, rfl⟩ := List.cons.inj hList
  rw [List.append_nil, hCons] at hAlone
  obtain ⟨d, u, hDrop⟩ := exists_dropWhile_of_takeLiteral hc hAlone
  refine ⟨c, v, d, u, hCons, hc, hDrop, hEnd d ?_⟩
  rw [List.dropWhile_append, hDrop]
  rfl

/-- What is read after the mark of a lifetime belongs to it. -/
theorem GoesOnLifetime.leafToken_cases {s rest : List Char} {t : TokenTree} (h : GoesOnLifetime s)
    (hLeaf : leafToken s = some (t, rest)) : AreReadable [.mark '\'' true, t] := by
  cases h with
  | raw hc =>
    rw [leafToken_rawWord (isWordPart_of_isWordStart hc)] at hLeaf
    obtain ⟨⟨w, after⟩, hName, hEq⟩ := Option.map_eq_some_iff.mp hLeaf
    cases hEq
    exact .lifetime (isName_of_takeName hName) .nil
  | @plain c s hc hEnd =>
    unfold leafToken at hLeaf
    split at hLeaf
    · rename_i kind after hLiteral
      cases hLeaf
      obtain ⟨text, hText, hList, hTake⟩ := exists_isLiteral_of_takeLiteral hLiteral
      rw [hTake]
      exact .tick hText (beginsLikeName_of_isLiteral hText hList hc hEnd) .nil
    · rw [markToken_of_isWordStart hc] at hLeaf
      dsimp only at hLeaf
      split at hLeaf
      · cases hLeaf
      · obtain ⟨⟨w, after⟩, hName, hEq⟩ := Option.map_eq_some_iff.mp hLeaf
        cases hEq
        exact .lifetime (isName_of_takeName hName) .nil

/-! ## Whole texts -/

/-- The tokens that were read in the innermost group are readable, but for the mark of a lifetime
whose name comes next. -/
inductive IsReadableLevel : Tokens → List Char → Prop where
  | whole {level : Tokens} {s : List Char} (h : AreReadable level.reverse) : IsReadableLevel level s
  | pending {level : Tokens} {s : List Char} (h : AreReadable level.reverse)
      (hs : GoesOnLifetime s) : IsReadableLevel (.mark '\'' true :: level) s

theorem AreReadable.reverse_cons {level : Tokens} {t : TokenTree}
    (h : AreReadable level.reverse) (ht : AreReadable [t]) : AreReadable (t :: level).reverse := by
  rw [List.reverse_cons]
  exact h.append ht

/-- The induction is on the steps: tokens are added to the level, and levels become groups. -/
theorem areReadable_of_readTokens {steps : Nat} {level : Tokens}
    {outer : List (Delimiter × Tokens)} {s : List Char} {ts : Tokens}
    (h : readTokens steps level outer s = some ts) (hLevel : IsReadableLevel level s)
    (hOuter : ∀ opened ∈ outer, AreReadable opened.2.reverse) : AreReadable ts := by
  induction steps generalizing level outer s with
  | zero => cases h
  | succ steps ih =>
    rw [readTokens] at h
    cases hLevel with
    | pending hBefore hs =>
      obtain ⟨c, t, rfl, hc⟩ := hs.exists_cons
      have hBegins := BeginsToken.of_isWordStart hc
      rw [skipUpTo_of_skipOne_eq_none (skipOne_eq_none hBegins.ne_slash hBegins.isSpace_eq t),
        docComment_eq_none hBegins.ne_slash] at h
      simp only [hBegins.opens_eq, hBegins.closes_eq] at h
      split at h
      · rename_i token rest hLeaf
        refine ih h (.whole ?_) hOuter
        rw [List.reverse_cons, List.reverse_cons, List.append_assoc]
        exact hBefore.append (hs.leafToken_cases hLeaf)
      · cases h
    | whole hBefore =>
      split at h
      · rename_i inner text rest _
        refine ih h (.whole ?_) hOuter
        rw [List.reverse_append, List.reverse_reverse]
        exact hBefore.append (areReadable_docAttribute inner text)
      · split at h
        · split at h
          · cases h
            exact hBefore
          · cases h
        · split at h
          · exact ih h (.whole .nil) (List.forall_mem_cons.mpr ⟨hBefore, hOuter⟩)
          · split at h
            · rename_i opened before further _
              split at h
              · obtain ⟨hOpened, hFurther⟩ := List.forall_mem_cons.mp hOuter
                exact ih h (.whole (hOpened.reverse_cons (.group hBefore .nil))) hFurther
              · cases h
            · cases h
          · split at h
            · rename_i token rest hLeaf
              obtain hToken | ⟨rfl, hLifetime⟩ := leafToken_cases hLeaf
              · exact ih h (.whole (hBefore.reverse_cons hToken)) hOuter
              · exact ih h (.pending hBefore hLifetime) hOuter
            · cases h

/-- The tokens of a text can be written and read again. -/
theorem areReadable_of_tokenize {s : List Char} {ts : Tokens} (h : tokenize s = some ts) :
    AreReadable ts :=
  areReadable_of_readTokens h (.whole .nil) (List.forall_mem_nil _)

/-- A text that is read as itself is a name. -/
theorem isIdentifier_of_parseName {w : String} (h : parseName w = some w) : IsIdentifier w := by
  obtain ⟨ts, hTokens, hWhole⟩ := Option.bind_eq_some_iff.mp h
  obtain ⟨rfl, hReserved⟩ := name_eq_some (whole_eq_some hWhole)
  cases areReadable_of_tokenize hTokens with
  | word hw _ => exact ⟨hw, hReserved⟩

end CommandDispatch.Source
