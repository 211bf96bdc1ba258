import Mathlib.Data.List.Basic
import CommandDispatch.Source.Lexer

/-!
# What is read from texts that stand one after the other

Reading a text as tokens matches delimiters on the way. Here the two are taken apart: a text is cut
into lexemes, of which the delimiters are some, and lexemes are nested. Texts that are cut one by
one can then be put together.

* `nest` matches the delimiters of lexemes,
* `Cuts φ s rest ls`: before `rest`, the text `s` is cut into the lexemes `ls`,
* `Cuts.append`: texts that are cut one after the other,
* `tokenize_of_cuts`: a text that is cut into lexemes is read as what they nest into.
-/

namespace CommandDispatch.Source

/-! ## Blanks and comments -/

theorem length_restOfLine_le (s : List Char) : (restOfLine s).2.length ≤ s.length := by
  fun_induction restOfLine s with
  | case1 rest => simp
  | case2 rest => simp
  | case3 => simp
  | case4 c rest hReturn hNewline line after hRest ih =>
    rw [hRest] at ih
    exact Nat.le_succ_of_le ih

theorem length_blockComment_lt {depth : Nat} {inside s text rest : List Char}
    (h : blockComment depth inside s = some (text, rest)) : rest.length < s.length := by
  fun_induction blockComment depth inside s with
  | case1 depth inside s ih =>
    have := ih h
    simp only [List.length_cons]
    omega
  | case2 depth inside s hDepth =>
    cases h
    simp only [List.length_cons]
    omega
  | case3 depth inside s hDepth ih =>
    have := ih h
    simp only [List.length_cons]
    omega
  | case4 depth inside c s hOpen hClose ih =>
    have := ih h
    simp only [List.length_cons]
    omega
  | case5 => cases h

theorem exists_of_beginsWith {s : List Char} {start : String} (h : beginsWith s start = true) :
    ∃ rest, s = start.toList ++ rest := by
  obtain ⟨rest, hRest⟩ := List.isPrefixOf_iff_prefix.mp h
  exact ⟨rest, hRest.symm⟩

theorem length_skipOne_lt {s rest : List Char} (h : skipOne s = some rest) :
    rest.length < s.length := by
  unfold skipOne at h
  split at h
  · rename_i hLine
    simp only [beginsLineComment, Bool.and_eq_true] at hLine
    obtain ⟨tail, rfl⟩ := exists_of_beginsWith hLine.1.1
    cases h
    have hTail := length_restOfLine_le ('/' :: tail)
    have hFirst : (restOfLine ('/' :: '/' :: tail)).2 = (restOfLine ('/' :: tail)).2 := rfl
    show (restOfLine ('/' :: '/' :: tail)).2.length < tail.length + 2
    rw [hFirst]
    exact Nat.lt_succ_of_le hTail
  · split at h
    · rename_i hEmpty
      obtain ⟨tail, rfl⟩ := exists_of_beginsWith hEmpty
      cases h
      show tail.length < tail.length + 4
      omega
    · split at h
      · obtain ⟨⟨text, after⟩, hBlock, rfl⟩ := Option.map_eq_some_iff.mp h
        have hLt := length_blockComment_lt hBlock
        rw [List.length_drop] at hLt
        dsimp only
        omega
      · split at h
        · split at h
          · cases h
            exact Nat.lt_succ_self _
          · cases h
        · cases h

/-- Skipping is complete as soon as the number of steps is that of the characters. -/
theorem skipUpTo_eq_of_length_le {s : List Char} {n m : Nat} (hn : s.length ≤ n)
    (hm : s.length ≤ m) : skipUpTo n s = skipUpTo m s := by
  induction n generalizing s m with
  | zero =>
    obtain rfl := List.length_eq_zero_iff.mp (Nat.le_zero.mp hn)
    cases m <;> rfl
  | succ n ih =>
    cases m with
    | zero =>
      obtain rfl := List.length_eq_zero_iff.mp (Nat.le_zero.mp hm)
      rfl
    | succ m =>
      rw [skipUpTo, skipUpTo]
      cases hSkip : skipOne s with
      | none => rfl
      | some rest =>
        have hLt := length_skipOne_lt hSkip
        exact ih (by omega) (by omega)

theorem skipUpTo_of_skipOne_eq_none {s : List Char} (h : skipOne s = none) (n : Nat) :
    skipUpTo n s = s := by
  cases n with
  | zero => rfl
  | succ n => rw [skipUpTo, h]

/-! ## Reading on -/

/-- From here on the text is read, whatever the number of steps beyond its length, and this is what
comes of it together with the tokens that were read before. -/
def ReadsAs (level : Tokens) (outer : List (Delimiter × Tokens)) (s : List Char)
    (result : Option Tokens) : Prop :=
  ∀ steps, s.length < steps → readTokens steps level outer s = result

namespace ReadsAs

variable {level : Tokens} {outer : List (Delimiter × Tokens)} {s rest : List Char}
  {r : Option Tokens}

theorem skip (hSkip : skipOne s = some rest) (h : ReadsAs level outer rest r) :
    ReadsAs level outer s r := by
  intro steps hSteps
  have hLt := length_skipOne_lt hSkip
  obtain ⟨n, rfl⟩ := Nat.exists_eq_add_of_lt (Nat.lt_of_lt_of_le hLt (Nat.le_of_lt hSteps))
  have hRest := h (rest.length + n + 1) (by omega)
  have hSame : skipUpTo (rest.length + n) s = skipUpTo (rest.length + n) rest := by
    have hBelow : s.length ≤ rest.length + n := Nat.le_of_lt_succ hSteps
    obtain ⟨m, hm⟩ := Nat.exists_eq_succ_of_ne_zero
      (Nat.ne_zero_of_lt (Nat.lt_of_lt_of_le hLt hBelow))
    rw [hm, skipUpTo, hSkip]
    exact skipUpTo_eq_of_length_le (by omega) (by omega)
  rw [readTokens] at hRest ⊢
  rw [hSame]
  exact hRest

theorem nil : ReadsAs level [] [] (some level.reverse) := by
  intro steps hSteps
  obtain ⟨n, rfl⟩ := Nat.exists_eq_succ_of_ne_zero (Nat.ne_zero_of_lt hSteps)
  have hSkip : skipUpTo n [] = [] := skipUpTo_of_skipOne_eq_none rfl n
  rw [readTokens, hSkip]
  rfl

theorem opening {c : Char} {d : Delimiter} (hNone : skipOne (c :: rest) = none)
    (hDoc : docComment (c :: rest) = none) (hOpens : opens? c = some d)
    (h : ReadsAs [] ((d, level) :: outer) rest r) : ReadsAs level outer (c :: rest) r := by
  intro steps hSteps
  obtain ⟨n, rfl⟩ := Nat.exists_eq_succ_of_ne_zero (Nat.ne_zero_of_lt hSteps)
  rw [readTokens, skipUpTo_of_skipOne_eq_none hNone, hDoc]
  simp only [hOpens]
  exact h n (Nat.lt_of_succ_lt_succ hSteps)

theorem closing {c : Char} {d : Delimiter} {before : Tokens}
    (hNone : skipOne (c :: rest) = none) (hDoc : docComment (c :: rest) = none)
    (hOpens : opens? c = none) (hCloses : closes? c = some d)
    (h : ReadsAs (.group d level.reverse :: before) outer rest r) :
    ReadsAs level ((d, before) :: outer) (c :: rest) r := by
  intro steps hSteps
  obtain ⟨n, rfl⟩ := Nat.exists_eq_succ_of_ne_zero (Nat.ne_zero_of_lt hSteps)
  rw [readTokens, skipUpTo_of_skipOne_eq_none hNone, hDoc]
  simp only [hOpens, hCloses, if_true]
  exact h n (Nat.lt_of_succ_lt_succ hSteps)

theorem leaf {c : Char} {s : List Char} {t : TokenTree} (hNone : skipOne (c :: s) = none)
    (hDoc : docComment (c :: s) = none) (hOpens : opens? c = none) (hCloses : closes? c = none)
    (hLeaf : leafToken (c :: s) = some (t, rest)) (hLength : rest.length ≤ s.length)
    (h : ReadsAs (t :: level) outer rest r) : ReadsAs level outer (c :: s) r := by
  intro steps hSteps
  obtain ⟨n, rfl⟩ := Nat.exists_eq_succ_of_ne_zero (Nat.ne_zero_of_lt hSteps)
  rw [readTokens, skipUpTo_of_skipOne_eq_none hNone, hDoc]
  simp only [hOpens, hCloses, hLeaf]
  exact h n (Nat.lt_of_le_of_lt hLength (Nat.lt_of_succ_lt_succ hSteps))

/-- Nothing is read from a text that begins with no token. -/
theorem stuck {c : Char} {s : List Char} (hNone : skipOne (c :: s) = none)
    (hDoc : docComment (c :: s) = none) (hOpens : opens? c = none) (hCloses : closes? c = none)
    (hLeaf : leafToken (c :: s) = none) : ReadsAs level outer (c :: s) none := by
  intro steps hSteps
  obtain ⟨n, rfl⟩ := Nat.exists_eq_succ_of_ne_zero (Nat.ne_zero_of_lt hSteps)
  rw [readTokens, skipUpTo_of_skipOne_eq_none hNone, hDoc]
  simp only [hOpens, hCloses, hLeaf]

theorem comment {inner : Bool} {text : List Char} (hNone : skipOne s = none)
    (hDoc : docComment s = some (inner, text, rest)) (hLength : rest.length < s.length)
    (h : ReadsAs ((docAttribute inner text).reverse ++ level) outer rest r) :
    ReadsAs level outer s r := by
  intro steps hSteps
  obtain ⟨n, rfl⟩ := Nat.exists_eq_succ_of_ne_zero (Nat.ne_zero_of_lt hSteps)
  rw [readTokens, skipUpTo_of_skipOne_eq_none hNone, hDoc]
  exact h n (Nat.lt_of_lt_of_le hLength (Nat.le_of_lt_succ hSteps))

end ReadsAs

/-! ## Lexemes -/

/-- What a text is cut into before its delimiters are matched. -/
inductive Lexeme where
  | leaf (t : TokenTree)
  | opening (d : Delimiter)
  | closing (d : Delimiter)

/-- Matches delimiters. As for a text, `level` holds the tokens in the innermost group that is open,
last first, and `outer` the groups around it. -/
def nest : List Lexeme → Tokens → List (Delimiter × Tokens) →
    Option (Tokens × List (Delimiter × Tokens))
  | [], level, outer => some (level, outer)
  | .leaf t :: ls, level, outer => nest ls (t :: level) outer
  | .opening d :: ls, level, outer => nest ls [] ((d, level) :: outer)
  | .closing _ :: _, _, [] => none
  | .closing d :: ls, level, (opened, before) :: outer =>
    if opened = d then nest ls (.group d level.reverse :: before) outer else none

theorem nest_append (ls ms : List Lexeme) (level : Tokens) (outer : List (Delimiter × Tokens)) :
    nest (ls ++ ms) level outer =
      (nest ls level outer).bind fun (level, outer) => nest ms level outer := by
  fun_induction nest ls level outer with
  | case1 level outer => rfl
  | case2 t ls level outer ih => exact ih
  | case3 d ls level outer ih => exact ih
  | case4 => rfl
  | case5 level ls opened before outer ih =>
    rw [List.cons_append, nest, if_pos rfl]
    exact ih
  | case6 d ls level opened before outer hNe =>
    rw [List.cons_append, nest, if_neg hNe]
    rfl

/-- Before the given rest, the text is cut into these lexemes. If `φ` holds, it may also be that the
text is not read at all. -/
def Cuts (φ : Prop) (s rest : List Char) (ls : List Lexeme) : Prop :=
  ∀ level outer level' outer' r, nest ls level outer = some (level', outer') →
    ReadsAs level' outer' rest r →
      ReadsAs level outer (s ++ rest) r ∨ φ ∧ ReadsAs level outer (s ++ rest) none

namespace Cuts

variable {φ : Prop} {s t rest : List Char} {ls ms : List Lexeme}

theorem nil : Cuts φ [] rest [] := by
  intro level outer level' outer' r hNest h
  cases hNest
  exact .inl h

theorem append (h : Cuts φ s (t ++ rest) ls) (h' : Cuts φ t rest ms) :
    Cuts φ (s ++ t) rest (ls ++ ms) := by
  intro level outer level' outer' r hNest hReads
  rw [nest_append] at hNest
  obtain ⟨⟨level₁, outer₁⟩, hFirst, hSecond⟩ := Option.bind_eq_some_iff.mp hNest
  rw [List.append_assoc]
  obtain hRest | ⟨hφ, hRest⟩ := h' _ _ _ _ _ hSecond hReads
  · exact h _ _ _ _ _ hFirst hRest
  · exact .inr ⟨hφ, (h _ _ _ _ _ hFirst hRest).elim id And.right⟩

theorem skip {c : Char} (hSkip : skipOne (c :: rest) = some rest) : Cuts φ [c] rest [] := by
  intro level outer level' outer' r hNest h
  cases hNest
  exact .inl (ReadsAs.skip hSkip h)

/-- A text that is not read, whatever stands before it. -/
theorem of_not_read (hφ : φ) (h : ∀ level outer, ReadsAs level outer (s ++ rest) none) :
    Cuts φ s rest ls :=
  fun level outer _ _ _ _ _ => .inr ⟨hφ, h level outer⟩

end Cuts

/-- A text that is cut into lexemes is read as what they nest into, if it is read. -/
theorem tokenize_of_cuts {φ : Prop} {s : List Char} {ls : List Lexeme} {level : Tokens}
    (hMark : s.head? ≠ some '\ufeff') (h : Cuts φ s [] ls)
    (hNest : nest ls [] [] = some (level, [])) :
    tokenize s = some level.reverse ∨ φ ∧ tokenize s = none := by
  rw [tokenize, if_neg hMark]
  have hReads := h _ _ _ _ _ hNest ReadsAs.nil
  rw [List.append_nil] at hReads
  exact hReads.imp (· _ (Nat.lt_succ_self _)) fun ⟨hφ, hNone⟩ => ⟨hφ, hNone _ (Nat.lt_succ_self _)⟩

end CommandDispatch.Source
