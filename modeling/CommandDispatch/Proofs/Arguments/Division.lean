import CommandDispatch.Proofs.Arguments.Bundle

/-!
# Where the text of a literal is divided

The tokens of a literal are joined by single spaces. So it does not matter which of its spaces are
inside a token and which are between two tokens, except that the first token of a flag holds no
second equals sign.

* `Progress.read_append_of_open`: a token that leaves a literal open, with more text at its end,
* `slice_eq_unterminatedString_iff_closed`: which tokens end inside a literal,
* `slice_joined`: two tokens of a literal, and the one that joins them with a space.
-/

namespace CommandDispatch.Arguments

open Text

/-- What stands before a piece of a literal does not change how it goes on. -/
theorem Piece.of_append {mark : Char} {s : List Char} (h : mark ∉ s) (t : List Char) :
    Piece.of mark (s ++ t) =
      match Piece.of mark t with
      | .continues => .continues
      | .closes text => .closes (s ++ text)
      | .misplaced => .misplaced := by
  by_cases hMem : mark ∈ t
  · have hNe : t ≠ [] := List.ne_nil_of_mem hMem
    by_cases hInit : mark ∈ t.dropLast
    · simp [Piece.of, hMem, hInit, List.dropLast_append_of_ne_nil hNe]
    · simp [Piece.of, h, hMem, hInit, List.dropLast_append_of_ne_nil hNe]
  · simp [Piece.of, h, hMem]

/-- A token without the hyphens that it begins with. -/
def afterHyphens (token : List Char) : List Char :=
  token.dropWhile (· == '-')

theorem afterHyphens_replicate {body : List Char} (h : body.head? ≠ some '-') (n : Nat) :
    afterHyphens (List.replicate n '-' ++ body) = body := by
  rw [afterHyphens, List.dropWhile_append_of_pos (by simp)]
  cases body <;> simp_all

namespace Progress

variable {p q r : Progress} {l : OpenLiteral} {mark : Char} {d : Destination}

/-! ## More text at the end of a token -/

theorem extend_append {s : List Char} (h : mark ∉ s) (text t : List Char) :
    p.extend mark text (s ++ t) d = .ok r ↔ p.extend mark (text ++ s) t d = .ok r := by
  unfold extend
  rw [Piece.of_append h]
  cases Piece.of mark t with
  | continues => simp only [List.append_assoc]
  | closes before => simp only [List.append_assoc]
  | misplaced => exact iff_of_false (fun hr => by cases hr) fun hr => by cases hr

@[simp]
theorem store_literal (p : Progress) (value : List Char) (d : Destination) :
    (p.store value d).literal = p.literal := by
  cases d <;> rfl

/-- With more text at its end, a piece that leaves a literal open goes on in it. -/
theorem extend_append_of_open {text s : List Char} (h : p.extend mark text s d = .ok q)
    (hq : q.literal = some l) :
    l.mark = mark ∧ ∀ w, p.extend mark text (s ++ w) d = .ok r ↔
      q.extend l.mark l.text w l.destination = .ok r := by
  rcases Piece.of_cases mark s with ⟨hPiece, -⟩ | ⟨t, -, -, hPiece⟩ | hPiece
  · rw [extend_of_continues p text d hPiece] at h
    cases h
    cases hq
    have hSame := extend_with_literal p (some ⟨mark, d, text ++ s⟩) mark (text ++ s)
    exact ⟨rfl, fun w => (extend_append hPiece text w).trans (Eq.congr_left (hSame w d).symm)⟩
  · simp only [extend, hPiece] at h
    cases h
    rw [store_literal] at hq
    cases hq
  · simp only [extend, hPiece] at h
    cases h

/-- Only a literal is left open by a value. -/
theorem begin_append_of_open (hp : p.literal = none) {value : List Char}
    (h : p.begin value d = .ok q) (hq : q.literal = some l) :
    isQuoteMark l.mark = true ∧ value ≠ [] ∧ ∀ w, p.begin (value ++ w) d = .ok r ↔
      q.extend l.mark l.text w l.destination = .ok r := by
  cases value with
  | nil =>
    cases h
    rw [store_literal, hp] at hq
    cases hq
  | cons c rest =>
    simp only [begin] at h
    split at h
    · rename_i hc
      obtain ⟨hMark, hMore⟩ := extend_append_of_open (r := r) h hq
      refine ⟨hMark ▸ hc, List.cons_ne_nil c rest, fun w => ?_⟩
      rw [List.cons_append, begin, if_pos hc]
      exact hMore w
    · cases h
      rw [store_literal, hp] at hq
      cases hq

/-- A flag begins its value behind the equals sign, if there is no other one. -/
theorem exists_begin_bodyOf (p : Progress) (isLong : Bool) {key : List Char} (hNe : key ≠ [])
    (hKey : '=' ∉ key) :
    ∃ (p' : Progress) (d : Destination), p'.literal = p.literal ∧ ∀ text,
      (if isLong then p.readLong (bodyOf key text) else p.readShort (bodyOf key text)) =
        if ∃ t ∈ text, '=' ∈ t then
          .error (.invalidFlagFormat (String.ofList (bodyOf key text)))
        else p'.begin (text.getD impliedValue.toList) d := by
  cases isLong with
  | true =>
    refine ⟨p, .flag (String.ofList (lowerChars key)), rfl, fun text => ?_⟩
    simp only [if_true, readLong, splitBody_bodyOf hKey, if_neg hNe]
    split <;> rfl
  | false =>
    -- The letters of a bundle but the last one are implied before its value is read.
    obtain ⟨keys, last, rfl⟩ : ∃ keys last, key = keys ++ [last] :=
      ⟨_, _, (List.dropLast_append_getLast hNe).symm⟩
    refine ⟨p.imply keys, .flag (String.ofList (lowerChar last)), imply_literal keys,
      fun text => ?_⟩
    simp only [Bool.false_eq_true, if_false, readShort, splitBody_bodyOf hKey, if_neg hNe]
    split
    · rfl
    · simp only [ok_bind, List.getLast?_concat, List.dropLast_concat]

theorem bodyOf_append (key t w : List Char) :
    bodyOf key (some t) ++ w = bodyOf key (some (t ++ w)) := by
  simp only [bodyOf, List.append_assoc, List.cons_append]

/-- With more text at its end, a flag that leaves a literal open goes on in it, or it has a second
equals sign. -/
theorem readBody_append_of_open (isLong : Bool) (hp : p.literal = none) {body : List Char}
    (h : (if isLong then p.readLong body else p.readShort body) = .ok q)
    (hq : q.literal = some l) :
    isQuoteMark l.mark = true ∧ body ≠ [] ∧ ∀ w,
      ('=' ∉ w → ((if isLong then p.readLong (body ++ w) else p.readShort (body ++ w)) = .ok r ↔
        q.extend l.mark l.text w l.destination = .ok r)) ∧
      ('=' ∈ w → (if isLong then p.readLong (body ++ w) else p.readShort (body ++ w)) =
        .error (.invalidFlagFormat (String.ofList (body ++ w)))) := by
  obtain ⟨key, text, hKey, rfl⟩ := exists_bodyOf body
  have hNe : key ≠ [] := by
    rintro rfl
    cases hSplit : splitBody (bodyOf [] text) with
    | error e => cases isLong <;> simp [readLong, readShort, hSplit] at h
    | ok split =>
      rw [splitBody_bodyOf hKey, if_pos rfl] at hSplit
      split at hSplit <;> cases hSplit
  obtain ⟨p', d, hLiteral, hRead⟩ := p.exists_begin_bodyOf isLong hNe hKey
  rw [hRead] at h
  split at h
  · cases h
  · rename_i hText
    obtain ⟨hMark, -, hMore⟩ := begin_append_of_open (r := r) (hLiteral.trans hp) h hq
    cases text with
    | none =>
      cases h
      rw [store_literal, hLiteral, hp] at hq
      cases hq
    | some t =>
      refine ⟨hMark, by simp [bodyOf], fun w => ⟨fun hw => ?_, fun hw => ?_⟩⟩
      · rw [bodyOf_append, hRead, if_neg]
        · exact hMore w
        · simp_all
      · rw [bodyOf_append, hRead, if_pos]
        exact ⟨t ++ w, rfl, List.mem_append_right t hw⟩

/-- The next token of this text is the first one of a flag. -/
def BeginsFlag (p : Progress) (token : List Char) : Prop :=
  p.literal = none ∧ p.positionalsOnly = false ∧ token.head? = some '-'

theorem readGroup_append_of_open (hp : p.literal = none) {token : List Char}
    (h : p.readGroup token = .ok q) (hq : q.literal = some l) :
    isQuoteMark l.mark = true ∧ ∀ w,
      (¬ (p.BeginsFlag token ∧ '=' ∈ w) → (p.readGroup (token ++ w) = .ok r ↔
        q.extend l.mark l.text w l.destination = .ok r)) ∧
      (p.BeginsFlag token → '=' ∈ w → p.readGroup (token ++ w) =
        .error (.invalidFlagFormat (String.ofList (afterHyphens (token ++ w))))) := by
  cases hMode : p.positionalsOnly with
  | true =>
    have hNoFlag : ¬ p.BeginsFlag token := fun hFlag => by
      rw [hFlag.2.1] at hMode
      cases hMode
    simp only [readGroup, hMode, if_true] at h ⊢
    obtain ⟨hMark, -, hMore⟩ := begin_append_of_open (r := r) hp h hq
    exact ⟨hMark, fun w => ⟨fun _ => hMore w, fun hFlag => absurd hFlag hNoFlag⟩⟩
  | false =>
    obtain ⟨n, body, hBody, rfl⟩ := exists_hyphens token
    rw [readGroup_hyphens hMode hBody] at h
    have hFlag : p.BeginsFlag (List.replicate n '-' ++ body) ↔ n ≠ 0 := by
      cases n with
      | zero => exact iff_of_false (fun h => hBody h.2.2) fun h => h rfl
      | succ n => exact iff_of_true ⟨hp, hMode, rfl⟩ n.succ_ne_zero
    -- The literal begins in the body, so that more text adds no hyphen to those before it.
    have hHead : body ≠ [] → ∀ w, (body ++ w).head? ≠ some '-' := by
      intro hNe w
      rwa [List.head?_append_of_ne_nil body hNe]
    simp only [hFlag, List.append_assoc]
    obtain _ | _ | _ | n := n
    · obtain ⟨hMark, hNe, hMore⟩ := begin_append_of_open (r := r) (p := p.toPositionals) hp h hq
      refine ⟨hMark, fun w => ⟨fun _ => ?_, fun hFalse => absurd rfl hFalse⟩⟩
      rw [readGroup_hyphens hMode (hHead hNe w)]
      exact hMore w
    · obtain ⟨hMark, hNe, hMore⟩ := readBody_append_of_open (r := r) false hp h hq
      refine ⟨hMark, fun w => ?_⟩
      rw [readGroup_hyphens hMode (hHead hNe w), afterHyphens_replicate (hHead hNe w)]
      exact ⟨fun hw => (hMore w).1 fun hMem => hw ⟨Nat.one_ne_zero, hMem⟩, fun _ => (hMore w).2⟩
    · obtain ⟨hMark, hNe, hMore⟩ := readBody_append_of_open (r := r) true hp h hq
      refine ⟨hMark, fun w => ?_⟩
      rw [readGroup_hyphens hMode (hHead hNe w), afterHyphens_replicate (hHead hNe w)]
      exact ⟨fun hw => (hMore w).1 fun hMem => hw ⟨Nat.succ_ne_zero 1, hMem⟩, fun _ => (hMore w).2⟩
    · cases h

/-- The mark of a literal that is open is a quote mark. -/
def MarkIsQuote (p : Progress) : Prop :=
  ∀ l ∈ p.literal, isQuoteMark l.mark = true

/-- With more text at its end, a token that leaves a literal open goes on in it, unless it is the
first one of a flag and gets a second equals sign. -/
theorem read_append_of_open (hp : p.MarkIsQuote) {token : String} (h : p.read token = .ok q)
    (hq : q.literal = some l) :
    isQuoteMark l.mark = true ∧ ∀ w : String,
      (¬ (p.BeginsFlag token.toList ∧ '=' ∈ w.toList) → (p.read (token ++ w) = .ok r ↔
        q.extend l.mark l.text w.toList l.destination = .ok r)) ∧
      (p.BeginsFlag token.toList → '=' ∈ w.toList → p.read (token ++ w) =
        .error (.invalidFlagFormat (String.ofList (afterHyphens (token ++ w).toList)))) := by
  simp only [String.toList_append]
  cases hLiteral : p.literal with
  | none =>
    rw [read_of_no_literal hLiteral] at h
    obtain ⟨hMark, hMore⟩ := readGroup_append_of_open (r := r) hLiteral h hq
    refine ⟨hMark, fun w => ?_⟩
    rw [read_of_no_literal hLiteral, String.toList_append]
    exact hMore w.toList
  | some open' =>
    rw [read_of_literal hLiteral] at h
    obtain ⟨hMark, hMore⟩ := extend_append_of_open (r := r) h hq
    refine ⟨hMark ▸ hp open' hLiteral, fun w => ⟨fun _ => ?_, fun hFlag => ?_⟩⟩
    · rw [read_of_literal hLiteral, String.toList_append]
      exact hMore w.toList
    · exact absurd (hLiteral.symm.trans hFlag.1) (by simp)

theorem markIsQuote_of_readAll {tokens : List String} (h : readAll tokens {} = .ok p) :
    p.MarkIsQuote := by
  refine foldlM_invariant (P := MarkIsQuote) ?_ ?_ h
  · intro l hl
    cases hl
  · intro t _ q q' hQuote hRead l hl
    exact (read_append_of_open (r := q) hQuote hRead hl).1

/-- In a literal that is open, a token goes on like its text with a space before it. -/
theorem read_eq_ok_iff_extend_space (hq : q.literal = some l) (hMark : isQuoteMark l.mark = true)
    (token : String) :
    q.read token = .ok r ↔
      q.extend l.mark l.text (" " ++ token).toList l.destination = .ok r := by
  have hSpace : l.mark ∉ [' '] :=
    mt List.mem_singleton.mp (ne_of_isQuoteMark hMark (by decide))
  rw [read_of_literal hq, String.toList_append]
  exact (extend_append hSpace l.text token.toList).symm

/-- A token with another one behind a space, when it leaves a literal open. -/
theorem read_joined (hp : p.MarkIsQuote) {token : String} (h : p.read token = .ok q)
    (hq : q.literal = some l) (next : String) :
    (¬ (p.BeginsFlag token.toList ∧ '=' ∈ next.toList) →
      (p.read (token ++ " " ++ next) = .ok r ↔ q.read next = .ok r)) ∧
    (p.BeginsFlag token.toList → '=' ∈ next.toList → p.read (token ++ " " ++ next) =
      .error (.invalidFlagFormat (String.ofList (afterHyphens (token ++ " " ++ next).toList)))) := by
  obtain ⟨hMark, hMore⟩ := read_append_of_open (r := r) hp h hq
  have hEquals : '=' ∈ (" " ++ next).toList ↔ '=' ∈ next.toList := by
    simp
  have hNext := hMore (" " ++ next)
  rw [hEquals, ← String.append_assoc] at hNext
  exact ⟨fun hNot => (hNext.1 hNot).trans (read_eq_ok_iff_extend_space hq hMark next).symm, hNext.2⟩

/-- Outside literals, a quote mark alone begins one. -/
theorem read_mark_of_no_literal (hp : p.literal = none) (hMark : isQuoteMark mark = true) :
    p.read (String.ofList [mark]) =
      .ok { p.toPositionals with literal := some ⟨mark, .positional, []⟩ } := by
  have hHead : [mark].head? ≠ some '-' :=
    fun hEq => ne_of_isQuoteMark hMark (by decide) (Option.some.inj hEq)
  have hBegin : p.readGroup [mark] = p.toPositionals.begin [mark] .positional := by
    cases hMode : p.positionalsOnly with
    | true =>
      have hSame : p.toPositionals = p := by
        cases p
        simp_all [toPositionals]
      rw [readGroup, if_pos hMode, hSame]
    | false => exact readGroup_hyphens hMode hHead 0
  rw [read_of_no_literal hp, String.toList_ofList, hBegin, begin, if_pos hMark]
  exact extend_of_continues _ [] _ List.not_mem_nil

/-! ## Errors of single tokens -/

theorem extend_ne_unterminatedString (text s : List Char) :
    p.extend mark text s d ≠ .error .unterminatedString := by
  unfold extend
  split <;> simp

theorem begin_ne_unterminatedString (value : List Char) :
    p.begin value d ≠ .error .unterminatedString := by
  unfold begin
  split
  · simp
  · split
    · exact extend_ne_unterminatedString _ _
    · simp

theorem splitBody_ne_unterminatedString (body : List Char) :
    splitBody body ≠ .error .unterminatedString := by
  obtain ⟨key, text, hKey, rfl⟩ := exists_bodyOf body
  rw [splitBody_bodyOf hKey]
  split
  · simp
  · split <;> simp

theorem readShort_ne_unterminatedString (body : List Char) :
    p.readShort body ≠ .error .unterminatedString := by
  intro h
  rcases bind_eq_error.mp h with hSplit | ⟨⟨key, text⟩, -, h⟩
  · exact splitBody_ne_unterminatedString body hSplit
  · dsimp only at h
    split at h
    · cases h
    · exact begin_ne_unterminatedString _ h

theorem readLong_ne_unterminatedString (body : List Char) :
    p.readLong body ≠ .error .unterminatedString := by
  intro h
  rcases bind_eq_error.mp h with hSplit | ⟨⟨key, text⟩, -, h⟩
  · exact splitBody_ne_unterminatedString body hSplit
  · exact begin_ne_unterminatedString _ h

/-- No token is refused for what is missing after it. -/
theorem read_ne_unterminatedString (p : Progress) (token : String) :
    p.read token ≠ .error .unterminatedString := by
  unfold read
  split
  · exact extend_ne_unterminatedString _ _
  · unfold readGroup
    split
    · exact begin_ne_unterminatedString _
    · split
      · exact begin_ne_unterminatedString _
      · exact readShort_ne_unterminatedString _
      · exact readLong_ne_unterminatedString _
      · simp

theorem readAll_ne_unterminatedString (p : Progress) (tokens : List String) :
    p.readAll tokens ≠ .error .unterminatedString := by
  induction tokens generalizing p with
  | nil =>
    intro h
    cases h
  | cons t tokens ih =>
    intro h
    rw [readAll_cons] at h
    rcases bind_eq_error.mp h with hRead | ⟨q, -, hRest⟩
    · exact read_ne_unterminatedString p t hRead
    · exact ih q hRest

end Progress

/-! ## Tokens that end inside a literal -/

/-- Tokens end inside a literal if one is open after them. -/
theorem slice_eq_unterminatedString_iff {tokens : List String} :
    slice tokens = .error .unterminatedString ↔
      ∃ p l, Progress.readAll tokens {} = .ok p ∧ p.literal = some l := by
  constructor
  · intro h
    rcases bind_eq_error.mp h with hRead | ⟨p, hRead, hFinish⟩
    · exact absurd hRead (Progress.readAll_ne_unterminatedString {} tokens)
    · unfold Progress.finish at hFinish
      split at hFinish
      · rename_i l hl
        exact ⟨p, l, hRead, hl⟩
      · cases hFinish
  · rintro ⟨p, l, hRead, hl⟩
    change Progress.readAll tokens {} >>= Progress.finish = _
    simp only [hRead, ok_bind, Progress.finish, hl]

/-- A quote mark that is a token of its own ends a literal, and begins one elsewhere. So tokens end
inside a literal if and only if one of the two marks completes them. -/
theorem slice_eq_unterminatedString_iff_closed {tokens : List String} :
    slice tokens = .error .unterminatedString ↔
      ∃ mark s, isQuoteMark mark = true ∧ slice (tokens ++ [String.ofList [mark]]) = .ok s := by
  rw [slice_eq_unterminatedString_iff]
  constructor
  · rintro ⟨p, l, hRead, hl⟩
    have hMark := Progress.markIsQuote_of_readAll hRead l hl
    let q := { p with literal := none }.store (l.text ++ [' '] ++ []) l.destination
    have hClose : p.read (String.ofList [l.mark]) = .ok q := by
      rw [Progress.read_of_literal hl, String.toList_ofList, ← p.extend_with_literal none]
      exact Progress.extend_of_closes (p := { p with literal := none }) rfl _ _ (s := []) (by simp)
    have hFinish : q.finish = .ok ⟨q.flags, q.positionals⟩ :=
      Progress.finish_eq_ok.mpr ⟨Progress.store_literal _ _ _, rfl⟩
    have hSlice : slice (tokens ++ [String.ofList [l.mark]]) = q.finish := by
      rw [slice_append_eq_bind, hRead, ok_bind, Progress.readAll_singleton, hClose, ok_bind]
    exact ⟨l.mark, _, hMark, hSlice.trans hFinish⟩
  · rintro ⟨mark, s, hMark, hSlice⟩
    rw [slice_append_eq_bind] at hSlice
    obtain ⟨p, hRead, hSlice⟩ := bind_eq_ok.mp hSlice
    rw [Progress.readAll_singleton] at hSlice
    obtain ⟨q, hLast, hFinish⟩ := bind_eq_ok.mp hSlice
    cases hLiteral : p.literal with
    | some l => exact ⟨p, l, hRead, hLiteral⟩
    | none =>
      rw [Progress.read_mark_of_no_literal hLiteral hMark, Except.ok.injEq] at hLast
      subst hLast
      cases (Progress.finish_eq_ok.mp hFinish).1

/-! ## Two tokens of a literal -/

/-- A token after others is the first one of a flag: it begins with a hyphen, and the others are
all tokens of flags. -/
def BeginsFlag (before : List String) (token : String) : Prop :=
  (∃ f : FlagMap, slice before = .ok ⟨f, []⟩) ∧ token.toList.head? = some '-'

theorem beginsFlag_iff {before : List String} {p : Progress}
    (h : Progress.readAll before {} = .ok p) (token : String) :
    p.BeginsFlag token.toList ↔ BeginsFlag before token := by
  have hFinish : slice before = p.finish := by
    change Progress.readAll before {} >>= Progress.finish = _
    rw [h, ok_bind]
  unfold BeginsFlag Progress.BeginsFlag
  constructor
  · rintro ⟨hp, hMode, hHead⟩
    have hSlice : slice before = .ok ⟨p.flags, p.positionals⟩ :=
      hFinish.trans (Progress.finish_eq_ok.mpr ⟨hp, rfl⟩)
    have hRead := readAll_of_slice hSlice
    rw [h, Except.ok.injEq] at hRead
    have hNil : p.positionals = [] := by
      rw [hRead] at hMode
      simpa using hMode
    rw [hNil] at hSlice
    exact ⟨⟨p.flags, hSlice⟩, hHead⟩
  · rintro ⟨⟨f, hSlice⟩, hHead⟩
    have hRead := readAll_of_slice hSlice
    rw [h, Except.ok.injEq] at hRead
    subst hRead
    exact ⟨rfl, rfl, hHead⟩

/-- Two tokens of a literal are sliced like the one that joins them with a space, unless the first
one begins a flag and the second one has an equals sign: then the flag would have two of these. -/
theorem slice_joined {before : List String} {token : String}
    (hOpen : slice (before ++ [token]) = .error .unterminatedString) (next : String)
    (after : List String) :
    (∀ s, slice (before ++ (token ++ " " ++ next) :: after) = .ok s →
      slice (before ++ token :: next :: after) = .ok s) ∧
    (∀ s, slice (before ++ token :: next :: after) = .ok s →
      ¬ (BeginsFlag before token ∧ '=' ∈ next.toList) →
      slice (before ++ (token ++ " " ++ next) :: after) = .ok s) ∧
    (BeginsFlag before token → '=' ∈ next.toList →
      slice (before ++ (token ++ " " ++ next) :: after) =
        .error (.invalidFlagFormat (String.ofList
          (afterHyphens (token ++ " " ++ next).toList)))) := by
  obtain ⟨q, l, hReadAll, hl⟩ := slice_eq_unterminatedString_iff.mp hOpen
  rw [Progress.readAll_append] at hReadAll
  obtain ⟨p, hBefore, hRead⟩ := bind_eq_ok.mp hReadAll
  rw [Progress.readAll_singleton] at hRead
  have hDivided : slice (before ++ token :: next :: after) =
      q.read next >>= fun r => r.readAll after >>= Progress.finish := by
    rw [slice_append_eq_bind, hBefore, ok_bind, Progress.readAll_cons, hRead, ok_bind,
      Progress.readAll_cons, bind_assoc]
  have hJoined : slice (before ++ (token ++ " " ++ next) :: after) =
      p.read (token ++ " " ++ next) >>= fun r => r.readAll after >>= Progress.finish := by
    rw [slice_append_eq_bind, hBefore, ok_bind, Progress.readAll_cons, bind_assoc]
  have hStep r := Progress.read_joined (r := r) (Progress.markIsQuote_of_readAll hBefore) hRead hl
    next
  simp only [beginsFlag_iff hBefore] at hStep
  have hError : BeginsFlag before token → '=' ∈ next.toList →
      slice (before ++ (token ++ " " ++ next) :: after) = .error (.invalidFlagFormat
        (String.ofList (afterHyphens (token ++ " " ++ next).toList))) := by
    intro hBegins hNext
    rw [hJoined, (hStep q).2 hBegins hNext, error_bind]
  have hIff : ¬ (BeginsFlag before token ∧ '=' ∈ next.toList) → ∀ s,
      slice (before ++ (token ++ " " ++ next) :: after) = .ok s ↔
        slice (before ++ token :: next :: after) = .ok s := by
    intro hNot s
    rw [hDivided, hJoined, bind_eq_ok, bind_eq_ok]
    exact exists_congr fun r => and_congr_left fun _ => (hStep r).1 hNot
  refine ⟨fun s hSlice => ?_, fun s hSlice hNot => (hIff hNot s).mpr hSlice, hError⟩
  refine (hIff (fun hBoth => ?_) s).mp hSlice
  rw [hError hBoth.1 hBoth.2] at hSlice
  cases hSlice

/-- A literal of a flag that is divided at its first space. A token with an equals sign cannot be
joined to the first one. -/
theorem slice_joined_flag :
    slice ["--k=1", "--m=\"a"] = .error .unterminatedString ∧
      slice ["--k=1", "--m=\"a b c\"", "p"] = slice ["--k=1", "--m=\"a", "b c\"", "p"] ∧
      slice ["--k=1", "--m=\"a b=c\"", "p"] = .error (.invalidFlagFormat "m=\"a b=c\"") := by
  let f := ((∅ : FlagMap).insert "k" "1").insert "m" "a b c"
  have hOpen : slice (["--k=1"] ++ ["--m=\"a"]) = .error .unterminatedString := rfl
  have hJoined : slice ["--k=1", "--m=\"a b c\"", "p"] = .ok ⟨f, ["p"]⟩ := rfl
  have hDivided := (slice_joined hOpen "b c\"" ["p"]).1 ⟨f, ["p"]⟩ hJoined
  have hRefused := (slice_joined hOpen "b=c\"" ["p"]).2.2 ⟨⟨_, rfl⟩, rfl⟩ (by decide)
  exact ⟨hOpen, hJoined.trans hDivided.symm, hRefused⟩

end CommandDispatch.Arguments
