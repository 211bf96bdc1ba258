import CommandDispatch.Proofs.Except
import CommandDispatch.Proofs.Arguments.Cut

/-!
# Slicing a list of tokens is reading its cut

What has been read is compared with the groups of a cut. A step lemma says what reading the tokens
of one spelling or one flag comes to, whatever follows them. Its inversion finds a spelling or a
flag at the beginning of tokens that are read without an error.

* `Cut.slice_tokens`: slicing the tokens of a cut gives what they stand for,
* `Cut.exists_of_slice_eq_ok`: tokens that are sliced without an error have a cut,
* `slice_eq_ok_iff_cut` puts both together with the uniqueness of cuts.
-/

namespace CommandDispatch.Arguments

open Text

theorem Piece.of_eq_continues {mark : Char} {s : List Char} (h : mark ∉ s) :
    Piece.of mark s = .continues := by
  simp [Piece.of, h]

theorem Piece.of_eq_closes {mark : Char} {s : List Char} (h : mark ∉ s) :
    Piece.of mark (s ++ [mark]) = .closes s := by
  simp [Piece.of, h]

/-- Every piece either goes on, or closes the literal, or has a mark before its end. -/
theorem Piece.of_cases (mark : Char) (s : List Char) :
    (mark ∉ s ∧ Piece.of mark s = .continues) ∨
      (∃ text, s = text ++ [mark] ∧ mark ∉ text ∧ Piece.of mark s = .closes text) ∨
      Piece.of mark s = .misplaced := by
  by_cases hMem : mark ∈ s
  · right
    by_cases hInit : mark ∈ s.dropLast
    · right
      simp [Piece.of, hMem, hInit]
    · left
      have hNe : s ≠ [] := List.ne_nil_of_mem hMem
      have hSplit := List.dropLast_concat_getLast hNe
      have hMark : mark = s.getLast hNe := by
        rw [← hSplit, List.mem_append, List.mem_singleton] at hMem
        exact hMem.resolve_left hInit
      exact ⟨s.dropLast, by rw [hMark, hSplit], hInit, by simp [Piece.of, hMem, hInit]⟩
  · exact Or.inl ⟨hMem, of_eq_continues hMem⟩

namespace Progress

/-! ## Reading on -/

def readAll (tokens : List String) (p : Progress) : Except TokenizeError Progress :=
  tokens.foldlM read p

theorem readAll_cons (t : String) (r : List String) (p : Progress) :
    readAll (t :: r) p = p.read t >>= readAll r :=
  rfl

theorem readAll_singleton (t : String) (p : Progress) : readAll [t] p = p.read t := by
  rw [readAll_cons]
  cases p.read t <;> rfl

theorem readAll_append (tokens more : List String) (p : Progress) :
    p.readAll (tokens ++ more) = p.readAll tokens >>= readAll more :=
  List.foldlM_append

theorem read_of_literal {p : Progress} {l : OpenLiteral} (h : p.literal = some l) (t : String) :
    p.read t = p.extend l.mark (l.text ++ [' ']) t.toList l.destination := by
  simp [read, h]

theorem read_of_no_literal {p : Progress} (h : p.literal = none) (t : String) :
    p.read t = p.readGroup t.toList := by
  simp [read, h]

theorem finish_eq_ok {p : Progress} {s : Sliced} :
    p.finish = .ok s ↔ p.literal = none ∧ s = ⟨p.flags, p.positionals⟩ := by
  unfold finish
  split <;> simp_all [eq_comm]

/-! ## Literals -/

theorem extend_of_continues (p : Progress) {mark : Char} (text : List Char) {s : List Char}
    (d : Destination) (h : mark ∉ s) :
    p.extend mark text s d = .ok { p with literal := some ⟨mark, d, text ++ s⟩ } := by
  simp only [extend, Piece.of_eq_continues h]

theorem extend_of_closes {p : Progress} (hp : p.literal = none) {mark : Char} (text : List Char)
    {s : List Char} (d : Destination) (h : mark ∉ s) :
    p.extend mark text (s ++ [mark]) d = .ok (p.store (text ++ s) d) := by
  have hSame : { p with literal := none } = p := by
    cases p
    simp_all
  simp only [extend, Piece.of_eq_closes h, hSame]

/-- A literal that is open is replaced when it goes on. -/
theorem extend_with_literal (p : Progress) (l : Option OpenLiteral) (mark : Char)
    (text s : List Char) (d : Destination) :
    { p with literal := l }.extend mark text s d = p.extend mark text s d := by
  unfold extend
  cases Piece.of mark s <;> rfl

/-- The first piece after one that goes on. -/
theorem readAll_extend_of_continues (p : Progress) {mark : Char} (text : List Char) {s : List Char}
    (d : Destination) (h : mark ∉ s) (t : String) (r : List String) :
    p.extend mark text s d >>= readAll (t :: r) =
      p.extend mark (text ++ s ++ [' ']) t.toList d >>= readAll r := by
  rw [extend_of_continues p text d h, ok_bind, readAll_cons, read_of_literal rfl,
    extend_with_literal]

/-- A literal that ends before `r`. The induction is on its pieces before the last one: `text` is
what was read of it before, with the space after that. -/
theorem readAll_extend {p : Progress} (hp : p.literal = none) {mark : Char} (d : Destination)
    {init : List (List Char)} {last : List Char} (hInit : ∀ piece ∈ init, mark ∉ piece)
    (hLast : mark ∉ last) (r : List String) (text : List Char) {first : List Char}
    {rest : List (List Char)} (h : init ++ [last ++ [mark]] = first :: rest) :
    p.extend mark text first d >>= readAll (rest.map String.ofList ++ r) =
      readAll r (p.store (text ++ [' '].intercalate (init ++ [last])) d) := by
  induction init generalizing text first rest with
  | nil =>
    simp only [List.nil_append, List.cons.injEq] at h
    obtain ⟨rfl, rfl⟩ := h
    rw [extend_of_closes hp text d hLast, ok_bind, List.nil_append, List.intercalate_singleton]
    rfl
  | cons a init ih =>
    simp only [List.cons_append, List.cons.injEq] at h
    obtain ⟨rfl, h⟩ := h
    obtain ⟨next, others, rfl⟩ := List.exists_cons_of_ne_nil (l := rest) (by simp [← h])
    have hNext := ih (fun q hq => hInit q (by simp [hq])) (text ++ a ++ [' ']) h
    rw [List.map_cons, List.cons_append, readAll_extend_of_continues p text d (hInit a (by simp)),
      String.toList_ofList, hNext, List.cons_append, List.intercalate_cons_of_ne_nil (by simp)]
    simp only [List.append_assoc]

/-- A literal that goes on into tokens that are read without an error ends in them. -/
theorem exists_pieces_of_extend {p q : Progress} {mark : Char} {d : Destination}
    {tokens : List String} {text first : List Char}
    (h : p.extend mark text first d >>= readAll tokens = .ok q) (hq : q.literal = none) :
    ∃ init last rest r, init ++ [last ++ [mark]] = first :: rest ∧
      (∀ piece ∈ init, mark ∉ piece) ∧ mark ∉ last ∧ tokens = rest.map String.ofList ++ r := by
  induction tokens generalizing text first with
  | nil =>
    rcases Piece.of_cases mark first with ⟨hFirst, -⟩ | ⟨last, rfl, hLast, -⟩ | hPiece
    · rw [extend_of_continues p text d hFirst, ok_bind] at h
      cases h
      cases hq
    · exact ⟨[], last, [], [], rfl, by simp, hLast, rfl⟩
    · simp only [extend, hPiece, error_bind] at h
      cases h
  | cons t tokens ih =>
    rcases Piece.of_cases mark first with ⟨hFirst, -⟩ | ⟨last, rfl, hLast, -⟩ | hPiece
    · rw [readAll_extend_of_continues p text d hFirst] at h
      obtain ⟨init, last, rest, r, hPieces, hInit, hLast, rfl⟩ := ih h
      refine ⟨first :: init, last, t.toList :: rest, r, by rw [List.cons_append, hPieces], ?_,
        hLast, by simp⟩
      intro piece hPiece
      rcases List.mem_cons.mp hPiece with rfl | hPiece
      · exact hFirst
      · exact hInit piece hPiece
    · exact ⟨[], last, [], t :: tokens, rfl, by simp, hLast, rfl⟩
    · simp only [extend, hPiece, error_bind] at h
      cases h

/-! ## Spellings -/

theorem readAll_begin {p : Progress} (hp : p.literal = none) (s : Spelling) (d : Destination)
    (r : List String) :
    p.begin s.opening d >>= readAll (s.following.map String.ofList ++ r) =
      readAll r (p.store s.value d) := by
  cases s with
  | plain text hText =>
    cases text with
    | nil => rfl
    | cons c text =>
      have hc : isQuoteMark c = false := by simpa [StartsQuoted] using hText
      simp only [Spelling.opening, Spelling.following, Spelling.value, begin, hc]
      rfl
  | quoted l =>
    simp only [Spelling.opening, Spelling.following, Spelling.value, begin, l.isQuoteMark_mark,
      if_true]
    exact readAll_extend hp d l.mark_notMem_init l.mark_notMem_last r []
      (List.cons_head_tail l.pieces_ne_nil).symm

/-- A value that begins before tokens that are read without an error is spelled in them. -/
theorem exists_spelling_of_begin {p q : Progress} {d : Destination} {tokens : List String}
    {text : List Char} (h : p.begin text d >>= readAll tokens = .ok q) (hq : q.literal = none) :
    ∃ (s : Spelling) (r : List String), s.opening = text ∧
      tokens = s.following.map String.ofList ++ r := by
  by_cases hText : StartsQuoted text
  · obtain ⟨c, hc, hMark⟩ := hText
    obtain ⟨first, rfl⟩ : ∃ first, text = c :: first := by
      cases text <;> simp_all
    simp only [begin, hMark, if_true] at h
    obtain ⟨init, last, rest, r, hPieces, hInit, hLast, rfl⟩ := exists_pieces_of_extend h hq
    let l : Literal := ⟨c, hMark, init, last, hInit, hLast⟩
    have hl : l.pieces = first :: rest := hPieces
    refine ⟨.quoted l, r, ?_, ?_⟩
    · simp only [Spelling.opening, hl, List.head_cons, l]
    · simp only [Spelling.following, hl, List.tail_cons]
  · exact ⟨.plain text hText, tokens, rfl, rfl⟩

/-! ## Flags -/

/-- Progress after settings of flags. -/
def give (p : Progress) (settings : List (String × String)) : Progress :=
  { p with flags := p.flags.setAll settings }

theorem give_append (p : Progress) (settings more : List (String × String)) :
    p.give (settings ++ more) = (p.give settings).give more := by
  simp only [give, FlagMap.setAll, List.foldl_append]

theorem imply_eq_give (p : Progress) (keys : List Char) :
    p.imply keys = p.give (keys.map fun c => (String.ofList (lowerChar c), impliedValue)) := by
  unfold imply
  induction keys generalizing p with
  | nil => rfl
  | cons c keys ih =>
    rw [List.foldl_cons, ih]
    simp only [store, give, FlagMap.setAll, List.map_cons, List.foldl_cons, String.ofList_toList]

/-- Progress from which on every token is a positional. -/
def toPositionals (p : Progress) : Progress :=
  { p with positionalsOnly := true }

theorem exists_hyphens (t : List Char) :
    ∃ n body, body.head? ≠ some '-' ∧ List.replicate n '-' ++ body = t := by
  refine ⟨(t.takeWhile (· == '-')).length, t.dropWhile (· == '-'), ?_, ?_⟩
  · intro h
    have := List.head?_dropWhile_not (· == '-') t
    simp [h] at this
  · have hAll : t.takeWhile (· == '-') = List.replicate (t.takeWhile (· == '-')).length '-' :=
      List.eq_replicate_iff.mpr ⟨rfl, fun c hc => by simpa using List.mem_takeWhile_imp hc⟩
    rw [← hAll, List.takeWhile_append_dropWhile]

/-- Before the positionals, the hyphens of a token decide how it is read. -/
theorem readGroup_hyphens {p : Progress} (hMode : p.positionalsOnly = false) {body : List Char}
    (h : body.head? ≠ some '-') (n : Nat) :
    p.readGroup (List.replicate n '-' ++ body) =
      match n with
      | 0 => p.toPositionals.begin body .positional
      | 1 => p.readShort body
      | 2 => p.readLong body
      | n + 3 => .error (.hyphenCount (String.ofList (List.replicate (n + 3) '-' ++ body))) := by
  have hBody : body.takeWhile (· == '-') = [] := by
    cases body <;> simp_all
  have hLength : ((List.replicate n '-' ++ body).takeWhile (· == '-')).length = n := by
    rw [List.takeWhile_append_of_pos (by simp), hBody, List.append_nil, List.length_replicate]
  simp only [readGroup, hMode, hLength, Bool.false_eq_true, if_false]
  rcases n with _ | _ | _ | n <;> rfl

theorem readAll_flag {p : Progress} (hp : p.literal = none) (hMode : p.positionalsOnly = false)
    (g : FlagGroup) (r : List String) :
    readAll (g.tokens ++ r) p = readAll r (p.give g.settings) := by
  have hLast : g.key.getLast? = some (g.key.getLast g.key_ne_nil) :=
    List.getLast?_eq_some_getLast g.key_ne_nil
  rw [FlagGroup.tokens, List.cons_append, readAll_cons, read_of_no_literal hp,
    String.toList_ofList, FlagGroup.token, readGroup_hyphens hMode g.head?_body_ne]
  cases hLong : g.isLong with
  | true =>
    simp only [if_true, readLong, g.splitBody_body, ok_bind, ← g.opening_spelling]
    rw [readAll_begin hp]
    simp only [FlagGroup.settings, hLong, if_true]
    rfl
  | false =>
    simp only [Bool.false_eq_true, if_false, readShort, g.splitBody_body, ok_bind, hLast,
      ← g.opening_spelling]
    rw [imply_eq_give, readAll_begin (p := p.give _) hp]
    simp only [FlagGroup.settings, hLong, Bool.false_eq_true, if_false, give_append]
    rfl

theorem readAll_flags {p : Progress} (hp : p.literal = none) (hMode : p.positionalsOnly = false)
    (gs : List FlagGroup) (r : List String) :
    readAll (gs.flatMap FlagGroup.tokens ++ r) p =
      readAll r (p.give (gs.flatMap FlagGroup.settings)) := by
  induction gs generalizing p with
  | nil => rfl
  | cons g gs ih =>
    rw [List.flatMap_cons, List.append_assoc, readAll_flag hp hMode, ih (p := p.give _) hp hMode,
      List.flatMap_cons, give_append]

/-- A body that is read without an error is the body of a flag. -/
theorem exists_flag_of_body {p q : Progress} (isLong : Bool) {body : List Char}
    (hBody : body.head? ≠ some '-') {tokens : List String}
    (h : (if isLong then p.readLong body else p.readShort body) >>= readAll tokens = .ok q)
    (hq : q.literal = none) :
    ∃ (g : FlagGroup) (r : List String), g.isLong = isLong ∧ g.body = body ∧
      tokens = g.spelling.following.map String.ofList ++ r := by
  obtain ⟨key, text, p', d, hSplit, hBegin⟩ : ∃ key text p' d,
      splitBody body = .ok (key, text) ∧
        begin p' (text.getD impliedValue.toList) d >>= readAll tokens = .ok q := by
    cases hSplit : splitBody body with
    | error e => cases isLong <;> simp [readLong, readShort, hSplit] at h
    | ok split =>
      obtain ⟨key, text⟩ := split
      cases isLong with
      | true =>
        simp only [if_true, readLong, hSplit, ok_bind] at h
        exact ⟨key, text, _, _, rfl, h⟩
      | false =>
        simp only [Bool.false_eq_true, if_false, readShort, hSplit, ok_bind] at h
        split at h
        · cases h
        · exact ⟨key, text, _, _, rfl, h⟩
  obtain ⟨hNe, hKey, hText, rfl⟩ := splitBody_eq_ok_iff.mp hSplit
  rw [head?_bodyOf hNe] at hBody
  obtain ⟨s, r, hOpening, rfl⟩ := exists_spelling_of_begin hBegin hq
  cases text with
  | none =>
    obtain rfl := Spelling.eq_implied_of_opening_eq hOpening
    exact ⟨⟨isLong, key, none, hNe, hKey, hBody, by simp⟩, r, rfl, rfl, rfl⟩
  | some text =>
    obtain rfl : s.opening = text := hOpening
    exact ⟨⟨isLong, key, some s, hNe, hKey, hBody, by simpa using hText⟩, r, rfl, rfl, rfl⟩

/-! ## Positionals -/

/-- Progress after values of positionals. -/
def add (p : Progress) (ss : List Spelling) : Progress :=
  { p with positionals := p.positionals ++ ss.map fun s => String.ofList s.value }

theorem readAll_positionals {p : Progress} (hp : p.literal = none)
    (hMode : p.positionalsOnly = true) (ss : List Spelling) (r : List String) :
    readAll (ss.flatMap Spelling.tokens ++ r) p = readAll r (p.add ss) := by
  induction ss generalizing p with
  | nil => simp [add]
  | cons s ss ih =>
    rw [List.flatMap_cons, List.append_assoc, Spelling.tokens, List.cons_append, readAll_cons,
      read_of_no_literal hp, String.toList_ofList, readGroup, if_pos hMode, readAll_begin hp,
      ih (p := p.store s.value .positional) hp hMode]
    simp only [add, store, List.map_cons, List.append_assoc, List.singleton_append]

/-- The first positional is read as those after it. -/
theorem readAll_first_positional {p : Progress} (hp : p.literal = none)
    (hMode : p.positionalsOnly = false) {t : String} (hHead : t.toList.head? ≠ some '-')
    (r : List String) : readAll (t :: r) p = readAll (t :: r) p.toPositionals := by
  have hGroup := readGroup_hyphens hMode hHead 0
  rw [List.replicate_zero, List.nil_append] at hGroup
  rw [readAll_cons, readAll_cons, read_of_no_literal hp,
    read_of_no_literal (p := p.toPositionals) hp, hGroup]
  rfl

/-- Tokens that are read as positionals without an error are divided into spellings. -/
theorem exists_spellings_of_readAll {p q : Progress} (hp : p.literal = none)
    (hMode : p.positionalsOnly = true) {tokens : List String} (h : readAll tokens p = .ok q)
    (hq : q.literal = none) : ∃ ss : List Spelling, ss.flatMap Spelling.tokens = tokens := by
  induction hLength : tokens.length using Nat.strong_induction_on generalizing tokens p with
  | _ n ih =>
    cases tokens with
    | nil => exact ⟨[], rfl⟩
    | cons t tokens =>
      rw [readAll_cons, read_of_no_literal hp, readGroup, if_pos hMode] at h
      obtain ⟨s, r, hOpening, rfl⟩ := exists_spelling_of_begin h hq
      rw [← hOpening, readAll_begin hp] at h
      have hShort : r.length < n := by
        simp only [List.length_cons, List.length_append] at hLength
        omega
      obtain ⟨ss, rfl⟩ := ih r.length hShort (p := p.store s.value .positional) hp hMode h rfl
      refine ⟨s :: ss, ?_⟩
      rw [List.flatMap_cons, Spelling.tokens, hOpening, String.ofList_toList, List.cons_append]

/-! ## Cuts -/

def after (p : Progress) (c : Cut) : Progress :=
  let q := (p.give c.settings).add c.positionals
  if c.positionals.isEmpty then q else q.toPositionals

theorem readAll_cut {p : Progress} (hp : p.literal = none) (hMode : p.positionalsOnly = false)
    (c : Cut) : readAll c.tokens p = .ok (p.after c) := by
  obtain ⟨gs, ss, hHead⟩ := c
  let q := p.give (gs.flatMap FlagGroup.settings)
  rw [Cut.tokens, readAll_flags hp hMode]
  cases ss with
  | nil =>
    simp only [List.flatMap_nil, after, add, List.map_nil, List.append_nil]
    rfl
  | cons s ss =>
    have hFirst := readAll_first_positional (p := q) hp hMode
      (t := String.ofList s.opening) (by simpa using hHead s rfl)
    have hRest := readAll_positionals (p := q.toPositionals) hp rfl (s :: ss) []
    rw [List.append_nil] at hRest
    simp only [List.flatMap_cons, Spelling.tokens, List.cons_append] at hRest ⊢
    rw [hFirst, hRest]
    rfl

/-- Tokens that are read without an error have a cut. The induction is on their number; each step
takes the tokens of one flag off, and the first positional ends it. -/
theorem exists_cut_of_readAll {p q : Progress} (hp : p.literal = none)
    (hMode : p.positionalsOnly = false) {tokens : List String} (h : readAll tokens p = .ok q)
    (hq : q.literal = none) : ∃ c : Cut, c.tokens = tokens := by
  induction hLength : tokens.length using Nat.strong_induction_on generalizing tokens p with
  | _ n ih =>
    cases tokens with
    | nil => exact ⟨⟨[], [], by simp⟩, rfl⟩
    | cons t tokens =>
      obtain ⟨hyphens, body, hBody, hToken⟩ := exists_hyphens t.toList
      have hGroup := h
      rw [readAll_cons, read_of_no_literal hp, ← hToken, readGroup_hyphens hMode hBody] at hGroup
      have hFlag : ∀ isLong : Bool, hyphens = (if isLong then 2 else 1) →
          (if isLong then p.readLong body else p.readShort body) >>= readAll tokens = .ok q →
          ∃ c : Cut, c.tokens = t :: tokens := by
        intro isLong hHyphens hRead
        obtain ⟨g, r, rfl, rfl, rfl⟩ := exists_flag_of_body isLong hBody hRead hq
        have hTokens : t :: (g.spelling.following.map String.ofList ++ r) = g.tokens ++ r := by
          rw [FlagGroup.tokens, FlagGroup.token, ← hHyphens, hToken, String.ofList_toList,
            List.cons_append]
        rw [hTokens, readAll_flag hp hMode] at h
        have hShort : r.length < n := by
          simp only [List.length_cons, List.length_append] at hLength
          omega
        obtain ⟨c, rfl⟩ := ih r.length hShort (p := p.give g.settings) hp hMode h rfl
        refine ⟨⟨g :: c.flags, c.positionals, c.head?_opening_ne⟩, ?_⟩
        rw [hTokens, Cut.tokens, List.flatMap_cons, List.append_assoc, Cut.tokens]
      -- No hyphen begins the positionals, one a bundle and two a long flag; more are refused.
      obtain _ | _ | _ | n := hyphens
      · rw [List.replicate_zero, List.nil_append] at hToken
        subst hToken
        rw [readAll_first_positional hp hMode hBody] at h
        obtain ⟨ss, hTokens⟩ := exists_spellings_of_readAll (p := p.toPositionals) hp rfl h hq
        refine ⟨⟨[], ss, ?_⟩, by simpa [Cut.tokens] using hTokens⟩
        intro s hs
        obtain ⟨ss', rfl⟩ : ∃ ss', ss = s :: ss' := by
          cases ss <;> simp_all
        simp only [List.flatMap_cons, Spelling.tokens, List.cons_append, List.cons.injEq] at hTokens
        rwa [← hTokens.1, String.toList_ofList] at hBody
      · exact hFlag false rfl hGroup
      · exact hFlag true rfl hGroup
      · cases hGroup

end Progress

namespace Cut

theorem slice_tokens (c : Cut) : slice c.tokens = .ok c.sliced := by
  have hRead := Progress.readAll_cut (p := {}) rfl rfl c
  change Progress.readAll c.tokens {} >>= Progress.finish = _
  rw [hRead, ok_bind]
  unfold Progress.after
  cases hEmpty : c.positionals.isEmpty <;>
    simp [Progress.finish, Progress.give, Progress.add, Progress.toPositionals, sliced]

theorem exists_of_slice_eq_ok {tokens : List String} {s : Sliced} (h : slice tokens = .ok s) :
    ∃ c : Cut, c.tokens = tokens := by
  obtain ⟨q, hRead, hFinish⟩ := bind_eq_ok.mp h
  exact Progress.exists_cut_of_readAll rfl rfl hRead (Progress.finish_eq_ok.mp hFinish).1

end Cut

/-- A list of tokens is sliced without an error if and only if it has a cut. It has no other cut,
and its flags and positionals are those of the cut: of several settings of one name the last one
holds. -/
theorem slice_eq_ok_iff_cut (tokens : List String) :
    (∀ s, slice tokens = .ok s ↔ ∃ c : Cut, c.tokens = tokens ∧ c.sliced = s) ∧
      (∀ c d : Cut, c.tokens = tokens → d.tokens = tokens → c = d) ∧
      ∀ (c : Cut) (key : String), c.sliced.flags[key]? = c.settings.reverse.lookup key := by
  refine ⟨fun s => ⟨fun h => ?_, ?_⟩, fun c d hc hd => Cut.eq_of_tokens_eq (hc.trans hd.symm),
    fun c key => ?_⟩
  · obtain ⟨c, rfl⟩ := Cut.exists_of_slice_eq_ok h
    rw [c.slice_tokens, Except.ok.injEq] at h
    exact ⟨c, rfl, h⟩
  · rintro ⟨c, rfl, rfl⟩
    exact c.slice_tokens
  · simp [Cut.sliced, FlagMap.getElem?_setAll]

/-- A bundle of short flags with a literal that goes on over a second token, and two positionals. -/
def bundleCut : Cut where
  flags :=
    [ { isLong := false
        key := ['a', 'B']
        given := some (.quoted ⟨'\'', rfl, [['x']], ['='], by decide, by decide⟩)
        key_ne_nil := by decide
        equals_notMem_key := by decide
        head?_key_ne := by decide
        equals_notMem_opening := by
          intro s hs
          cases hs
          decide } ]
  positionals := [.plain ['p'] (by decide), .plain ['-', 'q'] (by decide)]
  head?_opening_ne := by
    intro s hs
    cases hs
    decide

theorem slice_bundle :
    bundleCut.tokens = ["-aB='x", "='", "p", "-q"] ∧
      slice ["-aB='x", "='", "p", "-q"] = .ok bundleCut.sliced ∧
      (∀ d : Cut, d.tokens = ["-aB='x", "='", "p", "-q"] → d = bundleCut) ∧
      bundleCut.sliced.flags["b"]? = some "x =" ∧ bundleCut.sliced.positionals = ["p", "-q"] := by
  have h := slice_eq_ok_iff_cut ["-aB='x", "='", "p", "-q"]
  refine ⟨rfl, (h.1 _).mpr ⟨bundleCut, rfl, rfl⟩, fun d hd => h.2.1 d _ hd rfl, ?_, rfl⟩
  rw [h.2.2]
  decide

end CommandDispatch.Arguments
