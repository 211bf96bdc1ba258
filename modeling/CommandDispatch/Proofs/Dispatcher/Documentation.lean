import CommandDispatch.Dispatcher.Printer
import CommandDispatch.Proofs.Layout.Reading
import CommandDispatch.Proofs.Source.Parser

/-!
# Documentation is read back

The documentation of a command is a line comment, a block comment or an attribute. Whichever it is,
it is read as the attribute that documents the command, unless it is a comment with a carriage
return that no line feed follows.

* `Trims s t`: `t` is `s` without some spaces before line feeds,
* `trims_withoutLineSpaces`: this is what becomes of the text in a block comment,
* `reads_documentation`: documentation is read as an attribute.
-/

namespace CommandDispatch.Dispatcher

open Layout Source Source.Parser Text

variable {φ : Prop}

/-! ## Spaces at the ends of lines -/

/-- The second text is the first one without some spaces before line feeds. -/
inductive Trims : List Char → List Char → Prop where
  | nil : Trims [] []
  | keep (c : Char) {s t : List Char} (h : Trims s t) : Trims (c :: s) (c :: t)
  | drop {s t : List Char} (h : Trims s ('\n' :: t)) : Trims (' ' :: s) ('\n' :: t)

namespace Trims

variable {c : Char} {s t : List Char}

/-- What a text without dropped spaces begins with, the text itself begins with. -/
theorem exists_of_cons (h : Trims s (c :: t)) (hc : c ≠ '\n') : ∃ r, s = c :: r ∧ Trims r t := by
  cases h with
  | keep _ h => exact ⟨_, rfl, h⟩
  | drop => exact absurd rfl hc

theorem cons_of_ne (h : Trims (c :: s) t) (hc : c ≠ ' ') : ∃ r, t = c :: r ∧ Trims s r := by
  cases h with
  | keep _ h => exact ⟨_, rfl, h⟩
  | drop => exact absurd rfl hc

/-- A space that stays is kept. -/
theorem exists_of_blank (h : Trims (' ' :: c :: s) t) (hBlank : c ≠ ' ') (hLine : c ≠ '\n') :
    ∃ r, t = ' ' :: r := by
  cases h with
  | keep _ h => exact ⟨_, rfl⟩
  | drop h =>
    obtain ⟨r, hList, -⟩ := h.cons_of_ne hBlank
    exact absurd (List.cons.inj hList).1.symm hLine

theorem getLast?_eq (h : Trims s t) : t.getLast? = s.getLast? := by
  induction h with
  | nil => rfl
  | keep c _ ih => rw [List.getLast?_cons, List.getLast?_cons, ih]
  | drop h ih =>
    rw [ih, List.getLast?_cons]
    cases h <;> rfl

/-- Marks of comments are never apart, so that dropped spaces do not change how they match. -/
theorem isBalanced_eq {depth : Nat} (h : Trims s t) : isBalanced depth t = isBalanced depth s := by
  fun_induction isBalanced depth s generalizing t with
  | case1 depth rest ih =>
    obtain ⟨r, rfl, hr⟩ := h.cons_of_ne (by decide)
    obtain ⟨u, rfl, hu⟩ := hr.cons_of_ne (by decide)
    rw [isBalanced, ih hu]
  | case2 depth rest ih =>
    obtain ⟨r, rfl, hr⟩ := h.cons_of_ne (by decide)
    obtain ⟨u, rfl, hu⟩ := hr.cons_of_ne (by decide)
    rw [isBalanced, ih hu]
  | case3 depth c rest hOpen hClose ih =>
    cases h with
    | @keep _ _ r h =>
      rw [isBalanced]
      · exact ih h
      · rintro u rfl rfl
        obtain ⟨v, rfl, -⟩ := h.exists_of_cons (by decide)
        exact hOpen v rfl rfl
      · rintro u rfl rfl
        obtain ⟨v, rfl, -⟩ := h.exists_of_cons (by decide)
        exact hClose v rfl rfl
    | drop h => exact ih h
  | case4 depth =>
    cases h
    rw [isBalanced]

end Trims

theorem withoutSpaces_cons (c : Char) (s : List Char) :
    withoutSpaces (c :: s) =
      if c = ' ' ∧ withoutSpaces s = [] then [] else c :: withoutSpaces s := by
  have hEmpty : (s.reverse.dropWhile (· == ' ')).isEmpty = true ↔ withoutSpaces s = [] := by
    rw [withoutSpaces, List.isEmpty_iff, List.reverse_eq_nil_iff]
  rw [withoutSpaces, List.reverse_cons, List.dropWhile_append]
  by_cases hNil : withoutSpaces s = []
  · rw [if_pos (hEmpty.mpr hNil), hNil]
    by_cases hc : c = ' '
    · simp [hc]
    · simp [hc]
  · rw [if_neg (fun h => hNil (hEmpty.mp h)), if_neg (fun h => hNil h.2), List.reverse_append]
    rfl

/-- Lines with line feeds between them, all but the last without the spaces at their ends. -/
def joinLines : List (List Char) → List Char
  | [] => []
  | [last] => last
  | line :: others => withoutSpaces line ++ '\n' :: joinLines others

theorem joinLines_cons {line : List Char} {others : List (List Char)} (h : others ≠ []) :
    joinLines (line :: others) = withoutSpaces line ++ '\n' :: joinLines others := by
  cases others with
  | nil => exact absurd rfl h
  | cons => rfl

theorem withoutLineSpaces_eq (s : List Char) :
    withoutLineSpaces s = joinLines (pieces (· == '\n') s) := by
  rw [withoutLineSpaces]
  generalize pieces (· == '\n') s = lines
  fun_induction joinLines lines with
  | case1 => rfl
  | case2 last => simp
  | case3 line others hNe ih =>
    obtain ⟨next, others, rfl⟩ := List.exists_cons_of_ne_nil fun h => hNe h
    rw [List.dropLast_cons_cons, List.getLast?_cons_cons, List.map_cons, List.cons_append, ← ih]
    have hLast : (next :: others).dropLast.map withoutSpaces ++
        (next :: others).getLast?.toList ≠ [] := by
      simp [List.getLast?_cons]
    obtain ⟨first, rest, hRest⟩ := List.exists_cons_of_ne_nil hLast
    rw [hRest]
    rfl

/-- The induction is on the text. A space is dropped if nothing is left of its line after it. -/
theorem trims_withoutLineSpaces (s : List Char) : Trims s (withoutLineSpaces s) := by
  rw [withoutLineSpaces_eq]
  induction s with
  | nil => exact .nil
  | cons c s ih =>
    obtain ⟨line, others, hPieces⟩ := List.exists_cons_of_ne_nil (pieces_ne_nil (· == '\n') s)
    rw [pieces]
    split
    · rename_i hNewline
      obtain rfl : c = '\n' := by simpa using hNewline
      rw [joinLines_cons (pieces_ne_nil _ s)]
      exact .keep '\n' ih
    · rw [hPieces] at ih ⊢
      dsimp only
      cases others with
      | nil => exact .keep c ih
      | cons next others =>
        rw [joinLines_cons (List.cons_ne_nil _ _)] at ih ⊢
        rw [withoutSpaces_cons]
        split
        · rename_i hDropped
          obtain ⟨rfl, hNil⟩ := hDropped
          rw [hNil] at ih
          exact .drop ih
        · exact .keep c ih

/-! ## Block comments -/

theorem getLast?_ne_of_append {s t : List Char} (h : (s ++ t).getLast? ≠ some '/') :
    t.getLast? ≠ some '/' := by
  intro ht
  rw [List.getLast?_append, ht] at h
  exact h rfl

/-- A balanced text is read up to the mark that closes the comment. It must not end in a slash: with
it the star of that mark would open another comment. -/
theorem blockComment_append {depth : Nat} {s inside rest : List Char}
    (h : isBalanced depth s = true) (hLast : s.getLast? ≠ some '/') :
    blockComment (depth + 1) inside (s ++ '*' :: '/' :: rest) =
      some (inside.reverse ++ s, rest) := by
  fun_induction isBalanced depth s generalizing inside with
  | case1 depth s ih =>
    rw [List.cons_append, List.cons_append, blockComment,
      ih h (getLast?_ne_of_append (s := ['/', '*']) hLast)]
    simp
  | case2 depth s ih =>
    rw [Bool.and_eq_true, bne_iff_ne] at h
    obtain ⟨hDepth, h⟩ := h
    have hSame : depth + 1 - 1 = depth - 1 + 1 := by omega
    rw [List.cons_append, List.cons_append, blockComment, if_neg (by omega), hSame,
      ih h (getLast?_ne_of_append (s := ['*', '/']) hLast)]
    simp
  | case3 depth c s hOpen hClose ih =>
    rw [List.cons_append, blockComment, ih h (getLast?_ne_of_append (s := [c]) hLast)]
    · simp
    · rintro t rfl hList
      cases s with
      | nil => exact hLast rfl
      | cons d s => exact hOpen s rfl (by rw [(List.cons.inj hList).1])
    · rintro t rfl hList
      cases s with
      | nil => exact absurd (List.cons.inj hList).1 (by decide)
      | cons d s => exact hClose s rfl (by rw [(List.cons.inj hList).1])
  | case4 depth =>
    obtain rfl : depth = 0 := by simpa using h
    rw [List.nil_append, blockComment, if_pos (by omega), List.append_nil]

/-! ## Documentation -/

theorem yields_docAttribute (text : List Char) :
    Yields (· = docAttribute false text) ((docAttribute false text).map .leaf) :=
  ⟨_, rfl, fun _ _ => rfl⟩

theorem areAttributes_docAttribute (text : List Char) : AreAttributes (docAttribute false text) :=
  areAttributes_cons false (isAttributeText_doc false _ _) .nil

/-- Documentation of one line is a line comment. -/
theorem reads_lineComment {s : List Char} (hSlash : s.head? ≠ some '/') (hLine : '\n' ∉ s)
    (hEnd : s.getLast? ≠ some '\r') (hReturn : ¬ φ → noBareReturn s = true) :
    Reads φ .free .line (Yields (· = docAttribute false s)) ('/' :: '/' :: '/' :: s) :=
  fun _ hRest =>
    ⟨trivial, _, yields_docAttribute s, cuts_lineComment hSlash hLine hEnd hReturn hRest⟩

/-- Documentation of several lines is a block comment, if its own comments match. -/
theorem reads_blockComment {s : List Char} (hHead : ∀ c ∈ s.head?, c ∉ ['*', '/']) (hNe : s ≠ [])
    (hBalanced : isBalanced 0 s = true) (hLast : s.getLast? ≠ some '/')
    (hReturn : ¬ φ → noBareReturn s = true) :
    Reads φ .free .line (Yields (· = docAttribute false s))
      ('/' :: '*' :: '*' :: (s ++ ['*', '/'])) := by
  intro rest _
  have hRead : blockComment 1 [] ('*' :: (s ++ '*' :: '/' :: rest)) = some ('*' :: s, rest) := by
    rw [blockComment]
    · exact blockComment_append hBalanced hLast
    · exact fun _ hc => absurd hc (by decide)
    · obtain ⟨c, t, rfl⟩ := List.exists_cons_of_ne_nil hNe
      rintro u - hList
      exact hHead c rfl (by rw [(List.cons.inj hList).1]; decide)
  exact ⟨trivial, _, yields_docAttribute s, cuts_blockComment hHead hNe hRead hReturn⟩

/-- Other documentation is an attribute with a literal. -/
theorem reads_docAttribute (s : String) :
    Reads φ .free .line (Yields AreAttributes) ("#[doc = " ++ stringLiteral s ++ "]").toList := by
  have hFirst : Reads φ .free .free _ "#[doc = ".toList := reads_phrase (by decide)
  have hLiteral : Reads φ .free .word (· = [.leaf (.literal (.string s) (stringLiteral s))])
      (stringLiteral s).toList :=
    Lexes.of_cuts fun _ hRest => cuts_stringLiteral s hRest
  have hLast : Reads φ .word .free _ "]".toList := reads_phrase (by decide)
  have hReads := (hFirst.append (hLiteral.append hLast)).of_follows (fun _ hRest => hRest)
    (e := .line) fun rest _ => follows_free rest
  rw [String.toList_append, String.toList_append, List.append_assoc]
  refine hReads.imp ?_
  rintro ls ⟨_, _, rfl, ⟨joint, rfl⟩, _, _, rfl, rfl, joint', rfl⟩
  have hText := isAttributeText_doc false s (stringLiteral s)
  refine ⟨_, areAttributes_cons false hText .nil, fun level outer => ?_⟩
  cases joint <;> cases joint' <;> rfl

/-- The tokens document what follows them, or what encloses them. -/
def IsDocumentation (inner : Bool) (ts : Tokens) : Prop :=
  ∃ text, ts = docAttribute inner text

/-- A carriage return without a line feed in documentation that is a comment. -/
def HasBareReturn (s : String) : Prop :=
  ('\n' ∉ s.toList ∨ isBalanced 0 s.toList = true) ∧
    noBareReturn (withoutLineSpaces s.toList) = false

/-- A text of one line has no line feeds before which spaces could be dropped. -/
theorem withoutLineSpaces_of_notMem {s : List Char} (h : '\n' ∉ s) : withoutLineSpaces s = s := by
  have hPieces : pieces (· == '\n') s = [s] := by
    induction s with
    | nil => rfl
    | cons c s ih =>
      rw [List.mem_cons, not_or] at h
      have hc : ¬ (c == '\n') = true := by simpa using fun hc => h.1 hc.symm
      rw [pieces, if_neg hc, ih h.2]
  rw [withoutLineSpaces_eq, hPieces]
  rfl

/-- Documentation of several lines is a block comment, without the spaces that its lines begin
with. -/
theorem reads_blockDocumentation {s t : List Char} (hBegins : ∃ r, s = ' ' :: '`' :: r)
    (hLast : s.getLast? = some '.') (hBalanced : isBalanced 0 s = true) (hTrims : Trims s t)
    (hReturn : ¬ φ → noBareReturn t = true) :
    Reads φ .free .line (Yields AreAttributes) ("/**" ++ String.ofList t ++ "*/").toList := by
  have hEnd : t.getLast? ≠ some '/' := by
    rw [hTrims.getLast?_eq, hLast]
    decide
  have hComment : isBalanced 0 t = true := hTrims.isBalanced_eq.trans hBalanced
  obtain ⟨r, rfl⟩ := hBegins
  obtain ⟨u, rfl⟩ := hTrims.exists_of_blank (by decide) (by decide)
  have hHead : ∀ c ∈ (' ' :: u).head?, c ∉ ['*', '/'] := by
    rintro c hc
    obtain rfl : ' ' = c := Option.some.inj hc
    decide
  have hReads : Reads φ .free .line (Yields AreAttributes) _ :=
    (reads_blockComment hHead (List.cons_ne_nil _ _) hComment hEnd hReturn).imp
      fun ls hls => hls.imp fun ts hts => hts ▸ areAttributes_docAttribute (' ' :: u)
  have hText : ("/**" ++ String.ofList (' ' :: u) ++ "*/").toList =
      '/' :: '*' :: '*' :: (' ' :: u ++ ['*', '/']) := by
    rw [String.toList_append, String.toList_append, List.append_assoc,
      String.toList_ofList (l := ' ' :: u)]
    rfl
  rw [hText]
  exact hReads

/-- Documentation of one line is a line comment. -/
theorem reads_lineDocumentation {s : String} (hBegins : ∃ r, s.toList = ' ' :: '`' :: r)
    (hLast : s.toList.getLast? = some '.') (hLine : '\n' ∉ s.toList)
    (hReturn : ¬ φ → noBareReturn s.toList = true) :
    Reads φ .free .line (Yields AreAttributes) ("///" ++ s).toList := by
  have hEnd : s.toList.getLast? ≠ some '\r' := by
    rw [hLast]
    decide
  rw [String.toList_append]
  refine (reads_lineComment ?_ hLine hEnd hReturn).imp
    fun ls hls => hls.imp fun ts hts => hts ▸ areAttributes_docAttribute s.toList
  obtain ⟨r, hList⟩ := hBegins
  rw [hList]
  exact fun hSlash => absurd (Option.some.inj hSlash) (by decide)

theorem reads_documentation {s : String} (hBegins : ∃ r, s.toList = ' ' :: '`' :: r)
    (hLast : s.toList.getLast? = some '.') (hReturn : ¬ φ → ¬ HasBareReturn s) :
    Reads φ .free .line (Yields AreAttributes) (documentation s).toList := by
  unfold documentation
  dsimp only
  by_cases hLine : '\n' ∈ s.toList
  · have hContains : ¬ (!s.toList.contains '\n') = true := by simpa using hLine
    rw [if_neg hContains]
    split
    · rename_i hBalanced
      refine reads_blockDocumentation hBegins hLast hBalanced (trims_withoutLineSpaces _) ?_
      intro hφ
      by_contra hNot
      exact hReturn hφ ⟨.inr hBalanced, Bool.eq_false_iff.mpr hNot⟩
    · exact reads_docAttribute s
  · have hContains : (!s.toList.contains '\n') = true := by simpa using hLine
    rw [if_pos hContains]
    refine reads_lineDocumentation hBegins hLast hLine fun hφ => ?_
    by_contra hNot
    refine hReturn hφ ⟨.inl hLine, ?_⟩
    rw [withoutLineSpaces_of_notMem hLine]
    exact Bool.eq_false_iff.mpr hNot

end CommandDispatch.Dispatcher
