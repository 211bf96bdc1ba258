import CommandDispatch.Proofs.Dispatcher.Callee
import CommandDispatch.Proofs.Layout.Lines
import CommandDispatch.Proofs.Layout.TokenText

/-!
# The function that is called is read back

What is written for a path can be cut into tokens, since its words are names and the tokens in it
were tokens of a text. For a plain path, these are a path again.

* `spells_typeDoc`, `spells_pathDoc`: types and paths; if they are plain, so are they read,
* `spells_callOf`: the call of a function; if its path can be called, the text is a call.
-/

namespace CommandDispatch.Dispatcher

open Layout Source Source.Parser Source.Grammar

variable {φ ψ : Prop}

/-! ## Texts of tokens -/

theorem spells_tokensText (inBlock : Bool) {ts : Tokens} (h : AreReadable ts) :
    Spells φ .free .token (AreAlike ts) (tokensText inBlock ts : Doc String) :=
  Lexes.of_text (by decide) (reads_tokensText inBlock h)

/-- Where no word may go on, no other token may. -/
theorem token_of_word {b : Edge} {P : Tokens → Prop} {d : Doc String}
    (h : Spells φ b .word P d) : Spells φ b .token P d :=
  Writes.imp h fun _ hOut =>
    hOut.of_follows (fun _ hRest => hRest) fun _ hRest => follows_word_of_token hRest

/-- Tokens that differ from a literal in which marks are joined are one as well. -/
theorem isLiteralTokens_of_areAlike {ts us : Tokens} (h : AreAlike ts us)
    (hts : Tokens.isLiteral ts = true) : IsLiteralTokens us := by
  obtain ⟨kind, text, rfl⟩ | ⟨joint, text, rfl⟩ | rfl | rfl := isLiteralTokens_of_isLiteral hts
  · obtain _ | ⟨_, ⟨⟩⟩ := h
    exact .inl ⟨kind, text, rfl⟩
  · obtain _ | ⟨_, _ | ⟨_, ⟨⟩⟩⟩ | ⟨_, _, joint', _ | ⟨_, ⟨⟩⟩⟩ := h
    · exact .inr (.inl ⟨joint, text, rfl⟩)
    · exact .inr (.inl ⟨joint', text, rfl⟩)
  · obtain _ | ⟨_, ⟨⟩⟩ := h
    exact .inr (.inr (.inl rfl))
  · obtain _ | ⟨_, ⟨⟩⟩ := h
    exact .inr (.inr (.inr rfl))

/-! ## Parts of types -/

theorem reads_lifetimeName {w : String} (h : IsName w) :
    Reads φ .free .word (Yields (· = [.mark '\'' true, .word w])) ("'" ++ w).toList := by
  intro rest hRest
  have hCuts : Cuts φ (['\''] ++ w.toList) rest [.leaf (.mark '\'' true), .leaf (.word w)] :=
    (cuts_lifetime h hRest).append (cuts_name h hRest)
  rw [String.toList_append]
  exact ⟨trivial, _, ⟨_, rfl, fun _ _ => rfl⟩, hCuts⟩

theorem spells_lifetimeName {w : String} (h : IsName w) :
    Spells φ .free .token (· = [.mark '\'' true, .word w]) ([.text ("'" ++ w)] : Doc String) :=
  token_of_word (Lexes.of_text (by decide) (reads_lifetimeName h))

theorem reads_phrase_yields {b a : Edge} {s : String} (h : isPhrase b a s = true)
    {ts : Bool → Tokens} (hTokens : ∀ joint level outer,
      nest (lexemesOf a joint s) level outer = some ((ts joint).reverse ++ level, outer)) :
    Reads φ b a (Yields fun us => ∃ joint, us = ts joint) s.toList := by
  refine (reads_phrase h).imp ?_
  rintro ls ⟨joint, rfl⟩
  exact ⟨ts joint, ⟨joint, rfl⟩, hTokens joint⟩

/-- The tokens of the marks before the type that is referred to. -/
def AreReferenceMarks (lifetime : Option String) (isMutable : Bool) (ts : Tokens) : Prop :=
  ∃ joint, ts = .mark '&' joint :: (lifetimeTokens lifetime ++ mutableTokens isMutable)

theorem reads_referenceMarks {lifetime : Option String} (isMutable : Bool)
    (h : ∀ w ∈ lifetime, IsName w) :
    Reads φ .free .free (Yields (AreReferenceMarks lifetime isMutable))
      (referenceMarks lifetime isMutable).toList := by
  cases lifetime with
  | none =>
    cases isMutable with
    | true =>
      have hMarks : Reads φ .free .free
          (Yields fun us => ∃ _ : Bool, us = [.mark '&' false, .word "mut"]) "&mut ".toList :=
        reads_phrase_yields (by decide) fun _ _ _ => rfl
      exact hMarks.imp fun ls hls => hls.imp fun ts ⟨_, hts⟩ => ⟨false, hts⟩
    | false => exact reads_phrase_yields (by decide) fun _ _ _ => rfl
  | some w =>
    have hAmpersand : Reads φ .free .free (Yields fun us => ∃ joint, us = [.mark '&' joint])
        "&".toList :=
      reads_phrase_yields (by decide) fun _ _ _ => rfl
    have hMutable : Reads φ .word .free
        (Yields fun us => ∃ _ : Bool, us = mutableTokens isMutable)
        (" " ++ if isMutable then "mut " else "").toList := by
      cases isMutable <;> exact reads_phrase_yields (by decide) fun _ _ _ => rfl
    have hText : (referenceMarks (some w) isMutable).toList = "&".toList ++
        (("'" ++ w).toList ++ (" " ++ if isMutable then "mut " else "").toList) := by
      simp [referenceMarks]
    rw [hText]
    refine (hAmpersand.append ((reads_lifetimeName (h w rfl)).append hMutable)).imp ?_
    rintro ls ⟨_, _, rfl, hFirst, _, _, rfl, hName, hLast⟩
    refine (hFirst.append (hName.append hLast)).imp ?_
    rintro ts ⟨_, _, rfl, ⟨joint, rfl⟩, _, _, rfl, rfl, _, rfl⟩
    exact ⟨joint, rfl⟩

theorem spells_tupleDoc {P : Tokens → Prop} {ds : List (Doc String)}
    (h : ∀ d ∈ ds, Spells φ .free .token P d) :
    Spells φ .free .free (Grouped .parenthesis (Separated P)) (tupleDoc ds) := by
  unfold tupleDoc
  split
  · rename_i d
    have hComma : Spells φ .token .free (fun ts => ∃ joint, ts = [.mark ',' joint])
        (",": Doc String) :=
      .phrase (by decide) fun _ _ _ => rfl
    have hInside : Spells φ .free .free (Separated P)
        (Doc.space 0 ++ (d ++ ((",": Doc String) ++ ([.gap { offset := -step }] ++ [])))) := by
      refine Lexes.gap (((h d List.mem_cons_self).append
        (hComma.append (Lexes.gap Spells.nil))).imp ?_)
      rintro ts ⟨us, _, rfl, hus, _, _, rfl, ⟨joint, rfl⟩, rfl⟩
      exact .cons joint hus .nil
    exact .enclosed (by decide) (fun _ => rfl) (by decide) (fun _ => rfl) hInside.block
  · exact .delimited (by decide) (fun _ => rfl) (by decide) (fun _ => rfl) (by decide) h

/-- Documents with commas in angle brackets. -/
theorem spells_angles {b : Edge} {P : Tokens → Prop} {ds : List (Doc String)}
    (hLeft : isPhrase b .free "<" = true)
    (hLess : ∀ joint, lexemesOf .free joint "<" = [.leaf (.mark '<' joint)])
    (hNe : ds ≠ []) (h : ∀ d ∈ ds, Spells φ .free .token P d) :
    Spells φ b .free (fun ts => ∃ joint us joint',
      ts = .mark '<' joint :: (us ++ [.mark '>' joint']) ∧ Separated P us)
      (Doc.delimited "<" ">" ds) := by
  unfold Doc.delimited
  split
  · exact absurd rfl hNe
  · have hLeft : Spells φ b .free (fun ts => ∃ joint, ts = [.mark '<' joint]) ("<" : Doc String) :=
      .phrase hLeft fun joint _ _ => by rw [hLess]; rfl
    have hRight : Spells φ .token .free (fun ts => ∃ joint, ts = [.mark '>' joint])
        (">" : Doc String) :=
      .phrase (by decide) fun _ _ _ => rfl
    have hInside : Spells φ .free .token (Separated P) (Doc.space 0 ++ Doc.commas ds) :=
      Lexes.gap (Spells.commas (by decide) h hNe)
    refine (hLeft.append (hInside.block.append (hRight.append .nil))).imp ?_
    rintro ts ⟨_, _, rfl, ⟨joint, rfl⟩, us, _, rfl, hus, _, _, rfl, ⟨joint', rfl⟩, rfl⟩
    exact ⟨joint, us, joint', rfl, hus⟩

/-! ## Types and paths -/

/-- Where double colons stand before all generic arguments. -/
def styleOf (inExpression : Bool) : PathStyle :=
  if inExpression then .expression else .type

/-- The word of a segment with its generic arguments. -/
theorem spells_angledSegment (inExpression : Bool) {name : String} (hName : IsName name)
    (hWord : IsSegmentWord name) {s : Segment} (hs : s.name = name) {ds : List (Doc String)}
    (hNe : ds ≠ []) (h : ∀ d ∈ ds, Spells φ .free .token (Given ψ IsArgument) d) :
    Spells φ .free .word (Given ψ (IsSegmentOf (styleOf inExpression) s))
      (Doc.join
        [name, Doc.join [if inExpression then "::" else [], Doc.delimited "<" ">" ds]]) := by
  have hColons : Spells φ .word .free
      (Then (OpensArguments (styleOf inExpression)) fun ts => ∃ joint us joint',
        ts = .mark '<' joint :: (us ++ [.mark '>' joint']) ∧ Separated (Given ψ IsArgument) us)
      (Doc.join [if inExpression then "::" else [], Doc.delimited "<" ">" ds]) := by
    cases inExpression with
    | true =>
      have hMarks : Spells φ .word .free (OpensArguments .expression) ("::" : Doc String) := by
        have hPhrase : Spells φ .word .free
            (fun ts => ∃ joint, ts = [.mark ':' true, .mark ':' joint]) ("::" : Doc String) :=
          .phrase (by decide) fun _ _ _ => rfl
        exact hPhrase.imp fun ts ⟨joint, hts⟩ => hts ▸ .turbofish .expression joint
      refine (hMarks.append ((spells_angles (by decide) (fun _ => rfl) hNe h).append .nil)).imp ?_
      rintro ts ⟨us, _, rfl, hus, vs, _, rfl, hvs, rfl⟩
      rw [List.append_nil]
      exact ⟨us, vs, rfl, hus, hvs⟩
    | false =>
      refine ((spells_angles (by decide) (fun _ => rfl) hNe h).append .nil).imp ?_
      rintro ts ⟨vs, _, rfl, hvs, rfl⟩
      rw [List.append_nil]
      exact ⟨[], vs, rfl, .plain, hvs⟩
  refine ((Spells.word hName).append (hColons.of_free.append .nil)).imp ?_
  rintro ts ⟨_, _, rfl, rfl, _, _, rfl, ⟨before, _, rfl, hBefore, joint, us, joint', rfl, hus⟩,
    rfl⟩ hψ
  rw [List.append_nil]
  exact ⟨isSegment_angled hWord hBefore joint joint' (hus.imp fun _ hvs => hvs hψ),
    ⟨_, by rw [hs]; rfl⟩⟩

/-- Every argument is written as a lifetime or as one of the others. -/
theorem argumentDocs_ne_nil {arguments : List GenericArgument} (h : arguments ≠ []) :
    (argumentDocs true arguments ++ argumentDocs false arguments : List (Doc String)) ≠ [] := by
  cases arguments with
  | nil => exact absurd rfl h
  | cons a arguments => cases a <;> simp [argumentDocs]

mutual

/-- What is written for a plain type is read as a type. -/
theorem spells_typeDoc : ∀ {t : Ty}, t.IsReadable → (ψ → t.isPlain = true) →
    Spells φ .free .token (Given ψ IsType) (typeDoc t)
  | .path p, h, hPlain => by
    have hPath (hψ : ψ) : p.isPlain = true ∧ p.beginsWithTry = false := by
      simpa [Ty.isPlain] using hPlain hψ
    refine token_of_word ((spells_pathDoc false h fun hψ => (hPath hψ).1).imp ?_)
    exact fun ts hts hψ => (hts hψ).isType (hPath hψ).2
  | .qualified _ _, h, hPlain =>
    (spells_tokensText false h).imp fun _ _ hψ => nomatch hPlain hψ
  | .paren inner, h, hPlain => by
    refine Spells.of_free ((Spells.enclosed (by decide) (fun _ => rfl) (by decide) (fun _ => rfl)
      (spells_typeDoc (t := inner) h hPlain)).imp ?_)
    rintro ts ⟨us, rfl, hus⟩ hψ
    exact isType_parenthesized (.last (hus hψ))
  | .group inner, h, hPlain => spells_typeDoc (t := inner) h hPlain
  | .tuple elements, h, hPlain => by
    refine Spells.of_free ((spells_tupleDoc (spells_typeDocs h hPlain)).imp ?_)
    rintro ts ⟨us, rfl, hus⟩ hψ
    exact isType_parenthesized (hus.imp fun _ hvs => hvs hψ)
  | .reference lifetime isMutable inner, ⟨hLifetime, h⟩, hPlain => by
    have hMarks : Spells φ .free .free (AreReferenceMarks lifetime isMutable)
        (referenceMarks lifetime isMutable : Doc String) :=
      Lexes.of_text (by decide) (reads_referenceMarks isMutable hLifetime)
    refine (hMarks.append ((spells_typeDoc (t := inner) h hPlain).append .nil)).imp ?_
    rintro ts ⟨_, _, rfl, ⟨joint, rfl⟩, us, _, rfl, hus, rfl⟩ hψ
    rw [List.append_nil]
    exact isType_reference joint lifetime isMutable (hus hψ)
  | .pointer isMutable inner, h, hPlain => by
    have hMark : Spells φ .free .free
        (· = [.mark '*' false, .word (if isMutable then "mut" else "const")])
        (if isMutable then ("*mut " : Doc String) else "*const ") := by
      cases isMutable <;> exact .text (by decide) fun _ _ _ => rfl
    refine (hMark.append ((spells_typeDoc (t := inner) h hPlain).append .nil)).imp ?_
    rintro ts ⟨_, _, rfl, rfl, us, _, rfl, hus, rfl⟩ hψ
    rw [List.append_nil]
    exact isType_pointer false isMutable (hus hψ)
  | .slice inner, h, hPlain => by
    refine Spells.of_free ((Spells.enclosed (by decide) (fun _ => rfl) (by decide) (fun _ => rfl)
      (spells_typeDoc (t := inner) h hPlain)).imp ?_)
    rintro ts ⟨us, rfl, hus⟩ hψ
    exact isType_slice (hus hψ)
  | .array inner length, ⟨h, hLength⟩, hPlain => by
    have hParts (hψ : ψ) : inner.isPlain = true ∧ Tokens.isLiteral length = true := by
      simpa [Ty.isPlain] using hPlain hψ
    have hSemicolon : Spells φ .token .free (· = [.mark ';' false]) ("; " : Doc String) :=
      .text (by decide) fun _ _ _ => rfl
    let inside : Doc String :=
      typeDoc inner ++ (("; " : Doc String) ++ (tokensText true length : Doc String))
    have hInside : Spells φ .free .token _ inside :=
      (spells_typeDoc (t := inner) h fun hψ => (hParts hψ).1).append
        (hSemicolon.append (spells_tokensText true hLength))
    have hBrackets : Spells φ .free .free _ (Doc.join [("[" : Doc String), inside, "]"]) :=
      .enclosed (by decide) (fun _ => rfl) (by decide) (fun _ => rfl) hInside
    have hDoc : typeDoc (.array inner length) = Doc.join [("[" : Doc String), inside, "]"] := by
      simp [typeDoc, Doc.join, inside]
    rw [hDoc]
    refine Spells.of_free (hBrackets.imp ?_)
    rintro ts ⟨us, rfl, vs, _, rfl, hvs, _, ws, rfl, rfl, hws⟩ hψ
    exact isType_array (hvs hψ) false (isLiteralTokens_of_areAlike hws (hParts hψ).2)
  | .never, _, _ => by
    have hMark : Spells φ .free .free (fun ts => ∃ joint, ts = [.mark '!' joint])
        ("!" : Doc String) :=
      .phrase (by decide) fun _ _ _ => rfl
    exact hMark.of_free.imp fun ts ⟨joint, hts⟩ _ => hts ▸ isType_never joint
  | .hole, _, _ =>
    token_of_word ((Spells.word (by decide)).imp fun _ hts _ => hts ▸ isType_hole)
  | .other _, h, hPlain =>
    (spells_tokensText false h).imp fun _ _ hψ => nomatch hPlain hψ

theorem spells_typeDocs : ∀ {ts : List Ty}, Ty.AllReadable ts → (ψ → Ty.allPlain ts = true) →
    ∀ d ∈ typeDocs ts, Spells φ .free .token (Given ψ IsType) d
  | [], _, _ => List.forall_mem_nil _
  | t :: ts, ⟨h, hRest⟩, hPlain => by
    have hBoth (hψ : ψ) : t.isPlain = true ∧ Ty.allPlain ts = true := by
      simpa [Ty.allPlain] using hPlain hψ
    exact List.forall_mem_cons.mpr ⟨spells_typeDoc h fun hψ => (hBoth hψ).1,
      spells_typeDocs hRest fun hψ => (hBoth hψ).2⟩

/-- What is written for a plain path is read as a path. -/
theorem spells_pathDoc (inExpression : Bool) : ∀ {p : Path}, p.IsReadable →
    (ψ → p.isPlain = true) →
      Spells φ .free .word (Given ψ (IsPathOf (styleOf inExpression) p)) (pathDoc inExpression p)
  | .mk _ [], ⟨hNe, _⟩, _ => absurd rfl hNe
  | .mk isGlobal (s :: segments), ⟨_, h, hRest⟩, hPlain => by
    have hBoth (hψ : ψ) : s.isPlain = true ∧ Segment.allPlain segments = true := by
      simpa [Path.isPlain, Segment.allPlain] using hPlain hψ
    have hBefore : Spells φ .free .free (BeginsPath isGlobal)
        (if isGlobal then ("::" : Doc String) else []) := by
      cases isGlobal with
      | true =>
        have hColons : Spells φ .free .free
            (fun ts => ∃ joint, ts = [.mark ':' true, .mark ':' joint]) ("::" : Doc String) :=
          .phrase (by decide) fun _ _ _ => rfl
        exact hColons.imp fun ts ⟨joint, hts⟩ => hts ▸ .absolute joint
      | false => exact Spells.nil.imp fun ts hts => hts ▸ .relative
    have hFirst := spells_segmentDoc inExpression h fun hψ => (hBoth hψ).1
    have hOthers := spells_segmentsDoc inExpression hRest fun hψ => (hBoth hψ).2
    refine (hBefore.append (hFirst.append (hOthers.append .nil))).imp ?_
    rintro ts ⟨before, _, rfl, hBefore, first, _, rfl, hFirst, others, _, rfl, hOthers, rfl⟩ hψ
    rw [List.append_nil]
    exact isPathOf_append hBefore (hFirst hψ) (hOthers hψ).1 (hOthers hψ).2

/-- Segments, each after a double colon. -/
theorem spells_segmentsDoc (inExpression : Bool) : ∀ {segments : List Segment},
    Segment.AllReadable segments → (ψ → Segment.allPlain segments = true) →
      Spells φ .word .word
        (Given ψ fun ts => Repeated (IsFurtherSegment (styleOf inExpression)) ts ∧
          (segments ≠ [] → ts ≠ []))
        (segmentsDoc inExpression true segments)
  | [], _, _ => by
    refine Spells.nil.imp ?_
    rintro ts rfl -
    exact ⟨.nil, fun hNe => absurd rfl hNe⟩
  | s :: segments, ⟨h, hRest⟩, hPlain => by
    have hBoth (hψ : ψ) : s.isPlain = true ∧ Segment.allPlain segments = true := by
      simpa [Segment.allPlain] using hPlain hψ
    have hColons : Spells φ .word .free
        (fun ts => ∃ joint, ts = [.mark ':' true, .mark ':' joint]) ("::" : Doc String) :=
      .phrase (by decide) fun _ _ _ => rfl
    have hFirst := spells_segmentDoc inExpression h fun hψ => (hBoth hψ).1
    have hOthers := spells_segmentsDoc inExpression hRest fun hψ => (hBoth hψ).2
    refine (hColons.append (hFirst.append (hOthers.append .nil))).imp ?_
    rintro ts ⟨_, _, rfl, ⟨joint, rfl⟩, first, _, rfl, hFirst, others, _, rfl, hOthers, rfl⟩ hψ
    rw [List.append_nil]
    have hFurther : IsFurtherSegment (styleOf inExpression)
        (.mark ':' true :: .mark ':' joint :: first) :=
      ⟨joint, first, rfl, (hFirst hψ).isSegment⟩
    have hAll := Repeated.cons hFurther (hOthers hψ).1
    exact ⟨hAll, fun _ => List.cons_ne_nil _ _⟩

theorem spells_segmentDoc (inExpression : Bool) : ∀ {s : Segment}, s.IsReadable →
    (ψ → s.isPlain = true) →
      Spells φ .free .word (Given ψ (IsSegmentOf (styleOf inExpression) s))
        (segmentDoc inExpression s)
  | .mk _ .none, ⟨hName, hWord, _⟩, _ => by
    refine ((Spells.word hName).append (Spells.nil.append .nil)).imp ?_
    rintro ts ⟨_, _, rfl, rfl, _, _, rfl, rfl, rfl⟩ -
    exact ⟨hWord.elim isSegment_word fun hWord => isSegment_of_mem hWord.1, ⟨_, rfl⟩⟩
  | .mk _ (.angled _ [] _), ⟨hName, hWord, _⟩, _ => by
    refine ((Spells.word hName).append (Spells.nil.append .nil)).imp ?_
    rintro ts ⟨_, _, rfl, rfl, _, _, rfl, rfl, rfl⟩ -
    exact ⟨isSegment_word (hWord.resolve_right fun hNone => nomatch hNone.2), ⟨_, rfl⟩⟩
  | .mk _ (.angled _ (a :: arguments) _), ⟨hName, hWord, h⟩, hPlain => by
    have hArguments (hψ : ψ) : GenericArgument.allPlain (a :: arguments) = true :=
      (Bool.and_eq_true_iff.mp (hPlain hψ)).1
    have hDocs : ∀ d ∈ argumentDocs true (a :: arguments) ++ argumentDocs false (a :: arguments),
        Spells φ .free .token (Given ψ IsArgument) d := by
      intro d hd
      rcases List.mem_append.mp hd with hd | hd
      · exact spells_argumentDocs true h hArguments d hd
      · exact spells_argumentDocs false h hArguments d hd
    exact spells_angledSegment inExpression hName
      (hWord.resolve_right fun hNone => nomatch hNone.2) rfl
      (argumentDocs_ne_nil (List.cons_ne_nil _ _)) hDocs

theorem spells_argumentDocs (lifetimes : Bool) : ∀ {arguments : List GenericArgument},
    GenericArgument.AllReadable arguments → (ψ → GenericArgument.allPlain arguments = true) →
      ∀ d ∈ argumentDocs lifetimes arguments, Spells φ .free .token (Given ψ IsArgument) d
  | [], _, _ => List.forall_mem_nil _
  | .lifetime name :: _, ⟨h, hRest⟩, hPlain => by
    have hDocs := spells_argumentDocs lifetimes hRest hPlain
    have hFirst : Spells φ .free .token (Given ψ IsArgument) ([.text ("'" ++ name)] : Doc String) :=
      (spells_lifetimeName h).imp fun _ hts _ => hts ▸ isArgument_lifetime name
    rw [argumentDocs]
    split
    · exact List.forall_mem_cons.mpr ⟨hFirst, hDocs⟩
    · exact hDocs
  | .type t :: arguments, ⟨h, hRest⟩, hPlain => by
    have hBoth (hψ : ψ) : t.isPlain = true ∧ GenericArgument.allPlain arguments = true :=
      Bool.and_eq_true_iff.mp (hPlain hψ)
    have hDocs := spells_argumentDocs lifetimes hRest fun hψ => (hBoth hψ).2
    have hFirst := spells_typeDoc (t := t) h fun hψ => (hBoth hψ).1
    rw [argumentDocs]
    split
    · exact hDocs
    · exact List.forall_mem_cons.mpr
        ⟨hFirst.imp fun _ hts hψ => isArgument_type (hts hψ), hDocs⟩
  | .other written :: arguments, ⟨h, hRest⟩, hPlain => by
    have hBoth (hψ : ψ) : Tokens.isLiteral written = true ∧
        GenericArgument.allPlain arguments = true :=
      Bool.and_eq_true_iff.mp (hPlain hψ)
    have hDocs := spells_argumentDocs lifetimes hRest fun hψ => (hBoth hψ).2
    rw [argumentDocs]
    split
    · exact hDocs
    · exact List.forall_mem_cons.mpr ⟨(spells_tokensText false h).imp fun _ hts hψ =>
        isArgument_literal (isLiteralTokens_of_areAlike hts (hBoth hψ).1), hDocs⟩

end

/-! ## Calls -/

/-- A function with its arguments in parentheses. -/
theorem spells_callDoc {P Q : Tokens → Prop} {callee : Doc String} {arguments : List (Doc String)}
    (hCallee : Spells φ .free .word P callee) (h : ∀ d ∈ arguments, Spells φ .free .word Q d) :
    Spells φ .free .free (Then P (Grouped .parenthesis (Separated Q)))
      (callDoc callee arguments) := by
  refine (hCallee.append ((Spells.parentheses h).append .nil)).imp ?_
  rintro ts ⟨us, _, rfl, hus, vs, _, rfl, hvs, rfl⟩
  rw [List.append_nil]
  exact ⟨us, vs, rfl, hus, hvs⟩

/-- Both parts of tokens that are split at an equals sign are readable. -/
theorem areReadable_splitAtEquals (depth : Nat) {ts : Tokens} (h : AreReadable ts) :
    AreReadable (splitAtEquals depth ts).1 ∧ AreReadable (splitAtEquals depth ts).2 := by
  fun_induction splitAtEquals depth ts with
  | case1 => exact ⟨.nil, .nil⟩
  | case2 depth joint rest ih =>
    obtain _ | _ | ⟨hMinus, hTick, _ | _ | ⟨hGreater, hTick', hRest⟩⟩ := h
    obtain ⟨hLeft, hRight⟩ := ih hRest
    exact ⟨.mark hMinus hTick (.mark hGreater hTick' hLeft), hRight⟩
  | case3 depth c joint rest _ hEquals =>
    cases h with
    | mark _ _ hRest => exact ⟨.nil, hRest⟩
    | lifetime => cases hEquals
    | tick => cases hEquals
  | case4 depth c joint rest _ _ inner ih =>
    cases h with
    | mark hc hTick hRest =>
      obtain ⟨hLeft, hRight⟩ := ih hRest
      exact ⟨.mark hc hTick hLeft, hRight⟩
    -- The word or the literal after the tick stays with it.
    | lifetime hw hRest =>
      obtain ⟨hLeft, hRight⟩ := ih (.word hw hRest)
      obtain _ | ⟨hw, hLeft⟩ := hLeft
      exact ⟨.lifetime hw hLeft, hRight⟩
    | tick hText hBegins hRest =>
      obtain ⟨hLeft, hRight⟩ := ih (.literal hText hRest)
      obtain _ | _ | _ | _ | ⟨hText, hLeft⟩ := hLeft
      exact ⟨.tick hText hBegins hLeft, hRight⟩
  | case5 depth t rest _ hMark ih =>
    cases h with
    | word hw hRest =>
      obtain ⟨hLeft, hRight⟩ := ih hRest
      exact ⟨.word hw hLeft, hRight⟩
    | literal hText hRest =>
      obtain ⟨hLeft, hRight⟩ := ih hRest
      exact ⟨.literal hText hLeft, hRight⟩
    | group hTrees hRest =>
      obtain ⟨hLeft, hRight⟩ := ih hRest
      exact ⟨.group hTrees hLeft, hRight⟩
    | _ => exact (hMark _ _ rfl).elim

/-- What a path is split into at a binding. -/
structure IsSplit (segments before : List Segment) (left right : Tokens) (after : List Segment) :
    Prop where
  before_ne_nil : before ≠ []
  before_readable : Segment.AllReadable before
  left_readable : AreReadable left
  right_readable : AreReadable right
  after_readable : Segment.AllReadable after
  /-- No double colon stands before the binding. -/
  not_marked : segments.all Segment.isMarked = false

theorem isSplit_of_splitAtBinding {segments before after : List Segment} {left right : Tokens}
    (h : Segment.AllReadable segments)
    (hSplit : splitAtBinding segments = some (before, left, right, after)) :
    IsSplit segments before left right after := by
  fun_induction splitAtBinding segments generalizing before with
  | case1 => cases hSplit
  | case2 name written isTrailed rest left' right' hEquals =>
    obtain ⟨⟨hName, hWord, hWritten, -⟩, hRest⟩ := h
    have hBoth := areReadable_splitAtEquals 0 hWritten
    rw [hEquals] at hBoth
    cases hSplit
    have hWord := hWord.resolve_right fun hNone => nomatch hNone.2
    exact ⟨List.cons_ne_nil _ _, ⟨⟨hName, .inl hWord, trivial⟩, trivial⟩, hBoth.1, hBoth.2, hRest,
      rfl⟩
  | case3 s rest hOther ih =>
    obtain ⟨hs, hRest⟩ := h
    obtain ⟨⟨before', left', right', after'⟩, hFound, hEq⟩ := Option.map_eq_some_iff.mp hSplit
    cases hEq
    have hOthers := ih hRest hFound
    refine ⟨List.cons_ne_nil _ _, ⟨hs, hOthers.before_readable⟩, hOthers.left_readable,
      hOthers.right_readable, hOthers.after_readable, ?_⟩
    rw [List.all_cons, hOthers.not_marked, Bool.and_false]

/-- What is written for a comparison of two operands is read as tokens. -/
theorem spells_comparisonDoc {b a : Edge} {operator : String} {left right : Doc String}
    {O P Q : Tokens → Prop} (hLeft : Spells φ .free b P left)
    (hOperator : Spells φ b .free O (operator : Doc String)) (hRight : Spells φ .free a Q right) :
    Spells φ .free a (fun _ => True) (comparisonDoc left operator right) := by
  have hSpace : Spells φ .free .free (· = []) (" " : Doc String) :=
    .text (by decide) fun _ _ _ => rfl
  refine Spells.imp (.block (hLeft.block.append <| (Spells.space 1).append <|
    (hOperator.append hSpace).append (hRight.append .nil))) fun _ _ => trivial

theorem spells_operandDoc {P : Tokens → Prop} {arguments : List (Doc String)}
    (h : ∀ d ∈ arguments, Spells φ .free .word P d) :
    Spells φ .free .free (fun _ => True) (operandDoc arguments) := by
  unfold operandDoc
  split
  · rename_i d
    have hParentheses : Spells φ .free .free (Grouped .parenthesis P)
        (Doc.join [("(" : Doc String), d, ")"]) :=
      .enclosed (by decide) (fun _ => rfl) (by decide) (fun _ => rfl) (h d List.mem_cons_self)
    exact hParentheses.imp fun _ _ => trivial
  · exact (Spells.parentheses h).free_of.imp fun _ _ => trivial

/-- The last operand, where the path goes on after its binding or does not. -/
theorem exists_spells_last {P : Tokens → Prop} {arguments : List (Doc String)}
    (hArguments : ∀ d ∈ arguments, Spells φ .free .word P d) (after : List Segment) :
    Segment.AllReadable after → ∃ Q, Spells φ .free .free Q (match after with
      | [] => operandDoc arguments
      | _ => callDoc (pathDoc true (.mk true after)) arguments) := by
  intro h
  cases after with
  | nil => exact ⟨_, spells_operandDoc hArguments⟩
  | cons s after =>
    have hAfter : Spells φ .free .word _ (pathDoc true (.mk true (s :: after))) :=
      spells_pathDoc (ψ := False) true ⟨List.cons_ne_nil _ _, h⟩ False.elim
    exact ⟨_, spells_callDoc hAfter hArguments⟩

/-- What is written for a path without double colons before its bindings is read as tokens. -/
theorem spells_split {segments before after : List Segment} {left right : Tokens}
    (h : IsSplit segments before left right after) (isGlobal : Bool) {Q : Tokens → Prop}
    {last : Doc String} (hLast : Spells φ .free .free Q last) :
    Spells φ .free .free (fun _ => True) (Doc.join
      [ comparisonDoc (pathDoc true (.mk isGlobal before)) "<" (tokensText false left), " = ",
        Doc.joint, comparisonDoc (tokensText false right) ">" last ]) := by
  have hBefore : Spells φ .free .word _ (pathDoc true (.mk isGlobal before)) :=
    spells_pathDoc (ψ := False) true ⟨h.before_ne_nil, h.before_readable⟩ False.elim
  have hAssigns : Spells φ .token .free (· = [.mark '=' false]) (" = " : Doc String) :=
    .text (by decide) fun _ _ _ => rfl
  have hLess : Spells φ .word .free (fun ts => ∃ joint, ts = [.mark '<' joint])
      ("<" : Doc String) :=
    .phrase (by decide) fun _ _ _ => rfl
  have hGreater : Spells φ .token .free (fun ts => ∃ joint, ts = [.mark '>' joint])
      (">" : Doc String) :=
    .phrase (by decide) fun _ _ _ => rfl
  have hFirst := spells_comparisonDoc hBefore hLess (spells_tokensText false h.left_readable)
  have hSecond := spells_comparisonDoc (spells_tokensText false h.right_readable) hGreater hLast
  exact (hFirst.append (hAssigns.append (Spells.joint.append (hSecond.append .nil)))).imp
    fun _ _ => trivial

/-- What is written for the call of a function is read as a call, if its path can be called. -/
theorem spells_callOf {p : Path} (h : p.IsReadable) (hCallee : ψ → p.isCallee = true)
    {arguments : List (Doc String)}
    (hArguments : ∀ d ∈ arguments, Spells φ .free .word (IsExpression true) d) :
    Spells φ .free .free (Given ψ IsFreeOperand) (callOf p arguments) := by
  obtain ⟨isGlobal, segments⟩ := p
  have hParts (hψ : ψ) : (Source.Path.mk isGlobal segments).isPlain = true ∧
      segments.all Segment.isMarked = true ∧ (Source.Path.mk isGlobal segments).isTry = false := by
    simpa [Path.isCallee, Path.segments, and_assoc] using hCallee hψ
  rw [callOf]
  split
  · have hPath : Spells φ .free .word _ (pathDoc true (.mk isGlobal segments)) :=
      spells_pathDoc true h fun hψ => (hParts hψ).1
    refine (spells_callDoc hPath hArguments).imp ?_
    rintro ts ⟨us, _, rfl, hus, vs, rfl, hvs⟩ hψ
    exact ((hus hψ).isCallee (hParts hψ).2.2).isFreeOperand_call hvs
  · rename_i before left right after hSplit
    have hFound := isSplit_of_splitAtBinding h.2 hSplit
    obtain ⟨Q, hLast⟩ := exists_spells_last hArguments after hFound.after_readable
    refine (spells_split hFound isGlobal hLast).imp ?_
    rintro ts - hψ
    rw [hFound.not_marked] at hParts
    exact absurd (hParts hψ).2.1 Bool.false_ne_true

end CommandDispatch.Dispatcher
