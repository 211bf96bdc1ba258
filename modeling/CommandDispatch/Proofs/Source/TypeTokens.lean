import CommandDispatch.Proofs.Source.Rules

/-!
# Tokens of paths and types

Paths and types that consist of words, references, pointers, slices, arrays, tuples and generic
arguments are read wherever they stand. Each form of a type has a lemma that puts its tokens
together from those of its parts.

* `IsSegment`, `IsPath`: segments and paths, among types and in expressions,
* `IsArgument`: generic arguments, which are lifetimes, literals and types,
* `IsType`: types, before the marks that may follow them.
-/

namespace CommandDispatch.Source

open Source.Parser Source.Grammar

variable {ts us : Tokens} {style : PathStyle}

/-! ## Marks and words that are not ahead -/

/-- Marks are not ahead where the first token is none of them. -/
theorem marksAhead_eq_false {m : String} {t : TokenTree} {l : List Char} (us : Tokens)
    (hm : (m.toList.head?.any fun d => !l.contains d) = true)
    (ht : ∀ c joint, t = .mark c joint → l.contains c = true) :
    marksAhead m (t :: us) = false := by
  rw [marksAhead]
  match hList : m.toList, hm with
  | d :: ds, hm =>
    have hNot : l.contains d = false := by simpa [hList] using hm
    cases t with
    | mark c joint =>
      have hNe : d ≠ c := by
        rintro rfl
        rw [ht d joint rfl] at hNot
        cases hNot
      cases ds <;> simp [matchMarks, hNe]
    | _ => cases ds <;> rfl

theorem exists_of_marksAhead {m : String} {c : Char} {ts : Tokens} (h : marksAhead m ts = true)
    (hm : m.toList = [c]) : ∃ joint us, ts = .mark c joint :: us := by
  rw [marksAhead, hm] at h
  match ts, h with
  | .mark d joint :: us, h =>
    rw [matchMarks] at h
    split at h
    · rename_i hSame
      exact ⟨joint, us, by rw [hSame]⟩
    · cases h

/-- A path of a type begins with the word. -/
def IsPathWord (w : String) : Prop :=
  reservedWords.contains w = false ∨ w ∈ ["super", "self", "Self", "crate"]

/-- Among the reserved words, only those that lead to a module or a type begin a path. -/
theorem IsPathWord.ne {w : String} {l : List String} (h : IsPathWord w)
    (hks : (l.all fun k => reservedWords.contains k &&
      !(["super", "self", "Self", "crate"].contains k)) = true) : ∀ k ∈ l, w ≠ k := by
  rintro k hk rfl
  have hWord := List.all_eq_true.mp hks w hk
  rw [Bool.and_eq_true, Bool.not_eq_true'] at hWord
  rcases h with h | h
  · rw [hWord.1] at h
    cases h
  · rw [List.contains_iff_mem.mpr h] at hWord
    cases hWord.2

theorem IsPathWord.pathAhead {w : String} (h : IsPathWord w) (rest : Tokens) :
    pathAhead (.word w :: rest) = true := by
  rcases h with hName | hMem
  · rw [Grammar.pathAhead, nameAhead_word hName]
    rfl
  · simp only [List.mem_cons, List.not_mem_nil, or_false] at hMem
    rcases hMem with rfl | rfl | rfl | rfl <;> rfl

theorem wordAhead_eq_false_of_ne {w k : String} (h : w ≠ k) (rest : Tokens) :
    wordAhead k (.word w :: rest) = false :=
  beq_false_of_ne h

theorem wordsAhead_eq_false_of_forall {w : String} {ks : List String} (h : ∀ k ∈ ks, w ≠ k)
    (rest : Tokens) : wordsAhead ks (.word w :: rest) = false := by
  rw [wordsAhead, List.any_eq_false]
  intro k hk
  rw [wordAhead_eq_false_of_ne (h k hk)]
  exact Bool.false_ne_true

theorem word?_of_wordAhead_eq_false {k : String} {ts : Tokens} (h : wordAhead k ts = false) :
    word? k ts = some (false, ts) := by
  simp only [word?, bind_apply, ahead_apply, Option.bind_some, h, Bool.false_eq_true, if_false,
    pure_apply]

theorem mark?_of_marksAhead_eq_false {m : String} {ts : Tokens} (h : marksAhead m ts = false) :
    mark? m ts = some (false, ts) := by
  have hNone : matchMarks m.toList ts = none :=
    Option.isNone_iff_eq_none.mp (Option.isSome_eq_false_iff.mp h)
  simp only [mark?, bind_apply, get_apply, Option.bind_some, hNone, pure_apply]

/-! ## Generic arguments -/

/-- The tokens are a literal. -/
def IsLiteralTokens (ts : Tokens) : Prop :=
  (∃ kind text, ts = [.literal kind text]) ∨
    (∃ joint text, ts = [.mark '-' joint, .literal .number text]) ∨
    ts = [.word "true"] ∨ ts = [.word "false"]

theorem IsLiteralTokens.literalAhead_eq (h : IsLiteralTokens ts) (rest : Tokens) :
    literalAhead (ts ++ rest) = true := by
  obtain ⟨kind, text, rfl⟩ | ⟨joint, text, rfl⟩ | rfl | rfl := h <;> rfl

theorem IsLiteralTokens.literal_apply (h : IsLiteralTokens ts) (rest : Tokens) :
    ∃ value, literal (ts ++ rest) = some (value, rest) := by
  obtain ⟨kind, text, rfl⟩ | ⟨joint, text, rfl⟩ | rfl | rfl := h
  · cases kind <;> exact ⟨_, rfl⟩
  · exact ⟨none, rfl⟩
  · exact ⟨none, rfl⟩
  · exact ⟨none, rfl⟩

/-- The tokens end a generic argument. -/
def EndsArgument (ts : Tokens) : Prop :=
  ∃ joint us, ts = .mark ',' joint :: us ∨ ts = .mark '>' joint :: us

/-- The tokens are read as a generic argument. -/
structure IsArgument (ts : Tokens) : Prop where
  marksAhead_eq : ∀ m ∈ [">", "=", "<="], ∀ rest, marksAhead m (ts ++ rest) = false
  isPart : IsPart (·.genericArgument) EndsArgument ts

/-- To see that marks are not ahead it suffices that they are not for each of them. -/
theorem forall_marks {P : String → Prop} (hClosing : P ">") (hEquals : P "=") (hLess : P "<=") :
    ∀ m ∈ [">", "=", "<="], P m := by
  simp only [List.mem_cons, List.not_mem_nil, or_false, forall_eq_or_imp, forall_eq]
  exact ⟨hClosing, hEquals, hLess⟩

theorem isArgument_lifetime (w : String) : IsArgument [.mark '\'' true, .word w] where
  marksAhead_eq := forall_marks (fun _ => rfl) (fun _ => rfl) fun _ => rfl
  isPart := by
    rintro forms depth rest - ⟨joint, us, rfl | rfl⟩
    · exact ⟨.lifetime w, rfl⟩
    · exact ⟨.lifetime w, rfl⟩

theorem isArgument_literal (h : IsLiteralTokens ts) : IsArgument ts where
  marksAhead_eq := by
    obtain ⟨kind, text, rfl⟩ | ⟨joint, text, rfl⟩ | rfl | rfl := h <;>
      exact forall_marks (fun _ => rfl) (fun _ => rfl) fun _ => rfl
  isPart := by
    rintro forms depth rest - -
    have hLifetime : lifetimeAhead (ts ++ rest) = false := by
      obtain ⟨kind, text, rfl⟩ | ⟨joint, text, rfl⟩ | rfl | rfl := h <;> rfl
    obtain ⟨value, hValue⟩ := h.literal_apply rest
    simp only [genericArgument, constantArgument, bind_apply, get_apply, Option.bind_some,
      hLifetime, Bool.false_and, Bool.false_eq_true, if_false, h.literalAhead_eq, Bool.true_or,
      if_true, ahead_apply, discard_apply, hValue, Option.map_some]
    exact ⟨_, rfl⟩

/-- The tokens end a type. -/
def EndsType (ts : Tokens) : Prop :=
  ts = [] ∨ (∃ joint us, ts = .mark ',' joint :: us ∨ ts = .mark '>' joint :: us ∨
    ts = .mark ';' joint :: us ∨ ts = .mark '=' joint :: us) ∨
      ∃ trees us, ts = .group .brace trees :: us

theorem endsType_nil : EndsType [] :=
  .inl rfl

theorem endsType_of_endsArgument {ts : Tokens} (h : EndsArgument ts) : EndsType ts := by
  obtain ⟨joint, us, rfl | rfl⟩ := h
  · exact .inr (.inl ⟨joint, us, .inl rfl⟩)
  · exact .inr (.inl ⟨joint, us, .inr (.inl rfl)⟩)

theorem endsType_of_endsItem {ts : Tokens} (h : EndsItem List.isEmpty ts) : EndsType ts := by
  rcases h with h | ⟨joint, us, rfl⟩
  · exact .inl (List.isEmpty_iff.mp h)
  · exact .inr (.inl ⟨joint, us, .inl rfl⟩)

/-- A type may begin with the token. -/
def beginsType : TokenTree → Bool
  | .word w => !(["true", "false", "mut"].contains w)
  | .mark c _ => [':', '&', '*', '!'].contains c
  | .literal .. => false
  | .group d _ => d != .brace

/-- The tokens are read as a type. -/
structure IsType (ts : Tokens) : Prop where
  begins : ∃ t us, ts = t :: us ∧ beginsType t = true
  isPart : ∀ allowPlus, IsPart (·.type allowPlus) EndsType ts

theorem IsType.ne_nil (h : IsType ts) : ts ≠ [] := by
  obtain ⟨t, us, rfl, -⟩ := h.begins
  exact List.cons_ne_nil _ _

/-- No marks that no type begins with are ahead. -/
theorem IsType.marksAhead_eq (h : IsType ts) {m : String}
    (hm : (m.toList.head?.any fun d => !([':', '&', '*', '!'].contains d)) = true)
    (rest : Tokens) :
    marksAhead m (ts ++ rest) = false := by
  obtain ⟨t, us, rfl, ht⟩ := h.begins
  refine marksAhead_eq_false _ hm ?_
  rintro c joint rfl
  exact ht

theorem IsType.lifetimeAhead_eq (h : IsType ts) (rest : Tokens) :
    lifetimeAhead (ts ++ rest) = false := by
  obtain ⟨t, us, rfl, ht⟩ := h.begins
  unfold lifetimeAhead
  split
  · rename_i hEq
    cases (List.cons.inj hEq).1
    cases ht
  · rfl

theorem IsType.isConstant_eq (h : IsType ts) (rest : Tokens) :
    (literalAhead (ts ++ rest) || groupAhead .brace (ts ++ rest)) = false := by
  obtain ⟨t, us, rfl, ht⟩ := h.begins
  cases t with
  | word w =>
    simp only [beginsType, List.contains_cons, List.contains_nil, Bool.or_false, Bool.not_eq_true',
      Bool.or_eq_false_iff, beq_eq_false_iff_ne] at ht
    simp [literalAhead, wordsAhead, wordAhead, groupAhead, ht]
  | mark c joint =>
    have hNe : c ≠ '-' := by
      rintro rfl
      cases ht
    simp [literalAhead, wordsAhead, wordAhead, groupAhead, hNe]
  | literal => cases ht
  | group d trees =>
    cases d with
    | brace => cases ht
    | _ => rfl

theorem isArgument_type (h : IsType ts) : IsArgument ts where
  marksAhead_eq := forall_marks (h.marksAhead_eq (by decide)) (h.marksAhead_eq (by decide))
    (h.marksAhead_eq (by decide))
  isPart := by
    intro forms depth rest hDepth hRest
    obtain ⟨t, hType⟩ := h.isPart true forms depth rest hDepth (endsType_of_endsArgument hRest)
    have hEquals : mark? "=" rest = some (false, rest) := by
      obtain ⟨joint, us, rfl | rfl⟩ := hRest <;> rfl
    have hColon : mark? ":" rest = some (false, rest) := by
      obtain ⟨joint, us, rfl | rfl⟩ := hRest <;> rfl
    simp only [genericArgument, bind_apply, get_apply, Option.bind_some, h.lifetimeAhead_eq,
      Bool.false_and, Bool.false_eq_true, if_false, h.isConstant_eq, hType]
    split
    · simp only [bind_apply, hEquals, hColon, Option.bind_some, Bool.false_eq_true, if_false]
      exact ⟨_, rfl⟩
    · exact ⟨_, rfl⟩

/-! ## Segments -/

/-- If tokens follow the word of a segment, the first of them is a colon or an angle bracket. -/
def GoesOnSegment (ts : Tokens) : Prop :=
  ts = [] ∨ ∃ c joint us, ts = .mark c joint :: us ∧ [':', '<'].contains c = true

/-- The tokens are read as a segment of a path. -/
structure IsSegment (style : PathStyle) (ts : Tokens) : Prop where
  begins : ∃ w us, ts = .word w :: us ∧ (IsPathWord w ∧ GoesOnSegment us ∨ w = "try" ∧ us = [])
  isRead : IsRead (·.segment style) (argumentsAhead style · = false) ts

/-- The word leads to another module. -/
theorem isSegment_of_mem {w : String} (h : w ∈ ["super", "self", "crate", "try"]) :
    IsSegment style [.word w] where
  begins := by
    refine ⟨w, [], rfl, ?_⟩
    simp only [List.mem_cons, List.not_mem_nil, or_false] at h
    rcases h with rfl | rfl | rfl | rfl <;> simp [IsPathWord, GoesOnSegment]
  isRead forms depth rest _ _ := by
    refine ⟨.mk w .none, ?_⟩
    simp only [List.mem_cons, List.not_mem_nil, or_false] at h
    rcases h with rfl | rfl | rfl | rfl <;> rfl

/-- What is read of a segment after its word. -/
def argumentsAfter (g : Grammar) (style : PathStyle) (text : String) : Parser Segment := do
  if ← ahead (argumentsAhead style) then
    return .mk text (← g.angled)
  return .mk text .none

/-- Generic arguments may follow the word. -/
def IsSegmentWord (w : String) : Prop :=
  reservedWords.contains w = false ∨ w = "Self"

theorem IsSegmentWord.isPathWord {w : String} (h : IsSegmentWord w) : IsPathWord w :=
  h.imp id fun hSelf => by rw [hSelf]; decide

theorem segment_apply {w : String} (h : IsSegmentWord w) (g : Grammar) (rest : Tokens) :
    g.segment style (.word w :: rest) = argumentsAfter g style w rest := by
  rcases h with h | rfl
  · have hNoPath : wordsAhead ["super", "self", "crate", "try"] (.word w :: rest) = false :=
      wordsAhead_eq_false h (by decide) rest
    simp only [Grammar.segment, bind_apply, ahead_apply, Option.bind_some, hNoPath,
      Bool.false_eq_true, if_false, wordAhead_eq_false h (k := "Self") (by decide), name_word h]
    rfl
  · rfl

theorem isSegment_word {w : String} (h : IsSegmentWord w) : IsSegment style [.word w] where
  begins := ⟨w, [], rfl, .inl ⟨h.isPathWord, .inl rfl⟩⟩
  isRead forms depth rest _ hRest := by
    refine ⟨.mk w .none, ?_⟩
    refine (segment_apply h _ rest).trans ?_
    simp only [argumentsAfter, bind_apply, ahead_apply, Option.bind_some, hRest,
      Bool.false_eq_true, if_false, pure_apply]

/-- What stands before the angle bracket of generic arguments. -/
inductive OpensArguments : PathStyle → Tokens → Prop where
  | plain : OpensArguments .type []
  | turbofish (style : PathStyle) (joint : Bool) :
      OpensArguments style [.mark ':' true, .mark ':' joint]

/-- No longer operator begins with the angle bracket before generic arguments. -/
theorem marksAhead_angle (joint : Bool) {ts : Tokens} (hts : Separated IsArgument ts)
    (joint' : Bool) (rest : Tokens) :
    let tokens := .mark '<' joint :: (ts ++ .mark '>' joint' :: rest)
    marksAhead "<=" tokens = false ∧ marksAhead "<<=" tokens = false := by
  have hFirst : ∀ m ∈ [">", "=", "<="], m ≠ ">" →
      marksAhead m (ts ++ .mark '>' joint' :: rest) = false := by
    intro m hm hNe
    cases hts with
    | nil =>
      simp only [List.mem_cons, List.not_mem_nil, or_false] at hm
      obtain rfl | rfl | rfl := hm
      · exact absurd rfl hNe
      · rfl
      · rfl
    | last h => exact h.marksAhead_eq m hm _
    | cons _ h _ => rw [List.append_assoc]; exact h.marksAhead_eq m hm _
  cases joint with
  | false => exact ⟨rfl, rfl⟩
  | true => exact ⟨hFirst "=" (by decide) (by decide), hFirst "<=" (by decide) (by decide)⟩

/-- The arguments in angle brackets are read. -/
theorem angled_apply (hOpens : OpensArguments style us) (joint joint' : Bool)
    (hts : Separated IsArgument ts) (forms : Forms) (depth : Nat)
    (hDepth : Tokens.size ts < depth) (rest : Tokens) :
    ∃ arguments, (ofDepth forms depth).angled
      (us ++ .mark '<' joint :: (ts ++ .mark '>' joint' :: rest)) = some (arguments, rest) := by
  have hItems :
      Separated (IsListItem (marksAhead ">") (ofDepth forms depth).genericArgument) ts := by
    refine hts.sized.imp fun vs ⟨hvs, hSize⟩ => hvs.isPart.isListItem
      (hvs.marksAhead_eq ">" (by decide)) ?_ forms depth (Nat.lt_of_le_of_lt hSize hDepth)
    rintro rest (hDone | ⟨joint, us, rfl⟩)
    · obtain ⟨joint, us, rfl⟩ := exists_of_marksAhead (c := '>') hDone rfl
      exact ⟨joint, us, .inr rfl⟩
    · exact ⟨joint, us, .inl rfl⟩
  obtain ⟨arguments, hArguments⟩ := separatedUntil_apply hItems (.mark '>' joint' :: rest)
    rfl fun _ _ => rfl
  have hLess (vs : Tokens) : mark "<" (.mark '<' joint :: vs) = some ((), vs) := rfl
  have hGreater : mark ">" (.mark '>' joint' :: rest) = some ((), rest) := rfl
  have hColons : ∃ turbofish, mark? "::" (us ++ .mark '<' joint ::
      (ts ++ .mark '>' joint' :: rest)) =
        some (turbofish, .mark '<' joint :: (ts ++ .mark '>' joint' :: rest)) := by
    cases hOpens with
    | plain => exact ⟨false, rfl⟩
    | turbofish => exact ⟨true, rfl⟩
  obtain ⟨turbofish, hColons⟩ := hColons
  simp only [angled, bind_apply, hColons, Option.bind_some, hLess, get_apply, hArguments, since,
    pure_apply, hGreater]
  exact ⟨_, rfl⟩

theorem isSegment_angled {w : String} (h : IsSegmentWord w) (hOpens : OpensArguments style us)
    (joint joint' : Bool) (hts : Separated IsArgument ts) :
    IsSegment style (.word w :: (us ++ .mark '<' joint :: (ts ++ [.mark '>' joint']))) where
  begins := by
    refine ⟨w, _, rfl, .inl ⟨h.isPathWord, .inr ?_⟩⟩
    cases hOpens with
    | plain => exact ⟨'<', joint, _, rfl, rfl⟩
    | turbofish style joint'' => exact ⟨':', true, _, rfl, rfl⟩
  isRead forms depth rest hDepth hRest := by
    have hSize : Tokens.size ts < depth := by
      simp only [Tokens.size_cons, Tokens.size_append, TokenTree.size] at hDepth
      omega
    obtain ⟨arguments, hArguments⟩ :=
      angled_apply hOpens joint joint' hts forms _ hSize rest
    have hAhead : argumentsAhead style
        (us ++ .mark '<' joint :: (ts ++ .mark '>' joint' :: rest)) = true := by
      clear hRest
      obtain ⟨hLess, hShift⟩ := marksAhead_angle joint hts joint' rest
      cases hOpens with
      | plain =>
        rw [argumentsAhead, List.nil_append, hLess, hShift]
        rfl
      | turbofish =>
        rw [argumentsAhead, Bool.or_eq_true]
        exact .inr rfl
    refine ⟨.mk w arguments, ?_⟩
    have hTokens : .word w :: (us ++ .mark '<' joint :: (ts ++ [.mark '>' joint'])) ++ rest =
        .word w :: (us ++ .mark '<' joint :: (ts ++ .mark '>' joint' :: rest)) := by simp
    rw [hTokens]
    refine (segment_apply h _ _).trans ?_
    simp only [argumentsAfter, bind_apply, ahead_apply, Option.bind_some, hAhead, if_true,
      hArguments, pure_apply]

/-! ## Paths -/

/-- The tokens end a path. -/
def EndsPath (style : PathStyle) (ts : Tokens) : Prop :=
  argumentsAhead style ts = false ∧ segmentAhead ts = false

/-- The tokens are a double colon with a segment after it. -/
def IsFurtherSegment (style : PathStyle) (ts : Tokens) : Prop :=
  ∃ joint us, ts = .mark ':' true :: .mark ':' joint :: us ∧ IsSegment style us

/-- The tokens of a path: a segment and further ones, perhaps after a double colon. -/
structure IsPath (style : PathStyle) (ts : Tokens) : Prop where
  exists_segments : ∃ before first rest, ts = before ++ (first ++ rest) ∧
    (before = [] ∨ ∃ joint, before = [.mark ':' true, .mark ':' joint]) ∧
      IsSegment style first ∧ Repeated (IsFurtherSegment style) rest

theorem IsFurtherSegment.isStep (forms : Forms) (depth : Nat) (h : IsFurtherSegment style ts)
    (hDepth : Tokens.size ts ≤ depth) :
    IsStep segmentAhead (do mark "::"; (ofDepth forms depth).segment style)
      (argumentsAhead style · = false) ts := by
  obtain ⟨joint, us, rfl, hSegment⟩ := h
  have hSize : Tokens.size us ≤ depth := by
    simp only [Tokens.size_cons] at hDepth
    omega
  obtain ⟨w, vs, rfl, -⟩ := hSegment.begins
  refine ⟨List.cons_ne_nil _ _, fun _ _ => rfl, fun rest _ => ?_, fun rest hRest => ?_⟩
  · cases style <;> rfl
  · obtain ⟨s, hs⟩ := hSegment.isRead forms depth rest hSize hRest
    exact ⟨s, hs⟩

/-- A path begins with a double colon or with a word. -/
theorem IsPath.begins (h : IsPath style ts) :
    (∃ joint us, ts = .mark ':' true :: .mark ':' joint :: us) ∨
      ∃ w us, ts = .word w :: us ∧ (IsPathWord w ∧ GoesOnSegment us ∨
        w = "try" ∧ (us = [] ∨ ∃ joint vs, us = .mark ':' true :: .mark ':' joint :: vs)) := by
  obtain ⟨before, first, others, rfl, hBefore, hFirst, hOthers⟩ := h.exists_segments
  obtain rfl | ⟨joint, rfl⟩ := hBefore
  · obtain ⟨w, us, rfl, hw⟩ := hFirst.begins
    refine .inr ⟨w, us ++ others, rfl, ?_⟩
    obtain ⟨hWord, hus⟩ | ⟨rfl, rfl⟩ := hw
    · refine .inl ⟨hWord, ?_⟩
      obtain rfl | ⟨c, joint, vs, rfl, hc⟩ := hus
      · cases hOthers with
        | nil => exact .inl rfl
        | cons hNext _ =>
          obtain ⟨joint, vs, rfl, -⟩ := hNext
          exact .inr ⟨':', true, _, rfl, rfl⟩
      · exact .inr ⟨c, joint, _, rfl, hc⟩
    · refine .inr ⟨rfl, ?_⟩
      cases hOthers with
      | nil => exact .inl rfl
      | cons hNext _ =>
        obtain ⟨joint, vs, rfl, -⟩ := hNext
        exact .inr ⟨joint, _, rfl⟩
  · exact .inl ⟨joint, _, rfl⟩

theorem IsPath.isRead (h : IsPath style ts) :
    IsRead (·.path style) (EndsPath style) ts := by
  intro forms depth rest hDepth ⟨hArguments, hSegment⟩
  obtain ⟨before, first, others, rfl, hBefore, hFirst, hOthers⟩ := h.exists_segments
  simp only [Tokens.size_append] at hDepth
  have hGlobal : ∃ isGlobal, mark? "::" (before ++ (first ++ others) ++ rest) =
      some (isGlobal, first ++ (others ++ rest)) := by
    rw [List.append_assoc, List.append_assoc]
    obtain rfl | ⟨joint, rfl⟩ := hBefore
    · obtain ⟨w, us, rfl, -⟩ := hFirst.begins
      exact ⟨false, rfl⟩
    · exact ⟨true, rfl⟩
  have hSteps := hOthers.sized.imp fun us hus =>
    hus.1.isStep forms depth (by omega)
  obtain ⟨isGlobal, hGlobal⟩ := hGlobal
  obtain ⟨s, hSegment'⟩ :=
    hFirst.isRead forms depth (others ++ rest) (by omega) (hSteps.follows hArguments)
  obtain ⟨rest', hRest'⟩ := repeatWhile_apply hSteps hArguments hSegment
  refine ⟨.mk isGlobal (s :: rest'), ?_⟩
  simp only [Grammar.path, bind_apply, hGlobal, Option.bind_some, hSegment', hRest', pure_apply]

/-! ## Types -/

theorem endsPath_of_endsType {ts : Tokens} (h : EndsType ts) : EndsPath .type ts := by
  rcases h with rfl | ⟨joint, us, rfl | rfl | rfl | rfl⟩ | ⟨trees, us, rfl⟩ <;> exact ⟨rfl, rfl⟩

/-- What begins a path begins no other type. -/
theorem typeRule_of_pathAhead {g : Grammar} {ts rest : Tokens} {p : Path}
    (hFor : wordAhead "for" ts = false)
    (hFunction : wordsAhead ["fn", "unsafe", "extern"] ts = false)
    (hGroup : groupAhead .parenthesis ts = false) (hPath : pathAhead ts = true)
    (hAngle : marksAhead "<" ts = false) (hRead : g.path .type ts = some (p, rest))
    (hRest : EndsType rest) (allowPlus : Bool) :
    g.typeRule allowPlus ts = some (.path p, rest) := by
  have hNoMacro : marksAhead "!" rest = false := by
    rcases hRest with rfl | ⟨joint, us, rfl | rfl | rfl | rfl⟩ | ⟨trees, us, rfl⟩ <;> rfl
  have hNoPlus : marksAhead "+" rest = false := by
    rcases hRest with rfl | ⟨joint, us, rfl | rfl | rfl | rfl⟩ | ⟨trees, us, rfl⟩ <;> rfl
  simp only [typeRule, boundLifetimes, pathType, qualifiedPath, bind_apply, get_apply,
    Option.bind_some, word?_of_wordAhead_eq_false hFor, Bool.false_eq_true, if_false, pure_apply,
    hFunction, hGroup, hPath, Bool.true_or, if_true, mark?_of_marksAhead_eq_false hAngle, hRead,
    hNoMacro, hNoPlus, Bool.and_false, Bool.false_and, Bool.or_false]

theorem isType_path (h : IsPath .type ts) (hTry : wordAhead "try" ts = false) : IsType ts := by
  have hRead := h.isRead
  obtain ⟨joint, us, rfl⟩ | ⟨w, us, rfl, hw⟩ := h.begins
  · refine ⟨⟨.mark ':' true, .mark ':' joint :: us, rfl, rfl⟩,
      fun allowPlus => IsRead.isPart (p := fun g => g.typeRule allowPlus) ?_ fun _ _ => rfl⟩
    intro forms depth rest hDepth hRest
    obtain ⟨p, hp⟩ := hRead forms depth rest hDepth (endsPath_of_endsType hRest)
    exact ⟨.path p, typeRule_of_pathAhead rfl rfl rfl rfl rfl hp hRest allowPlus⟩
  · have hWord : IsPathWord w := by
      obtain ⟨hWord, -⟩ | ⟨rfl, -⟩ := hw
      · exact hWord
      · cases hTry
    have hNe := hWord.ne (l := ["true", "false", "mut", "for", "fn", "unsafe", "extern"]) rfl
    refine ⟨⟨.word w, us, rfl, ?_⟩, fun allowPlus => IsRead.isPart
      (p := fun g => g.typeRule allowPlus) ?_ fun _ _ => rfl⟩
    · simp [beginsType, hNe]
    · intro forms depth rest hDepth hRest
      obtain ⟨p, hp⟩ := hRead forms depth rest hDepth (endsPath_of_endsType hRest)
      have hFunction := hWord.ne (l := ["fn", "unsafe", "extern"]) rfl
      exact ⟨.path p, typeRule_of_pathAhead (wordAhead_eq_false_of_ne (hNe _ (by decide)) _)
        (wordsAhead_eq_false_of_forall hFunction _) rfl (hWord.pathAhead _) rfl hp hRest allowPlus⟩

theorem isType_word {w : String} (hw : reservedWords.contains w = false) : IsType [.word w] :=
  isType_path ⟨[], [.word w], [], rfl, .inl rfl, isSegment_word (.inl hw), .nil⟩
    (wordAhead_eq_false hw (by decide) [])

/-- A name with generic arguments. -/
theorem isType_angled {w : String} (hw : reservedWords.contains w = false) (joint joint' : Bool)
    (hts : Separated IsArgument ts) :
    IsType (.word w :: .mark '<' joint :: (ts ++ [.mark '>' joint'])) := by
  have hSegment := isSegment_angled (.inl hw) .plain joint joint' hts
  have hPath : IsPath .type (.word w :: .mark '<' joint :: (ts ++ [.mark '>' joint'])) :=
    ⟨[], _, [], (List.append_nil _).symm, .inl rfl, hSegment, .nil⟩
  exact isType_path hPath (wordAhead_eq_false hw (by decide) _)

/-- A type before the end of a group. -/
theorem IsType.apply_nil (h : IsType ts) (allowPlus : Bool) (forms : Forms) (depth : Nat)
    (hDepth : Tokens.size ts < depth) :
    ∃ t, (ofDepth forms depth).type allowPlus ts = some (t, []) := by
  obtain ⟨t, ht⟩ := h.isPart allowPlus forms depth [] hDepth endsType_nil
  rw [List.append_nil] at ht
  exact ⟨t, ht⟩

/-- Types in parentheses are a tuple, unless there is one without a comma. -/
theorem parenthesized_apply (h : Separated IsType ts) (forms : Forms) (depth : Nat)
    (hDepth : Tokens.size ts < depth) :
    ∃ t, (∀ written, t ≠ .other written) ∧
      (ofDepth forms depth).parenthesized ts = some (t, []) := by
  cases h with
  | nil => exact ⟨.tuple [], fun _ => Ty.noConfusion, rfl⟩
  | last h =>
    obtain ⟨t, ht⟩ := h.apply_nil true forms _ hDepth
    have hOptional : marksAhead "?" ts = false := by
      have hAny := h.marksAhead_eq (m := "?") (by decide) []
      rwa [List.append_nil] at hAny
    have hLifetime := h.lifetimeAhead_eq []
    rw [List.append_nil] at hLifetime
    have hEmpty : ts.isEmpty = false := by simpa using h.ne_nil
    refine ⟨.paren t, fun _ => Ty.noConfusion, ?_⟩
    simp only [parenthesized, bind_apply, ahead_apply, Option.bind_some, hEmpty, hLifetime,
      hOptional, Bool.false_eq_true, if_false, ht]
    rfl
  | @cons us ts joint h hts =>
    simp only [Tokens.size_append, Tokens.size_cons] at hDepth
    let after : Tokens := .mark ',' joint :: ts
    obtain ⟨t, ht⟩ := h.isPart true forms depth after (by omega)
      (.inr (.inl ⟨joint, ts, .inl rfl⟩))
    obtain ⟨others, hOthers⟩ := commaList_part (p := fun g => g.type true)
      (hts.imp fun vs hvs => ⟨hvs.ne_nil, hvs.isPart true⟩) (fun _ => endsType_of_endsItem)
      forms depth (by omega)
    have hEmpty : (us ++ after).isEmpty = false := by simp [h.ne_nil]
    have hComma : mark? "," after = some (true, ts) := rfl
    refine ⟨.tuple (t :: others), fun _ => Ty.noConfusion, ?_⟩
    simp only [parenthesized, bind_apply, ahead_apply, Option.bind_some, hEmpty,
      h.lifetimeAhead_eq, h.marksAhead_eq (m := "?") (by decide), Bool.false_eq_true, if_false, ht,
      hComma, if_true, hOthers, pure_apply, after]

theorem isType_parenthesized (h : Separated IsType ts) : IsType [.group .parenthesis ts] := by
  refine ⟨⟨_, [], rfl, rfl⟩, fun allowPlus => IsRead.isPart
    (p := fun g => g.typeRule allowPlus) ?_ fun _ _ => rfl⟩
  intro forms depth rest hDepth hRest
  have hSize : Tokens.size ts < depth := by
    simp only [Tokens.size, TokenTree.size] at hDepth
    omega
  obtain ⟨t, hNot, ht⟩ := parenthesized_apply h forms _ hSize
  have hNoPlus : marksAhead "+" rest = false := by
    rcases hRest with rfl | ⟨joint, us, rfl | rfl | rfl | rfl⟩ | ⟨trees, us, rfl⟩ <;> rfl
  have hInside := inside_apply .parenthesis ht rest
  have hFor : word? "for" (.group .parenthesis ts :: rest) =
      some (false, .group .parenthesis ts :: rest) := rfl
  have hFunction : wordsAhead ["fn", "unsafe", "extern"] (.group .parenthesis ts :: rest) = false :=
    rfl
  have hGroup : groupAhead .parenthesis (.group .parenthesis ts :: rest) = true := rfl
  refine ⟨t, ?_⟩
  simp only [typeRule, boundLifetimes, bind_apply, get_apply, Option.bind_some, hFor,
    Bool.false_eq_true, if_false, pure_apply, hFunction, List.singleton_append, hGroup, if_true,
    hInside]
  split
  · rename_i written
    exact absurd rfl (hNot written)
  · simp only [bind_apply, ahead_apply, Option.bind_some, hNoPlus, Bool.and_false, Bool.false_and,
      Bool.false_eq_true, if_false, pure_apply]
  · rfl

/-! ### Types around a type -/

/-- A rule that reads tokens at once after a first token, and then a type. -/
theorem isType_of_inner {t : TokenTree} {us : Tokens} (ht : beginsType t = true)
    (hts : IsType ts)
    (h : ∀ allowPlus forms depth rest inner,
      (ofDepth forms depth).type false (ts ++ rest) = some (inner, rest) →
        ∃ found, (ofDepth forms depth).typeRule allowPlus (t :: (us ++ ts) ++ rest) =
          some (found, rest)) : IsType (t :: (us ++ ts)) := by
  refine ⟨⟨t, us ++ ts, rfl, ht⟩, fun allowPlus => IsRead.isPart
    (p := fun g => g.typeRule allowPlus) ?_ fun _ _ => rfl⟩
  intro forms depth rest hDepth hRest
  have hPositive := t.size_pos
  simp only [Tokens.size_cons, Tokens.size_append] at hDepth
  obtain ⟨inner, hInner⟩ := hts.isPart false forms depth rest (by omega) hRest
  exact h allowPlus forms depth rest inner hInner

theorem IsType.word?_mut (h : IsType ts) (rest : Tokens) :
    word? "mut" (ts ++ rest) = some (false, ts ++ rest) := by
  refine word?_of_wordAhead_eq_false ?_
  obtain ⟨t, us, rfl, ht⟩ := h.begins
  cases t with
  | word w =>
    simp only [beginsType, List.contains_cons, List.contains_nil, Bool.or_false, Bool.not_eq_true',
      Bool.or_eq_false_iff, beq_eq_false_iff_ne] at ht
    exact wordAhead_eq_false_of_ne ht.2.2 _
  | _ => rfl

/-- What may stand between the mark of a reference and its type. -/
def lifetimeTokens : Option String → Tokens
  | some w => [.mark '\'' true, .word w]
  | none => []

def mutableTokens (isMutable : Bool) : Tokens :=
  if isMutable then [.word "mut"] else []

theorem isType_reference (joint : Bool) (lifetime : Option String) (isMutable : Bool)
    (h : IsType ts) :
    IsType (.mark '&' joint :: ((lifetimeTokens lifetime ++ mutableTokens isMutable) ++ ts)) := by
  refine isType_of_inner rfl h fun allowPlus forms depth rest inner hInner => ?_
  let g := ofDepth forms depth
  let after (name : Option String) : Parser Ty := do
    let isMutable ← word? "mut"
    return .reference name isMutable (← g.type false)
  have hAfter : ∀ name, ∃ t, after name (mutableTokens isMutable ++ (ts ++ rest)) =
      some (t, rest) := by
    intro name
    have hMutable : word? "mut" (mutableTokens isMutable ++ (ts ++ rest)) =
        some (isMutable, ts ++ rest) := by
      cases isMutable with
      | true => rfl
      | false => exact h.word?_mut rest
    refine ⟨.reference name isMutable inner, ?_⟩
    simp only [after, bind_apply, hMutable, Option.bind_some, g, hInner, pure_apply]
  have hTokens : .mark '&' joint :: (lifetimeTokens lifetime ++ mutableTokens isMutable ++ ts) ++
      rest = .mark '&' joint ::
        (lifetimeTokens lifetime ++ (mutableTokens isMutable ++ (ts ++ rest))) := by simp
  rw [hTokens]
  cases lifetime with
  | some w => exact hAfter (some w)
  | none =>
    have hNoLifetime : lifetimeAhead (mutableTokens isMutable ++ (ts ++ rest)) = false := by
      cases isMutable with
      | true => rfl
      | false => exact h.lifetimeAhead_eq rest
    have hRule (vs : Tokens) : g.typeRule allowPlus (.mark '&' joint :: vs) =
        (do if ← ahead lifetimeAhead then after (← some <$> Parser.lifetime) else after none) vs :=
      rfl
    obtain ⟨t, ht⟩ := hAfter none
    refine ⟨t, (hRule _).trans ?_⟩
    simp only [lifetimeTokens, List.nil_append, bind_apply, ahead_apply, Option.bind_some,
      hNoLifetime, Bool.false_eq_true, if_false, ht]

theorem isType_pointer (joint isMutable : Bool) (h : IsType ts) :
    IsType (.mark '*' joint :: ([.word (if isMutable then "mut" else "const")] ++ ts)) := by
  refine isType_of_inner rfl h fun allowPlus forms depth rest inner hInner => ?_
  let g := ofDepth forms depth
  have hRule : g.typeRule allowPlus (.mark '*' joint ::
      ([.word (if isMutable then "mut" else "const")] ++ ts) ++ rest) =
      (g.type false (ts ++ rest)).bind fun x => some (.pointer isMutable x.1, x.2) := by
    cases isMutable <;> rfl
  rw [hRule, hInner]
  exact ⟨_, rfl⟩

/-! ### Types in brackets -/

theorem isType_slice (h : IsType ts) : IsType [.group .bracket ts] := by
  refine ⟨⟨_, [], rfl, rfl⟩, fun allowPlus => IsRead.isPart
    (p := fun g => g.typeRule allowPlus) ?_ fun _ _ => rfl⟩
  intro forms depth rest hDepth hRest
  have hSize : Tokens.size ts < depth := by
    simp only [Tokens.size, TokenTree.size] at hDepth
    omega
  obtain ⟨t, ht⟩ := h.apply_nil true forms _ hSize
  have hBracketed : (ofDepth forms depth).bracketed ts = some (.slice t, []) := by
    simp only [bracketed, bind_apply, ht, Option.bind_some]
    rfl
  exact ⟨_, inside_apply .bracket hBracketed rest⟩

/-- A literal is an expression by itself. -/
theorem expressionRule_literal (h : IsLiteralTokens ts) (g : Grammar) (rank : Nat) :
    g.expressionRule true rank ts = some (.other, []) := by
  obtain ⟨kind, text, rfl⟩ | ⟨joint, text, rfl⟩ | rfl | rfl := h
  · cases kind <;> rfl
  · cases joint <;> rfl
  · rfl
  · rfl

theorem isType_array (h : IsType ts) (joint : Bool) (hus : IsLiteralTokens us) :
    IsType [.group .bracket (ts ++ .mark ';' joint :: us)] := by
  refine ⟨⟨_, [], rfl, rfl⟩, fun allowPlus => IsRead.isPart
    (p := fun g => g.typeRule allowPlus) ?_ fun _ _ => rfl⟩
  intro forms depth rest hDepth hRest
  have hSize : Tokens.size ts + 1 < depth := by
    simp only [Tokens.size, TokenTree.size, Tokens.size_append] at hDepth
    omega
  obtain ⟨n, rfl⟩ := Nat.exists_eq_succ_of_ne_zero (Nat.ne_zero_of_lt hSize)
  obtain ⟨t, ht⟩ := h.isPart true forms (n + 1) (.mark ';' joint :: us) (by omega)
    (.inr (.inl ⟨joint, us, .inr (.inr (.inl rfl))⟩))
  have hBracketed : (ofDepth forms (n + 1)).bracketed (ts ++ .mark ';' joint :: us) =
      some (.array t us, []) := by
    have hMark : mark? ";" (.mark ';' joint :: us) = some (true, us) := rfl
    have hLength := expressionRule_literal hus (ofDepth forms n) 0
    simp only [bracketed, bind_apply, ht, Option.bind_some, hMark, if_true, get_apply,
      discard_apply]
    rw [show (ofDepth forms (n + 1)).expression true = (ofDepth forms n).expressionRule true 0
      from rfl, hLength]
    rfl
  exact ⟨_, inside_apply .bracket hBracketed rest⟩

/-! ### Single tokens -/

theorem isType_never (joint : Bool) : IsType [.mark '!' joint] :=
  ⟨⟨_, [], rfl, rfl⟩, fun allowPlus => IsRead.isPart (p := fun g => g.typeRule allowPlus)
    (fun _ _ _ _ _ => ⟨.never, rfl⟩) fun _ _ => rfl⟩

theorem isType_hole : IsType [.word "_"] :=
  ⟨⟨_, [], rfl, rfl⟩, fun allowPlus => IsRead.isPart (p := fun g => g.typeRule allowPlus)
    (fun _ _ _ _ _ => ⟨.hole, rfl⟩) fun _ _ => rfl⟩

end CommandDispatch.Source
