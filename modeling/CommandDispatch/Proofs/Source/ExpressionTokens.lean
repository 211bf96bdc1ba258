import CommandDispatch.Proofs.Source.PatternTokens

/-!
# Tokens of expressions

An operand consists of a core with calls, accesses and indices after it. What may follow a core or
an expression is known by its first token, so that each rule stops where it should.

* `IsCore`, `IsTrailer`: the parts of an operand, `IsPlainOperand.append`: their composition,
* `IsOperand`: operands, before what is given with them,
* `IsExpression`: expressions, before what may follow them.
-/

namespace CommandDispatch.Source

open Source.Parser Source.Grammar

variable {ts us : Tokens} {b : Bool}

/-! ## What follows -/

/-- The token may follow the core of an operand. A brace may do so where it does not belong to a
path before it. -/
def followsCore (b : Bool) : TokenTree → Bool
  | .word w => w == "else"
  | .mark c _ => ['.', '?', ',', ';', '<'].contains c
  | .literal .. => false
  | .group d _ => d != .brace || !b

/-- The tokens may follow the core of an operand. -/
def EndsCore (b : Bool) (ts : Tokens) : Prop :=
  ts = [] ∨ ∃ t us, ts = t :: us ∧ followsCore b t = true

/-- The tokens may follow an operand. -/
def EndsOperand (b : Bool) (ts : Tokens) : Prop :=
  EndsCore b ts ∧ trailerAhead ts = false

/-- The tokens may follow an expression. -/
def EndsExpression (b : Bool) (ts : Tokens) : Prop :=
  ts = [] ∨ (∃ joint us, ts = .mark ',' joint :: us ∨ ts = .mark ';' joint :: us) ∨
    (∃ us, ts = .word "else" :: us) ∨ b = false ∧ ∃ trees us, ts = .group .brace trees :: us

theorem endsOperand_of_endsExpression (h : EndsExpression b ts) : EndsOperand b ts := by
  rcases h with rfl | ⟨joint, us, rfl | rfl⟩ | ⟨us, rfl⟩ | ⟨rfl, trees, us, rfl⟩
  · exact ⟨.inl rfl, rfl⟩
  all_goals exact ⟨.inr ⟨_, _, rfl, rfl⟩, rfl⟩

theorem operatorAhead_eq_none (h : EndsExpression b ts) : operatorAhead ts = none := by
  rcases h with rfl | ⟨joint, us, rfl | rfl⟩ | ⟨us, rfl⟩ | ⟨rfl, trees, us, rfl⟩ <;> rfl

theorem endsExpression_of_endsItem (h : EndsItem List.isEmpty ts) : EndsExpression b ts := by
  rcases h with h | ⟨joint, us, rfl⟩
  · exact .inl (List.isEmpty_iff.mp h)
  · exact .inr (.inl ⟨joint, us, .inl rfl⟩)

/-- Marks that may not follow a core are not ahead after it. -/
theorem EndsCore.marksAhead_eq (h : EndsCore b ts) {m : String}
    (hm : (m.toList.head?.any fun d => !(['.', '?', ',', ';', '<'].contains d)) = true) :
    marksAhead m ts = false := by
  obtain rfl | ⟨t, us, rfl, ht⟩ := h
  · match hList : m.toList, hm with
    | d :: ds, _ => cases ds <;> simp [marksAhead, hList, matchMarks]
  · refine marksAhead_eq_false _ hm ?_
    rintro c joint rfl
    exact ht

theorem EndsCore.endsPath (h : EndsCore b ts) : EndsPath .expression ts := by
  have hColons := h.marksAhead_eq (m := "::") (by decide)
  refine ⟨?_, ?_⟩
  · rw [argumentsAhead, hColons]
    rfl
  · rw [segmentAhead, hColons]
    rfl

theorem EndsCore.groupAhead_eq (h : EndsCore true ts) : groupAhead .brace ts = false := by
  obtain rfl | ⟨t, us, rfl, ht⟩ := h
  · rfl
  · cases t with
    | group d trees =>
      cases d with
      | brace => cases ht
      | _ => rfl
    | _ => rfl

/-! ## Operands -/

/-- Operators and accesses may follow what is of the kind. -/
def IsSimple (kind : ExpressionKind) : Prop :=
  kind ≠ .range ∧ kind ≠ .comparison

theorem isSimple_other : IsSimple .other :=
  ⟨ExpressionKind.noConfusion, ExpressionKind.noConfusion⟩

/-- At every level from the size of the tokens on, the rule reads them before whatever `F` allows,
as an expression of a simple kind. -/
def IsReadSimply (rule : Grammar → Parser ExpressionKind) (F : Tokens → Prop) (ts : Tokens) :
    Prop :=
  ∀ forms depth rest, Tokens.size ts ≤ depth → F rest →
    ∃ kind, IsSimple kind ∧ rule (ofDepth forms depth) (ts ++ rest) = some (kind, rest)

/-- The tokens are read as an operand, without what stands before and after it. -/
structure IsCore (b : Bool) (ts : Tokens) : Prop where
  operandMarkAhead_eq : ∀ rest, operandMarkAhead (ts ++ rest) = false
  isRead : IsReadSimply (·.operandCore b) (EndsCore b) ts

/-- The tokens are read as a call, an access or an index, or the mark that returns an error. -/
structure IsTrailer (ts : Tokens) : Prop where
  begins : ∃ t us, ts = t :: us ∧ ∀ b, followsCore b t = true
  trailerAhead_eq : ∀ rest, trailerAhead (ts ++ rest) = true
  isRead : IsRead (·.trailer) (fun _ => True) ts

/-- The tokens are a core with what follows it. -/
inductive IsPlainOperand (b : Bool) : Tokens → Prop where
  | mk {ts us : Tokens} (hCore : IsCore b ts) (hTrailers : Repeated IsTrailer us) :
      IsPlainOperand b (ts ++ us)

abbrev IsOperand (b : Bool) (F : Tokens → Prop) (ts : Tokens) : Prop :=
  IsReadSimply (·.operand b) F ts

theorem IsCore.isPlainOperand (h : IsCore b ts) : IsPlainOperand b ts := by
  have hPlain := IsPlainOperand.mk h .nil
  rwa [List.append_nil] at hPlain

theorem IsPlainOperand.append (h : IsPlainOperand b ts) (hus : IsTrailer us) :
    IsPlainOperand b (ts ++ us) := by
  cases h with
  | mk hCore hTrailers =>
    rw [List.append_assoc]
    exact .mk hCore (hTrailers.append (.singleton hus))

/-- The parts of an operand are read one after the other. -/
theorem operand_apply {g : Grammar} {ts core after rest : Tokens} {marks : List Bool}
    {kind : ExpressionKind} {more : List Unit}
    (hMarks : repeatWhile operandMarkAhead g.operandMark ts = some (marks, core))
    (hCore : g.operandCore b core = some (kind, after)) (hKind : IsSimple kind)
    (hTrailers : repeatWhile trailerAhead g.trailer after = some (more, rest)) :
    ∃ kind, IsSimple kind ∧ g.operand b ts = some (kind, rest) := by
  have hRange : (kind == .range) = false := beq_false_of_ne hKind.1
  simp only [operand, trailers, bind_apply, hMarks, Option.bind_some, hCore, hRange,
    Bool.false_and, Bool.not_false, require, if_true, Bool.false_eq_true, if_false, pure_apply,
    hTrailers]
  refine ⟨_, ?_, rfl⟩
  split
  · split
    · exact hKind
    · exact isSimple_other
  · exact isSimple_other

theorem IsTrailer.isStep (h : IsTrailer ts) (b : Bool) (forms : Forms) (depth : Nat)
    (hDepth : Tokens.size ts ≤ depth) :
    IsStep trailerAhead (ofDepth forms depth).trailer (EndsCore b) ts where
  ne_nil := by
    obtain ⟨t, us, rfl, -⟩ := h.begins
    exact List.cons_ne_nil _ _
  going_eq rest _ := h.trailerAhead_eq rest
  follows rest _ := by
    obtain ⟨t, us, rfl, ht⟩ := h.begins
    exact .inr ⟨t, us ++ rest, rfl, ht b⟩
  apply_eq rest _ := h.isRead forms depth rest hDepth trivial

/-- A plain operand is read after the marks before it. -/
theorem IsPlainOperand.operand_apply (h : IsPlainOperand b ts) {m rest : Tokens} (forms : Forms)
    (depth : Nat) (hDepth : Tokens.size ts ≤ depth) (hRest : EndsOperand b rest)
    (hMarks : ∃ marks, repeatWhile operandMarkAhead (ofDepth forms depth).operandMark
      (m ++ (ts ++ rest)) = some (marks, ts ++ rest)) :
    ∃ kind, IsSimple kind ∧
      (ofDepth forms depth).operand b (m ++ (ts ++ rest)) = some (kind, rest) := by
  obtain ⟨marks, hMarks⟩ := hMarks
  cases h with
  | @mk core us hCore hus =>
    rw [Tokens.size_append] at hDepth
    have hSteps := hus.sized.imp fun vs hvs =>
      hvs.1.isStep b forms depth (by omega)
    obtain ⟨kind, hKind, hRead⟩ :=
      hCore.isRead forms depth (us ++ rest) (by omega) (hSteps.follows hRest.1)
    obtain ⟨more, hMore⟩ := repeatWhile_apply hSteps hRest.1 hRest.2
    rw [← List.append_assoc] at hRead
    exact Source.operand_apply hMarks hRead hKind hMore

theorem IsPlainOperand.operandMarkAhead_eq (h : IsPlainOperand b ts) (rest : Tokens) :
    operandMarkAhead (ts ++ rest) = false := by
  cases h with
  | mk hCore _ =>
    rw [List.append_assoc]
    exact hCore.operandMarkAhead_eq _

theorem IsPlainOperand.isOperand (h : IsPlainOperand b ts) :
    IsOperand b (EndsOperand b) ts := fun forms depth rest hDepth hRest =>
  h.operand_apply (m := []) forms depth hDepth hRest
    ⟨[], repeatWhile_of_going_eq_false _ (h.operandMarkAhead_eq rest)⟩

/-- The tokens are no words that a reference could have. -/
def IsUnmarked (ts : Tokens) : Prop :=
  wordAhead "mut" ts = false ∧
    (wordAhead "raw" ts && wordsAhead ["mut", "const"] (ts.drop 1)) = false

/-- The token is read as a mark before an operand. -/
abbrev IsOperandMark (t : TokenTree) : Prop :=
  ∀ g : Grammar, IsStep operandMarkAhead g.operandMark IsUnmarked [t]

theorem isOperandMark_reference (joint : Bool) : IsOperandMark (.mark '&' joint) := by
  refine fun g => ⟨List.cons_ne_nil _ _, fun _ _ => rfl, fun _ _ => ⟨rfl, rfl⟩, ?_⟩
  rintro rest ⟨hMutable, hRaw⟩
  have hReference : mark? "&" ([.mark '&' joint] ++ rest) = some (true, rest) := rfl
  refine ⟨false, ?_⟩
  simp only [operandMark, bind_apply, hReference, Option.bind_some, if_true, ahead_apply, hRaw,
    Bool.false_eq_true, if_false, discard_apply, word?_of_wordAhead_eq_false hMutable,
    Option.map_some, pure_apply]

theorem isOperandMark_dereference (joint : Bool) : IsOperandMark (.mark '*' joint) :=
  fun _ => ⟨List.cons_ne_nil _ _, fun _ _ => rfl, fun _ _ => ⟨rfl, rfl⟩, fun _ _ => ⟨false, rfl⟩⟩

theorem isUnmarked_word {w : String} (hw : reservedWords.contains w = false) {rest : Tokens}
    (hRest : EndsOperand b rest) : IsUnmarked (.word w :: rest) := by
  refine ⟨wordAhead_eq_false hw (by decide) rest, ?_⟩
  obtain rfl | ⟨t, us, rfl, ht⟩ := hRest.1
  · exact Bool.and_false _
  · cases t with
    | word v =>
      obtain rfl : v = "else" := beq_iff_eq.mp ht
      exact Bool.and_false _
    | _ => exact Bool.and_false _

/-- An operand after a mark. -/
theorem IsPlainOperand.isOperand_marked {t : TokenTree} (h : IsPlainOperand b ts)
    (ht : IsOperandMark t) (hUnmarked : ∀ rest, EndsOperand b rest → IsUnmarked (ts ++ rest)) :
    IsOperand b (EndsOperand b) (t :: ts) := by
  intro forms depth rest hDepth hRest
  rw [Tokens.size_cons] at hDepth
  exact h.operand_apply (m := [t]) forms depth (by omega) hRest
    (repeatWhile_apply (.singleton (ht _)) (hUnmarked rest hRest) (h.operandMarkAhead_eq rest))

/-- A core that nothing but the end of an expression may follow is an operand. -/
theorem isOperand_of_core (hMarks : ∀ rest, operandMarkAhead (ts ++ rest) = false)
    (h : IsReadSimply (·.operandCore b) (EndsExpression b) ts) :
    IsOperand b (EndsExpression b) ts := by
  intro forms depth rest hDepth hRest
  obtain ⟨kind, hKind, hRead⟩ := h forms depth rest hDepth hRest
  exact operand_apply (repeatWhile_of_going_eq_false _ (hMarks rest)) hRead hKind
    (repeatWhile_of_going_eq_false _ (endsOperand_of_endsExpression hRest).2)

/-! ## Expressions -/

/-- The tokens are read as an expression. -/
structure IsExpression (b : Bool) (ts : Tokens) : Prop where
  ne_nil : ts ≠ []
  isPart : ∀ rank ≤ comparisonRank, IsPart (·.expression b rank) (EndsExpression b) ts

theorem IsReadSimply.imp {rule : Grammar → Parser ExpressionKind} {F G : Tokens → Prop}
    (h : IsReadSimply rule F ts) (hGF : ∀ us, G us → F us) : IsReadSimply rule G ts :=
  fun forms depth rest hDepth hRest => h forms depth rest hDepth (hGF rest hRest)

/-- Before the end of an expression there are no operators. -/
theorem operations_apply {rest : Tokens} (hRest : EndsExpression b rest) (g : Grammar)
    (steps rank : Nat) (kind : ExpressionKind) :
    g.operations b (steps + 1) rank kind rest = some (kind, rest) := by
  simp only [operations, bind_apply, get_apply, Option.bind_some, operatorAhead_eq_none hRest,
    pure_apply]

theorem isExpression_of_operand (hNe : ts ≠ []) (h : IsOperand b (EndsExpression b) ts) :
    IsExpression b ts := by
  refine ⟨hNe, fun rank _ => IsRead.isPart (p := (·.expressionRule b rank)) ?_ fun _ _ => rfl⟩
  intro forms depth rest hDepth hRest
  obtain ⟨kind, -, hRead⟩ := h forms depth rest hDepth hRest
  refine ⟨kind, ?_⟩
  simp only [expressionRule, bind_apply, get_apply, Option.bind_some, hRead,
    operations_apply hRest]

theorem IsPlainOperand.isExpression (h : IsPlainOperand b ts) (hNe : ts ≠ []) : IsExpression b ts :=
  isExpression_of_operand hNe (h.isOperand.imp fun _ => endsOperand_of_endsExpression)

theorem IsExpression.apply (h : IsExpression b ts) {rank : Nat} (hRank : rank ≤ comparisonRank)
    (forms : Forms) (depth : Nat) (hDepth : Tokens.size ts < depth) (rest : Tokens)
    (hRest : EndsExpression b rest) :
    ∃ kind, (ofDepth forms depth).expression b rank (ts ++ rest) = some (kind, rest) :=
  h.isPart rank hRank forms depth rest hDepth hRest

/-- An expression before the end of a group. -/
theorem IsExpression.apply_nil (h : IsExpression b ts) (forms : Forms) (depth : Nat)
    (hDepth : Tokens.size ts < depth) :
    ∃ kind, (ofDepth forms depth).expression b 0 ts = some (kind, []) := by
  obtain ⟨kind, hRead⟩ := h.apply (Nat.zero_le _) forms _ hDepth [] (.inl rfl)
  rw [List.append_nil] at hRead
  exact ⟨kind, hRead⟩

/-- Expressions with commas between them, to the end of a group. -/
theorem arguments_apply (h : Separated (IsExpression true) ts) (forms : Forms) (depth : Nat)
    (hDepth : Tokens.size ts < depth) : (ofDepth forms depth).arguments ts = some ((), []) := by
  obtain ⟨kinds, hAll⟩ := commaList_part (p := (·.expression true))
    (h.imp fun us hus => ⟨hus.ne_nil, hus.isPart 0 (Nat.zero_le _)⟩)
    (fun _ => endsExpression_of_endsItem) forms _ hDepth
  rw [arguments, discard_apply, hAll]
  rfl

/-! ## Calls, accesses and indices -/

theorem isTrailer_call (h : Separated (IsExpression true) ts) :
    IsTrailer [.group .parenthesis ts] where
  begins := ⟨_, [], rfl, fun _ => rfl⟩
  trailerAhead_eq _ := rfl
  isRead forms depth rest hDepth _ := by
    simp only [Tokens.size, TokenTree.size] at hDepth
    exact ⟨(), inside_apply .parenthesis (arguments_apply h forms depth (by omega)) rest⟩

/-- What stands in brackets may also be a range, which is open where the brackets close. -/
theorem isTrailer_index (h : IsPart (·.expression true) (· = []) ts) :
    IsTrailer [.group .bracket ts] where
  begins := ⟨_, [], rfl, fun _ => rfl⟩
  trailerAhead_eq _ := rfl
  isRead forms depth rest hDepth _ := by
    simp only [Tokens.size, TokenTree.size] at hDepth
    obtain ⟨kind, hRead⟩ := h forms depth [] (by omega) rfl
    rw [List.append_nil] at hRead
    have hInside := inside_apply .bracket hRead rest
    have hTrailer : (ofDepth forms depth).trailer ([.group .bracket ts] ++ rest) =
        discard (inside .bracket ((ofDepth forms depth).expression true))
          (.group .bracket ts :: rest) := rfl
    refine ⟨(), hTrailer.trans ?_⟩
    rw [discard_apply, hInside]
    rfl

theorem IsExpression.isIndex (h : IsExpression true ts) :
    IsPart (·.expression true) (· = []) ts :=
  (h.isPart 0 (Nat.zero_le _)).imp fun _ hEnd => .inl hEnd

/-- A range from a number on. -/
theorem isIndex_from (text : String) (joint : Bool) :
    IsPart (·.expression true) (· = [])
      [.literal .number text, .mark '.' true, .mark '.' joint] := by
  refine IsRead.isPart (p := (·.expressionRule true 0)) ?_ fun _ _ => rfl
  rintro forms depth rest - rfl
  cases joint <;> exact ⟨.range, rfl⟩

theorem isTrailer_question (joint : Bool) : IsTrailer [.mark '?' joint] where
  begins := ⟨_, [], rfl, fun _ => rfl⟩
  trailerAhead_eq _ := rfl
  isRead _ _ _ _ _ := ⟨(), rfl⟩

/-- What is read of an access after its mark. -/
def accessAfter (g : Grammar) : Parser Unit := do
  if ← positions then return
  if ← word? "await" then return
  let isNamed ← member
  let hasTypes := isNamed && (← ahead (marksAhead "::"))
  if hasTypes then
    require (← ahead fun ts => marksAhead "<" (ts.drop 2))
    discard g.angled
  if hasTypes || (isNamed && (← ahead (groupAhead .parenthesis))) then
    inside .parenthesis g.arguments

theorem trailer_access (g : Grammar) (joint : Bool) (ts : Tokens) :
    g.trailer (.mark '.' joint :: ts) = accessAfter g ts :=
  rfl

theorem isTrailer_method {w : String} (hw : reservedWords.contains w = false) (joint : Bool)
    (h : Separated (IsExpression true) ts) :
    IsTrailer [.mark '.' joint, .word w, .group .parenthesis ts] where
  begins := ⟨_, _, rfl, fun _ => rfl⟩
  trailerAhead_eq rest := by
    cases joint <;> rfl
  isRead forms depth rest hDepth _ := by
    simp only [Tokens.size, TokenTree.size] at hDepth
    have hMember : member (.word w :: .group .parenthesis ts :: rest) =
        some (true, .group .parenthesis ts :: rest) := by
      simp only [member, bind_apply, get_apply, Option.bind_some, discard_apply, name_word hw]
      rfl
    have hPositions : positions (.word w :: .group .parenthesis ts :: rest) =
        some (false, .word w :: .group .parenthesis ts :: rest) := rfl
    have hColons : marksAhead "::" (.group .parenthesis ts :: rest) = false := rfl
    have hGroup : groupAhead .parenthesis (.group .parenthesis ts :: rest) = true := rfl
    have hArguments := inside_apply .parenthesis
      (arguments_apply h forms depth (by omega)) rest
    refine ⟨(), (trailer_access _ joint (.word w :: .group .parenthesis ts :: rest)).trans ?_⟩
    simp only [accessAfter, bind_apply, hPositions, word?_eq_false hw (k := "await") (by decide),
      Option.bind_some, Bool.false_eq_true, if_false, hMember, ahead_apply, hColons, Bool.and_false,
      hGroup, Bool.and_true, Bool.or_true, if_true, hArguments]

theorem isTrailer_field (text : String) (hPoint : text.toList.contains '.' = false)
    (h : isPosition text.toList = true) (joint : Bool) :
    IsTrailer [.mark '.' joint, .literal .number text] where
  begins := ⟨_, _, rfl, fun _ => rfl⟩
  trailerAhead_eq rest := by
    cases joint <;> rfl
  isRead forms depth rest _ _ := by
    have hPositions : positions (.literal .number text :: rest) =
        some (false, .literal .number text :: rest) := by
      simp only [positions, bind_apply, get_apply, Option.bind_some, hPoint, Bool.not_false,
        if_true, pure_apply]
    have hAwait : word? "await" (.literal .number text :: rest) =
        some (false, .literal .number text :: rest) := rfl
    have hMember : member (.literal .number text :: rest) = some (false, rest) := by
      simp only [member, bind_apply, get_apply, Option.bind_some, h]
      rfl
    refine ⟨(), (trailer_access _ joint (.literal .number text :: rest)).trans ?_⟩
    simp only [accessAfter, bind_apply, hPositions, hAwait, Option.bind_some, Bool.false_eq_true,
      if_false, hMember, ahead_apply, Bool.false_and, Bool.or_false, pure_apply]

/-! ## Cores -/

/-- None of the words with which an expression begins that ends with its block. -/
theorem blockAhead_word {w : String}
    (hw : ∀ k ∈ ["if", "while", "loop", "match", "unsafe", "for", "try", "const"], w ≠ k)
    (rest : Tokens) : blockAhead (.word w :: rest) = false := by
  simp only [List.mem_cons, List.not_mem_nil, or_false, forall_eq_or_imp, forall_eq] at hw
  simp [blockAhead, wordsAhead, wordAhead, groupAhead, lifetimeAhead, hw]

theorem closureAhead_word {w : String}
    (hw : ∀ k ∈ ["move", "static", "for", "const", "async"], w ≠ k) (rest : Tokens) :
    closureAhead (.word w :: rest) = false := by
  simp only [List.mem_cons, List.not_mem_nil, or_false, forall_eq_or_imp, forall_eq] at hw
  have hMark : marksAhead "|" (.word w :: rest) = false := rfl
  simp [closureAhead, wordsAhead, wordAhead, hMark, hw]

/-- The word `try` alone is no path of an expression. -/
structure IsCallee (ts : Tokens) : Prop where
  isPath : IsPath .expression ts
  ne_try : ts ≠ [.word "try"]

/-- A word with further segments after it. -/
theorem isCallee_segments {w : String} (hw : reservedWords.contains w = false)
    (hts : Repeated (IsFurtherSegment .expression) ts) : IsCallee (.word w :: ts) where
  isPath := ⟨[], [.word w], ts, rfl, .inl rfl, isSegment_word (.inl hw), hts⟩
  ne_try hTokens := by
    obtain rfl := TokenTree.word.inj (List.cons.inj hTokens).1
    revert hw
    decide

theorem isCallee_word {w : String} (hw : reservedWords.contains w = false) :
    IsCallee [.word w] :=
  isCallee_segments hw .nil

/-- Words, each after a double colon. -/
def wordsTokens (words : List String) : Tokens :=
  words.flatMap fun w => [.mark ':' true, .mark ':' false, .word w]

theorem isFurtherSegment_word {style : PathStyle} (joint : Bool) {w : String}
    (hw : reservedWords.contains w = false) :
    IsFurtherSegment style [.mark ':' true, .mark ':' joint, .word w] :=
  ⟨joint, _, rfl, isSegment_word (.inl hw)⟩

theorem isPath_wordsTokens {style : PathStyle} {w : String} {words : List String}
    (h : ∀ v ∈ w :: words, reservedWords.contains v = false) :
    IsPath style (wordsTokens (w :: words)) := by
  obtain ⟨hw, hWords⟩ := List.forall_mem_cons.mp h
  have hOthers : Repeated (IsFurtherSegment style) (wordsTokens words) := by
    clear h
    induction words with
    | nil => exact .nil
    | cons v words ih =>
      obtain ⟨hv, hRest⟩ := List.forall_mem_cons.mp hWords
      exact .cons (isFurtherSegment_word false hv) (ih hRest)
  exact ⟨[.mark ':' true, .mark ':' false], [.word w], _, rfl, .inr ⟨false, rfl⟩,
    isSegment_word (.inl hw), hOthers⟩

theorem isCallee_wordsTokens {w : String} {words : List String}
    (h : ∀ v ∈ w :: words, reservedWords.contains v = false) :
    IsCallee (wordsTokens (w :: words)) :=
  ⟨isPath_wordsTokens h, fun hTokens => nomatch hTokens⟩

/-- What begins a path begins no other operand. -/
theorem operandCore_path (h : IsCallee ts) {rest : Tokens}
    (hRest : marksAhead "#" rest = false) (g : Grammar) :
    g.operandCore b (ts ++ rest) = g.pathOperand b (ts ++ rest) := by
  obtain ⟨joint, us, rfl⟩ | ⟨w, us, rfl, ⟨hWord, hus⟩ | ⟨rfl, hus⟩⟩ := h.isPath.begins
  · rfl
  · have hNext : marksAhead "#" (us ++ rest) = false := by
      obtain rfl | ⟨c, joint, vs, rfl, hc⟩ := hus
      · exact hRest
      · refine marksAhead_eq_false (l := [':', '<']) _ (by decide) ?_
        rintro d joint' hEq
        cases hEq
        exact hc
    have hLiteral : literalAhead (.word w :: (us ++ rest)) = false :=
      wordsAhead_eq_false_of_forall (hWord.ne rfl) _
    have hAsync : wordAhead "async" (.word w :: (us ++ rest)) = false :=
      wordAhead_eq_false_of_ne (hWord.ne (l := ["async"]) rfl _ (by decide)) _
    have hBlock : blockAhead (.word w :: (us ++ rest)) = false := blockAhead_word (hWord.ne rfl) _
    have hClosure : closureAhead (.word w :: (us ++ rest)) = false :=
      closureAhead_word (hWord.ne rfl) _
    simp only [operandCore, bind_apply, get_apply, Option.bind_some, List.cons_append, hLiteral,
      asyncBlockAhead, hAsync, Bool.false_and, Bool.false_eq_true, if_false, hBlock, hClosure,
      List.drop_succ_cons, List.drop_zero, hNext, Bool.and_false, hWord.pathAhead, Bool.true_or,
      if_true]
  · obtain rfl | ⟨joint, vs, rfl⟩ := hus
    · exact absurd rfl h.ne_try
    · rfl

theorem IsCallee.operandMarkAhead_eq (h : IsCallee ts) (rest : Tokens) :
    operandMarkAhead (ts ++ rest) = false := by
  obtain ⟨joint, us, rfl⟩ | ⟨w, us, rfl, -⟩ := h.isPath.begins <;> rfl

theorem isCore_path (h : IsCallee ts) : IsCore b ts where
  operandMarkAhead_eq := h.operandMarkAhead_eq
  isRead forms depth rest hDepth hRest := by
    obtain ⟨p, hp⟩ := h.isPath.qualifiedPath_apply forms _ hDepth rest hRest.endsPath
    have hNoMacro : marksAhead "!" rest = false := hRest.marksAhead_eq (by decide)
    have hNoBrace : (b && groupAhead .brace rest) = false := by
      cases b with
      | true => exact hRest.groupAhead_eq
      | false => rfl
    refine ⟨.other, isSimple_other,
      (operandCore_path h (hRest.marksAhead_eq (by decide)) _).trans ?_⟩
    simp only [pathOperand, bind_apply, hp, Option.bind_some, get_apply, hNoMacro, hNoBrace,
      Bool.and_false, Bool.false_and, Bool.false_eq_true, if_false, pure_apply]

theorem isExpression_word {w : String} (hw : reservedWords.contains w = false) :
    IsExpression b [.word w] :=
  (isCore_path (isCallee_word hw)).isPlainOperand.isExpression (List.cons_ne_nil _ _)

/-- A path with arguments. -/
theorem IsCallee.call (h : IsCallee us) (hts : Separated (IsExpression true) ts) :
    IsPlainOperand b (us ++ [.group .parenthesis ts]) :=
  (isCore_path h).isPlainOperand.append (isTrailer_call hts)

/-- The tokens are a core with what follows it, whether or not a brace may follow them. -/
structure IsFreeOperand (ts : Tokens) : Prop where
  ne_nil : ts ≠ []
  isPlainOperand : ∀ b, IsPlainOperand b ts

namespace IsFreeOperand

theorem isExpression (h : IsFreeOperand ts) (b : Bool) : IsExpression b ts :=
  (h.isPlainOperand b).isExpression h.ne_nil

theorem append (h : IsFreeOperand ts) (hus : IsTrailer us) : IsFreeOperand (ts ++ us) :=
  ⟨List.append_ne_nil_of_left_ne_nil h.ne_nil us, fun b => (h.isPlainOperand b).append hus⟩

end IsFreeOperand

theorem isFreeOperand_word {w : String} (hw : reservedWords.contains w = false) :
    IsFreeOperand [.word w] :=
  ⟨List.cons_ne_nil _ _, fun _ => (isCore_path (isCallee_word hw)).isPlainOperand⟩

theorem IsCallee.isFreeOperand_call (h : IsCallee us) (hts : Separated (IsExpression true) ts) :
    IsFreeOperand (us ++ [.group .parenthesis ts]) :=
  ⟨by simp, fun _ => h.call hts⟩

theorem isCore_literal (kind : Literal) (text : String) : IsCore b [.literal kind text] where
  operandMarkAhead_eq _ := rfl
  isRead _ _ _ _ _ := by
    cases kind <;> exact ⟨.other, isSimple_other, rfl⟩

/-- Expressions in parentheses are a tuple, unless there is one without a comma. -/
theorem isCore_parenthesized (h : Separated (IsExpression true) ts) :
    IsCore b [.group .parenthesis ts] where
  operandMarkAhead_eq _ := rfl
  isRead forms depth rest hDepth _ := by
    simp only [Tokens.size, TokenTree.size] at hDepth
    have hInside := inside_apply .parenthesis
      (arguments_apply h forms depth (by omega)) rest
    have hCore : (ofDepth forms depth).operandCore b ([.group .parenthesis ts] ++ rest) =
        (inside .parenthesis (ofDepth forms depth).arguments (.group .parenthesis ts :: rest)).bind
          fun x => some (.other, x.2) := rfl
    refine ⟨.other, isSimple_other, hCore.trans ?_⟩
    rw [hInside]
    rfl

theorem arrayValues_apply (h : Separated (IsExpression true) ts) (forms : Forms) (depth : Nat)
    (hDepth : Tokens.size ts < depth) : (ofDepth forms depth).arrayValues ts = some ((), []) := by
  cases h with
  | nil => rfl
  | last h =>
    obtain ⟨kind, hRead⟩ := h.apply_nil forms _ hDepth
    have hEmpty : ts.isEmpty = false := by simpa using h.ne_nil
    simp only [arrayValues, bind_apply, ahead_apply, Option.bind_some, hEmpty, Bool.false_eq_true,
      if_false, discard_apply, hRead]
    rfl
  | @cons us ts joint h hts =>
    simp only [Tokens.size_append, Tokens.size_cons] at hDepth
    obtain ⟨kind, hRead⟩ := h.apply (Nat.zero_le _) forms depth (by omega)
      (.mark ',' joint :: ts) (.inr (.inl ⟨joint, ts, .inl rfl⟩))
    have hEmpty : (us ++ .mark ',' joint :: ts).isEmpty = false := by simp
    have hSemicolon : mark? ";" (.mark ',' joint :: ts) = some (false, .mark ',' joint :: ts) := rfl
    have hComma : mark? "," (.mark ',' joint :: ts) = some (true, ts) := rfl
    have hOthers := arguments_apply hts forms depth (by omega)
    simp only [arrayValues, bind_apply, ahead_apply, Option.bind_some, hEmpty, Bool.false_eq_true,
      if_false, discard_apply, hRead, Option.map_some, hSemicolon, hComma, if_true, hOthers]

theorem isCore_array (h : Separated (IsExpression true) ts) : IsCore b [.group .bracket ts] where
  operandMarkAhead_eq _ := rfl
  isRead forms depth rest hDepth _ := by
    simp only [Tokens.size, TokenTree.size] at hDepth
    have hInside := inside_apply .bracket
      (arrayValues_apply h forms depth (by omega)) rest
    have hCore : (ofDepth forms depth).operandCore b ([.group .bracket ts] ++ rest) =
        (inside .bracket (ofDepth forms depth).arrayValues (.group .bracket ts :: rest)).bind
          fun x => some (.other, x.2) := rfl
    refine ⟨.other, isSimple_other, hCore.trans ?_⟩
    rw [hInside]
    rfl

/-! ### Structures -/

/-- The tokens are a field with its value and a comma. -/
def IsFieldValue (ts : Tokens) : Prop :=
  ∃ w us joint, reservedWords.contains w = false ∧ IsExpression true us ∧
    ts = .word w :: .mark ':' false :: (us ++ [.mark ',' joint])

/-- The fields are read one after the other; the induction is on them. -/
theorem fieldValues_apply (h : Repeated IsFieldValue ts) (forms : Forms) (depth : Nat)
    (hDepth : Tokens.size ts < depth) (steps : Nat) (hSteps : ts.length < steps) :
    (ofDepth forms depth).fieldValues steps ts = some ((), []) := by
  induction h generalizing steps with
  | nil =>
    obtain ⟨n, rfl⟩ := Nat.exists_eq_succ_of_ne_zero (Nat.ne_zero_of_lt hSteps)
    rfl
  | @cons us ts hField hts ih =>
    obtain ⟨n, rfl⟩ := Nat.exists_eq_succ_of_ne_zero (Nat.ne_zero_of_lt hSteps)
    obtain ⟨w, us, joint, hw, hValue, rfl⟩ := hField
    simp only [Tokens.size_append, Tokens.size_cons, List.length_append, List.length_cons]
      at hDepth hSteps
    let g := ofDepth forms depth
    let after : Tokens := .mark ',' joint :: ts
    let value : Tokens := us ++ after
    obtain ⟨kind, hRead⟩ := hValue.apply (Nat.zero_le _) forms depth
      (by omega) after (.inr (.inl ⟨joint, ts, .inl rfl⟩))
    have hOthers := ih (by omega) n (by omega)
    have hTokens : .word w :: .mark ':' false :: (us ++ [.mark ',' joint]) ++ ts =
        .word w :: .mark ':' false :: value := by simp [value, after]
    have hRest : mark? ".." (.word w :: .mark ':' false :: value) =
        some (false, .word w :: .mark ':' false :: value) := rfl
    have hOuter : g.outerAttributes (.word w :: .mark ':' false :: value) =
        some ([], .word w :: .mark ':' false :: value) := rfl
    have hMember : member (.word w :: .mark ':' false :: value) =
        some (true, .mark ':' false :: value) := by
      simp only [member, bind_apply, get_apply, Option.bind_some, discard_apply, name_word hw]
      rfl
    have hColon : marksAhead ":" (.mark ':' false :: value) = true := rfl
    have hMark : mark ":" (.mark ':' false :: value) = some ((), value) := rfl
    have hComma : mark "," after = some ((), ts) := rfl
    rw [hTokens, fieldValues]
    simp only [bind_apply, ahead_apply, Option.bind_some, List.isEmpty_cons, Bool.false_eq_true,
      if_false, hRest, discard_apply, hOuter, Option.map_some, hMember, hColon, Bool.not_true,
      Bool.or_true, if_true, hMark, hRead, hComma, hOthers, g, value, after]

/-- A path with the fields of a structure. -/
theorem isCore_construction (h : IsCallee ts) (hus : Repeated IsFieldValue us) :
    IsCore true (ts ++ [.group .brace us]) where
  operandMarkAhead_eq rest := by
    rw [List.append_assoc]
    exact h.operandMarkAhead_eq _
  isRead forms depth rest hDepth _ := by
    simp only [Tokens.size_append, Tokens.size, TokenTree.size] at hDepth
    obtain ⟨p, hp⟩ := h.isPath.qualifiedPath_apply forms depth (by omega)
      (.group .brace us :: rest) ⟨rfl, rfl⟩
    have hNoMacro : marksAhead "!" (.group .brace us :: rest) = false := rfl
    have hBrace : groupAhead .brace (.group .brace us :: rest) = true := rfl
    have hFields : (do (ofDepth forms depth).fieldValues ((← get).length + 1) : Parser Unit) us =
        some ((), []) := by
      rw [bind_apply, get_apply, Option.bind_some]
      exact fieldValues_apply hus forms depth (by omega) _ (Nat.lt_succ_self _)
    have hInside := inside_apply .brace hFields rest
    rw [List.append_assoc, List.singleton_append]
    refine ⟨.other, isSimple_other, (operandCore_path h rfl _).trans ?_⟩
    simp only [pathOperand, bind_apply, hp, Option.bind_some, get_apply, hNoMacro, hBrace,
      Bool.and_false, Bool.false_and, Bool.false_eq_true, if_false, Bool.and_true, if_true, hInside,
      pure_apply]

/-! ## Operands to the end of an expression -/

theorem isOperand_return {w : String} (hNe : w ≠ "as") (h : IsExpression true (.word w :: ts)) :
    IsOperand true (EndsExpression true) (.word "return" :: .word w :: ts) := by
  refine isOperand_of_core (fun _ => rfl) fun forms depth rest hDepth hRest => ?_
  have hPositive := TokenTree.size_pos (.word "return")
  rw [Tokens.size_cons] at hDepth
  let g := ofDepth forms depth
  let value : Tokens := .word w :: (ts ++ rest)
  obtain ⟨kind, hRead⟩ := h.apply (Nat.zero_le _) forms depth (by omega) rest hRest
  have hCore : g.operandCore true (.word "return" :: value) =
      (g.valueOf "return" true (.word "return" :: value)).bind fun x => some (.other, x.2) := rfl
  have hWord : word "return" (.word "return" :: value) = some ((), value) := rfl
  have hAhead : valueAhead value = true := by
    rw [valueAhead, wordAhead_eq_false_of_ne hNe]
    rfl
  refine ⟨.other, isSimple_other, hCore.trans ?_⟩
  simp only [valueOf, bind_apply, hWord, Option.bind_some, ahead_apply, hAhead, Bool.true_or,
    Bool.and_true, if_true, discard_apply, g]
  rw [List.cons_append] at hRead
  rw [hRead]
  rfl

/-- A condition that binds. -/
theorem isOperand_let (hus : IsPattern us) (joint : Bool) (hts : IsExpression b ts) :
    IsOperand b (EndsExpression b) (.word "let" :: (us ++ .mark '=' joint :: ts)) := by
  refine isOperand_of_core (fun _ => rfl) fun forms depth rest hDepth hRest => ?_
  simp only [Tokens.size_cons, Tokens.size_append, TokenTree.size] at hDepth
  let g := ofDepth forms depth
  let after : Tokens := .mark '=' joint :: (ts ++ rest)
  obtain ⟨p, hp⟩ := hus.patterns_apply forms depth (by omega)
    after (.inr ⟨joint, _, .inr (.inl rfl)⟩) rfl
  obtain ⟨kind, hRead⟩ := hts.apply (Nat.le_refl _) forms depth (by omega) rest
    hRest
  have hCore (vs : Tokens) : g.operandCore b (.word "let" :: vs) =
      (discard g.patterns vs).bind fun x => (mark "=" x.2).bind fun y =>
        (discard (g.expression b comparisonRank) y.2).bind fun z => some (.other, z.2) := rfl
  have hMark : mark "=" after = some ((), ts ++ rest) := rfl
  have hTokens : .word "let" :: (us ++ .mark '=' joint :: ts) ++ rest =
      .word "let" :: (us ++ after) := by simp [after]
  rw [hTokens]
  refine ⟨.other, isSimple_other, (hCore _).trans ?_⟩
  rw [discard_apply, hp, Option.map_some, Option.bind_some, hMark,
    Option.bind_some, discard_apply, hRead]
  rfl

/-- What is read of a parameter of a closure. -/
def closureParameter (g : Grammar) : Parser Unit := do
  discard g.outerAttributes
  discard g.pattern
  if ← mark? ":" then discard <| g.type true

theorem IsPattern.isListItem (h : IsPattern ts) (forms : Forms) (depth : Nat)
    (hDepth : Tokens.size ts < depth) :
    IsListItem (marksAhead "|") (closureParameter (ofDepth forms depth)) ts := by
  refine ⟨h.marksAhead_eq rfl, fun rest hRest => ⟨(), ?_⟩⟩
  have hEnd : ∃ joint us, rest = .mark '|' joint :: us ∨ rest = .mark ',' joint :: us := by
    rcases hRest with hDone | ⟨joint, us, rfl⟩
    · obtain ⟨joint, us, rfl⟩ := exists_of_marksAhead (c := '|') hDone rfl
      exact ⟨joint, us, .inl rfl⟩
    · exact ⟨joint, us, .inr rfl⟩
  have hPattern : EndsPattern rest := by
    obtain ⟨joint, us, rfl | rfl⟩ := hEnd
    · exact .inr ⟨joint, us, .inr (.inr (.inl rfl))⟩
    · exact .inr ⟨joint, us, .inl rfl⟩
  have hNoType : mark? ":" rest = some (false, rest) := by
    obtain ⟨joint, us, rfl | rfl⟩ := hEnd <;> rfl
  obtain ⟨p, hp⟩ := h.isPart forms depth rest hDepth hPattern
  obtain ⟨outer, hOuter⟩ := outerAttributes_apply .nil (h.marksAhead_eq (m := "#") rfl rest)
    (ofDepth forms depth)
  simp only [List.nil_append] at hOuter
  simp only [closureParameter, bind_apply, discard_apply, hOuter, Option.map_some,
    Option.bind_some, hp, hNoType, Bool.false_eq_true, if_false, pure_apply]

/-- What is read of a closure after its first mark. -/
def closureAfter (g : Grammar) (b : Bool) : Parser Unit := do
  discard <| separatedUntil (marksAhead "|") "," (closureParameter g)
  mark "|"
  if ← mark? "->" then
    discard <| g.type true
    g.block
  else discard <| g.expression b

theorem operandCore_closure (g : Grammar) (joint : Bool) (ts : Tokens) :
    g.operandCore b (.mark '|' joint :: ts) =
      (closureAfter g b ts).bind fun x => some (.other, x.2) :=
  rfl

theorem isOperand_closure (joint joint' : Bool) (hus : Separated IsPattern us)
    (hts : IsExpression b ts) (hResult : ∀ rest, marksAhead "->" (ts ++ rest) = false) :
    IsOperand b (EndsExpression b) (.mark '|' joint :: (us ++ .mark '|' joint' :: ts)) := by
  refine isOperand_of_core (fun _ => rfl) fun forms depth rest hDepth hRest => ?_
  simp only [Tokens.size_cons, Tokens.size_append, TokenTree.size] at hDepth
  let after : Tokens := .mark '|' joint' :: (ts ++ rest)
  have hItems :
      Separated (IsListItem (marksAhead "|") (closureParameter (ofDepth forms depth))) us := by
    refine hus.sized.imp fun vs hvs => hvs.1.isListItem forms depth ?_
    have hSize := hvs.2
    omega
  obtain ⟨ps, hps⟩ := separatedUntil_apply hItems after rfl fun _ _ => rfl
  obtain ⟨kind, hRead⟩ := hts.apply (Nat.zero_le _) forms depth (by omega) rest
    hRest
  have hMark : mark "|" after = some ((), ts ++ rest) := rfl
  have hTokens : .mark '|' joint :: (us ++ .mark '|' joint' :: ts) ++ rest =
      .mark '|' joint :: (us ++ after) := by simp [after]
  rw [hTokens]
  refine ⟨.other, isSimple_other, (operandCore_closure _ joint _).trans ?_⟩
  simp only [closureAfter, bind_apply, discard_apply, hps, Option.map_some, Option.bind_some, hMark,
    mark?_of_marksAhead_eq_false (hResult rest), Bool.false_eq_true, if_false, hRead]

/-! ## Comparisons -/

/-- An operand that is compared with a literal. -/
theorem isExpression_less (h : IsPlainOperand b ts) (kind : Literal) (text : String) :
    IsExpression b (ts ++ [.mark '<' false, .literal kind text]) := by
  refine ⟨by simp, fun rank hRank =>
    IsRead.isPart (p := (·.expressionRule b rank)) ?_ fun _ _ => rfl⟩
  intro forms depth rest hDepth hRest
  simp only [Tokens.size_append, Tokens.size_cons, TokenTree.size] at hDepth
  let after : Tokens := .mark '<' false :: .literal kind text :: rest
  obtain ⟨left, hLeft, hRead⟩ := h.isOperand forms depth after (by omega)
    ⟨.inr ⟨_, _, rfl, rfl⟩, rfl⟩
  have hSize : Tokens.size [.literal kind text] ≤ depth := by
    simp only [Tokens.size, TokenTree.size]
    omega
  obtain ⟨right, -, hRight⟩ := (isCore_literal (b := b) kind text).isPlainOperand.isOperand forms
    depth rest hSize (endsOperand_of_endsExpression hRest)
  have hOperator : operatorAhead after = some ("<", comparisonRank) := rfl
  have hGoes : (left == .range || comparisonRank < rank) = false := by
    simp [hLeft.1, hRank]
  have hNew : (comparisonRank == comparisonRank && left == .comparison) = false := by
    simp [hLeft.2]
  have hMark : mark "<" after = some ((), .literal kind text :: rest) := rfl
  have hTokens : ts ++ [.mark '<' false, .literal kind text] ++ rest = ts ++ after := by
    simp [after]
  obtain ⟨n, hLength⟩ : ∃ n, (ts ++ after).length = n + 1 :=
    Nat.exists_eq_succ_of_ne_zero (by simp [after])
  rw [hTokens]
  refine ⟨.comparison, ?_⟩
  simp only [expressionRule, bind_apply, get_apply, Option.bind_some, hRead, hLength]
  rw [operations]
  simp only [bind_apply, get_apply, Option.bind_some, hOperator, hGoes, Bool.false_eq_true,
    if_false, hNew, Bool.not_false, require, if_true]
  rw [if_neg (by decide), if_neg (by decide)]
  simp only [bind_apply, pure_apply, Option.bind_some, hMark]
  rw [List.singleton_append] at hRight
  dsimp only at hRight
  rw [hRight]
  simp only [Option.bind_some, discard_apply, operations_apply hRest, Option.map_some]

end CommandDispatch.Source
