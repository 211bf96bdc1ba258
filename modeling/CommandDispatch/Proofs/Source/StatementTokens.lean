import CommandDispatch.Proofs.Source.ExpressionTokens

/-!
# Tokens of statements

Statements are read one after the other up to the end of a block. Each of them begins with a word,
so that what ends a statement is known by the first token after it.

* `IsBlockBody`: the inside of a block, `isBlockBody_of_statements`: statements are one,
* `IsArm`: the arms of a choice, `isCore_choice`: a choice as an operand,
* `IsStatement`, `IsTail`, `AreStatements`: statements, the last of which may have no semicolon,
* `AreFurtherStatements`: statements that may follow another one.
-/

namespace CommandDispatch.Source

open Source.Parser Source.Grammar

variable {ts us : Tokens}

/-- The tokens begin with a word, and so with no attribute. -/
def BeginsWithWord (ts : Tokens) : Prop :=
  ∃ w us, ts = .word w :: us

/-! ## Blocks -/

/-- The tokens are read as the inside of a block. A group adds two to the size of its inside. -/
structure IsBlockBody (ts : Tokens) : Prop where
  marksAhead_eq : marksAhead "#" ts = false
  statements_apply : ∀ forms depth, Tokens.size ts + 1 < depth →
    (ofDepth forms depth).statements ts = some ((), [])

theorem block_apply (h : IsBlockBody ts) (forms : Forms) (depth : Nat)
    (hDepth : Tokens.size ts + 1 < depth) (rest : Tokens) :
    (ofDepth forms depth).block (.group .brace ts :: rest) = some ((), rest) :=
  inside_apply .brace (h.statements_apply forms depth hDepth) rest

theorem attributedBlock_apply (h : IsBlockBody ts) (forms : Forms) (depth : Nat)
    (hDepth : Tokens.size ts + 1 < depth) (rest : Tokens) :
    (ofDepth forms depth).attributedBlock (.group .brace ts :: rest) = some ([], rest) := by
  have hNone : (ofDepth forms depth).innerAttributes ts = some ([], ts) := by
    refine repeatWhile_of_going_eq_false _ ?_
    rw [h.marksAhead_eq]
    rfl
  refine inside_apply .brace ?_ rest
  simp only [bind_apply, hNone, Option.bind_some, h.statements_apply forms depth hDepth, pure_apply]

/-! ## Conditions -/

theorem conditional_apply (hts : IsExpression false ts) (hus : IsBlockBody us) (forms : Forms)
    (depth : Nat) (hDepth : Tokens.size ts + (Tokens.size us + 1) < depth) {rest : Tokens}
    (hRest : wordAhead "else" rest = false) (steps : Nat) :
    (ofDepth forms depth).conditional (steps + 1)
      (.word "if" :: (ts ++ .group .brace us :: rest)) = some ((), rest) := by
  obtain ⟨kind, hRead⟩ := hts.apply (Nat.zero_le _) forms depth (by omega)
    (.group .brace us :: rest) (.inr (.inr (.inr ⟨rfl, us, rest, rfl⟩)))
  have hBlock := block_apply hus forms depth (by omega) rest
  have hIf : word "if" (.word "if" :: (ts ++ .group .brace us :: rest)) =
      some ((), ts ++ .group .brace us :: rest) := rfl
  rw [conditional]
  simp only [bind_apply, hIf, Option.bind_some, discard_apply, hRead, Option.map_some, hBlock,
    word?_of_wordAhead_eq_false hRest, Bool.false_eq_true, if_false, pure_apply]

/-! ## Choices -/

/-- Nothing follows, or another arm or statement. -/
def EndsArm (ts : Tokens) : Prop :=
  ts = [] ∨ BeginsWithWord ts

/-- The tokens are read as an arm of a choice. -/
structure IsArm (ts : Tokens) : Prop where
  begins : BeginsWithWord ts
  isRead : IsRead (·.matchArm) EndsArm ts

/-- What stands between a pattern and its value. -/
def arrowTokens (joint : Bool) : Tokens :=
  [.mark '=' true, .mark '>' joint]

/-- What is read of an arm after its pattern. -/
def armAfter (g : Grammar) : Parser Unit := do
  if ← word? "if" then discard <| g.expression true
  mark "=>"
  let kind ← g.leading
  if kind == .block || (← ahead List.isEmpty) then discard <| mark? ","
  else mark ","

theorem matchArm_apply {w : String} (h : IsPattern (.word w :: ts)) (joint : Bool)
    (forms : Forms) (depth : Nat) (hDepth : Tokens.size (.word w :: ts) < depth) (vs : Tokens) :
    (ofDepth forms depth).matchArm (.word w :: ts ++ (arrowTokens joint ++ vs)) =
      armAfter (ofDepth forms depth) (arrowTokens joint ++ vs) := by
  let g := ofDepth forms depth
  obtain ⟨p, hp⟩ := h.patterns_apply forms _ hDepth (arrowTokens joint ++ vs)
    (.inr ⟨true, _, .inr (.inl rfl)⟩) rfl
  have hOuter : g.outerAttributes (.word w :: ts ++ (arrowTokens joint ++ vs)) =
      some ([], .word w :: ts ++ (arrowTokens joint ++ vs)) := rfl
  have hArm (vs : Tokens) : g.matchArm vs = (discard g.outerAttributes vs).bind fun x =>
      (discard g.patterns x.2).bind fun y => armAfter g y.2 := rfl
  refine (hArm _).trans ?_
  rw [discard_apply, hOuter, Option.map_some, Option.bind_some, discard_apply, hp]
  rfl

theorem armAfter_apply {g : Grammar} (joint : Bool) (vs : Tokens) :
    armAfter g (arrowTokens joint ++ vs) = (g.leading vs).bind fun x =>
      (do if x.1 == .block || (← ahead List.isEmpty) then discard <| mark? "," else mark "," :
        Parser Unit) x.2 :=
  rfl

/-- The tokens are read as the pattern of an arm. -/
structure IsArmPattern (ts : Tokens) : Prop where
  begins : BeginsWithWord ts
  isPattern : IsPattern ts

/-- A pattern with its value and a comma. -/
theorem isArm_value {ps : Tokens} (h : IsArmPattern ps) (joint joint' : Bool)
    (hts : IsPart (·.leading) (EndsExpression true) ts) :
    IsArm (ps ++ (arrowTokens joint ++ (ts ++ [.mark ',' joint']))) where
  begins := by
    obtain ⟨w, us, rfl⟩ := h.begins
    exact ⟨w, _, rfl⟩
  isRead forms depth rest hDepth _ := by
    obtain ⟨w, us, rfl⟩ := h.begins
    simp only [Tokens.size_append] at hDepth
    have hPositive : 0 < Tokens.size [.mark ',' joint'] := TokenTree.size_pos (.mark ',' joint')
    let after : Tokens := .mark ',' joint' :: rest
    obtain ⟨kind, hRead⟩ := hts forms depth after (by omega) (.inr (.inl ⟨joint', rest, .inl rfl⟩))
    have hTokens : .word w :: us ++ (arrowTokens joint ++ (ts ++ [.mark ',' joint'])) ++ rest =
        .word w :: us ++ (arrowTokens joint ++ (ts ++ after)) := by simp [after]
    refine ⟨(), ?_⟩
    rw [hTokens]
    refine (matchArm_apply h.isPattern joint forms depth (by omega) _).trans
      ((armAfter_apply joint _).trans ?_)
    dsimp only at hRead
    rw [hRead, Option.bind_some]
    simp only [bind_apply, ahead_apply, Option.bind_some]
    split <;> rfl

theorem accessAhead_of_endsArm (h : EndsArm ts) : accessAhead ts = false := by
  obtain rfl | ⟨w, us, rfl⟩ := h <;> rfl

/-- A pattern with a block. -/
theorem isArm_block {ps : Tokens} (h : IsArmPattern ps) (joint : Bool) (hts : IsBlockBody ts) :
    IsArm (ps ++ (arrowTokens joint ++ [.group .brace ts])) where
  begins := by
    obtain ⟨w, us, rfl⟩ := h.begins
    exact ⟨w, _, rfl⟩
  isRead forms depth rest hDepth hRest := by
    obtain ⟨w, us, rfl⟩ := h.begins
    simp only [Tokens.size_append, TokenTree.size, Tokens.size] at hDepth
    let after : Tokens := .group .brace ts :: rest
    have hTokens : .word w :: us ++ (arrowTokens joint ++ [.group .brace ts]) ++ rest =
        .word w :: us ++ (arrowTokens joint ++ after) := by simp [after]
    have hRead : (ofDepth forms depth).leading after = some (.block, rest) := by
      obtain ⟨n, rfl⟩ := Nat.exists_eq_succ_of_ne_zero (n := depth) (by omega)
      let g := ofDepth forms n
      have hLeading : g.leadingRule after =
          ((discard g.attributedBlock after).bind fun x =>
            (do
              if !(← ahead accessAhead) then return .block
              let first ← g.trailers .block
              g.operations true (after.length + 1) 0 first : Parser ExpressionKind) x.2) := rfl
      have hBody := attributedBlock_apply hts forms n
        (by simp only [arrowTokens, Tokens.size, TokenTree.size] at hDepth; omega) rest
      refine hLeading.trans ?_
      rw [discard_apply, hBody, Option.map_some, Option.bind_some]
      simp only [bind_apply, ahead_apply, Option.bind_some, accessAhead_of_endsArm hRest,
        Bool.not_false, if_true, pure_apply]
    have hNoComma : mark? "," rest = some (false, rest) := by
      obtain rfl | ⟨w, us, rfl⟩ := hRest <;> rfl
    refine ⟨(), ?_⟩
    rw [hTokens]
    have hSize : Tokens.size (.word w :: us) < depth := by
      simp only [Tokens.size_cons, TokenTree.size]
      omega
    refine (matchArm_apply h.isPattern joint forms depth hSize _).trans
      ((armAfter_apply joint _).trans ?_)
    rw [hRead, Option.bind_some]
    simp only [bind_apply, ahead_apply, Option.bind_some, beq_self_eq_true, Bool.true_or, if_true,
      discard_apply, hNoComma, Option.map_some]

theorem IsArm.isStep (h : IsArm ts) (forms : Forms) (depth : Nat)
    (hDepth : Tokens.size ts ≤ depth) :
    IsStep (!·.isEmpty) (ofDepth forms depth).matchArm EndsArm ts := by
  obtain ⟨w, us, rfl⟩ := h.begins
  exact ⟨List.cons_ne_nil _ _, fun _ _ => rfl, fun _ _ => .inr ⟨w, _, rfl⟩,
    fun rest hRest => h.isRead forms depth rest hDepth hRest⟩

/-- A choice between arms. -/
theorem choice_apply (hts : IsExpression false ts) (hus : Repeated IsArm us) (forms : Forms)
    (depth : Nat) (hDepth : Tokens.size ts + Tokens.size us < depth) (rest : Tokens) :
    (ofDepth forms depth).choice (.word "match" :: (ts ++ .group .brace us :: rest)) =
      some ((), rest) := by
  let g := ofDepth forms depth
  obtain ⟨kind, hRead⟩ := hts.apply (Nat.zero_le _) forms depth (by omega)
    (.group .brace us :: rest) (.inr (.inr (.inr ⟨rfl, us, rest, rfl⟩)))
  have hSteps := hus.sized.imp fun vs ⟨hvs, hSize⟩ =>
    hvs.isStep forms depth (by omega)
  obtain ⟨arms, hArms⟩ := repeatWhile_apply hSteps (show EndsArm [] from .inl rfl) rfl
  rw [List.append_nil] at hArms
  have hNone : g.innerAttributes us = some ([], us) := by
    cases hus with
    | nil => rfl
    | cons hFirst _ =>
      obtain ⟨w, vs, rfl⟩ := hFirst.begins
      rfl
  have hInside : inside .brace
      (do discard g.innerAttributes; discard <| repeatWhile (!·.isEmpty) g.matchArm)
      (.group .brace us :: rest) = some ((), rest) := by
    refine inside_apply .brace ?_ rest
    simp only [bind_apply, discard_apply, hNone, Option.map_some, Option.bind_some, hArms, g]
  have hMatch : word "match" (.word "match" :: (ts ++ .group .brace us :: rest)) =
      some ((), ts ++ .group .brace us :: rest) := rfl
  simp only [choice, bind_apply, hMatch, Option.bind_some, discard_apply, hRead, Option.map_some]
  exact hInside

theorem isCore_choice {b : Bool} (hts : IsExpression false ts) (hus : Repeated IsArm us) :
    IsCore b (.word "match" :: (ts ++ [.group .brace us])) where
  operandMarkAhead_eq _ := rfl
  isRead forms depth rest hDepth _ := by
    simp only [Tokens.size_append, TokenTree.size, Tokens.size] at hDepth
    have hCore : (ofDepth forms depth).operandCore b
        (.word "match" :: (ts ++ .group .brace us :: rest)) =
        ((ofDepth forms depth).choice (.word "match" :: (ts ++ .group .brace us :: rest))).bind
          fun x => some (.block, x.2) := rfl
    have hTokens : .word "match" :: (ts ++ [.group .brace us]) ++ rest =
        .word "match" :: (ts ++ .group .brace us :: rest) := by simp
    rw [hTokens]
    refine ⟨.block, ⟨ExpressionKind.noConfusion, ExpressionKind.noConfusion⟩, hCore.trans ?_⟩
    rw [choice_apply hts hus forms depth (by omega)]
    rfl

/-! ## Expressions that begin a statement or an arm -/

/-- An operand that does not begin with a block is read to the end of the expression. -/
theorem isLeading_of_operand (h : IsOperand true (EndsExpression true) ts)
    (hAttribute : ∀ rest, marksAhead "#" (ts ++ rest) = false)
    (hBlock : ∀ rest, blockAhead (ts ++ rest) = false) :
    IsPart (·.leading) (EndsExpression true) ts := by
  refine IsRead.isPart (p := (·.leadingRule)) ?_ fun _ _ => rfl
  intro forms depth rest hDepth hRest
  obtain ⟨kind, -, hRead⟩ := h forms depth rest hDepth hRest
  obtain ⟨outer, hOuter⟩ := outerAttributes_apply .nil (hAttribute rest) (ofDepth forms depth)
  rw [List.nil_append] at hOuter
  refine ⟨kind, ?_⟩
  simp only [leadingRule, bind_apply, discard_apply, hOuter, Option.map_some, Option.bind_some,
    get_apply, hBlock, Bool.false_eq_true, if_false, hRead, operations_apply hRest]

/-! ## Statements -/

/-- Nothing follows, or another statement. -/
def EndsStatement (ts : Tokens) : Prop :=
  ts = [] ∨ ∃ w us, ts = .word w :: us ∧ w ≠ "else"

theorem EndsStatement.endsArm (h : EndsStatement ts) : EndsArm ts :=
  h.imp id fun ⟨w, us, hts, _⟩ => ⟨w, us, hts⟩

/-- The tokens are read as a statement after which others may follow. -/
structure IsStatement (ts : Tokens) : Prop where
  begins : ∃ w us, ts = .word w :: us ∧ w ≠ "else"
  apply_eq : ∀ forms depth rest, Tokens.size ts < depth → EndsStatement rest →
    (ofDepth forms depth).statement (ts ++ rest) = some (false, rest)

/-- The tokens are read as the last statement of a block. -/
structure IsTail (ts : Tokens) : Prop where
  ne_nil : ts ≠ []
  marksAhead_eq : marksAhead "#" ts = false ∧ marksAhead ";" ts = false
  apply_eq : ∀ forms depth, Tokens.size ts < depth →
    ∃ isOpen, (ofDepth forms depth).statement ts = some (isOpen, [])

/-- The statements of a block. -/
inductive AreStatements : Tokens → Prop where
  | nil : AreStatements []
  | tail {ts : Tokens} (h : IsTail ts) : AreStatements ts
  | cons {us ts : Tokens} (h : IsStatement us) (hEnd : EndsStatement ts) (hts : AreStatements ts) :
      AreStatements (us ++ ts)

/-- What is read after a statement, if anything is left. -/
theorem statementSteps_apply {g : Grammar} {ts rest : Tokens} {isOpen : Bool} (hNe : ts ≠ [])
    (hMark : marksAhead ";" ts = false) (h : g.statement ts = some (isOpen, rest))
    (hOpen : rest = [] ∨ isOpen = false) (steps : Nat) :
    g.statementSteps (steps + 1) ts =
      if rest.isEmpty then some ((), rest) else g.statementSteps steps rest := by
  have hEmpty : ts.isEmpty = false := by simpa using hNe
  rw [statementSteps]
  simp only [bind_apply, discard_apply, repeatWhile_of_going_eq_false _ hMark, Option.map_some,
    Option.bind_some, ahead_apply, hEmpty, Bool.false_eq_true, if_false, h]
  cases rest with
  | nil => rfl
  | cons t rest =>
    obtain rfl : isOpen = false := hOpen.resolve_left (List.cons_ne_nil _ _)
    rfl

/-- The induction is on the statements. -/
theorem statements_apply (h : AreStatements ts) (forms : Forms) (depth : Nat)
    (hDepth : Tokens.size ts < depth) (steps : Nat) (hSteps : ts.length < steps) :
    (ofDepth forms depth).statementSteps steps ts = some ((), []) := by
  obtain ⟨n, rfl⟩ := Nat.exists_eq_succ_of_ne_zero (Nat.ne_zero_of_lt hSteps)
  induction h generalizing n with
  | nil => rfl
  | tail h =>
    obtain ⟨isOpen, hRead⟩ := h.apply_eq forms depth hDepth
    rw [statementSteps_apply h.ne_nil h.marksAhead_eq.2 hRead (.inl rfl)]
    rfl
  | @cons us ts h hEnd hts ih =>
    rw [Tokens.size_append] at hDepth
    have hRead := h.apply_eq forms depth ts (by omega) hEnd
    have hBegins : us ++ ts ≠ [] ∧ marksAhead ";" (us ++ ts) = false := by
      obtain ⟨w, vs, rfl, -⟩ := h.begins
      exact ⟨List.cons_ne_nil _ _, rfl⟩
    have hPositive : 0 < us.length := by
      obtain ⟨w, vs, rfl, -⟩ := h.begins
      exact Nat.succ_pos _
    rw [statementSteps_apply hBegins.1 hBegins.2 hRead (.inr rfl)]
    cases ts with
    | nil => rfl
    | cons t ts =>
      rw [List.length_append, List.length_cons] at hSteps
      obtain ⟨m, rfl⟩ := Nat.exists_eq_succ_of_ne_zero (n := n) (by omega)
      refine ih (by omega) m ?_
      rw [List.length_cons]
      omega

/-- Statements are the inside of a block. -/
theorem isBlockBody_of_statements (h : AreStatements ts) : IsBlockBody ts where
  marksAhead_eq := by
    cases h with
    | nil => rfl
    | tail h => exact h.marksAhead_eq.1
    | cons h =>
      obtain ⟨w, vs, rfl, -⟩ := h.begins
      rfl
  statements_apply forms depth hDepth := by
    obtain ⟨n, rfl⟩ := Nat.exists_eq_succ_of_ne_zero (Nat.ne_zero_of_lt hDepth)
    exact statements_apply h forms n (Nat.lt_of_succ_lt_succ hDepth) _ (Nat.lt_succ_self _)

/-- Statements that may follow another one. -/
structure AreFurtherStatements (ts : Tokens) : Prop where
  areStatements : AreStatements ts
  endsStatement : EndsStatement ts

namespace AreFurtherStatements

theorem nil : AreFurtherStatements [] :=
  ⟨.nil, .inl rfl⟩

theorem cons (h : IsStatement us) (hts : AreFurtherStatements ts) :
    AreFurtherStatements (us ++ ts) := by
  refine ⟨.cons h hts.endsStatement hts.areStatements, ?_⟩
  obtain ⟨w, vs, rfl, hw⟩ := h.begins
  exact .inr ⟨w, vs ++ ts, rfl, hw⟩

theorem singleton (h : IsStatement ts) : AreFurtherStatements ts := by
  have hAll := cons h nil
  rwa [List.append_nil] at hAll

theorem isBlockBody (h : AreFurtherStatements ts) : IsBlockBody ts :=
  isBlockBody_of_statements h.areStatements

end AreFurtherStatements

/-! ### Bindings -/

/-- The tokens begin with nothing that is told apart before it is read as an expression. -/
structure IsPlainStart (ts : Tokens) : Prop where
  macroStatementAhead_eq : macroStatementAhead ts = false
  itemAhead_eq : itemAhead ts = false
  wordAhead_eq : wordAhead "let" ts = false
  marksAhead_eq : marksAhead "#" ts = false ∧ marksAhead ";" ts = false

/-- The type of a binding, if it has one. -/
inductive IsAnnotation : Tokens → Prop where
  | none : IsAnnotation []
  | type {ts : Tokens} (h : IsType ts) : IsAnnotation (.mark ':' false :: ts)

/-- What is read of a binding after its type. -/
def bindingAfter (g : Grammar) : Parser Unit := do
  if ← mark? "=" then
    let before ← get
    discard <| g.expression true
    if !endsWithBrace (← since before) && (← word? "else") then g.block
  mark ";"

theorem binding_apply (hus : IsPattern us) (hts : IsAnnotation ts) (joint : Bool) (forms : Forms)
    (depth : Nat) (hDepth : Tokens.size us + Tokens.size ts < depth) (vs : Tokens) :
    (ofDepth forms depth).binding (.word "let" :: (us ++ (ts ++ .mark '=' joint :: vs))) =
      bindingAfter (ofDepth forms depth) (.mark '=' joint :: vs) := by
  let g := ofDepth forms depth
  let after : Tokens := .mark '=' joint :: vs
  have hBinding (vs : Tokens) : g.binding (.word "let" :: vs) =
      (discard g.pattern vs).bind fun x => (mark? ":" x.2).bind fun y =>
        (do if y.1 then discard <| g.type true
            bindingAfter g : Parser Unit) y.2 := rfl
  have hEnd : EndsPattern (ts ++ after) := by
    cases hts with
    | none => exact .inr ⟨joint, vs, .inr (.inl rfl)⟩
    | type h => exact .inr ⟨false, _, .inr (.inr (.inr rfl))⟩
  obtain ⟨p, hp⟩ := hus.isPart forms depth (ts ++ after) (by omega) hEnd
  dsimp only at hp
  refine (hBinding _).trans ?_
  rw [discard_apply, hp, Option.map_some, Option.bind_some]
  cases hts with
  | none => rfl
  | @type ts h =>
    rw [Tokens.size_cons] at hDepth
    obtain ⟨t, ht⟩ := h.isPart true forms depth after (by omega)
      (.inr (.inl ⟨joint, vs, .inr (.inr (.inr rfl))⟩))
    have hColon : mark? ":" (.mark ':' false :: ts ++ after) = some (true, ts ++ after) := rfl
    dsimp only at ht
    rw [hColon, Option.bind_some]
    simp only [if_true, bind_apply, discard_apply, g, ht, Option.map_some, Option.bind_some, after]

/-- The tokens since an earlier state are those that stood before the rest. -/
theorem since_apply (ts rest : Tokens) : since (ts ++ rest) rest = some (ts, rest) := by
  have hSince : since (ts ++ rest) rest =
      some ((ts ++ rest).take ((ts ++ rest).length - rest.length), rest) := rfl
  rw [hSince, List.length_append, Nat.add_sub_cancel, List.take_left]

theorem statement_let (g : Grammar) (ts : Tokens) :
    g.statement (.word "let" :: ts) =
      (g.binding (.word "let" :: ts)).bind fun x => some (false, x.2) :=
  rfl

/-- A name or a pattern with a value. -/
theorem isStatement_let {ps : Tokens} (hps : IsPattern ps) (hts : IsAnnotation ts) (joint : Bool)
    (hus : IsExpression true us) (joint' : Bool) :
    IsStatement (.word "let" :: (ps ++ (ts ++ .mark '=' joint :: (us ++ [.mark ';' joint'])))) where
  begins := ⟨_, _, rfl, by decide⟩
  apply_eq forms depth rest hDepth _ := by
    simp only [Tokens.size_cons, Tokens.size_append] at hDepth
    let after : Tokens := .mark ';' joint' :: rest
    obtain ⟨kind, hRead⟩ := hus.apply (Nat.zero_le _) forms depth (by omega)
      after (.inr (.inl ⟨joint', rest, .inr rfl⟩))
    have hTokens : .word "let" :: (ps ++ (ts ++ .mark '=' joint :: (us ++ [.mark ';' joint']))) ++
        rest = .word "let" :: (ps ++ (ts ++ .mark '=' joint :: (us ++ after))) := by simp [after]
    have hEquals : mark? "=" (.mark '=' joint :: (us ++ after)) = some (true, us ++ after) := rfl
    have hNoElse : word? "else" after = some (false, after) := rfl
    have hMark : mark ";" after = some ((), rest) := rfl
    rw [hTokens, statement_let, binding_apply hps hts joint forms depth (by omega)]
    simp only [bindingAfter, bind_apply, hEquals, Option.bind_some, if_true, get_apply,
      discard_apply, hRead, Option.map_some, since_apply, hNoElse, Bool.and_false,
      Bool.false_eq_true, if_false, hMark]

/-- A binding that may fail, with what is done then. -/
theorem isStatement_letElse {ps vs : Tokens} (hps : IsPattern ps) (joint : Bool)
    (hus : IsExpression true us) (hBrace : endsWithBrace us = false) (hvs : IsBlockBody vs)
    (joint' : Bool) :
    IsStatement (.word "let" :: (ps ++ (.mark '=' joint ::
      (us ++ [.word "else", .group .brace vs, .mark ';' joint'])))) where
  begins := ⟨_, _, rfl, by decide⟩
  apply_eq forms depth rest hDepth _ := by
    simp only [Tokens.size_cons, Tokens.size_append, TokenTree.size] at hDepth
    let after : Tokens := .word "else" :: .group .brace vs :: .mark ';' joint' :: rest
    obtain ⟨kind, hRead⟩ := hus.apply (Nat.zero_le _) forms depth (by omega)
      after (.inr (.inr (.inl ⟨_, rfl⟩)))
    have hBlock := block_apply hvs forms depth (by omega)
      (.mark ';' joint' :: rest)
    have hTokens : .word "let" :: (ps ++ (.mark '=' joint ::
        (us ++ [.word "else", .group .brace vs, .mark ';' joint']))) ++ rest =
        .word "let" :: (ps ++ ([] ++ .mark '=' joint :: (us ++ after))) := by simp [after]
    have hEquals : mark? "=" (.mark '=' joint :: (us ++ after)) = some (true, us ++ after) := rfl
    have hElse : word? "else" after = some (true, .group .brace vs :: .mark ';' joint' :: rest) :=
      rfl
    have hMark : mark ";" (.mark ';' joint' :: rest) = some ((), rest) := rfl
    have hSize : Tokens.size ps + Tokens.size [] < depth := by
      simp only [Tokens.size]
      omega
    rw [hTokens, statement_let, binding_apply hps .none joint forms depth hSize]
    simp only [bindingAfter, bind_apply, hEquals, Option.bind_some, if_true, get_apply,
      discard_apply, hRead, Option.map_some, since_apply, hElse, hBrace, Bool.not_false,
      Bool.and_self, hBlock, hMark]

/-! ### Expressions as statements -/

/-- What begins a statement with nothing that is told apart is read as an expression. -/
theorem statement_apply {g : Grammar} {rest : Tokens} {kind : ExpressionKind}
    (h : IsPlainStart ts) (hRead : g.leading ts = some (kind, rest)) :
    g.statement ts = (mark? ";" rest).bind fun x =>
      some (!(x.1 || kind == .block || kind == .expansion .brace), x.2) := by
  obtain ⟨outer, hOuter⟩ := outerAttributes_apply .nil h.marksAhead_eq.1 g
  rw [List.nil_append] at hOuter
  simp only [statement, bind_apply, get_apply, Option.bind_some, discard_apply, hOuter,
    Option.map_some, h.macroStatementAhead_eq, h.wordAhead_eq, h.itemAhead_eq, Bool.false_eq_true,
    if_false, hRead, pure_apply]

/-- An expression with a semicolon. -/
theorem isStatement_expression {w : String} (hw : w ≠ "else")
    (h : IsPart (·.leading) (EndsExpression true) (.word w :: ts))
    (hStart : ∀ rest, IsPlainStart (.word w :: ts ++ rest)) (joint : Bool) :
    IsStatement (.word w :: (ts ++ [.mark ';' joint])) where
  begins := ⟨w, _, rfl, hw⟩
  apply_eq forms depth rest hDepth _ := by
    simp only [Tokens.size_cons, Tokens.size_append] at hDepth
    let after : Tokens := .mark ';' joint :: rest
    obtain ⟨kind, hRead⟩ := h forms depth after (by rw [Tokens.size_cons]; omega)
      (.inr (.inl ⟨joint, rest, .inr rfl⟩))
    have hTokens : .word w :: (ts ++ [.mark ';' joint]) ++ rest = .word w :: ts ++ after := by
      simp [after]
    rw [hTokens, statement_apply (hStart after) hRead]
    rfl

/-- An expression whose value is that of the block. -/
theorem isTail_expression (hNe : ts ≠ []) (h : IsPart (·.leading) (EndsExpression true) ts)
    (hStart : IsPlainStart ts) : IsTail ts where
  ne_nil := hNe
  marksAhead_eq := hStart.marksAhead_eq
  apply_eq forms depth hDepth := by
    obtain ⟨kind, hRead⟩ := h forms depth [] hDepth (.inl rfl)
    rw [List.append_nil] at hRead
    exact ⟨_, statement_apply hStart hRead⟩

/-- The tokens are read as the value of an arm, whether a comma follows them or braces enclose
them. -/
structure IsArmValue (ts : Tokens) : Prop where
  isPart : IsPart (·.leading) (EndsExpression true) ts
  isBlockBody : IsBlockBody ts

theorem IsFreeOperand.isArmValue (h : IsFreeOperand ts)
    (hAhead : ∀ rest, blockAhead (ts ++ rest) = false ∧ marksAhead "#" (ts ++ rest) = false)
    (hStart : IsPlainStart ts) : IsArmValue ts := by
  have hOperand := (h.isPlainOperand true).isOperand.imp fun _ => endsOperand_of_endsExpression
  have hLeading := isLeading_of_operand hOperand (fun rest => (hAhead rest).2) fun rest =>
    (hAhead rest).1
  exact ⟨hLeading, isBlockBody_of_statements (.tail (isTail_expression h.ne_nil hLeading hStart))⟩

theorem isStatement_return {w : String} (hNe : w ≠ "as") (h : IsExpression true (.word w :: ts))
    (joint : Bool) : IsStatement (.word "return" :: .word w :: (ts ++ [.mark ';' joint])) :=
  isStatement_expression (by decide)
    (isLeading_of_operand (isOperand_return hNe h) (fun _ => rfl) fun _ => rfl)
    (fun _ => ⟨rfl, rfl, rfl, rfl, rfl⟩) joint

/-! ### Blocks as statements -/

theorem leadingRule_block {g : Grammar} {rest : Tokens} (hAttribute : marksAhead "#" ts = false)
    (hBlock : blockAhead ts = true) (hRead : g.blockOperand ts = some ((), rest))
    (hRest : EndsArm rest) : g.leadingRule ts = some (.block, rest) := by
  obtain ⟨outer, hOuter⟩ := outerAttributes_apply .nil hAttribute g
  rw [List.nil_append] at hOuter
  simp only [leadingRule, bind_apply, discard_apply, hOuter, Option.map_some, Option.bind_some,
    get_apply, hBlock, if_true, hRead, ahead_apply, accessAhead_of_endsArm hRest, Bool.not_false,
    pure_apply]

/-- A statement that ends with its block. -/
theorem isStatement_block {w : String} (hw : w ≠ "else")
    (hStart : ∀ rest, IsPlainStart (.word w :: ts ++ rest))
    (hBlock : ∀ rest, blockAhead (.word w :: ts ++ rest) = true)
    (h : ∀ forms depth rest, Tokens.size (.word w :: ts) ≤ depth → EndsStatement rest →
      (ofDepth forms depth).blockOperand (.word w :: ts ++ rest) = some ((), rest)) :
    IsStatement (.word w :: ts) where
  begins := ⟨w, _, rfl, hw⟩
  apply_eq forms depth rest hDepth hRest := by
    obtain ⟨n, rfl⟩ := Nat.exists_eq_succ_of_ne_zero (Nat.ne_zero_of_lt hDepth)
    have hRead : (ofDepth forms (n + 1)).leading (.word w :: ts ++ rest) = some (.block, rest) :=
      leadingRule_block rfl (hBlock rest) (h forms n rest (Nat.le_of_lt_succ hDepth) hRest)
        hRest.endsArm
    have hNoMark : mark? ";" rest = some (false, rest) := by
      obtain rfl | ⟨w, us, rfl, -⟩ := hRest <;> rfl
    rw [statement_apply (hStart rest) hRead, hNoMark]
    rfl

theorem isStatement_if (hts : IsExpression false ts) (hus : IsBlockBody us) :
    IsStatement (.word "if" :: (ts ++ [.group .brace us])) := by
  refine isStatement_block (by decide) (fun _ => ⟨rfl, rfl, rfl, rfl, rfl⟩) (fun _ => rfl) ?_
  intro forms depth rest hDepth hRest
  simp only [Tokens.size_append, TokenTree.size, Tokens.size] at hDepth
  have hElse : wordAhead "else" rest = false := by
    obtain rfl | ⟨w, vs, rfl, hw⟩ := hRest
    · rfl
    · exact wordAhead_eq_false_of_ne hw _
  have hTokens : .word "if" :: (ts ++ [.group .brace us]) ++ rest =
      .word "if" :: (ts ++ .group .brace us :: rest) := by simp
  rw [hTokens]
  exact conditional_apply hts hus forms depth (by omega) hElse _

theorem isStatement_match (hts : IsExpression false ts) (hus : Repeated IsArm us) :
    IsStatement (.word "match" :: (ts ++ [.group .brace us])) := by
  refine isStatement_block (by decide) (fun _ => ⟨rfl, rfl, rfl, rfl, rfl⟩) (fun _ => rfl) ?_
  intro forms depth rest hDepth _
  simp only [Tokens.size_append, TokenTree.size, Tokens.size] at hDepth
  have hTokens : .word "match" :: (ts ++ [.group .brace us]) ++ rest =
      .word "match" :: (ts ++ .group .brace us :: rest) := by simp
  rw [hTokens]
  exact choice_apply hts hus forms depth (by omega) rest

end CommandDispatch.Source
