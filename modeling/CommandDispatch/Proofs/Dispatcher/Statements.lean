import CommandDispatch.Proofs.Dispatcher.Expressions

/-!
# The statements of a dispatcher are read back

What is written for a statement is read as a statement, whatever its names are and wherever its
lines end. Only the calls of functions are read as calls on a condition: the paths must be ones that
can be called. Where they are not, the statements are read as tokens still.

* `spells_bindingDoc`, `spells_requireDoc`, `spells_invokeDoc`: the statements of an arm,
* `Arm.IsPrintable`, `spelledLines_arm`: what must be known of an arm, and its body,
* `spells_takeFirst`, `spells_readText`, `spells_answerHelp`, `spells_findTarget`, `spells_cut`,
  `spells_choose`: the statements of `start`, `spelledLines_statements`: its body.
-/

namespace CommandDispatch.Dispatcher

open Arguments Layout Source Source.Parser Text

variable {φ ψ : Prop} {P : Tokens → Prop}

/-! ## Lines -/

theorem spelledLines_statement {d : Doc String} {ds : List (Doc String)}
    (hd : Spells φ .free .free (Given ψ IsStatement) d)
    (hds : SpelledLines φ (Given ψ AreFurtherStatements) ds) :
    SpelledLines φ (Given ψ AreFurtherStatements) (d :: ds) := by
  refine (SpelledLines.cons hd hds).imp ?_
  rintro ts ⟨us, vs, rfl, hus, hvs⟩ hψ
  exact .cons (hus hψ) (hvs hψ)

theorem spelledLines_nil : SpelledLines φ (Given ψ AreFurtherStatements) [] :=
  .nil fun _ => .nil

/-- The lines of a block that holds a statement alone. -/
theorem spelledLines_singleton {d : Doc String} (hd : Spells φ .free .free IsStatement d) :
    SpelledLines φ IsBlockBody [d] :=
  (SpelledLines.singleton hd).imp fun _ hts => (AreFurtherStatements.singleton hts).isBlockBody

/-! ## Bindings -/

theorem isAnnotation_typeName (kind : TextKind) :
    IsAnnotation [.mark ':' false, .word kind.typeName] ∧ ∀ joint joint',
      IsAnnotation [.mark ':' false, .word "Option", .mark '<' joint, .word kind.typeName,
        .mark '>' joint'] := by
  have hType : IsType [.word kind.typeName] := by
    cases kind <;> exact isType_word rfl
  exact ⟨.type hType, fun joint joint' =>
    .type (isType_angled rfl joint joint' (.last (isArgument_type hType)))⟩

theorem spells_typeName (kind : TextKind) :
    Spells φ .free .word (· = [.word kind.typeName]) (kind.typeName : Doc String) := by
  cases kind <;> exact .text (by decide) fun _ _ _ => rfl

/-- A name with its type. -/
theorem spells_typedName {w : String} (hw : IsIdentifier w) {d : Doc String}
    (h : Spells φ .word .word IsAnnotation d) :
    Spells φ .free .word (Then IsPattern IsAnnotation) (Doc.join [Doc.name w, d]) := by
  refine ((Spells.name hw.isName).append (h.append .nil)).imp ?_
  rintro ts ⟨_, _, rfl, rfl, us, _, rfl, hus, rfl⟩
  exact ⟨_, us, by simp, isPattern_name hw.not_reserved, hus⟩

theorem spells_letStatement {pattern value : Doc String}
    (hPattern : Spells φ .free .word (Then IsPattern IsAnnotation) pattern)
    (hValue : Spells φ .free .word (IsExpression true) value) :
    Spells φ .free .free IsStatement (letDoc pattern value) := by
  refine (spells_letDoc hPattern hValue).imp ?_
  rintro ts ⟨_, us, joint, ⟨ps, vs, rfl, hps, hvs⟩, hus, rfl⟩
  rw [List.append_assoc]
  exact isStatement_let hps hvs false hus joint

/-- A value that is there. -/
theorem spells_someCall {d : Doc String} (h : Spells φ .free .word (IsExpression true) d) :
    Spells φ .free .free IsArmValue (callDoc "Some" [d]) := by
  refine (spells_namedCall (by decide) h).imp ?_
  rintro ts ⟨us, hus, rfl⟩
  exact ((isCallee_word rfl).isFreeOperand_call hus).isArmValue (fun _ => ⟨rfl, rfl⟩)
    ⟨rfl, rfl, rfl, rfl, rfl⟩

/-- The arms for a flag that is given and for one that is not. -/
theorem spells_flagArms {raw : String} (hRaw : IsIdentifier raw) (kind : TextKind)
    (label : String) :
    SpelledLines φ (Repeated IsArm)
      [ armDoc (Doc.join ["Some(", Doc.name raw, ")"])
          (callDoc "Some" [valueDoc kind (Doc.name raw) (receiverDoc (Doc.name raw)) label]),
        armDoc "None" "None" ] := by
  have hSome : Spells φ .free .word IsArmPattern
      (Doc.join ["Some(", Doc.name raw, (")" : Doc String)]) := by
    refine Spells.of_free (Spells.imp (.template ["Some("] [raw] ")"
      (fun _ => [.word "Some", .group .parenthesis [.word raw]]) (by decide)
      (List.forall_mem_singleton.mpr hRaw.isName) rfl fun _ _ _ => rfl) ?_)
    rintro ts ⟨_, rfl⟩
    exact ⟨⟨_, _, rfl⟩, isPattern_constructor rfl (isCallee_word rfl).isPath
      (.last (isPattern_name hRaw.not_reserved)) fun _ => rfl⟩
  have hNone : Spells φ .free .word (· = [.word "None"]) ("None" : Doc String) :=
    .text (by decide) fun _ _ _ => rfl
  have hRawName := spells_identifier (φ := φ) hRaw
  have hValue := spells_valueDoc kind label (hRawName.imp fun _ hts => hts.isExpression true)
    (spells_receiverDoc hRawName)
  have hCall := spells_someCall (hValue.of_free.imp fun _ hts => hts.isExpression true)
  have hNoValue : IsArmValue [.word "None"] :=
    (isFreeOperand_word rfl).isArmValue (fun _ => ⟨rfl, rfl⟩) ⟨rfl, rfl, rfl, rfl, rfl⟩
  refine (SpelledLines.cons (spells_armDoc hSome hCall.of_free) (.singleton (spells_armDoc
    (hNone.imp fun _ hts => hts ▸ ⟨⟨_, _, rfl⟩, isPattern_name rfl⟩)
    (hNone.imp fun _ hts => hts ▸ hNoValue)))).imp ?_
  rintro ts ⟨us, vs, rfl, hus, hvs⟩
  exact .cons hus (.singleton hvs)

/-- The value of a flag, if it is given. -/
theorem spells_flagValue {flags raw : String} (hFlags : IsIdentifier flags)
    (hRaw : IsIdentifier raw) (kind : TextKind) (key label : String) :
    Spells φ .free .free (IsExpression true) <| Doc.braces
      (conditionDoc "match " (methodDoc (receiverDoc (Doc.name flags)) "get" [literalDoc key]) true)
      [ armDoc (Doc.join ["Some(", Doc.name raw, ")"])
          (callDoc "Some" [valueDoc kind (Doc.name raw) (receiverDoc (Doc.name raw)) label]),
        armDoc "None" "None" ] := by
  have hMatch : Spells φ .free .free (· = [.word "match"]) ("match " : Doc String) :=
    .text (by decide) fun _ _ _ => rfl
  have hGet := spells_methodDoc (φ := φ) (spells_receiverDoc (spells_identifier hFlags)) "get"
    ⟨by decide, rfl⟩ (List.forall_mem_singleton.mpr (spells_literalDoc key))
  refine (Spells.braces (spells_conditionDoc true hMatch hGet).of_free
    (spells_flagArms hRaw kind label)).imp ?_
  rintro ts ⟨_, _, rfl, ⟨_, _, rfl, rfl, _, _, rfl, hus, hvs⟩, arms, rfl, hArms⟩
  rw [List.append_assoc]
  exact (isCore_choice ((hus.append hvs).isExpression false) hArms).isPlainOperand.isExpression
    (List.cons_ne_nil _ _)

theorem spells_bindingDoc {flags positionals : String} (hFlags : IsIdentifier flags)
    (hPositionals : IsIdentifier positionals) {b : Binding String}
    (hb : ∀ w ∈ b.binders, IsIdentifier w) :
    Spells φ .free .free IsStatement (bindingDoc flags positionals b) := by
  cases b with
  | absent name =>
    have hName : IsIdentifier name := hb _ (by simp [Binding.binders])
    have hNone : Spells φ .free .word (· = [.word "None"]) ("None" : Doc String) :=
      .text (by decide) fun _ _ _ => rfl
    refine spells_letStatement ((Spells.name hName.isName).imp ?_)
      (hNone.imp fun _ hts => hts ▸ isExpression_word rfl)
    rintro ts rfl
    exact ⟨_, [], by simp, isPattern_name hName.not_reserved, .none⟩
  | positional name kind index label =>
    have hName : IsIdentifier name := hb _ (by simp [Binding.binders])
    have hColon : Spells φ .word .free (· = [.mark ':' false]) (": " : Doc String) :=
      .text (by decide) fun _ _ _ => rfl
    have hType : Spells φ .word .word IsAnnotation
        ((": " : Doc String) ++ (kind.typeName : Doc String)) := by
      refine (hColon.append (spells_typeName kind)).imp ?_
      rintro ts ⟨_, _, rfl, rfl, rfl⟩
      exact (isAnnotation_typeName kind).1
    have hValue := spells_valueDoc (φ := φ) kind label
      (spells_elementReference hPositionals index).of_free
      (spells_element hPositionals index).of_free
    exact spells_letStatement (spells_typedName hName hType)
      (hValue.of_free.imp fun _ hts => hts.isExpression true)
  | flag name raw kind key label =>
    have hName : IsIdentifier name := hb _ (by simp [Binding.binders])
    have hRaw : IsIdentifier raw := hb _ (by simp [Binding.binders])
    have hOpening : Spells φ .word .free (fun ts => ∃ joint, ts =
        [.mark ':' false, .word "Option", .mark '<' joint]) (": Option<" : Doc String) :=
      .phrase (by decide) fun _ _ _ => rfl
    have hClosing : Spells φ .word .word (fun ts => ∃ joint, ts = [.mark '>' joint])
        (">" : Doc String) :=
      .phrase (by decide) fun _ _ _ => rfl
    have hType : Spells φ .word .word IsAnnotation
        ((": Option<" : Doc String) ++ (kind.typeName : Doc String) ++ (">" : Doc String)) := by
      refine ((hOpening.append (spells_typeName kind)).append hClosing).imp ?_
      rintro ts ⟨_, _, rfl, ⟨_, _, rfl, ⟨joint, rfl⟩, rfl⟩, joint', rfl⟩
      exact (isAnnotation_typeName kind).2 joint joint'
    exact spells_letStatement (spells_typedName hName hType)
      (spells_flagValue hFlags hRaw kind key label).of_free

/-! ## The check of the positionals -/

/-- A field of an error with its value. -/
theorem spells_field {head : String} {w : String} (hw : reservedWords.contains w = false)
    (hHead : Spells φ .free .free (· = [.word w, .mark ':' false]) (head : Doc String))
    {value : Doc String} (hValue : Spells φ .free .word (IsExpression true) value) :
    Spells φ .free .free IsFieldValue (Doc.join [[.text head], value, ("," : Doc String)]) := by
  have hEnd : Spells φ .word .free (fun ts => ∃ joint, ts = [.mark ',' joint])
      ("," : Doc String) :=
    .phrase (by decide) fun _ _ _ => rfl
  refine (hHead.append (hValue.append (hEnd.append .nil))).imp ?_
  rintro ts ⟨_, _, rfl, rfl, us, _, rfl, hus, _, _, rfl, ⟨joint, rfl⟩, rfl⟩
  exact ⟨w, us, joint, hw, hus, rfl⟩

/-- How many positionals there are. -/
theorem spells_found {positionals : String} (h : IsIdentifier positionals) :
    Spells φ .free .free IsFreeOperand
      (Doc.join [Doc.name positionals, (".len()" : Doc String)]) := by
  have hLen : Spells φ .word .free (· = [.mark '.' false, .word "len", .group .parenthesis []])
      (".len()" : Doc String) :=
    .text (by decide) fun _ _ _ => rfl
  refine ((spells_identifier h).append (hLen.append .nil)).imp ?_
  rintro ts ⟨us, _, rfl, hus, _, _, rfl, rfl, rfl⟩
  exact hus.append (isTrailer_method rfl false .nil)

/-- The error that there are too few of them. -/
theorem spells_notEnough {expected found : Doc String}
    (hExpected : Spells φ .free .word (IsExpression true) expected)
    (hFound : Spells φ .free .word (IsExpression true) found) :
    Spells φ .free .free (IsCore true)
      (receiverDoc (Doc.braces "::cligen_runtime::ArgumentError::NotEnough "
        [Doc.join ["expected: ", expected, ","], Doc.join ["found: ", found, ","]])) := by
  have hHead : Spells φ .free .word
      (· = wordsTokens ["cligen_runtime", "ArgumentError", "NotEnough"])
      ("::cligen_runtime::ArgumentError::NotEnough " : Doc String) :=
    .text (by decide) fun _ _ _ => rfl
  have hFields : SpelledLines φ (Repeated IsFieldValue)
      [Doc.join ["expected: ", expected, (",": Doc String)], Doc.join ["found: ", found, ","]] := by
    refine (SpelledLines.cons
      (spells_field (w := "expected") rfl (.text (by decide) fun _ _ _ => rfl) hExpected)
      (.singleton
        (spells_field (w := "found") rfl (.text (by decide) fun _ _ _ => rfl) hFound))).imp ?_
    rintro ts ⟨us, vs, rfl, hus, hvs⟩
    exact .cons hus (.singleton hvs)
  refine spells_receiverDoc ((Spells.braces hHead hFields).imp ?_)
  rintro ts ⟨_, _, rfl, rfl, us, rfl, hus⟩
  exact isCore_construction (isCallee_wordsTokens (by decide)) hus

/-- An error is made into one of another type. -/
theorem spells_into {error : Doc String} (h : Spells φ .free .free (IsCore true) error) :
    Spells φ .free .free (Separated (IsExpression true))
      (Doc.join [error, Doc.newline 0, ".into(),"]) := by
  have hInto : Spells φ .free .free (fun ts => ∃ joint, ts =
      [.mark '.' false, .word "into", .group .parenthesis [], .mark ',' joint])
      (".into()," : Doc String) :=
    .phrase (by decide) fun _ _ _ => rfl
  refine (h.append ((Spells.newline 0).append (hInto.append .nil))).imp ?_
  rintro ts ⟨us, _, rfl, hus, _, _, rfl, rfl, _, _, rfl, ⟨joint, rfl⟩, rfl⟩
  have hOperand := hus.isPlainOperand.append (isTrailer_method (w := "into") rfl false .nil)
  have hAll := Separated.cons joint (hOperand.isExpression (by simp)) .nil
  rwa [List.append_assoc] at hAll

/-- An error on lines of its own is returned. -/
theorem spells_failLines {inside : Doc String}
    (h : Spells φ .free .free (Separated (IsExpression true)) inside) :
    Spells φ .free .free IsStatement (Doc.join
      [ Doc.block step .consistent <| Doc.join
          ["return Err(", Doc.newline 0, Doc.block step .consistent inside, Doc.newline (-step)],
        ");" ]) := by
  have hOpens : SpellsOpen φ .free .free .parenthesis (· = [.word "return", .word "Err"])
      (· = []) ("return Err(" : Doc String) :=
    .text (by decide) fun _ _ _ => rfl
  have hBlock : Spells φ .free .free (Separated (IsExpression true))
      (Doc.block step .consistent inside) := h.block
  have hInside : SpellsOpen φ .free .free .parenthesis (· = [.word "return", .word "Err"]) _
      (Doc.block step .consistent (Doc.join
        ["return Err(", Doc.newline 0, Doc.block step .consistent inside, Doc.newline (-step)])) :=
    .block (hOpens.append ((Spells.newline 0).append (hBlock.append
      ((Spells.newline (-step)).append .nil))))
  refine (hInside.close (fun joint => [.mark ';' joint]) (by decide) fun _ _ _ _ => rfl).imp ?_
  rintro ts ⟨_, _, rfl, rfl, _, _, rfl,
    ⟨_, rfl, _, _, rfl, rfl, _, _, rfl, rfl, vs, _, rfl, hvs, _, _, rfl, rfl, rfl⟩, joint, rfl⟩
  rw [List.nil_append, List.nil_append, List.nil_append, List.append_nil]
  exact isStatement_fail hvs joint

theorem spells_requireDoc {positionals : String} (h : IsIdentifier positionals) (count : Nat) :
    Spells φ .free .free IsStatement (requireDoc positionals count) := by
  have hCount : Spells φ .free .word _ (countDoc count) := Spells.count count
  have hFail := spells_failLines (spells_into (spells_notEnough
    (hCount.imp fun _ hts => hts ▸ isExpression_literal _ _ true)
    ((spells_found h).of_free.imp fun _ hts => hts.isExpression true)))
  have hIf : Spells φ .free .free (· = [.word "if"]) ("if " : Doc String) :=
    .text (by decide) fun _ _ _ => rfl
  have hLess : Spells φ .free .free (· = [.mark '<' false]) (" < " : Doc String) :=
    .text (by decide) fun _ _ _ => rfl
  have hEnd : Spells φ .word .word (· = []) (" " : Doc String) :=
    .text (by decide) fun _ _ _ => rfl
  have hHead :=
    hIf.append ((spells_found h).append (hLess.append (hCount.append (hEnd.append .nil))))
  refine Spells.block ((Spells.braces hHead (spelledLines_singleton hFail)).imp ?_)
  rintro ts ⟨_, _, rfl, ⟨_, _, rfl, rfl, us, _, rfl, hus, _, _, rfl, rfl, _, _, rfl, rfl, _, _, rfl,
    rfl, rfl⟩, vs, rfl, hvs⟩
  have hStatement := isStatement_if (isExpression_less (hus.isPlainOperand false) .number
    (toString count ++ "usize")) hvs
  simpa using hStatement

/-! ## Calls -/

/-- An error is returned. -/
theorem spells_failDoc {error : Doc String} (h : Spells φ .free .word (IsExpression true) error) :
    Spells φ .free .free IsStatement (failDoc error) := by
  have hReturn : Spells φ .free .free (· = [.word "return"]) ("return " : Doc String) :=
    .text (by decide) fun _ _ _ => rfl
  have hEnd : Spells φ .free .free (fun ts => ∃ joint, ts = [.mark ';' joint])
      (";" : Doc String) :=
    .phrase (by decide) fun _ _ _ => rfl
  have hCall : Spells φ .free .free (IsCallOf "Err" (IsExpression true)) (callDoc "Err" [error]) :=
    spells_namedCall (by decide) h
  refine Spells.block ((hReturn.append (hCall.append (hEnd.append .nil))).imp ?_)
  rintro ts ⟨_, _, rfl, rfl, _, _, rfl, ⟨us, hus, rfl⟩, _, _, rfl, ⟨joint, rfl⟩, rfl⟩
  exact isStatement_fail hus joint

/-- The error of a command. -/
theorem spells_commandError {e : String} (he : IsIdentifier e) :
    Spells φ .free .free IsFreeOperand
      (callDoc "::cligen_runtime::DispatchError::command" [Doc.name e]) := by
  have hPath : Spells φ .free .word (· = wordsTokens commandErrorPath)
      ("::cligen_runtime::DispatchError::command" : Doc String) :=
    .text (by decide) fun _ _ _ => rfl
  refine (spells_callDoc hPath (List.forall_mem_singleton.mpr ((spells_identifier he).imp
    fun _ hts => hts.isExpression true))).imp ?_
  rintro ts ⟨_, _, rfl, rfl, us, rfl, hus⟩
  exact isCallee_commandErrorPath.isFreeOperand_call hus

/-- The condition that a call returns an error. -/
theorem spells_errorCondition {e : String} (he : IsIdentifier e) {call : Doc String}
    (hCall : Spells φ .free .free P call) :
    Spells φ .free .free (fun ts => ∃ us, P us ∧ ts = .word "if" :: .word "let" :: .word "Err" ::
      .group .parenthesis [.word e] :: .mark '=' false :: us)
      (conditionDoc "if " (Doc.join ["let Err(", Doc.name e, ") = ", Doc.joint, call]) false) := by
  have hIf : Spells φ .free .free (· = [.word "if"]) ("if " : Doc String) :=
    .text (by decide) fun _ _ _ => rfl
  have hPattern : Spells φ .free .free _
      (Doc.join ["let Err(", Doc.name e, (") = " : Doc String)]) :=
    .template ["let Err("] [e] ") = "
      (fun _ => [.word "let", .word "Err", .group .parenthesis [.word e], .mark '=' false])
      (by decide) (List.forall_mem_singleton.mpr he.isName) rfl fun _ _ _ => rfl
  refine (spells_conditionDoc false hIf
    (hPattern.append (Spells.joint.append (hCall.append .nil)))).imp ?_
  rintro ts ⟨_, _, rfl, rfl, _, _, rfl, ⟨_, rfl⟩, _, _, rfl, rfl, us, _, rfl, hus, rfl⟩
  exact ⟨us, hus, by simp⟩

theorem spells_invokeDoc {path : Path} (hPath : path.IsReadable)
    (hCallee : ψ → path.isCallee = true) {names : List String}
    (hNames : ∀ w ∈ names, IsIdentifier w) {error : Option String}
    (hError : ∀ e ∈ error, IsIdentifier e) :
    Spells φ .free .free (Given ψ IsStatement) (invokeDoc path names error) := by
  have hArguments : ∀ d ∈ names.map Doc.name, Spells φ .free .word (IsExpression true) d := by
    intro d hd
    obtain ⟨w, hw, rfl⟩ := List.mem_map.mp hd
    exact (spells_identifier (hNames w hw)).imp fun _ hts => hts.isExpression true
  have hCall := spells_callOf hPath hCallee hArguments
  cases error with
  | none =>
    have hHole : Spells φ .free .word (· = [.word "_"]) ("_" : Doc String) :=
      .text (by decide) fun _ _ _ => rfl
    refine (spells_letDoc hHole hCall.of_free).imp ?_
    rintro ts ⟨_, us, joint, rfl, hus, rfl⟩ hψ
    exact isStatement_call (hus hψ) joint
  | some e =>
    have he : IsIdentifier e := hError e rfl
    have hFail := spells_failDoc (spells_commandError (φ := φ) he |>.of_free.imp
      fun _ hts => hts.isExpression true)
    refine Spells.block ((Spells.braces (spells_errorCondition he hCall).of_free
      (spelledLines_singleton hFail)).imp ?_)
    rintro ts ⟨_, _, rfl, ⟨us, hus, rfl⟩, vs, rfl, hvs⟩ hψ
    exact isStatement_failingCall (hus hψ) he hvs

/-! ## Arms -/

/-- The names and the path of the arm can be read back. -/
structure Arm.IsPrintable (a : Arm String) : Prop where
  variant : IsIdentifier a.variant
  binder : ∀ w ∈ a.binders, IsIdentifier w
  path : a.path.IsReadable

theorem isFreeOperand_ok :
    IsFreeOperand [.word "Ok", .group .parenthesis [.group .parenthesis []]] :=
  (isCallee_word rfl).isFreeOperand_call
    (.last ((isCore_parenthesized .nil).isPlainOperand.isExpression (List.cons_ne_nil _ _)))

/-- The call of the function comes last, and the command has succeeded after it. -/
theorem spelledLines_finish {a : Arm String} (ha : a.IsPrintable)
    (hCallee : ψ → a.path.isCallee = true) :
    SpelledLines φ (Given ψ AreFurtherStatements)
      [invokeDoc a.path (a.bindings.map (·.name)) a.error, statement "Ok(())"] := by
  have hOk : Spells φ .free .free (· = [.word "Ok", .group .parenthesis [.group .parenthesis []]])
      (statement ("Ok(())" : Doc String)) :=
    .block (.text (by decide) fun _ _ _ => rfl)
  have hValue := isFreeOperand_ok.isArmValue (fun _ => ⟨rfl, rfl⟩) ⟨rfl, rfl, rfl, rfl, rfl⟩
  have hLast : AreFurtherStatements [.word "Ok", .group .parenthesis [.group .parenthesis []]] :=
    ⟨.tail (isTail_expression isFreeOperand_ok.ne_nil hValue.isPart ⟨rfl, rfl, rfl, rfl, rfl⟩),
      .inr ⟨_, _, rfl, by decide⟩⟩
  exact spelledLines_statement (spells_invokeDoc ha.path hCallee
    (fun w hw => ha.binder w (Arm.mem_binders_of_mem_names hw))
    fun e he => ha.binder e (Arm.mem_binders_of_mem_error he))
    ((SpelledLines.singleton hOk).imp fun _ hts _ => hts ▸ hLast)

section

variable {s : StartNames String} (hs : ∀ w ∈ s.toList, IsIdentifier w)

include hs

/-- The bindings of the arguments stand before the call; the induction is on them. -/
theorem spelledLines_bindings {bindings : List (Binding String)}
    (hBindings : ∀ b ∈ bindings, ∀ w ∈ b.binders, IsIdentifier w) {ds : List (Doc String)}
    (hds : SpelledLines φ (Given ψ AreFurtherStatements) ds) :
    SpelledLines φ (Given ψ AreFurtherStatements)
      (bindings.map (bindingDoc s.flags s.positionals) ++ ds) := by
  induction bindings with
  | nil => exact hds
  | cons b bindings ih =>
    obtain ⟨hb, hRest⟩ := List.forall_mem_cons.mp hBindings
    have hFlags : IsIdentifier s.flags := hs _ (by simp [StartNames.toList])
    have hPositionals : IsIdentifier s.positionals := hs _ (by simp [StartNames.toList])
    exact spelledLines_statement (spells_bindingDoc hFlags hPositionals hb).always (ih hRest)

/-- The statements of an arm are read, the call on the condition that the path can be called. -/
theorem spelledLines_arm {a : Arm String} (ha : a.IsPrintable)
    (hCallee : ψ → a.path.isCallee = true) :
    SpelledLines φ (Given ψ AreFurtherStatements)
      ((a.statements s).flatMap ArmStatement.docs) := by
  have hBindings : ∀ b ∈ a.bindings, ∀ w ∈ b.binders, IsIdentifier w := fun b hb w hw =>
    ha.binder w (List.mem_append_left _ (List.mem_flatMap.mpr ⟨b, hb, hw⟩))
  have hRest := spelledLines_bindings (φ := φ) hs hBindings (spelledLines_finish ha hCallee)
  have hDocs : (a.bindings.map (ArmStatement.bind s.flags s.positionals)).flatMap
      ArmStatement.docs = a.bindings.map (bindingDoc s.flags s.positionals) := by
    rw [List.flatMap_map]
    exact List.map_eq_flatMap.symm
  rw [Arm.statements, List.flatMap_append, List.flatMap_append, hDocs, List.append_assoc]
  split
  · exact hRest
  · have hPositionals : IsIdentifier s.positionals := hs _ (by simp [StartNames.toList])
    exact spelledLines_statement (spells_requireDoc hPositionals a.required).always hRest

end

/-! ## The statements of `start` -/

/-- A binding that may fail, with what is done then. -/
theorem spells_letElse {w : String} (hw : IsIdentifier w) {us : Tokens} (hus : IsFreeOperand us)
    (hBrace : Grammar.endsWithBrace us = false) {head d : Doc String}
    (hHead : Spells φ .free .free (· = .word "let" :: .word "Some" ::
      .group .parenthesis [.word w] :: .mark '=' false :: (us ++ [.word "else"])) head)
    (hd : Spells φ .free .free IsStatement d) :
    Spells φ .free .free IsStatement (Doc.join [Doc.braces head [d], ";"]) := by
  have hEnd : Spells φ .free .free (fun ts => ∃ joint, ts = [.mark ';' joint])
      (";" : Doc String) :=
    .phrase (by decide) fun _ _ _ => rfl
  have hPattern : IsPattern [.word "Some", .group .parenthesis [.word w]] :=
    isPattern_constructor rfl (isCallee_word rfl).isPath (.last (isPattern_name hw.not_reserved))
      fun _ => rfl
  have hBraces := Spells.braces hHead.of_free (spelledLines_singleton hd)
  refine (hBraces.append (hEnd.append .nil)).imp ?_
  rintro ts ⟨_, _, rfl, ⟨_, _, rfl, rfl, vs, rfl, hvs⟩, _, _, rfl, ⟨joint, rfl⟩, rfl⟩
  have hStatement := isStatement_letElse hPattern false (hus.isExpression true) hBrace hvs joint
  simpa using hStatement

/-- There is no command without arguments. -/
theorem spells_insufficient : Spells φ .free .free IsStatement
    ("return Err(::cligen_runtime::ArgumentError::Insufficient.into());" : Doc String) := by
  let error := wordsTokens ["cligen_runtime", "ArgumentError", "Insufficient"] ++
    [.mark '.' false, .word "into", .group .parenthesis []]
  have hReturn : Spells φ .free .free (fun ts => ∃ joint, ts =
      [.word "return", .word "Err", .group .parenthesis error, .mark ';' joint])
      ("return Err(::cligen_runtime::ArgumentError::Insufficient.into());" : Doc String) :=
    .phrase (by decide) fun _ _ _ => rfl
  have hPath : IsCallee (wordsTokens ["cligen_runtime", "ArgumentError", "Insufficient"]) :=
    isCallee_wordsTokens (by decide)
  have hError : IsExpression true error :=
    ((isCore_path hPath).isPlainOperand.append (isTrailer_method rfl false .nil)).isExpression
      (by simp)
  exact hReturn.imp fun _ ⟨joint, hts⟩ => hts ▸ isStatement_fail (.last hError) joint

/-- What a macro is given is not read. -/
theorem isStatement_print (ts : Tokens) (joint : Bool) :
    IsStatement [.word "print", .mark '!' false, .group .parenthesis ts, .mark ';' joint] := by
  have hCore : IsCore true [.word "print", .mark '!' false, .group .parenthesis ts] :=
    ⟨fun _ => rfl, fun _ _ _ _ _ => ⟨.expansion .parenthesis,
      ⟨ExpressionKind.noConfusion, ExpressionKind.noConfusion⟩, rfl⟩⟩
  exact isStatement_expression (by decide) (isLeading_of_operand
    (hCore.isPlainOperand.isOperand.imp fun _ => endsOperand_of_endsExpression) (fun _ => rfl)
    fun _ => rfl) (fun _ => ⟨rfl, rfl, rfl, rfl, rfl⟩) joint

/-- The usage text is printed through a format that is a literal. -/
theorem spells_printUsage :
    Spells φ .free .free IsStatement ("print!(\"\x7b\x7d\", USAGE);" : Doc String) := by
  have hText : "print!(\"\x7b\x7d\", USAGE);".toList =
      "print!(".toList ++ ((stringLiteral "\x7b\x7d").toList ++ ", USAGE);".toList) := by
    decide +kernel
  have hFormat : Reads φ .free .word _ (stringLiteral "\x7b\x7d").toList :=
    Lexes.of_cuts fun _ hRest => cuts_stringLiteral _ hRest
  have hFirst : Reads φ .free .free _ "print!(".toList := reads_phrase (by decide)
  have hLast : Reads φ .word .free _ ", USAGE);".toList := reads_phrase (by decide)
  have hReads := hFirst.append (hFormat.append hLast)
  rw [← hText] at hReads
  refine Lexes.of_text (by decide) (hReads.imp ?_)
  rintro ls ⟨_, _, rfl, ⟨joint, rfl⟩, _, _, rfl, rfl, joint', rfl⟩
  exact ⟨_, isStatement_print _ joint', fun _ _ => rfl⟩

/-- The help is all that was asked for. -/
theorem spells_success : Spells φ .free .free IsStatement ("return Ok(());" : Doc String) := by
  have hReturn : Spells φ .free .free (fun ts => ∃ joint, ts = [.word "return", .word "Ok",
      .group .parenthesis [.group .parenthesis []], .mark ';' joint])
      ("return Ok(());" : Doc String) :=
    .phrase (by decide) fun _ _ _ => rfl
  exact hReturn.imp fun _ ⟨joint, hts⟩ =>
    hts ▸ isStatement_return (by decide) (isFreeOperand_ok.isExpression true) joint

section

variable {name input target flags positionals : String} (hName : IsIdentifier name)

include hName

theorem spells_takeFirst (hInput : IsIdentifier input) :
    Spells φ .free .free IsStatement (Statement.takeFirst name input).doc := by
  let value : Tokens := [.word input, .mark '.' false, .word "first", .group .parenthesis []]
  have hValue : IsFreeOperand value :=
    (isFreeOperand_word hInput.not_reserved).append (isTrailer_method rfl false .nil)
  have hNames : ∀ w ∈ [name, input], IsName w := by simp [hName.isName, hInput.isName]
  have hHead := Spells.template (φ := φ) (b := .free) (a := .free) ["let Some(", ") = "]
    [name, input] ".first() else " (fun _ => .word "let" :: .word "Some" ::
      .group .parenthesis [.word name] :: .mark '=' false :: (value ++ [.word "else"]))
    (by decide) hNames rfl fun _ _ _ => rfl
  exact spells_letElse hName hValue rfl (hHead.imp fun _ ⟨_, hts⟩ => hts) spells_insufficient

theorem spells_readText : Spells φ .free .free IsStatement (Statement.readText name).doc := by
  have hNames : ∀ w ∈ [name, name], IsName w := by simp [hName.isName]
  refine (Spells.template (φ := φ) (b := .free) (a := .free) ["let ", ": &str = "]
    [name, name] ".as_ref();" (fun joints => [.word "let", .word name, .mark ':' false,
      .mark '&' false, .word "str", .mark '=' false, .word name, .mark '.' false, .word "as_ref",
      .group .parenthesis [], .mark ';' (joints 2)]) (by decide) hNames rfl fun _ _ _ => rfl).imp ?_
  rintro ts ⟨joints, rfl⟩
  have hType : IsType [.mark '&' false, .word "str"] :=
    isType_reference false none false (isType_word rfl)
  have hValue := (isFreeOperand_word hName.not_reserved).append
    (isTrailer_method (w := "as_ref") rfl false .nil)
  exact isStatement_let (isPattern_name hName.not_reserved) (.type hType) false
    (hValue.isExpression true) (joints 2)

/-- The error for a name that no command has. -/
theorem spells_noTargetDoc : Spells φ .free .free IsStatement (noTargetDoc name) := by
  have hText := spells_methodDoc (φ := φ) (spells_receiverDoc (spells_identifier hName)) "to_owned"
    ⟨by decide, rfl⟩ (List.forall_mem_nil _)
  have hValue : Spells φ .free .word (IsExpression true)
      (methodDoc (receiverDoc (Doc.name name)) "to_owned" []) := by
    refine hText.of_free.imp ?_
    rintro ts ⟨us, vs, rfl, hus, hvs⟩
    exact (hus.append hvs).isExpression true
  have hPath : Spells φ .free .word
      (· = wordsTokens ["cligen_runtime", "ArgumentError", "NoMatchingTarget"])
      (receiverDoc ("::cligen_runtime::ArgumentError::NoMatchingTarget" : Doc String)) :=
    spells_receiverDoc (.text (by decide) fun _ _ _ => rfl)
  have hError := spells_methodDoc (φ := φ)
    (spells_callDoc hPath (List.forall_mem_singleton.mpr hValue)).of_free "into" ⟨by decide, rfl⟩
    (List.forall_mem_nil _)
  refine spells_failDoc (hError.of_free.imp ?_)
  rintro ts ⟨_, vs, rfl, ⟨_, _, rfl, rfl, us, rfl, hus⟩, hvs⟩
  have hCallee : IsCallee (wordsTokens ["cligen_runtime", "ArgumentError", "NoMatchingTarget"]) :=
    isCallee_wordsTokens (by decide)
  exact ((hCallee.isFreeOperand_call hus).append hvs).isExpression true

theorem spells_findTarget (hTarget : IsIdentifier target) :
    Spells φ .free .free IsStatement (Statement.findTarget target name).doc := by
  let value : Tokens := [.word "lookup", .group .parenthesis [.word name]]
  have hValue : IsFreeOperand value :=
    (isCallee_word rfl).isFreeOperand_call (.last (isExpression_word hName.not_reserved))
  have hNames : ∀ w ∈ [target, name], IsName w := by simp [hName.isName, hTarget.isName]
  have hHead := Spells.template (φ := φ) (b := .free) (a := .free) ["let Some(", ") = lookup("]
    [target, name] ") else " (fun _ => .word "let" :: .word "Some" ::
      .group .parenthesis [.word target] :: .mark '=' false :: (value ++ [.word "else"]))
    (by decide) hNames rfl fun _ _ _ => rfl
  exact spells_letElse hTarget hValue rfl (hHead.imp fun _ ⟨_, hts⟩ => hts)
    (spells_noTargetDoc hName)

theorem spells_answerHelp : Spells φ .free .free IsStatement (Statement.answerHelp name).doc := by
  have hOpens := SpellsOpen.template (φ := φ) (b := .free) (δ := .parenthesis) ["if "] [name]
    ".eq_ignore_ascii_case(" [.word "if", .word name, .mark '.' false, .word "eq_ignore_ascii_case"]
    (by decide) (List.forall_mem_singleton.mpr hName.isName) rfl fun _ _ _ => rfl
  have hHead : Spells φ .free .word _ (Doc.join ["if ", Doc.name name, ".eq_ignore_ascii_case(",
      literalDoc Command.helpName, (") " : Doc String)]) :=
    (hOpens.append (spells_literalDoc Command.helpName)).close (fun _ => []) (by decide)
      fun _ _ _ _ => rfl
  have hBody : SpelledLines φ IsBlockBody ["print!(\"\x7b\x7d\", USAGE);", "return Ok(());"] := by
    refine (SpelledLines.cons spells_printUsage (.singleton spells_success)).imp ?_
    rintro ts ⟨us, vs, rfl, hus, hvs⟩
    exact (AreFurtherStatements.cons hus (.singleton hvs)).isBlockBody
  refine (Spells.braces hHead hBody).imp ?_
  rintro ts ⟨_, _, rfl, ⟨_, _, rfl, rfl, _, _, rfl, ⟨_, rfl, _, us, rfl, rfl, hus⟩, _, rfl⟩, vs,
    rfl, hvs⟩
  have hCondition := (isFreeOperand_word hName.not_reserved).append
    (isTrailer_method (w := "eq_ignore_ascii_case") rfl false (.last hus))
  exact isStatement_if (hCondition.isExpression false) hvs

theorem spells_cut (hPositionals : IsIdentifier positionals) (hInput : IsIdentifier input) :
    Spells φ .free .free IsStatement (Statement.cut name positionals input).doc := by
  have hNames : ∀ w ∈ [name, positionals, input], IsName w := by
    simp [hName.isName, hPositionals.isName, hInput.isName]
  let rest : Tokens := [.literal .number "1", .mark '.' true, .mark '.' false]
  refine (Spells.template (φ := φ) (b := .free) (a := .free)
    ["let (", ", ", ") = ::cligen_runtime::slice(&"] [name, positionals, input] "[1..])?;"
    (fun joints => .word "let" ::
      ([.group .parenthesis [.word name, .mark ',' false, .word positionals]] ++
        .mark '=' false :: ((wordsTokens ["cligen_runtime", "slice"] ++
          [ .group .parenthesis [.mark '&' (joints 2), .word input, .group .bracket rest],
            .mark '?' true ]) ++ [.mark ';' (joints 3)])))
    (by decide) hNames rfl fun _ _ _ => rfl).imp ?_
  rintro ts ⟨joints, rfl⟩
  have hPattern :
      IsPattern [.group .parenthesis [.word name, .mark ',' false, .word positionals]] :=
    isPattern_tuple (.cons false (isPattern_name hName.not_reserved)
      (.last (isPattern_name hPositionals.not_reserved)))
  have hPath : IsCallee (wordsTokens ["cligen_runtime", "slice"]) :=
    isCallee_wordsTokens (by decide)
  have hArgument := isExpression_reference hInput (joints 2)
    (isTrailer_index (isIndex_from "1" false))
  have hValue := (hPath.isFreeOperand_call (.last hArgument)).append (isTrailer_question true)
  have hStatement :=
    isStatement_let hPattern .none false (hValue.isExpression true) (joints 3)
  simpa using hStatement

end

/-- The arms of the commands; the induction is on them. -/
theorem spelledLines_arms {arms : List (String × List (ArmStatement String))}
    (h : ∀ arm ∈ arms, IsIdentifier arm.1 ∧
      SpelledLines φ (Given ψ AreFurtherStatements) (arm.2.flatMap ArmStatement.docs)) :
    SpelledLines φ (Given ψ (Repeated IsArm))
      (arms.map fun arm => blockArmDoc (variantDoc arm.1) (arm.2.flatMap ArmStatement.docs)) := by
  induction arms with
  | nil => exact .nil fun _ => .nil
  | cons arm arms ih =>
    obtain ⟨⟨hVariant, hBody⟩, hRest⟩ := List.forall_mem_cons.mp h
    have hArm := spells_blockArmDoc (spells_targetPattern hVariant)
      (hBody.imp fun _ hts hψ => (hts hψ).isBlockBody)
    refine (SpelledLines.cons hArm (ih hRest)).imp ?_
    rintro ts ⟨us, vs, rfl, hus, hvs⟩ hψ
    exact .cons (hus hψ) (hvs hψ)

theorem spells_choose {target : String} (hTarget : IsIdentifier target)
    {arms : List (String × List (ArmStatement String))}
    (h : ∀ arm ∈ arms, IsIdentifier arm.1 ∧
      SpelledLines φ (Given ψ AreFurtherStatements) (arm.2.flatMap ArmStatement.docs)) :
    Spells φ .free .free (Given ψ IsStatement) (Statement.choose target arms).doc := by
  have hHead : Spells φ .free .word _ (Doc.join ["match ", Doc.name target, (" " : Doc String)]) :=
    .template ["match "] [target] " " (fun _ => [.word "match", .word target]) (by decide)
      (List.forall_mem_singleton.mpr hTarget.isName) rfl fun _ _ _ => rfl
  refine (Spells.braces hHead (spelledLines_arms h)).imp ?_
  rintro ts ⟨_, _, rfl, ⟨_, rfl⟩, us, rfl, hus⟩ hψ
  exact isStatement_match (isExpression_word hTarget.not_reserved) (hus hψ)

/-- The statements of `start` are read, the calls on the condition that the paths can be called. -/
theorem spelledLines_statements {s : StartNames String} (hs : ∀ w ∈ s.toList, IsIdentifier w)
    {arms : List (Arm String)} (hArms : ∀ a ∈ arms, a.IsPrintable)
    (hCallees : ψ → ∀ a ∈ arms, a.path.isCallee = true) :
    SpelledLines φ (Given ψ AreFurtherStatements) ((s.statements arms).map Statement.doc) := by
  have hInput : IsIdentifier s.input := hs _ (by simp [StartNames.toList])
  have hFirst : IsIdentifier s.first := hs _ (by simp [StartNames.toList])
  have hTarget : IsIdentifier s.target := hs _ (by simp [StartNames.toList])
  have hFlags : IsIdentifier s.flags := hs _ (by simp [StartNames.toList])
  have hPositionals : IsIdentifier s.positionals := hs _ (by simp [StartNames.toList])
  refine spelledLines_statement (spells_takeFirst hFirst hInput).always <|
    spelledLines_statement (spells_readText hFirst).always <|
    spelledLines_statement (spells_answerHelp hFirst).always <|
    spelledLines_statement (spells_findTarget hFirst hTarget).always <|
    spelledLines_statement (spells_cut hFlags hPositionals hInput).always <|
    spelledLines_statement (spells_choose hTarget fun arm hArm => ?_) spelledLines_nil
  obtain ⟨a, ha, rfl⟩ := List.mem_map.mp hArm
  exact ⟨(hArms a ha).variant, spelledLines_arm hs (hArms a ha) fun hψ => hCallees hψ a ha⟩

end CommandDispatch.Dispatcher
