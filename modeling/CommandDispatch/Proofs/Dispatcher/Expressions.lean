import CommandDispatch.Dispatcher.Printer
import CommandDispatch.Proofs.Dispatcher.CalleeText

/-!
# The expressions of a dispatcher are read back

The documents of expressions and of arms, and the tokens that are read of them. What is written for
an arm depends on whether it fits on its line, and its tokens differ with it.

* `spells_methodDoc`, `spells_letDoc`, `spells_conditionDoc`: the tokens of parts of statements,
* `spells_valueDoc`: the value of a text is an operand,
* `spells_armDoc`, `spells_blockArmDoc`: arms with a value and with a block.
-/

namespace CommandDispatch.Dispatcher

open Arguments Layout Source Source.Parser Text

variable {φ ψ : Prop} {P Q : Tokens → Prop}

/-! ## Calls -/

theorem spells_methodDoc {receiver : Doc String} (hReceiver : Spells φ .free .word P receiver)
    (method : String) (hMethod : IsIdentifier method) {arguments : List (Doc String)}
    (h : ∀ d ∈ arguments, Spells φ .free .word (IsExpression true) d) :
    Spells φ .free .free (Then P IsTrailer) (methodDoc receiver method arguments) := by
  have hDot : Spells φ .word .free (fun ts => ∃ joint, ts = [.mark '.' joint])
      ("." : Doc String) :=
    .phrase (by decide) fun _ _ _ => rfl
  refine Spells.imp (.block (hReceiver.append ((Spells.space 0).append
    ((hDot.append (.word hMethod.isName)).append ((Spells.parentheses h).block.append .nil))))) ?_
  rintro ts ⟨us, _, rfl, hus, _, _, rfl, rfl, _, _, rfl, ⟨_, _, rfl, ⟨joint, rfl⟩, rfl⟩, _, _, rfl,
    ⟨vs, rfl, hvs⟩, rfl⟩
  exact ⟨us, _, rfl, hus, isTrailer_method hMethod.not_reserved joint hvs⟩

theorem spells_receiverDoc {a : Edge} {d : Doc String} (h : Spells φ .free a P d) :
    Spells φ .free a P (receiverDoc d) :=
  h.block

/-- A literal is an expression, and a value of an arm. -/
theorem isExpression_literal (kind : Source.Literal) (text : String) (b : Bool) :
    IsExpression b [.literal kind text] :=
  (isCore_literal kind text).isPlainOperand.isExpression (List.cons_ne_nil _ _)

theorem spells_literalDoc (s : String) :
    Spells φ .free .word (IsExpression true) (literalDoc s : Doc String) :=
  (Spells.stringLiteral s).imp fun _ hts => hts ▸ isExpression_literal _ _ true

theorem spells_identifier {w : String} (hw : IsIdentifier w) :
    Spells φ .free .word IsFreeOperand (Doc.name w) :=
  (Spells.name hw.isName).imp fun _ hts => hts ▸ isFreeOperand_word hw.not_reserved

/-- The tokens are a call of the function with this name. -/
def IsCallOf (name : String) (P : Tokens → Prop) (ts : Tokens) : Prop :=
  ∃ us, Separated P us ∧ ts = [.word name, .group .parenthesis us]

/-- A call of a function with one name. -/
theorem spells_namedCall {name : String} (hName : IsName name) {d : Doc String}
    (h : Spells φ .free .word P d) : Spells φ .free .free (IsCallOf name P) (callDoc name [d]) := by
  refine (spells_callDoc (.word hName) (List.forall_mem_singleton.mpr h)).imp ?_
  rintro ts ⟨_, _, rfl, rfl, us, rfl, hus⟩
  exact ⟨us, hus, rfl⟩

/-! ## Values -/

/-- The index of an element of a list. -/
theorem spells_index (n : Nat) :
    Spells φ .word .free (fun ts => IsTrailer ts ∧ ∃ us, ts = [.group .bracket us])
      (Doc.join ["[", countDoc n, "]"]) := by
  have hIndex : Spells φ .word .free
      (Grouped .bracket (· = [.literal .number (toString n ++ "usize")]))
      (Doc.join [("[" : Doc String), countDoc n, "]"]) :=
    .enclosed (by decide) (fun _ => rfl) (by decide) (fun _ => rfl) (.count n)
  refine hIndex.imp ?_
  rintro ts ⟨_, rfl, rfl⟩
  exact ⟨isTrailer_index (isExpression_literal _ _ true).isIndex, _, rfl⟩

section

variable {w : String} (hw : IsIdentifier w)

include hw

theorem spells_element (n : Nat) :
    Spells φ .free .free IsFreeOperand
      (Doc.join [receiverDoc (Doc.name w), Doc.join ["[", countDoc n, "]"]]) := by
  refine ((spells_receiverDoc (spells_identifier hw)).append ((spells_index n).append .nil)).imp ?_
  rintro ts ⟨us, _, rfl, hus, vs, _, rfl, ⟨hvs, -⟩, rfl⟩
  rw [List.append_nil]
  exact hus.append hvs

theorem isExpression_reference (joint : Bool) {d : Delimiter} {us : Tokens}
    (h : IsTrailer [.group d us]) :
    IsExpression true (.mark '&' joint :: [.word w, .group d us]) := by
  have hOperand := ((isFreeOperand_word hw.not_reserved).append h).isPlainOperand true
  refine isExpression_of_operand (List.cons_ne_nil _ _) ((hOperand.isOperand_marked
    (isOperandMark_reference joint) fun _ _ => ⟨?_, ?_⟩).imp fun _ => endsOperand_of_endsExpression)
  · exact wordAhead_eq_false hw.not_reserved (by decide) _
  · exact Bool.and_false _

theorem spells_elementReference (n : Nat) :
    Spells φ .free .free (IsExpression true)
      (Doc.join ["&", Doc.name w, Doc.join ["[", countDoc n, "]"]]) := by
  have hMark : Spells φ .free .free (fun ts => ∃ joint, ts = [.mark '&' joint])
      ("&" : Doc String) :=
    .phrase (by decide) fun _ _ _ => rfl
  refine (hMark.append ((Spells.name hw.isName).append ((spells_index n).append .nil))).imp ?_
  rintro ts ⟨_, _, rfl, ⟨joint, rfl⟩, _, _, rfl, rfl, _, _, rfl, ⟨hus, us, rfl⟩, rfl⟩
  exact isExpression_reference hw joint hus

end

/-- The value of a text: converted, or a copy. -/
theorem spells_valueDoc {argument receiver : Doc String} (kind : TextKind) (label : String)
    (hArgument : Spells φ .free .word (IsExpression true) argument)
    (hReceiver : Spells φ .free .word IsFreeOperand receiver) :
    Spells φ .free .free IsFreeOperand (valueDoc kind argument receiver label) := by
  have hArguments : ∀ d ∈ [argument, literalDoc label],
      Spells φ .free .word (IsExpression true) d :=
    List.forall_mem_cons.mpr ⟨hArgument, List.forall_mem_singleton.mpr (spells_literalDoc label)⟩
  have hMark : Spells φ .free .free (fun ts => ∃ joint, ts = [.mark '?' joint])
      ("?" : Doc String) :=
    .phrase (by decide) fun _ _ _ => rfl
  have hCall (function name : String) (hName : reservedWords.contains name = false)
      (hFunction : Spells φ .free .word (· = wordsTokens ["cligen_runtime", name])
        (function : Doc String)) :
      Spells φ .free .free IsFreeOperand
        (Doc.join [callDoc function [argument, literalDoc label], ("?" : Doc String)]) := by
    refine ((spells_callDoc hFunction hArguments).append (hMark.append .nil)).imp ?_
    rintro ts ⟨_, _, rfl, ⟨_, _, rfl, rfl, us, rfl, hus⟩, _, _, rfl, ⟨joint, rfl⟩, rfl⟩
    have hPath : IsCallee (wordsTokens ["cligen_runtime", name]) :=
      isCallee_wordsTokens (List.forall_mem_cons.mpr ⟨rfl, List.forall_mem_singleton.mpr hName⟩)
    exact (hPath.isFreeOperand_call hus).append (isTrailer_question joint)
  unfold valueDoc
  cases kind with
  | int => exact hCall _ "parse_int" rfl (.text (by decide) fun _ _ _ => rfl)
  | uint => exact hCall _ "parse_uint" rfl (.text (by decide) fun _ _ _ => rfl)
  | float32 => exact hCall _ "parse_f32" rfl (.text (by decide) fun _ _ _ => rfl)
  | bool => exact hCall _ "parse_bool" rfl (.text (by decide) fun _ _ _ => rfl)
  | string =>
    refine (spells_methodDoc hReceiver "clone" ⟨by decide, rfl⟩
      (List.forall_mem_nil _)).imp ?_
    rintro ts ⟨us, vs, rfl, hus, hvs⟩
    exact hus.append hvs

/-! ## Parts of statements -/

theorem spells_letDoc {pattern value : Doc String} (hPattern : Spells φ .free .word P pattern)
    (hValue : Spells φ .free .word Q value) :
    Spells φ .free .free (fun ts => ∃ ps us joint, P ps ∧ Q us ∧
      ts = .word "let" :: (ps ++ .mark '=' false :: (us ++ [.mark ';' joint])))
      (letDoc pattern value) := by
  have hLet : Spells φ .free .free (· = [.word "let"]) ("let " : Doc String) :=
    .text (by decide) fun _ _ _ => rfl
  have hEquals : Spells φ .word .free (· = [.mark '=' false]) (" = " : Doc String) :=
    .text (by decide) fun _ _ _ => rfl
  have hEnd : Spells φ .word .free (fun ts => ∃ joint, ts = [.mark ';' joint])
      (";" : Doc String) :=
    .phrase (by decide) fun _ _ _ => rfl
  refine Spells.imp (.block (hLet.append (hPattern.append (hEquals.append
    (Spells.joint.append (hValue.append (hEnd.append .nil))))))) ?_
  rintro ts ⟨_, _, rfl, rfl, ps, _, rfl, hps, _, _, rfl, rfl, _, _, rfl, rfl, us, _, rfl, hus, _, _,
    rfl, ⟨joint, rfl⟩, rfl⟩
  exact ⟨ps, us, joint, hps, hus, rfl⟩

theorem spells_conditionDoc {keyword : String} {condition : Doc String} (mayBreak : Bool)
    (hKeyword : Spells φ .free .free P (keyword : Doc String))
    (hCondition : Spells φ .free .free Q condition) :
    Spells φ .free .free (Then P Q) (conditionDoc keyword condition mayBreak) := by
  have hSpace : Spells φ .free .free (· = [])
      (if mayBreak then Doc.space 1 else (" " : Doc String)) := by
    cases mayBreak with
    | true => exact Spells.space 1
    | false => exact .text (by decide) fun _ _ _ => rfl
  refine (hKeyword.append ((hCondition.append (hSpace.append .nil)).block.block.append .nil)).imp ?_
  rintro ts ⟨us, _, rfl, hus, _, _, rfl, ⟨vs, _, rfl, hvs, _, _, rfl, rfl, rfl⟩, rfl⟩
  exact ⟨us, vs, by simp, hus, hvs⟩

/-! ## Commands by name -/

/-- A command by name. -/
def targetTokens (joint : Bool) (v : String) : Tokens :=
  [.word "Target", .mark ':' true, .mark ':' joint, .word v]

section

variable {v : String} (hv : IsIdentifier v)

include hv

theorem isCallee_targetTokens (joint : Bool) : IsCallee (targetTokens joint v) :=
  isCallee_segments rfl (.singleton (isFurtherSegment_word joint hv.not_reserved))

theorem isArmPattern_targetTokens (joint : Bool) : IsArmPattern (targetTokens joint v) :=
  ⟨⟨_, _, rfl⟩, isPattern_path rfl (isCallee_targetTokens hv joint).isPath fun _ => rfl⟩

theorem spells_variantDoc :
    Spells φ .free .word (fun ts => ∃ joint, ts = targetTokens joint v) (variantDoc v) := by
  have hTarget : Spells φ .free .free
      (fun ts => ∃ joint, ts = [.word "Target", .mark ':' true, .mark ':' joint])
      ("Target::" : Doc String) :=
    .phrase (by decide) fun _ _ _ => rfl
  refine (hTarget.append ((Spells.name hv.isName).append .nil)).imp ?_
  rintro ts ⟨_, _, rfl, ⟨joint, rfl⟩, _, _, rfl, rfl, rfl⟩
  exact ⟨joint, rfl⟩

theorem spells_targetPattern : Spells φ .free .word IsArmPattern (variantDoc v) :=
  (spells_variantDoc hv).imp fun _ ⟨joint, hts⟩ => hts ▸ isArmPattern_targetTokens hv joint

end

/-! ## Arms -/

/-- The gap before a value that may go into braces. -/
def openingGap : Gap :=
  { before := "\x7b" }

/-- The gap after such a value. -/
def closingGap : Gap :=
  { offset := -step, after := "\x7d", unbroken := "," }

/-- The tokens are a value with a comma after it, or in braces. -/
def IsArmEnd (ts : Tokens) : Prop :=
  ∃ us, IsArmValue us ∧ ((∃ joint, ts = us ++ [.mark ',' joint]) ∨ ts = [.group .brace us])

section

variable {value : Doc String} (hValue : Spells φ .free .word IsArmValue value)

include hValue

/-- A value on the line of its pattern has a comma after it. -/
theorem writes_value_of_fits :
    Writes (fun page => page.frames.head? = some .fits)
      ([.gap openingGap] ++ (value ++ [.gap closingGap]))
      (Reads φ .free .free (Yields IsArmEnd)) := by
  have hKeep : ∀ page page' : Page, ∀ out, page.frames.head? = some .fits →
      page.Extends page' out → page'.frames.head? = some .fits :=
    fun page page' out hPage hExtends => hExtends.frames_eq ▸ hPage
  refine ((Writes.gap_of_fits openingGap).append
    ((Writes.of_imp hValue fun _ _ => trivial).append (Writes.gap_of_fits closingGap) hKeep)
    hKeep).imp ?_
  rintro out ⟨r, t, rfl, rfl, s, u, rfl, hs, rfl⟩
  have hComma : Reads φ .word .free (Yields fun ts => ∃ joint, ts = [.mark ',' joint]) [','] :=
    reads_phrase_yields (s := ",") (by decide) fun _ _ _ => rfl
  refine (hs.append hComma).imp ?_
  rintro ls ⟨ms, ns, rfl, hms, hns⟩
  refine (hms.append hns).imp ?_
  rintro ts ⟨us, _, rfl, hus, joint, rfl⟩
  exact ⟨us, hus, .inl ⟨joint, rfl⟩⟩

/-- A value on lines of its own is in braces. -/
theorem writes_value_of_broken :
    Writes (fun page => ∃ i, page.frames.head? = some (.broken i .consistent))
      ([.gap openingGap] ++ (value ++ [.gap closingGap]))
      (Reads φ .free .free (Yields IsArmEnd)) := by
  have hKeep : ∀ page page' : Page, ∀ out,
      (∃ i, page.frames.head? = some (.broken i .consistent)) → page.Extends page' out →
        ∃ i, page'.frames.head? = some (.broken i .consistent) :=
    fun page page' out hPage hExtends => hExtends.frames_eq ▸ hPage
  refine ((Writes.gap_of_broken (g := openingGap) rfl).append
    ((Writes.of_imp hValue fun _ _ => trivial).append (Writes.gap_of_broken rfl) hKeep)
    hKeep).imp ?_
  rintro out ⟨r, t, rfl, ⟨s₁, t₁, rfl, hs₁, ht₁⟩, s, u, rfl, hs, s₂, t₂, rfl, hs₂, ht₂⟩
  have hOpening : Reads φ .free .free _ s₁ :=
    Reads.of_spaced (by decide) (reads_phrase (s := "\x7b") (by decide)) hs₁
  have hClosing : Reads φ .free .free _ t₂ :=
    Reads.of_spaced (by decide) (reads_phrase (s := "\x7d") (by decide)) ht₂
  obtain rfl : t₁ = [] := ht₁
  obtain rfl : s₂ = [] := hs₂
  have hFirst := hOpening.append (Reads.newline (b := .free) (a := .free))
  have hLast := (Reads.newline (b := .word) (a := .free)).append hClosing
  refine (hFirst.append (hs.append hLast)).imp ?_
  rintro ls ⟨_, _, rfl, ⟨_, _, rfl, ⟨joint, rfl⟩, rfl⟩, ms, _, rfl, hms, _, _, rfl, rfl, joint',
    rfl⟩
  refine (hms.group .brace).imp ?_
  rintro ts ⟨us, rfl, hus⟩
  exact ⟨us, hus, .inr rfl⟩

end

/-- What stands between a pattern and its value. -/
theorem spells_arrow : Spells φ .word .free (· = arrowTokens false) (" => " : Doc String) :=
  .text (by decide) fun _ _ _ => rfl

/-- An arm with a value. -/
theorem spells_armDoc {pattern value : Doc String}
    (hPattern : Spells φ .free .word IsArmPattern pattern)
    (hValue : Spells φ .free .word IsArmValue value) :
    Spells φ .free .free IsArm (armDoc pattern value) := by
  have hEnd : Spells φ .free .free IsArmEnd (Doc.block step .consistent
      ([.gap openingGap] ++ (value ++ [.gap closingGap]))) :=
    Writes.block ((writes_value_of_fits hValue).or (writes_value_of_broken hValue))
  refine Spells.imp (.block (hPattern.append (spells_arrow.append
    (Spells.joint.append (hEnd.append .nil))))) ?_
  rintro ts ⟨ps, _, rfl, hps, _, _, rfl, rfl, _, _, rfl, rfl, us, _, rfl, hus, rfl⟩
  rw [List.nil_append, List.append_nil]
  obtain ⟨vs, hvs, ⟨joint, rfl⟩ | rfl⟩ := hus
  · exact isArm_value hps false joint hvs.isPart
  · exact isArm_block hps false hvs.isBlockBody

/-- An arm with a block. -/
theorem spells_blockArmDoc {pattern : Doc String} {body : List (Doc String)}
    (hPattern : Spells φ .free .word IsArmPattern pattern)
    (hBody : SpelledLines φ (Given ψ IsBlockBody) body) :
    Spells φ .free .free (Given ψ IsArm) (blockArmDoc pattern body) := by
  have hHead : Spells φ .free .word _ (Doc.join [pattern, (" => " : Doc String)]) :=
    hPattern.append (spells_arrow.append .nil).of_free
  refine Spells.imp (.block (.braces hHead hBody)) ?_
  rintro ts ⟨_, _, rfl, ⟨ps, _, rfl, hps, _, _, rfl, rfl, rfl⟩, us, rfl, hus⟩ hψ
  rw [List.append_nil, List.append_assoc]
  exact isArm_block hps false (hus hψ)

end CommandDispatch.Dispatcher
