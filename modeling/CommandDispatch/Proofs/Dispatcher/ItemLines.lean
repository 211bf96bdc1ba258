import CommandDispatch.Proofs.Dispatcher.Documentation
import CommandDispatch.Proofs.Dispatcher.Items
import CommandDispatch.Proofs.Dispatcher.Statements

/-!
# The items of a dispatcher are read back

Items stand on lines of their own, with their comments before them. Each is read as an item, the
function `start` on the condition that the paths of the commands can be called.

* `Row.IsPrintable`: what must be known of the names and the comments of a row,
* `onLines_targetItems`, `onLines_tableItems`, `onLines_lookupItems`, `onLine_usage`,
  `onLines_startItems`: the items are read back.
-/

namespace CommandDispatch.Dispatcher

open Layout Source Source.Parser Text

variable {φ ψ : Prop} {P : Tokens → Prop}

/-! ## Comments and attributes -/

/-- A comment of one line, known beforehand. -/
def isComment (s : String) : Bool :=
  match s.toList with
  | '/' :: '/' :: '/' :: text =>
    text.head? != some '/' && !text.contains '\n' && !text.contains '\r'
  | _ => false

theorem onLine_comment {s : String} (h : isComment s = true) :
    OnLine φ (IsDocumentation false) s := by
  unfold isComment at h
  split at h
  · rename_i text hList
    simp only [Bool.and_eq_true, bne_iff_ne, Bool.not_eq_true'] at h
    obtain ⟨⟨hSlash, hLine⟩, hReturn⟩ := h
    have hNoLine : '\n' ∉ text := by simpa using hLine
    have hNoReturn : '\r' ∉ text := by simpa using hReturn
    have hReads : Reads φ .free .line _ _ :=
      reads_lineComment hSlash hNoLine (getLast?_ne_of_notMem hNoReturn) fun _ =>
        noBareReturn_of_notMem hNoReturn
    rw [← hList] at hReads
    refine OnLine.imp (.of_spells (Lexes.of_text (by decide) hReads)) fun ts hts => ⟨text, hts⟩
  · cases h

theorem onLine_derive :
    OnLine φ AreAttributes ("#[derive(Clone, Copy, Debug, PartialEq, Eq, Hash)]" : Doc String) := by
  refine .of_spells (Lexes.of_free (Lexes.of_text (by decide) ((reads_phrase (by decide)).imp ?_)))
  rintro ls ⟨joint, rfl⟩
  exact ⟨_, areAttributes_cons false (isAttributeText_derive _) .nil, fun _ _ => rfl⟩

/-! ## Items on lines -/

theorem onLines_item {d : Doc String} (hd : OnLine φ IsItem d) {ds : List (Doc String)}
    (hds : OnLines φ (Given ψ AreItems) ds) : OnLines φ (Given ψ AreItems) (d :: ds) := by
  refine OnLines.imp (.cons hd hds) ?_
  rintro ts ⟨us, vs, rfl, hus, hvs⟩ hψ
  exact .cons hus (hvs hψ)

/-- An item after the comment that documents it. -/
theorem onLines_documented {s : String} (hs : isComment s = true) {d : Doc String}
    (hd : OnLine φ P d)
    (hItem : ∀ text ts, P ts → ψ → IsItem (docAttribute false text ++ ts)) {ds : List (Doc String)}
    (hds : OnLines φ (Given ψ AreItems) ds) :
    OnLines φ (Given ψ AreItems) ([.text s] :: d :: ds) := by
  refine OnLines.imp (.cons (onLine_comment hs) (.cons hd hds)) ?_
  rintro ts ⟨_, _, rfl, ⟨text, rfl⟩, us, vs, rfl, hus, hvs⟩ hψ
  rw [← List.append_assoc]
  exact .cons (hItem text us hus hψ) (hvs hψ)

/-- The lines of a body that are read wherever they stand. -/
theorem onLines_of_spelledLines {ds : List (Doc String)} (h : SpelledLines φ P ds) :
    OnLines φ P ds where
  of_eq_nil := h.of_eq_nil
  writes hNe := Writes.of_imp (h.spells hNe) fun _ _ => trivial

/-! ## The type of the commands -/

/-- The name and the texts of a row can be read back. -/
structure Row.IsPrintable (φ : Prop) (r : Row String) : Prop where
  isIdentifier : IsIdentifier r.variant
  not_hasBareReturn : ¬ φ → ¬ HasBareReturn (" `" ++ r.exposed ++ "` calls `" ++ r.target ++ "`.")

theorem onLine_rowDocumentation {r : Row String} (hr : r.IsPrintable φ) :
    OnLine φ AreAttributes (rowDocumentation r : Doc String) := by
  refine .of_spells (Lexes.of_text (by decide) (reads_documentation ?_ ?_ hr.not_hasBareReturn))
  · simp only [String.toList_append, List.append_assoc]
    exact ⟨_, rfl⟩
  · rw [String.toList_append, List.getLast?_append]
    rfl

theorem onLine_variant {v : String} (hv : IsIdentifier v) :
    OnLine φ (fun ts => ∃ joint, ts = [.word v, .mark ',' joint])
      (Doc.join [Doc.name v, ("," : Doc String)]) := by
  have hComma : Spells φ .word .free (fun ts => ∃ joint, ts = [.mark ',' joint])
      ("," : Doc String) :=
    .phrase (by decide) fun _ _ _ => rfl
  refine .of_spells (Spells.of_free (((Spells.name hv.isName).append (hComma.append .nil)).imp ?_))
  rintro ts ⟨_, _, rfl, rfl, _, _, rfl, ⟨joint, rfl⟩, rfl⟩
  exact ⟨joint, rfl⟩

theorem separated_cons {r : Row String} (hr : r.IsPrintable φ) {attributes ts : Tokens}
    (hAttributes : AreAttributes attributes) (joint : Bool) (hts : Separated IsVariant ts) :
    Separated IsVariant (attributes ++ ([.word r.variant, .mark ',' joint] ++ ts)) := by
  have hFirst : IsVariant (attributes ++ [.word r.variant]) :=
    ⟨attributes, r.variant, hAttributes, hr.isIdentifier.not_reserved, rfl⟩
  have hAll := Separated.cons joint hFirst hts
  rwa [List.append_assoc] at hAll

/-- The induction is on the rows, each of which has two lines. -/
theorem onLines_variants {rows : List (Row String)} (hRows : ∀ r ∈ rows, r.IsPrintable φ) :
    OnLines φ (Separated IsVariant)
      (rows.flatMap fun r =>
        [(rowDocumentation r : Doc String), Doc.join [Doc.name r.variant, ","]]) := by
  induction rows with
  | nil => exact .nil .nil
  | cons r rows ih =>
    obtain ⟨hr, hRest⟩ := List.forall_mem_cons.mp hRows
    refine OnLines.imp (.cons (onLine_rowDocumentation hr)
      (.cons (onLine_variant hr.isIdentifier) (ih hRest))) ?_
    rintro ts ⟨attributes, _, rfl, hAttributes, _, us, rfl, ⟨joint, rfl⟩, hus⟩
    exact separated_cons hr hAttributes joint hus

/-! ## The texts of the commands -/

theorem spells_methodHead {name : String} (hName : IsName name) :
    Spells φ .free .word (· = methodTokens name)
      ("pub const fn " ++ name ++ "(self) -> &'static str " : Doc String) := by
  have hFirst : Spells φ .free .free (· = [.word "pub", .word "const", .word "fn"])
      ("pub const fn " : Doc String) :=
    .text (by decide) fun _ _ _ => rfl
  have hLast : Spells φ .word .word (· = (methodTokens name).drop 4)
      ("(self) -> &'static str " : Doc String) :=
    .text (by decide) fun _ _ _ => rfl
  refine ((hFirst.append (.word hName)).append hLast).imp ?_
  rintro ts ⟨_, _, rfl, ⟨_, _, rfl, rfl, rfl⟩, rfl⟩
  rfl

/-- The arms of a function from commands to texts. -/
theorem spelledLines_textArms {rows : List (Row String)} (hRows : ∀ r ∈ rows, r.IsPrintable φ)
    (text : Row String → String) :
    SpelledLines φ (Repeated IsArm)
      (rows.map fun r => armDoc (variantDoc r.variant) (literalDoc (text r))) := by
  induction rows with
  | nil => exact .nil .nil
  | cons r rows ih =>
    obtain ⟨hr, hRest⟩ := List.forall_mem_cons.mp hRows
    have hText : Spells φ .free .word IsArmValue (literalDoc (text r)) := by
      refine (Spells.stringLiteral (text r)).imp ?_
      rintro ts rfl
      exact IsFreeOperand.isArmValue
        ⟨List.cons_ne_nil _ _, fun _ => (isCore_literal _ _).isPlainOperand⟩ (fun _ => ⟨rfl, rfl⟩)
        ⟨rfl, rfl, rfl, rfl, rfl⟩
    have hArm := spells_armDoc (spells_targetPattern hr.isIdentifier) hText
    refine (SpelledLines.cons hArm (ih hRest)).imp ?_
    rintro ts ⟨us, vs, rfl, hus, hvs⟩
    exact .cons hus hvs

theorem isCallee_self : IsCallee [.word "self"] :=
  ⟨⟨[], [.word "self"], [], rfl, .inl rfl, isSegment_of_mem (by decide), .nil⟩, by simp⟩

/-- Methods, the first of which has no attribute that is taken for one of what encloses them. -/
structure AreMethods (ts : Tokens) : Prop where
  isMethod : Repeated IsMethod ts
  marksAhead_eq : marksAhead "!" (ts.drop 1) = false

theorem onLines_textMethod {documentation : String} (hComment : isComment documentation = true)
    {name : String} (hName : IsIdentifier name) (text : Row String → String)
    {rows : List (Row String)} (hRows : ∀ r ∈ rows, r.IsPrintable φ) {ds : List (Doc String)}
    (hds : OnLines φ AreMethods ds) :
    OnLines φ AreMethods (textMethod documentation name text rows ++ ds) := by
  have hMatch : Spells φ .free .word (· = [.word "match", .word "self"])
      ("match self " : Doc String) :=
    .text (by decide) fun _ _ _ => rfl
  have hChoice : Spells φ .free .free IsStatement (Doc.braces "match self "
      (rows.map fun r => armDoc (variantDoc r.variant) (literalDoc (text r)))) := by
    refine (Spells.braces hMatch (spelledLines_textArms hRows text)).imp ?_
    rintro ts ⟨_, _, rfl, rfl, us, rfl, hus⟩
    exact isStatement_match
      ((isCore_path isCallee_self).isPlainOperand.isExpression (List.cons_ne_nil _ _)) hus
  have hBraces := OnLine.braces (spells_methodHead hName.isName)
    (onLines_of_spelledLines (spelledLines_singleton hChoice))
  refine OnLines.imp (.cons (onLine_comment hComment) (.cons hBraces hds)) ?_
  rintro ts ⟨_, _, rfl, ⟨comment, rfl⟩, _, vs, rfl, ⟨_, _, rfl, rfl, body, rfl, hBody⟩, hvs⟩
  have hMethod := isMethod_text hName.not_reserved (areAttributes_docAttribute comment) hBody
  have hAll := Repeated.cons hMethod hvs.isMethod
  rw [List.append_assoc] at hAll
  exact ⟨hAll, rfl⟩

/-- The first item is documented, so that no attribute is taken for one of the module. -/
theorem onLines_targetItems {rows : List (Row String)} (hRows : ∀ r ∈ rows, r.IsPrintable φ)
    {ds : List (Doc String)} (hds : OnLines φ (Given ψ AreItems) ds) :
    OnLines φ (Given ψ IsContent) (targetItems rows ++ ds) := by
  have hEnum : Spells φ .free .word (· = enumTokens) ("pub enum Target " : Doc String) :=
    .text (by decide) fun _ _ _ => rfl
  have hImpl : Spells φ .free .word (· = implTokens) ("impl Target " : Doc String) :=
    .text (by decide) fun _ _ _ => rfl
  have hNameDoc : isComment "/// Name users type." = true := by decide
  have hDescriptionDoc : isComment "/// One-line summary shown in `USAGE`." = true := by decide
  have hName : IsIdentifier "name" := ⟨by decide, rfl⟩
  have hDescription : IsIdentifier "description" := ⟨by decide, rfl⟩
  have hMethods := onLines_textMethod hNameDoc hName (·.exposed) hRows <|
    onLines_textMethod hDescriptionDoc hDescription (·.description) hRows <|
    OnLines.nil ⟨.nil, rfl⟩
  refine OnLines.imp (.cons (onLine_comment (by decide)) (.cons onLine_derive
    (.cons (.braces hEnum (onLines_variants hRows)) (.cons (.braces hImpl hMethods) hds)))) ?_
  rintro ts ⟨_, _, rfl, ⟨text, rfl⟩, attributes, _, rfl, hAttributes, _, _, rfl,
    ⟨_, _, rfl, rfl, variants, rfl, hVariants⟩, _, items, rfl, ⟨_, _, rfl, rfl, methods, rfl,
      hMethods⟩, hItems⟩ hψ
  have hBoth : AreAttributes (docAttribute false text ++ attributes) :=
    areAttributes_cons false (isAttributeText_doc false _ _) hAttributes
  have hAll := Repeated.cons (isItem_enum hBoth hVariants)
    (.cons (isItem_impl hMethods.isMethod hMethods.marksAhead_eq) (hItems hψ))
  rw [List.append_assoc, List.append_assoc] at hAll
  exact ⟨hAll, rfl⟩

/-! ## The table of the commands -/

theorem spells_row {r : Row String} (hr : r.IsPrintable φ) :
    Spells φ .free .word (IsExpression true)
      (Doc.delimited "(" ")" [literalDoc r.key, variantDoc r.variant]) := by
  have hVariant : Spells φ .free .word (IsExpression true) (variantDoc r.variant) := by
    refine (spells_variantDoc hr.isIdentifier).imp ?_
    rintro ts ⟨joint, rfl⟩
    exact (isCore_path (isCallee_targetTokens hr.isIdentifier joint)).isPlainOperand.isExpression
      (List.cons_ne_nil _ _)
  have hRow : Spells φ .word .free (Grouped .parenthesis (Separated (IsExpression true)))
      (Doc.delimited "(" ")" [literalDoc r.key, variantDoc r.variant]) :=
    .parentheses (List.forall_mem_cons.mpr
      ⟨spells_literalDoc r.key, List.forall_mem_singleton.mpr hVariant⟩)
  refine hRow.of_free.free_of.imp ?_
  rintro ts ⟨us, rfl, hus⟩
  exact (isCore_parenthesized hus).isPlainOperand.isExpression (List.cons_ne_nil _ _)

theorem onLines_tableItems {rows : List (Row String)} (hRows : ∀ r ∈ rows, r.IsPrintable φ)
    {ds : List (Doc String)} (hds : OnLines φ (Given ψ AreItems) ds) :
    OnLines φ (Given ψ AreItems) (tableItems rows ++ ds) := by
  have hHead : Spells φ .free .free (· = tableTokens ++ [.mark '=' false])
      ("pub static COMMANDS: &[(&str, Target)] = " : Doc String) :=
    .text (by decide) fun _ _ _ => rfl
  have hReference : Spells φ .free .free (fun ts => ∃ joint, ts = [.mark '&' joint])
      ("&" : Doc String) :=
    .phrase (by decide) fun _ _ _ => rfl
  have hEnd : Spells φ .free .free (fun ts => ∃ joint, ts = [.mark ';' joint]) (";" : Doc String) :=
    .phrase (by decide) fun _ _ _ => rfl
  have hRowDocs : ∀ d ∈ rows.map fun r =>
      Doc.delimited "(" ")" [literalDoc r.key, variantDoc r.variant],
      Spells φ .free .word (IsExpression true) d := by
    intro d hd
    obtain ⟨r, hr, rfl⟩ := List.mem_map.mp hd
    exact spells_row (hRows r hr)
  have hTable : Spells φ .free .free (Grouped .bracket (Separated (IsExpression true)))
      (Doc.delimited "[" "]" _) :=
    .delimited (by decide) (fun _ => rfl) (by decide) (fun _ => rfl) (by decide) hRowDocs
  have hInside := hHead.append (Spells.joint.append
    (hReference.append (hTable.append (hEnd.append .nil))))
  refine onLines_documented (by decide) (.of_spells (Spells.block hInside).of_free) ?_ hds
  rintro text ts ⟨_, _, rfl, rfl, _, _, rfl, rfl, _, _, rfl, ⟨joint, rfl⟩, _, _, rfl,
    ⟨us, rfl, hus⟩, _, _, rfl, ⟨joint', rfl⟩, rfl⟩ -
  exact isItem_table (areAttributes_docAttribute text) joint joint' hus

/-! ## The search of a command -/

/-- What is searched for in the table is the value of the function. -/
theorem spells_tableTail {search target : Doc String}
    (hSearch : Spells φ .word .free
      (fun ts => IsTrailer ts ∧ ∃ us, ts = .mark '.' false :: us) search)
    (hTarget : Spells φ .free .free IsTrailer target) :
    Spells φ .free .free AreFurtherStatements (Doc.join
      ["COMMANDS", Doc.newline 0, search, Doc.newline 0, ".ok()", Doc.newline 0, target]) := by
  have hTable : Spells φ .free .word (· = [.word "COMMANDS"]) ("COMMANDS" : Doc String) :=
    .text (by decide) fun _ _ _ => rfl
  have hOk : Spells φ .free .free
      (· = [.mark '.' false, .word "ok", .group .parenthesis []]) (".ok()" : Doc String) :=
    .text (by decide) fun _ _ _ => rfl
  refine (hTable.append ((Spells.newline 0).append (hSearch.append ((Spells.newline 0).append
    (hOk.append ((Spells.newline 0).append (hTarget.append .nil))))))).imp ?_
  rintro ts ⟨_, _, rfl, rfl, _, _, rfl, rfl, _, _, rfl, ⟨hus, us, rfl⟩, _, _, rfl, rfl, _, _, rfl,
    rfl, _, _, rfl, rfl, vs, _, rfl, hvs, rfl⟩
  have hOperand := (((isFreeOperand_word (w := "COMMANDS") rfl).append hus).append
    (isTrailer_method (w := "ok") rfl false .nil)).append hvs
  have hValue := hOperand.isArmValue (fun _ => ⟨rfl, rfl⟩) ⟨rfl, rfl, rfl, rfl, rfl⟩
  have hLast : AreFurtherStatements _ :=
    ⟨.tail (isTail_expression hOperand.ne_nil hValue.isPart ⟨rfl, rfl, rfl, rfl, rfl⟩),
      .inr ⟨_, _, rfl, by decide⟩⟩
  simpa using hLast

section

variable {l : LookupNames String} (hl : ∀ w ∈ l.toList, IsIdentifier w)

include hl

theorem spells_keyStatement :
    Spells φ .free .free IsStatement
      (Doc.join ["let ", Doc.name l.key, " = ", Doc.name l.name, ".to_lowercase();"]) := by
  have hKey : IsIdentifier l.key := hl _ (by simp [LookupNames.toList])
  have hName : IsIdentifier l.name := hl _ (by simp [LookupNames.toList])
  have hNames : ∀ w ∈ [l.key, l.name], IsName w := by simp [hKey.isName, hName.isName]
  refine (Spells.template (φ := φ) (b := .free) (a := .free) ["let ", " = "] [l.key, l.name]
    ".to_lowercase();" (fun joints => [.word "let", .word l.key, .mark '=' false, .word l.name,
      .mark '.' false, .word "to_lowercase", .group .parenthesis [], .mark ';' (joints 2)])
    (by decide) hNames rfl fun _ _ _ => rfl).imp ?_
  rintro ts ⟨joints, rfl⟩
  have hValue := (isFreeOperand_word hName.not_reserved).append
    (isTrailer_method (w := "to_lowercase") rfl false .nil)
  exact isStatement_let (isPattern_name hKey.not_reserved) .none false (hValue.isExpression true)
    (joints 2)

/-- The table is searched by key. -/
theorem spells_search :
    Spells φ .word .free (fun ts => IsTrailer ts ∧ ∃ us, ts = .mark '.' false :: us) (Doc.join
      [ ".binary_search_by(|(", Doc.name l.row, ", _)| (*", Doc.name l.row, ").cmp(",
        Doc.name l.key, ".as_str()))" ]) := by
  have hRow : IsIdentifier l.row := hl _ (by simp [LookupNames.toList])
  have hKey : IsIdentifier l.key := hl _ (by simp [LookupNames.toList])
  have hNames : ∀ w ∈ [l.row, l.row, l.key], IsName w := by simp [hRow.isName, hKey.isName]
  refine (Spells.template (φ := φ) (b := .word) (a := .free)
    [".binary_search_by(|(", ", _)| (*", ").cmp("] [l.row, l.row, l.key] ".as_str()))"
    (fun joints => [.mark '.' false, .word "binary_search_by", .group .parenthesis
      (.mark '|' false :: ([.group .parenthesis [.word l.row, .mark ',' false, .word "_"]] ++
        .mark '|' false :: [.group .parenthesis [.mark '*' (joints 1), .word l.row],
          .mark '.' false, .word "cmp", .group .parenthesis
            [.word l.key, .mark '.' false, .word "as_str", .group .parenthesis []]]))])
    (by decide) hNames rfl fun _ _ _ => rfl).imp ?_
  rintro ts ⟨joints, rfl⟩
  have hPattern : IsPattern [.group .parenthesis [.word l.row, .mark ',' false, .word "_"]] :=
    isPattern_tuple (.cons false (isPattern_name hRow.not_reserved) (.last isPattern_hole))
  have hKeyText := (isFreeOperand_word hKey.not_reserved).append
    (isTrailer_method (w := "as_str") rfl false .nil)
  have hRowText := isExpression_of_operand (List.cons_ne_nil _ _)
    (((isFreeOperand_word hRow.not_reserved).isPlainOperand true |>.isOperand_marked
      (isOperandMark_dereference (joints 1)) fun _ hRest =>
        isUnmarked_word hRow.not_reserved hRest).imp fun _ => endsOperand_of_endsExpression)
  have hCompare := (isCore_parenthesized (b := true) (.last hRowText)).isPlainOperand.append
    (isTrailer_method (w := "cmp") rfl false (.last (hKeyText.isExpression true)))
  have hClosure := isOperand_closure false false (.last hPattern)
    (hCompare.isExpression (List.cons_ne_nil _ _)) fun _ => rfl
  exact ⟨isTrailer_method rfl false
    (.last (isExpression_of_operand (List.cons_ne_nil _ _) hClosure)), _, rfl⟩

/-- The command is found at the index. -/
theorem spells_targetAt :
    Spells φ .free .free IsTrailer (Doc.join
      [".map(|", Doc.name l.index, "| COMMANDS[", Doc.name l.index, "].1)"]) := by
  have hIndex : IsIdentifier l.index := hl _ (by simp [LookupNames.toList])
  have hNames : ∀ w ∈ [l.index, l.index], IsName w := by simp [hIndex.isName]
  refine (Spells.template (φ := φ) (b := .free) (a := .free) [".map(|", "| COMMANDS["]
    [l.index, l.index] "].1)" (fun joints => [.mark '.' false, .word "map", .group .parenthesis
      (.mark '|' (joints 0) :: ([.word l.index] ++ .mark '|' false :: [.word "COMMANDS",
        .group .bracket [.word l.index], .mark '.' false, .literal .number "1"]))])
    (by decide) hNames rfl fun _ _ _ => rfl).imp ?_
  rintro ts ⟨joints, rfl⟩
  have hRow := (isFreeOperand_word (w := "COMMANDS") rfl).append
    (isTrailer_index (isExpression_word hIndex.not_reserved).isIndex)
  have hCommand := hRow.append (isTrailer_field "1" rfl rfl false)
  have hClosure := isOperand_closure (joints 0) false (.last (isPattern_name hIndex.not_reserved))
    (hCommand.isExpression true) fun _ => rfl
  exact isTrailer_method rfl false
    (.last (isExpression_of_operand (List.cons_ne_nil _ _) hClosure))

/-- What the search comes to. -/
theorem spelledLines_lookup :
    SpelledLines φ IsBlockBody
      [ Doc.join ["let ", Doc.name l.key, " = ", Doc.name l.name, ".to_lowercase();"],
        Doc.block step .consistent <| Doc.join
          [ "COMMANDS", Doc.newline 0,
            Doc.join [".binary_search_by(|(", Doc.name l.row, ", _)| (*", Doc.name l.row, ").cmp(",
              Doc.name l.key, ".as_str()))"],
            Doc.newline 0, ".ok()", Doc.newline 0,
            Doc.join [".map(|", Doc.name l.index, "| COMMANDS[", Doc.name l.index, "].1)"] ] ] := by
  have hTail := spells_tableTail (spells_search (φ := φ) hl) (spells_targetAt hl)
  refine (SpelledLines.cons (spells_keyStatement hl) (.singleton (.block hTail))).imp ?_
  rintro ts ⟨us, vs, rfl, hus, hvs⟩
  exact (AreFurtherStatements.cons hus hvs).isBlockBody

theorem onLines_lookupItems {ds : List (Doc String)} (hds : OnLines φ (Given ψ AreItems) ds) :
    OnLines φ (Given ψ AreItems) (lookupItems l ++ ds) := by
  have hName : IsIdentifier l.name := hl _ (by simp [LookupNames.toList])
  have hHead : Spells φ .free .word _
      (Doc.join ["pub fn lookup(", Doc.name l.name, (": &str) -> Option<Target> " : Doc String)]) :=
    .template ["pub fn lookup("] [l.name] ": &str) -> Option<Target> "
      (fun _ => lookupTokens l.name) (by decide) (List.forall_mem_singleton.mpr hName.isName) rfl
      fun _ _ _ => rfl
  refine onLines_documented (by decide)
    (.braces hHead (onLines_of_spelledLines (spelledLines_lookup hl))) ?_ hds
  rintro text ts ⟨_, _, rfl, ⟨_, rfl⟩, body, rfl, hBody⟩ -
  exact isItem_lookup (areAttributes_docAttribute text) hName hBody

end

/-! ## The usage text and `start` -/

theorem onLine_usage (usage : String) : OnLine φ IsItem (usageItem usage) := by
  have hHead : Spells φ .free .free (· = usageTokens ++ [.mark '=' false])
      ("pub const USAGE: &str = " : Doc String) :=
    .text (by decide) fun _ _ _ => rfl
  have hEnd : Spells φ .word .free (fun ts => ∃ joint, ts = [.mark ';' joint]) (";" : Doc String) :=
    .phrase (by decide) fun _ _ _ => rfl
  refine .of_spells (Spells.of_free ((hHead.append ((spells_literalDoc usage).append
    (hEnd.append .nil))).imp ?_))
  rintro ts ⟨_, _, rfl, rfl, us, _, rfl, hus, _, _, rfl, ⟨joint, rfl⟩, rfl⟩
  exact isItem_usage hus joint

theorem spells_startHead {s : StartNames String} (hInput : IsName s.input) :
    Spells φ .free .free (fun ts => ∃ comma, IsComma comma ∧ ts = startTokens s.input comma)
      (startHead s) := by
  have hOpens : SpellsOpen φ .free .free .parenthesis
      (· = [.word "pub", .word "fn", .word "start"] ++ parametersTokens) (· = [])
      ("pub fn start<S: AsRef<str>>(" : Doc String) :=
    .text (by decide) fun _ _ _ => rfl
  have hType : Spells φ .word .word
      (· = [.mark ':' false, .mark '&' false, .group .bracket [.word "S"]])
      (": &[S]" : Doc String) :=
    .text (by decide) fun _ _ _ => rfl
  have hInputs : Spells φ .free .word _ (Doc.block 0 .consistent <| Doc.join
      [Doc.space 0, Doc.name s.input, ": &[S]", [.gap { offset := -step, before := "," }]]) :=
    .block ((Spells.space 0).append ((Spells.name hInput).append (hType.append
      ((Spells.lastGap (by decide)).append .nil))))
  refine ((hOpens.append (Spells.joint.append hInputs)).close (fun _ => startOutput) (by decide)
    fun _ _ _ _ => rfl).imp ?_
  rintro ts ⟨_, _, rfl, rfl, _, _, rfl, ⟨_, rfl, _, _, rfl, rfl, _, _, rfl, rfl, _, _, rfl, rfl, _,
    _, rfl, rfl, _, _, rfl, rfl, comma, _, rfl, hComma, rfl⟩, _, rfl⟩
  exact ⟨comma, hComma, by simp [startTokens]⟩

theorem onLines_startItems {s : StartNames String} (hs : ∀ w ∈ s.toList, IsIdentifier w)
    {arms : List (Arm String)} (hArms : ∀ a ∈ arms, a.IsPrintable)
    (hCallees : ψ → ∀ a ∈ arms, a.path.isCallee = true) {ds : List (Doc String)}
    (hds : OnLines φ (Given ψ AreItems) ds) :
    OnLines φ (Given ψ AreItems) (startItems s arms ++ ds) := by
  have hInput : IsIdentifier s.input := hs _ (by simp [StartNames.toList])
  refine onLines_documented (by decide) (.braces (spells_startHead hInput.isName).of_free
    (onLines_of_spelledLines (spelledLines_statements hs hArms hCallees))) ?_ hds
  rintro text ts ⟨_, _, rfl, ⟨comma, hComma, rfl⟩, body, rfl, hBody⟩ hψ
  exact isItem_start (areAttributes_docAttribute text) hInput hComma (hBody hψ).isBlockBody

end CommandDispatch.Dispatcher
