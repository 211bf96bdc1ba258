import CommandDispatch.Proofs.Scan.Command
import CommandDispatch.Proofs.Scan.Line

/-!
# What directives make of a command

The lines of directives are read one after the other, each with the command that the lines before it
made. In the end the last line that names the command and the last one that describes it decide, and
the parameters are renamed in the order of the lines.

* `Draft.after`: what some lines make of a draft,
* `Draft.read_of_says`, `foldlM_read_of_areWellFormed`: so a line is read, and a list of them,
* `foldlM_read_eq_error_iff`: a list is read up to the first line that is malformed,
* `IsRearrangement.after_eq`: lines that begin with different words may change places,
* `commandOf_of_describe`: the command of a function.
-/

namespace CommandDispatch.Scan

open Command Source Text

/-! ## Drafts -/

/-- What lines make of a draft if none of them is malformed. The last one that names the command and
the last one that describes it decide; the parameters are renamed in turn. -/
def Draft.after (d : Draft) (lines : List String) : Draft where
  exposed := (lines.filterMap name?).getLast?.getD d.exposed
  arguments := (lines.filterMap renaming?).foldl
    (fun ps change => (rename change.1 change.2 ps).getD ps) d.arguments
  description := (lines.filterMap text?).getLast?.getD d.description

theorem Draft.after_cons (d : Draft) (line : String) (lines : List String) :
    d.after (line :: lines) = (d.after [line]).after lines := by
  have hAppend : line :: lines = [line] ++ lines := rfl
  unfold after
  rw [hAppend, List.filterMap_append, List.filterMap_append, List.filterMap_append,
    List.getLast?_append, List.getLast?_append, List.foldl_append]
  simp only [Option.getD_or]

theorem Draft.read_of_says {d : Draft} {line : String} {directive : Option Directive}
    (h : Says line directive) : d.read line = .ok (d.after [line]) := by
  rw [read, parse_of_says h, ok_bind]
  cases h with
  | name h => simp [after, name?, renaming?, text?, h, apply, pure, Except.pure]
  | rename h => simp [after, name?, renaming?, text?, h, apply, pure, Except.pure]
  | description h => simp [after, name?, renaming?, text?, h, apply, pure, Except.pure]
  | nothing h =>
    have hName := eq_none_of_not_isKnown (by decide) opcode?_of_name? h
    have hRenaming := eq_none_of_not_isKnown (by decide) opcode?_of_renaming? h
    have hText := eq_none_of_not_isKnown (by decide) opcode?_of_text? h
    simp [after, hName, hRenaming, hText, pure, Except.pure]

theorem Draft.read_eq_error_iff {d : Draft} {line : String} {fault : DirectiveFault} :
    d.read line = .error fault ↔ IsMalformed line fault := by
  rw [read, bind_eq_error, ← parse_eq_error_iff]
  refine or_iff_left ?_
  rintro ⟨_ | directive, -, h⟩ <;> cases h

/-! ## Sequences of lines -/

/-- No line is malformed. -/
def AreWellFormed (lines : List String) : Prop :=
  ∀ line ∈ lines, ∀ fault, ¬ IsMalformed line fault

/-- What is wrong with the first line that is malformed. -/
def IsFirstFault (lines : List String) (fault : DirectiveFault) : Prop :=
  ∃ before line after, lines = before ++ line :: after ∧ AreWellFormed before ∧
    IsMalformed line fault

variable {lines lines' : List String}

theorem foldlM_read_of_areWellFormed (h : AreWellFormed lines) (d : Draft) :
    lines.foldlM Draft.read d = .ok (d.after lines) := by
  induction lines generalizing d with
  | nil => rfl
  | cons line lines ih =>
    obtain ⟨hFirst, hRest⟩ := List.forall_mem_cons.mp h
    have hRead : d.read line = .ok (d.after [line]) := by
      rcases parse_cases line with ⟨directive, -, hSays⟩ | ⟨fault, -, hFault⟩
      · exact Draft.read_of_says hSays
      · exact absurd hFault (hFirst fault)
    rw [List.foldlM_cons, hRead, ok_bind, ih hRest, ← Draft.after_cons]

theorem areWellFormed_of_foldlM_read {d d' : Draft} (h : lines.foldlM Draft.read d = .ok d') :
    AreWellFormed lines := by
  intro line hLine fault hFault
  obtain ⟨before, after, rfl⟩ := List.append_of_mem hLine
  rw [List.foldlM_append] at h
  obtain ⟨d'', -, h⟩ := bind_eq_ok.mp h
  rw [List.foldlM_cons, Draft.read_eq_error_iff.mpr hFault] at h
  cases h

theorem foldlM_read_eq_error_iff {d : Draft} {fault : DirectiveFault} :
    lines.foldlM Draft.read d = .error fault ↔ IsFirstFault lines fault := by
  rw [foldlM_eq_error_iff]
  refine exists_congr fun before => exists_congr fun line => exists_congr fun after => ?_
  constructor
  · rintro ⟨d', hLines, hBefore, hError⟩
    exact ⟨hLines, areWellFormed_of_foldlM_read hBefore, Draft.read_eq_error_iff.mp hError⟩
  · rintro ⟨hLines, hBefore, hFault⟩
    exact ⟨_, hLines, foldlM_read_of_areWellFormed hBefore d, Draft.read_eq_error_iff.mpr hFault⟩

theorem IsFirstFault.not_areWellFormed {fault : DirectiveFault} (h : IsFirstFault lines fault) :
    ¬ AreWellFormed lines := by
  obtain ⟨before, line, after, rfl, -, hFault⟩ := h
  exact fun hLines => hLines line (by simp) fault hFault

theorem areWellFormed_or_isFirstFault (lines : List String) :
    AreWellFormed lines ∨ ∃ fault, IsFirstFault lines fault := by
  cases h : lines.foldlM Draft.read ⟨"", [], ""⟩ with
  | ok d => exact .inl (areWellFormed_of_foldlM_read h)
  | error fault => exact .inr ⟨fault, foldlM_read_eq_error_iff.mp h⟩

/-! ## Rearrangements -/

/-- Lines that begin with different words change places, and lines that begin with unknown words are
put in or left out. -/
inductive IsRearrangement : List String → List String → Prop where
  | refl (lines : List String) : IsRearrangement lines lines
  | swap (before after : List String) {first second : String}
      (h : opcode? first ≠ opcode? second) :
      IsRearrangement (before ++ first :: second :: after) (before ++ second :: first :: after)
  | insert (before after : List String) {line : String} (h : ¬ IsKnown line) :
      IsRearrangement (before ++ after) (before ++ line :: after)
  | remove (before after : List String) {line : String} (h : ¬ IsKnown line) :
      IsRearrangement (before ++ line :: after) (before ++ after)
  | trans {first second third : List String} (h : IsRearrangement first second)
      (h' : IsRearrangement second third) : IsRearrangement first third

/-- What is read off lines that begin with one known word is read off their rearrangements. -/
theorem IsRearrangement.filterMap_eq {α : Type} {f : String → Option α} {opcode : String}
    (hKnown : opcode ∈ knownOpcodes)
    (hOpcode : ∀ {line a}, f line = some a → opcode? line = some opcode)
    (h : IsRearrangement lines lines') : lines'.filterMap f = lines.filterMap f := by
  induction h with
  | refl lines => rfl
  | @swap before after first second hDiffer =>
    rw [List.filterMap_append, List.filterMap_append, List.append_cancel_left_eq]
    simp only [List.filterMap_cons]
    cases hFirst : f first with
    | none => rfl
    | some a =>
      cases hSecond : f second with
      | none => rfl
      | some b => exact absurd ((hOpcode hFirst).trans (hOpcode hSecond).symm) hDiffer
  | insert before after hLine =>
    rw [List.filterMap_append, List.filterMap_append, List.filterMap_cons,
      eq_none_of_not_isKnown hKnown hOpcode hLine]
  | remove before after hLine =>
    rw [List.filterMap_append, List.filterMap_append, List.filterMap_cons,
      eq_none_of_not_isKnown hKnown hOpcode hLine]
  | trans _ _ ih ih' => rw [ih', ih]

theorem IsRearrangement.after_eq (h : IsRearrangement lines lines') (d : Draft) :
    d.after lines' = d.after lines := by
  have hName := h.filterMap_eq (by decide) opcode?_of_name?
  have hRenaming := h.filterMap_eq (by decide) opcode?_of_renaming?
  have hText := h.filterMap_eq (by decide) opcode?_of_text?
  unfold Draft.after
  rw [hName, hRenaming, hText]

theorem IsRearrangement.areWellFormed (h : IsRearrangement lines lines')
    (hLines : AreWellFormed lines) : AreWellFormed lines' := by
  induction h with
  | refl lines => exact hLines
  | swap before after _ =>
    intro line hLine
    refine hLines line ?_
    simp only [List.mem_append, List.mem_cons] at hLine ⊢
    tauto
  | insert before after hUnknown =>
    intro line hLine fault hFault
    have hMem : line ∈ before ++ after := by
      simp only [List.mem_append, List.mem_cons] at hLine ⊢
      rcases hLine with hBefore | rfl | hAfter
      · exact .inl hBefore
      · exact absurd hFault.isKnown hUnknown
      · exact .inr hAfter
    exact hLines line hMem fault hFault
  | remove before after _ =>
    intro line hLine
    refine hLines line ?_
    simp only [List.mem_append, List.mem_cons] at hLine ⊢
    tauto
  | trans _ _ ih ih' => exact ih' (ih hLines)

/-! ## Commands -/

/-- The command that the lines of a function make of its signature, if none of them is malformed. -/
def commandAfter (modulePath : String) (f : Function) (signature : Signature) : Command :=
  let draft := Draft.after ⟨f.signature.name, signature.arguments, ""⟩ (directiveLines f.attributes)
  { target := modulePath ++ "::" ++ f.signature.name
    exposed := draft.exposed
    signature := { signature with arguments := draft.arguments }
    description := draft.description }

variable {modulePath : String} {f : Function} {signature : Signature}

/-- Of lines that are not malformed comes a command, unless its name is the one for help. -/
theorem commandOf_of_areWellFormed (hDescribe : describe f.signature = .ok signature)
    (hNe : directiveLines f.attributes ≠ [])
    (hLines : AreWellFormed (directiveLines f.attributes)) :
    commandOf modulePath f =
      if sameUpToAsciiCase (commandAfter modulePath f signature).exposed helpName = true then
        .error (.reservedName (commandAfter modulePath f signature).target)
      else .ok (some (commandAfter modulePath f signature)) := by
  unfold commandOf
  split
  · rename_i hNil
    exact absurd hNil hNe
  · unfold commandOfLines
    simp only [hDescribe, Except.mapError, ok_bind, foldlM_read_of_areWellFormed hLines]
    change _ <$> (if sameUpToAsciiCase (commandAfter modulePath f signature).exposed helpName = true
      then _ else _) = _
    split
    · rfl
    · rfl

/-- Of lines that are malformed comes the error for the first of them. -/
theorem commandOf_of_isFirstFault {fault : DirectiveFault}
    (hDescribe : describe f.signature = .ok signature)
    (h : IsFirstFault (directiveLines f.attributes) fault) :
    commandOf modulePath f =
      .error (.directive (modulePath ++ "::" ++ f.signature.name) fault) := by
  unfold commandOf
  split
  · rename_i hNil
    rw [hNil] at h
    obtain ⟨before, line, after, hLines, -⟩ := h
    cases before <;> cases hLines
  · unfold commandOfLines
    simp only [hDescribe, Except.mapError, ok_bind, foldlM_read_eq_error_iff.mpr h]
    rfl

theorem commandOf_eq_directive_iff (hDescribe : describe f.signature = .ok signature)
    (hNe : directiveLines f.attributes ≠ []) {fault : DirectiveFault} :
    commandOf modulePath f = .error (.directive (modulePath ++ "::" ++ f.signature.name) fault) ↔
      IsFirstFault (directiveLines f.attributes) fault := by
  refine ⟨fun h => ?_, commandOf_of_isFirstFault hDescribe⟩
  rcases areWellFormed_or_isFirstFault (directiveLines f.attributes) with hLines | ⟨fault', hFirst⟩
  · rw [commandOf_of_areWellFormed hDescribe hNe hLines] at h
    split at h <;> cases h
  · cases (commandOf_of_isFirstFault hDescribe hFirst).symm.trans h
    exact hFirst

theorem commandOf_eq_reservedName_iff (hDescribe : describe f.signature = .ok signature)
    (hNe : directiveLines f.attributes ≠ []) :
    commandOf modulePath f = .error (.reservedName (modulePath ++ "::" ++ f.signature.name)) ↔
      AreWellFormed (directiveLines f.attributes) ∧
        sameUpToAsciiCase (commandAfter modulePath f signature).exposed helpName = true := by
  rcases areWellFormed_or_isFirstFault (directiveLines f.attributes) with hLines | ⟨fault, hFirst⟩
  · rw [commandOf_of_areWellFormed hDescribe hNe hLines, and_iff_right hLines]
    split
    · rename_i hHelp
      exact iff_of_true rfl hHelp
    · rename_i hHelp
      exact iff_of_false (fun h => by cases h) hHelp
  · rw [commandOf_of_isFirstFault hDescribe hFirst]
    exact iff_of_false (fun h => by cases h) fun h => hFirst.not_areWellFormed h.1

theorem commandOf_eq_ok_iff (hDescribe : describe f.signature = .ok signature)
    (hNe : directiveLines f.attributes ≠ []) {result : Option Command} :
    commandOf modulePath f = .ok result ↔
      AreWellFormed (directiveLines f.attributes) ∧
        ¬ sameUpToAsciiCase (commandAfter modulePath f signature).exposed helpName = true ∧
        result = some (commandAfter modulePath f signature) := by
  rcases areWellFormed_or_isFirstFault (directiveLines f.attributes) with hLines | ⟨fault, hFirst⟩
  · rw [commandOf_of_areWellFormed hDescribe hNe hLines, and_iff_right hLines]
    split
    · rename_i hHelp
      exact iff_of_false (fun h => by cases h) fun h => h.1 hHelp
    · rename_i hHelp
      rw [and_iff_right hHelp, Except.ok.injEq, eq_comm]
  · rw [commandOf_of_isFirstFault hDescribe hFirst]
    exact iff_of_false (fun h => by cases h) fun h => hFirst.not_areWellFormed h.1

theorem commandOf_eq_of_isRearrangement {g : Function}
    (hDescribe : describe f.signature = .ok signature) (hNe : directiveLines f.attributes ≠ [])
    (hSignature : g.signature = f.signature) (hNe' : directiveLines g.attributes ≠ [])
    (hLines : AreWellFormed (directiveLines f.attributes))
    (h : IsRearrangement (directiveLines f.attributes) (directiveLines g.attributes)) :
    commandOf modulePath g = commandOf modulePath f := by
  have hSame : commandAfter modulePath g signature = commandAfter modulePath f signature := by
    unfold commandAfter
    rw [hSignature, h.after_eq]
  rw [commandOf_of_areWellFormed hDescribe hNe hLines,
    commandOf_of_areWellFormed (hSignature ▸ hDescribe) hNe' (h.areWellFormed hLines), hSame]

/-- A function with directives is refused for the first of its lines that is malformed. If none is,
the last line that names the command and the last one that describes it decide, the parameters are
renamed in the order of the lines, and nothing else of the signature changes; only the name for help
is refused then, in any case of its letters. So lines that begin with different words may change
places, and those that begin with unknown words do not matter. -/
theorem commandOf_of_describe (hDescribe : describe f.signature = .ok signature)
    (hNe : directiveLines f.attributes ≠ []) :
    let lines := directiveLines f.attributes
    let c := commandAfter modulePath f signature
    (∀ fault, commandOf modulePath f = .error (.directive c.target fault) ↔
      IsFirstFault lines fault) ∧
    (commandOf modulePath f = .error (.reservedName c.target) ↔
      AreWellFormed lines ∧ sameUpToAsciiCase c.exposed helpName = true) ∧
    (∀ result, commandOf modulePath f = .ok result ↔
      AreWellFormed lines ∧ ¬ sameUpToAsciiCase c.exposed helpName = true ∧ result = some c) ∧
    (AreWellFormed lines → c.signature.arguments.map shapeOf = signature.arguments.map shapeOf ∧
      c.signature.returns = signature.returns) ∧
    ∀ g : Function, g.signature = f.signature → directiveLines g.attributes ≠ [] →
      AreWellFormed lines → IsRearrangement lines (directiveLines g.attributes) →
      commandOf modulePath g = commandOf modulePath f := by
  refine ⟨fun fault => commandOf_eq_directive_iff hDescribe hNe,
    commandOf_eq_reservedName_iff hDescribe hNe, fun result => commandOf_eq_ok_iff hDescribe hNe,
    fun hLines => ⟨?_, rfl⟩, fun g => commandOf_eq_of_isRearrangement hDescribe hNe⟩
  exact Draft.map_shape_foldlM (foldlM_read_of_areWellFormed hLines _)

/-! ## A parameter that is renamed twice -/

/-- A function of a text with these documentations. -/
def echoFunction (documentation : List String) : Function where
  attributes := documentation.map .doc
  signature :=
    { isAsync := false, isUnsafe := false, name := "echo", isGeneric := false
      inputs := [.typed (.name "text") (.path (.mk false [.mk "String" .none]))]
      isVariadic := false, output := none }

/-- The second line renames what the first one renamed. -/
def renamingEcho : Function :=
  echoFunction ["Echoes.\ncligen:rename TEXT words\ncligen:cmd Say", "cligen:rename Words it"]

/-- The name stands before both, and another line between them. -/
def rearrangedEcho : Function :=
  echoFunction
    ["cligen:cmd Say\ncligen:rename TEXT words", "cligen:note x", "cligen:rename Words it"]

theorem directiveLines_renamingEcho :
    directiveLines renamingEcho.attributes =
      ["rename TEXT words", "cmd Say", "rename Words it"] := by
  decide +kernel

theorem directiveLines_rearrangedEcho :
    directiveLines rearrangedEcho.attributes =
      ["cmd Say", "rename TEXT words", "note x", "rename Words it"] := by
  decide +kernel

theorem isRearrangement_echo :
    IsRearrangement (directiveLines renamingEcho.attributes)
      (directiveLines rearrangedEcho.attributes) := by
  rw [directiveLines_renamingEcho, directiveLines_rearrangedEcho]
  have hSwap : IsRearrangement ["rename TEXT words", "cmd Say", "rename Words it"]
      ["cmd Say", "rename TEXT words", "rename Words it"] :=
    .swap [] ["rename Words it"] (by decide +kernel)
  have hInsert : IsRearrangement ["cmd Say", "rename TEXT words", "rename Words it"]
      ["cmd Say", "rename TEXT words", "note x", "rename Words it"] :=
    .insert ["cmd Say", "rename TEXT words"] ["rename Words it"] (by decide +kernel)
  exact hSwap.trans hInsert

/-- One text, known by this name. -/
def echoSignature (name : String) : Signature :=
  ⟨[⟨some name, .readable .string, false⟩], []⟩

theorem commandAfter_renamingEcho :
    commandAfter "crate" renamingEcho (echoSignature "text") =
      ⟨"crate::echo", "Say", echoSignature "it", ""⟩ := by
  decide +kernel

theorem commandOf_echo :
    describe renamingEcho.signature = .ok (echoSignature "text") ∧
      directiveLines renamingEcho.attributes ≠ [] ∧
      AreWellFormed (directiveLines renamingEcho.attributes) ∧
      commandOf "crate" renamingEcho = .ok (some ⟨"crate::echo", "Say", echoSignature "it", ""⟩) ∧
      commandOf "crate" rearrangedEcho = commandOf "crate" renamingEcho := by
  have hDescribe : describe renamingEcho.signature = .ok (echoSignature "text") := rfl
  have hNe : directiveLines renamingEcho.attributes ≠ [] := by
    rw [directiveLines_renamingEcho]
    exact List.cons_ne_nil _ _
  have hNe' : directiveLines rearrangedEcho.attributes ≠ [] := by
    rw [directiveLines_rearrangedEcho]
    exact List.cons_ne_nil _ _
  have hLines : AreWellFormed (directiveLines renamingEcho.attributes) := by
    rw [directiveLines_renamingEcho]
    exact areWellFormed_of_foldlM_read (d := ⟨"", [], ""⟩) rfl
  have hHelp : ¬ sameUpToAsciiCase
      (commandAfter "crate" renamingEcho (echoSignature "text")).exposed helpName = true := by
    rw [commandAfter_renamingEcho]
    decide
  obtain ⟨-, -, hCommand, -, hRearranged⟩ := @commandOf_of_describe "crate" _ _ hDescribe hNe
  exact ⟨hDescribe, hNe, hLines,
    (hCommand _).mpr ⟨hLines, hHelp, congrArg some commandAfter_renamingEcho.symm⟩,
    hRearranged rearrangedEcho rfl hNe' hLines isRearrangement_echo⟩

end CommandDispatch.Scan
