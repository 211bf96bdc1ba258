import CommandDispatch.Scan.Directive

/-!
# What a line of a directive says

A line is read off its words. The first one tells the kind of directive, and each kind has operands
that it needs; a line of another kind says nothing.

* `Says`, `IsMalformed`: what a line says, or what is wrong with it,
* `parse_eq_ok_iff`, `parse_eq_error_iff`: a line is read as it says,
* `name?`, `renaming?`, `text?`: what a line of each kind says,
* `eq_none_of_not_isKnown`: lines of other kinds say nothing.
-/

namespace CommandDispatch.Scan

open Text

/-! ## Words -/

/-- The words of a line. -/
def wordsOf (line : String) : List String :=
  (words line.toList).map String.ofList

/-- The word that tells the kind of a directive. -/
def opcode? (line : String) : Option String :=
  (wordsOf line).head?

def knownOpcodes : List String :=
  ["cmd", "rename", "description"]

/-- The first word of the line tells a kind of directive. -/
def IsKnown (line : String) : Prop :=
  ∃ opcode ∈ knownOpcodes, opcode? line = some opcode

instance (line : String) : Decidable (IsKnown line) :=
  inferInstanceAs (Decidable (∃ opcode ∈ knownOpcodes, _))

/-- What a line says, if it says anything. -/
inductive Says (line : String) : Option Directive → Prop where
  | name {name : String} {others : List String} (h : wordsOf line = "cmd" :: name :: others) :
      Says line (some (.name name))
  | rename {old new : String} {others : List String}
      (h : wordsOf line = "rename" :: old :: new :: others) : Says line (some (.rename old new))
  | description {first : String} {others : List String}
      (h : wordsOf line = "description" :: first :: others) :
      Says line (some (.description (" ".intercalate (first :: others))))
  | nothing (h : ¬ IsKnown line) : Says line none

/-- What is wrong with a line: it lacks its operand, or one of two. -/
inductive IsMalformed (line : String) : DirectiveFault → Prop where
  | name (h : wordsOf line = ["cmd"]) : IsMalformed line .missingName
  | rename {operands : List String} (h : wordsOf line = "rename" :: operands)
      (hFew : operands.length < 2) : IsMalformed line (.missingOperands operands.length)
  | description (h : wordsOf line = ["description"]) : IsMalformed line .missingText

theorem map_toList_map_ofList (ws : List (List Char)) :
    (ws.map String.ofList).map String.toList = ws := by
  rw [List.map_map]
  exact (List.map_congr_left fun w _ => String.toList_ofList).trans (List.map_id' ws)

theorem ofList_intercalate_space (ws : List (List Char)) :
    String.ofList ([' '].intercalate ws) = " ".intercalate (ws.map String.ofList) := by
  rw [← String.toList_inj, String.toList_ofList, String.toList_intercalate, map_toList_map_ofList]
  rfl

/-- A line says something, or it is malformed, and is read so. -/
theorem parse_cases (line : String) :
    (∃ directive, Directive.parse line = .ok directive ∧ Says line directive) ∨
      ∃ fault, Directive.parse line = .error fault ∧ IsMalformed line fault := by
  have hWords : wordsOf line = (words line.toList).map String.ofList := rfl
  unfold Directive.parse
  generalize words line.toList = ws at hWords
  cases ws with
  | nil =>
    refine .inl ⟨none, rfl, .nothing ?_⟩
    rintro ⟨opcode, -, h⟩
    rw [opcode?, hWords] at h
    cases h
  | cons opcode operands =>
    rw [List.map_cons] at hWords
    unfold Directive.ofWords
    dsimp only
    -- One case for each opcode, and in it one for each operand that may be missing.
    split
    · rename_i hOpcode
      rw [hOpcode] at hWords
      cases operands with
      | nil => exact .inr ⟨_, rfl, .name hWords⟩
      | cons name others => exact .inl ⟨_, rfl, .name hWords⟩
    · rename_i hOpcode
      rw [hOpcode] at hWords
      match operands with
      | [] => exact .inr ⟨_, rfl, .rename hWords Nat.two_pos⟩
      | [old] => exact .inr ⟨_, rfl, .rename hWords Nat.one_lt_two⟩
      | old :: new :: others => exact .inl ⟨_, rfl, .rename hWords⟩
    · rename_i hOpcode
      rw [hOpcode] at hWords
      cases operands with
      | nil => exact .inr ⟨_, rfl, .description hWords⟩
      | cons first others =>
        refine .inl ⟨_, rfl, ?_⟩
        rw [ofList_intercalate_space]
        exact .description hWords
    · rename_i hName hRename hDescription
      refine .inl ⟨none, rfl, .nothing ?_⟩
      rintro ⟨known, hKnown, h⟩
      rw [opcode?, hWords] at h
      obtain rfl : String.ofList opcode = known := Option.some.inj h
      have hCases : String.ofList opcode = "cmd" ∨ String.ofList opcode = "rename" ∨
          String.ofList opcode = "description" := by
        simpa [knownOpcodes] using hKnown
      rcases hCases with h | h | h
      · exact hName h
      · exact hRename h
      · exact hDescription h

/-- A line is read off its words. -/
theorem parse_eq_ofWords (line : String) :
    Directive.parse line = Directive.ofWords ((wordsOf line).map String.toList) := by
  rw [wordsOf, map_toList_map_ofList, Directive.parse]

theorem isKnown_of_wordsOf {line opcode : String} {operands : List String}
    (h : wordsOf line = opcode :: operands) (hKnown : opcode ∈ knownOpcodes) : IsKnown line :=
  ⟨opcode, hKnown, by rw [opcode?, h]; rfl⟩

theorem IsMalformed.isKnown {line : String} {fault : DirectiveFault} (h : IsMalformed line fault) :
    IsKnown line := by
  cases h with
  | name h => exact isKnown_of_wordsOf h (by decide)
  | rename h _ => exact isKnown_of_wordsOf h (by decide)
  | description h => exact isKnown_of_wordsOf h (by decide)

theorem Says.isKnown {line : String} {directive : Directive} (h : Says line (some directive)) :
    IsKnown line := by
  cases h with
  | name h => exact isKnown_of_wordsOf h (by decide)
  | rename h => exact isKnown_of_wordsOf h (by decide)
  | description h => exact isKnown_of_wordsOf h (by decide)

theorem parse_of_says {line : String} {directive : Option Directive} (h : Says line directive) :
    Directive.parse line = .ok directive := by
  cases h with
  | name h => simp [parse_eq_ofWords, h, Directive.ofWords]
  | rename h => simp [parse_eq_ofWords, h, Directive.ofWords]
  | description h =>
    simp [parse_eq_ofWords, h, Directive.ofWords, ofList_intercalate_space, Function.comp_def]
  | nothing h =>
    rcases parse_cases line with ⟨directive | directive, hParse, hSays⟩ | ⟨fault, -, hFault⟩
    · exact hParse
    · exact absurd hSays.isKnown h
    · exact absurd hFault.isKnown h

theorem parse_of_isMalformed {line : String} {fault : DirectiveFault}
    (h : IsMalformed line fault) : Directive.parse line = .error fault := by
  cases h with
  | name h => simp [parse_eq_ofWords, h, Directive.ofWords]
  | description h => simp [parse_eq_ofWords, h, Directive.ofWords]
  | @rename operands h hFew =>
    match operands with
    | [] => simp [parse_eq_ofWords, h, Directive.ofWords]
    | [old] => simp [parse_eq_ofWords, h, Directive.ofWords]

theorem parse_eq_ok_iff {line : String} {directive : Option Directive} :
    Directive.parse line = .ok directive ↔ Says line directive := by
  refine ⟨fun h => ?_, parse_of_says⟩
  rcases parse_cases line with ⟨directive', hParse, hSays⟩ | ⟨fault, hParse, -⟩
  · cases hParse.symm.trans h
    exact hSays
  · cases hParse.symm.trans h

theorem parse_eq_error_iff {line : String} {fault : DirectiveFault} :
    Directive.parse line = .error fault ↔ IsMalformed line fault := by
  refine ⟨fun h => ?_, parse_of_isMalformed⟩
  rcases parse_cases line with ⟨directive, hParse, -⟩ | ⟨fault', hParse, hFault⟩
  · cases hParse.symm.trans h
  · cases hParse.symm.trans h
    exact hFault

/-! ## Kinds of directives -/

/-- The name that a line gives to the command. -/
def name? (line : String) : Option String :=
  match wordsOf line with
  | "cmd" :: name :: _ => some name
  | _ => none

/-- The old and the new name of the parameter that a line renames. -/
def renaming? (line : String) : Option (String × String) :=
  match wordsOf line with
  | "rename" :: old :: new :: _ => some (old, new)
  | _ => none

/-- What a line says about the command: its words after the first one. -/
def text? (line : String) : Option String :=
  match wordsOf line with
  | "description" :: first :: others => some (" ".intercalate (first :: others))
  | _ => none

theorem opcode?_of_name? {line name : String} (h : name? line = some name) :
    opcode? line = some "cmd" := by
  unfold name? at h
  split at h
  · rename_i hWords
    rw [opcode?, hWords, List.head?_cons]
  · cases h

theorem opcode?_of_renaming? {line : String} {change : String × String}
    (h : renaming? line = some change) : opcode? line = some "rename" := by
  unfold renaming? at h
  split at h
  · rename_i hWords
    rw [opcode?, hWords, List.head?_cons]
  · cases h

theorem opcode?_of_text? {line text : String} (h : text? line = some text) :
    opcode? line = some "description" := by
  unfold text? at h
  split at h
  · rename_i hWords
    rw [opcode?, hWords, List.head?_cons]
  · cases h

/-- What is read off lines with one known word is not read off those with unknown words. -/
theorem eq_none_of_not_isKnown {α : Type} {f : String → Option α} {opcode line : String}
    (hKnown : opcode ∈ knownOpcodes)
    (hOpcode : ∀ {line a}, f line = some a → opcode? line = some opcode) (h : ¬ IsKnown line) :
    f line = none :=
  Option.eq_none_iff_forall_ne_some.mpr fun _ ha => h ⟨opcode, hKnown, hOpcode ha⟩

end CommandDispatch.Scan
