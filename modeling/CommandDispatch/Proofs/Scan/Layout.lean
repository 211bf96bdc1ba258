import CommandDispatch.Proofs.Scan.Line
import CommandDispatch.Proofs.Text.Layout

/-!
# Layouts of directives

The directives of a documentation are read off its lines, and each directive off its words. So it
does not matter over how many attributes the lines are spread, nor which blanks stand between the
words and around them.

* `directiveBody?_eq_some_iff`: when a line is a directive,
* `directiveLines_eq`: the lines of the documentation are read text by text,
* `parse_of_tightens`: a directive may be laid out tighter,
* `parse_print_iff`: which directives are read back as they are printed,
* `directives_of_layout`: directives do not depend on how they are laid out.
-/

namespace CommandDispatch.Scan

open Relation Source Text

/-! ## Lines -/

/-- The line is a directive with this body: the body begins with a letter, the mark is before it,
and only blanks are around them. -/
inductive IsDirectiveLine (body : List Char) : List Char → Prop where
  | intro {before after : List Char} (hBefore : AreBlank before) (hAfter : AreBlank after)
      (hLetter : ∃ c ∈ body.head?, c.isAlpha = true)
      (hLast : ∀ c ∈ body.getLast?, isBlank c = false) :
      IsDirectiveLine body (before ++ (directiveMark ++ body) ++ after)

theorem directiveBody?_eq_some_iff_trim {line body : List Char} :
    directiveBody? line = some body ↔
      trim line = directiveMark ++ body ∧ ∃ c ∈ body.head?, c.isAlpha = true := by
  simp only [directiveBody?, Option.ite_none_right_eq_some, List.isPrefixOf_iff_prefix]
  constructor
  · rintro ⟨⟨rest, hRest⟩, h⟩
    rw [← hRest, List.drop_left] at h
    obtain ⟨hLetter, hBody⟩ := h
    cases hBody
    exact ⟨hRest.symm, by simpa [Option.any_eq_true] using hLetter⟩
  · rintro ⟨hTrim, hLetter⟩
    rw [hTrim, List.drop_left]
    exact ⟨List.prefix_append _ _, by simpa [Option.any_eq_true] using hLetter, rfl⟩

theorem isTrimmed_mark_append {body : List Char} (hNe : body ≠ []) :
    IsTrimmed (directiveMark ++ body) ↔ ∀ c ∈ body.getLast?, isBlank c = false := by
  have hLast : (directiveMark ++ body).getLast? = body.getLast? := by
    rw [List.getLast?_append, List.getLast?_eq_some_getLast hNe, Option.some_or]
  constructor
  · intro h
    rw [← hLast]
    exact h.last
  · intro h
    refine ⟨fun c hc => ?_, hLast ▸ h⟩
    obtain rfl : 'c' = c := Option.some.inj hc
    rfl

theorem directiveBody?_eq_some_iff {line body : List Char} :
    directiveBody? line = some body ↔ IsDirectiveLine body line := by
  rw [directiveBody?_eq_some_iff_trim, trim_eq_iff]
  have hNe : (∃ c ∈ body.head?, c.isAlpha = true) → body ≠ [] := by
    rintro ⟨c, hc, -⟩ rfl
    cases hc
  constructor
  · rintro ⟨⟨hTrimmed, before, after, hBefore, hAfter, rfl⟩, hLetter⟩
    exact .intro hBefore hAfter hLetter ((isTrimmed_mark_append (hNe hLetter)).mp hTrimmed)
  · rintro ⟨hBefore, hAfter, hLetter, hLast⟩
    have hTrimmed := (isTrimmed_mark_append (hNe hLetter)).mpr hLast
    exact ⟨⟨hTrimmed, _, _, hBefore, hAfter, rfl⟩, hLetter⟩

theorem directiveBody?_withoutReturn (line : List Char) :
    directiveBody? (withoutReturn line) = directiveBody? line := by
  rw [directiveBody?, directiveBody?, trim_withoutReturn]

theorem textDirectives_append (s t : List Char) :
    textDirectives (s ++ '\n' :: t) = textDirectives s ++ textDirectives t :=
  filterMap_lines_append rfl directiveBody?_withoutReturn s t

theorem textDirectives_of_notMem {s : List Char} (hs : '\n' ∉ s) :
    textDirectives s = (directiveBody? s).toList :=
  filterMap_lines_of_notMem rfl directiveBody?_withoutReturn hs

/-- The texts of the documentation among the attributes, in order. -/
def docTexts (attributes : List Attribute) : List String :=
  attributes.filterMap fun
    | .doc text => some text
    | .other => none

theorem directiveLines_doc (text : String) :
    directiveLines [.doc text] = (textDirectives text.toList).map String.ofList :=
  List.flatMap_singleton _ _

theorem directiveLines_eq (attributes : List Attribute) :
    directiveLines attributes =
      (docTexts attributes).flatMap fun text => directiveLines [.doc text] := by
  simp only [directiveLines_doc]
  induction attributes with
  | nil => rfl
  | cons a attributes ih =>
    cases a with
    | doc text => exact congrArg ((textDirectives text.toList).map String.ofList ++ ·) ih
    | other => exact ih

theorem directiveLines_joined (s t : String) :
    directiveLines [.doc (s ++ "\n" ++ t)] =
      directiveLines [.doc s] ++ directiveLines [.doc t] := by
  have hText : (s ++ "\n" ++ t).toList = s.toList ++ '\n' :: t.toList := by
    simp [String.toList_append]
  simp only [directiveLines_doc]
  rw [hText, textDirectives_append, List.map_append]

/-- Two texts of a documentation may be joined by a line feed. -/
theorem directiveLines_eq_of_joined {attributes attributes' : List Attribute}
    {before after : List String} {s t : String}
    (h : docTexts attributes = before ++ s :: t :: after)
    (h' : docTexts attributes' = before ++ (s ++ "\n" ++ t) :: after) :
    directiveLines attributes' = directiveLines attributes := by
  rw [directiveLines_eq, directiveLines_eq attributes, h, h']
  simp only [List.flatMap_append, List.flatMap_cons, directiveLines_joined, List.append_assoc]

/-- A text without line feeds is one directive or none. -/
theorem directiveLines_of_notMem {text : String} (hText : '\n' ∉ text.toList) :
    (directiveLines [.doc text]).length ≤ 1 ∧
      ∀ body : String, body ∈ directiveLines [.doc text] ↔
        IsDirectiveLine body.toList text.toList := by
  rw [directiveLines_doc, textDirectives_of_notMem hText]
  refine ⟨?_, fun body => ?_⟩
  · cases directiveBody? text.toList <;> simp
  · rw [← directiveBody?_eq_some_iff]
    cases directiveBody? text.toList with
    | none => simp
    | some own => simp [← String.toList_inj, eq_comm]

/-! ## Words -/

variable {body body' text w : String} {ws : List String}

theorem parse_of_tightens (h : ReflTransGen Tightens body.toList body'.toList) :
    Directive.parse body' = Directive.parse body := by
  rw [Directive.parse, Directive.parse, words_eq_of_tightens h]

theorem isWord_of_mem_wordsOf (h : w ∈ wordsOf body) : IsWord w.toList := by
  obtain ⟨word, hWord, rfl⟩ := List.mem_map.mp h
  rw [String.toList_ofList]
  exact isWord_of_mem_words hWord

theorem wordsOf_eq_singleton (h : IsWord w.toList) : wordsOf w = [w] := by
  rw [wordsOf, h.words_eq, List.map_singleton, String.ofList_toList]

theorem toList_intercalate_space (ss : List String) :
    (" ".intercalate ss).toList = [' '].intercalate (ss.map String.toList) :=
  String.toList_intercalate

theorem wordsOf_intercalate (ss : List String) :
    wordsOf (" ".intercalate ss) = ss.flatMap wordsOf := by
  rw [wordsOf, toList_intercalate_space, words_intercalate, List.flatMap_map, List.map_flatMap]
  rfl

theorem intercalate_wordsOf (h : IsTight text.toList) : " ".intercalate (wordsOf text) = text := by
  rw [← String.toList_inj, toList_intercalate_space, wordsOf, map_toList_map_ofList,
    h.intercalate_words]

/-- A directive as the body of a line. -/
def Directive.print : Directive → String
  | name n => " ".intercalate ["cmd", n]
  | rename old new => " ".intercalate ["rename", old, new]
  | description text => " ".intercalate ["description", text]

/-- The names of the directive are words, and its text is not empty and cannot be laid out
tighter. -/
def Directive.IsTidy : Directive → Prop
  | name n => IsWord n.toList
  | rename old new => IsWord old.toList ∧ IsWord new.toList
  | description text => text ≠ "" ∧ IsTight text.toList

theorem Says.isTidy {d : Directive} (h : Says body (some d)) : d.IsTidy := by
  have hWord : ∀ w ∈ wordsOf body, IsWord w.toList := fun _ => isWord_of_mem_wordsOf
  cases h with
  | name h => exact hWord _ (by simp [h])
  | rename h => exact ⟨hWord _ (by simp [h]), hWord _ (by simp [h])⟩
  | @description first others h =>
    have hFirst : IsWord first.toList := hWord _ (by simp [h])
    refine ⟨fun hNil => hFirst.ne_nil ?_, ?_⟩
    · rw [← String.toList_inj, toList_intercalate_space, List.map_cons,
        intercalate_space_cons] at hNil
      exact (List.append_eq_nil_iff.mp hNil).1
    · rw [toList_intercalate_space]
      refine isTight_intercalate fun w hw => ?_
      obtain ⟨word, hMem, rfl⟩ := List.mem_map.mp hw
      exact hWord word (h ▸ List.mem_cons_of_mem _ hMem)

/-- A tidy directive is printed as a line that says it. -/
theorem Directive.IsTidy.says {d : Directive} (h : d.IsTidy) : Says d.print (some d) := by
  cases d with
  | name n =>
    have hPrint : wordsOf (Directive.name n).print = ["cmd", n] := by
      rw [print, wordsOf_intercalate, List.flatMap_cons, List.flatMap_singleton,
        wordsOf_eq_singleton h]
      rfl
    exact .name hPrint
  | rename old new =>
    obtain ⟨hOld, hNew⟩ := h
    have hPrint : wordsOf (Directive.rename old new).print = ["rename", old, new] := by
      rw [print, wordsOf_intercalate, List.flatMap_cons, List.flatMap_cons,
        List.flatMap_singleton, wordsOf_eq_singleton hOld, wordsOf_eq_singleton hNew]
      rfl
    exact .rename hPrint
  | description text =>
    obtain ⟨hNe, hTight⟩ := h
    have hText := intercalate_wordsOf hTight
    cases hWords : wordsOf text with
    | nil =>
      rw [hWords] at hText
      exact absurd hText.symm hNe
    | cons first others =>
      have hPrint : wordsOf (Directive.description text).print =
          "description" :: first :: others := by
        rw [print, wordsOf_intercalate, List.flatMap_cons, List.flatMap_singleton, hWords]
        rfl
      have hSays := Says.description hPrint
      rw [← hWords, hText] at hSays
      exact hSays

theorem parse_print_iff {d : Directive} : Directive.parse d.print = .ok (some d) ↔ d.IsTidy := by
  rw [parse_eq_ok_iff]
  exact ⟨Says.isTidy, Directive.IsTidy.says⟩

/-- Directives do not depend on how the documentation is laid out. Two of its texts may be joined by
a line feed, whatever other attributes are around them; the texts are read one by one, and one
without line feeds as one line. A directive may be laid out tighter until it is as tight as can be,
and gives the same result. It is read back as it is printed; so are the directives whose names are
words and whose text is already tight, and no others. -/
theorem directives_of_layout :
    (∀ (attributes attributes' : List Attribute) (before after : List String) (s t : String),
        docTexts attributes = before ++ s :: t :: after →
        docTexts attributes' = before ++ (s ++ "\n" ++ t) :: after →
        directiveLines attributes' = directiveLines attributes) ∧
      (∀ attributes : List Attribute, directiveLines attributes =
        (docTexts attributes).flatMap fun text => directiveLines [.doc text]) ∧
      (∀ text : String, '\n' ∉ text.toList →
        (directiveLines [.doc text]).length ≤ 1 ∧
          ∀ body : String, body ∈ directiveLines [.doc text] ↔
            IsDirectiveLine body.toList text.toList) ∧
      (∀ body body' : String, ReflTransGen Tightens body.toList body'.toList →
        Directive.parse body' = Directive.parse body) ∧
      (∀ body : String, ∃ body' : String,
        ReflTransGen Tightens body.toList body'.toList ∧ IsTight body'.toList) ∧
      (∀ (body : String) (d : Directive), Directive.parse body = .ok (some d) →
        Directive.parse d.print = .ok (some d)) ∧
      ∀ d : Directive, Directive.parse d.print = .ok (some d) ↔ d.IsTidy := by
  refine ⟨fun _ _ _ _ _ _ => directiveLines_eq_of_joined, directiveLines_eq,
    fun _ => directiveLines_of_notMem, fun _ _ => parse_of_tightens, fun body => ?_,
    fun body d h => ?_, fun _ => parse_print_iff⟩
  · obtain ⟨tight, hTightens, hTight⟩ := exists_isTight body.toList
    exact ⟨String.ofList tight, by simpa using hTightens, by simpa using hTight⟩
  · exact parse_print_iff.mpr (parse_eq_ok_iff.mp h).isTidy

/-- A line with blanks around it and more than one between its words. -/
def looseLine : String :=
  "\tcligen:description \tSays\u2003it "

def looseDescription : String :=
  "description \tSays\u2003it"

def tightDescription : String :=
  "description Says it"

/-- The line is by itself after one that is closed by a carriage return. -/
def looseEcho : List Attribute :=
  [.other, .doc "Repeats.\n cligen:cmd Say\r", .other, .doc looseLine]

def joinedEcho : List Attribute :=
  [.doc ("Repeats.\n cligen:cmd Say\r" ++ "\n" ++ looseLine), .other]

theorem isDirectiveLine_looseLine : IsDirectiveLine looseDescription.toList looseLine.toList := by
  refine @IsDirectiveLine.intro _ "\t".toList " ".toList (by decide) (by decide) ⟨'d', rfl, rfl⟩ ?_
  intro c hc
  obtain rfl : 't' = c := Option.some.inj hc
  rfl

theorem tightens_looseDescription :
    ReflTransGen Tightens looseDescription.toList tightDescription.toList := by
  have hFirst : Tightens looseDescription.toList "description Says\u2003it".toList :=
    @Tightens.run "description".toList "Says\u2003it".toList " \t".toList (by decide) (by decide)
  have hSecond : Tightens "description Says\u2003it".toList tightDescription.toList :=
    @Tightens.run "description Says".toList "it".toList "\u2003".toList (by decide) (by decide)
  exact .head hFirst (.single hSecond)

theorem directives_of_echo :
    directiveLines looseEcho = ["cmd Say", looseDescription] ∧
      directiveLines joinedEcho = ["cmd Say", looseDescription] ∧
      looseDescription ∈ directiveLines [.doc looseLine] ∧
      Directive.parse looseDescription = .ok (some (.description "Says it")) ∧
      Directive.parse tightDescription = .ok (some (.description "Says it")) ∧
      Directive.parse (Directive.print (.description "Says it")) =
        .ok (some (.description "Says it")) ∧
      IsTight "Says it".toList := by
  have hLines : directiveLines looseEcho = ["cmd Say", looseDescription] := by decide +kernel
  have hParse : Directive.parse looseDescription = .ok (some (.description "Says it")) := by
    decide +kernel
  obtain ⟨hJoined, -, hLine, hTightens, -, hPrint, hTidy⟩ := directives_of_layout
  have hAgain := hPrint _ _ hParse
  exact ⟨hLines, (hJoined looseEcho joinedEcho [] [] _ _ rfl rfl).trans hLines,
    ((hLine looseLine (by decide)).2 _).mpr isDirectiveLine_looseLine, hParse,
    (hTightens _ _ tightens_looseDescription).trans hParse, hAgain, ((hTidy _).mp hAgain).2⟩

end CommandDispatch.Scan
