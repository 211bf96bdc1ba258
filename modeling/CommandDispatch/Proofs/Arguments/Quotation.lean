import CommandDispatch.Proofs.Arguments.Quoting
import CommandDispatch.Proofs.Text.LowerCase

/-!
# Arguments between quote marks

A text between two quote marks is one token and stands for itself, whatever else it holds: hyphens
at its beginning, spaces, or nothing at all. So a list of arguments that are all quoted is sliced
into exactly the texts between the marks.

* `Quotation` is a text with a mark that can be put around it, and `QuotedFlag` a name with one,
* `slice_quotations`: what flags and positionals are sliced into when all of them are quoted.
-/

namespace CommandDispatch.Arguments

open Text

/-! ## Quotations -/

/-- A text, and a quote mark that does not occur in it. -/
structure Quotation where
  text : String
  mark : Char
  isQuoteMark_mark : isQuoteMark mark = true
  mark_notMem : mark ∉ text.toList

theorem isQuoteMark_double : isQuoteMark '"' = true :=
  rfl

theorem isQuoteMark_single : isQuoteMark '\'' = true :=
  rfl

namespace Quotation

/-- The text between two marks. -/
def token (q : Quotation) : String :=
  String.ofList (q.mark :: (q.text.toList ++ [q.mark]))

def literal (q : Quotation) : Literal where
  mark := q.mark
  isQuoteMark_mark := q.isQuoteMark_mark
  init := []
  last := q.text.toList
  mark_notMem_init := by simp
  mark_notMem_last := q.mark_notMem

def spelling (q : Quotation) : Spelling :=
  .quoted q.literal

theorem value_spelling (q : Quotation) : String.ofList q.spelling.value = q.text := by
  have hValue : q.spelling.value = q.text.toList := by
    simp [spelling, Spelling.value, literal, Literal.value]
  rw [hValue, String.ofList_toList]

theorem head?_opening_ne (q : Quotation) : q.spelling.opening.head? ≠ some '-' := by
  intro hHead
  have hMark : q.mark = '-' := Option.some.inj hHead
  exact ne_of_isQuoteMark q.isQuoteMark_mark (by decide) hMark

end Quotation

/-! ## Quoted flags -/

/-- A flag by its name, with a value between quote marks. An equals sign in the value would be the
second one of the token. -/
structure QuotedFlag where
  name : String
  quotation : Quotation
  equals_notMem : '=' ∉ quotation.text.toList

namespace QuotedFlag

def token (f : QuotedFlag) : String :=
  "--" ++ f.name ++ "=" ++ f.quotation.token

/-- What the flag sets. -/
def setting (f : QuotedFlag) : String × String :=
  (lower f.name, f.quotation.text)

theorem equals_notMem_opening (f : QuotedFlag) : '=' ∉ f.quotation.spelling.opening := by
  intro hMem
  have hCases : '=' = f.quotation.mark ∨ '=' ∈ f.quotation.text.toList ++ [f.quotation.mark] :=
    List.mem_cons.mp hMem
  have hMark : '=' ≠ f.quotation.mark :=
    (ne_of_isQuoteMark f.quotation.isQuoteMark_mark (by decide)).symm
  rcases hCases with hFirst | hRest
  · exact hMark hFirst
  · rcases List.mem_append.mp hRest with hText | hLast
    · exact f.equals_notMem hText
    · exact hMark (List.mem_singleton.mp hLast)

/-- What keeps the lower-case form of a name from being written after two hyphens keeps the name
from it. -/
theorem of_isFlagName_lower {name : String} (h : IsFlagName (lower name)) :
    name.toList ≠ [] ∧ '=' ∉ name.toList ∧ name.toList.head? ≠ some '-' := by
  have hLower : (lower name).toList = lowerAfter [] name.toList := String.toList_ofList
  refine ⟨?_, ?_, ?_⟩
  · intro hNil
    have hEmpty := h.ne_nil
    rw [hLower, hNil] at hEmpty
    exact hEmpty rfl
  · intro hMem
    have hIn := h.equals_notMem
    rw [hLower] at hIn
    exact hIn (mem_lowerAfter_of_isUnmapped (isUnmapped_of_mem _ (by decide)) hMem)
  · intro hHead
    have hFirst := h.head?_ne
    rw [hLower] at hFirst
    exact hFirst (head?_lowerAfter_of_isUnmapped (isUnmapped_of_mem _ (by decide)) hHead)

theorem exists_flagGroup (f : QuotedFlag) (h : IsFlagName (lower f.name)) :
    ∃ g : FlagGroup, g.tokens = [f.token] ∧ g.settings = [f.setting] := by
  obtain ⟨hNe, hEquals, hHyphen⟩ := of_isFlagName_lower h
  let g : FlagGroup :=
    { isLong := true
      key := f.name.toList
      given := some f.quotation.spelling
      key_ne_nil := hNe
      equals_notMem_key := hEquals
      head?_key_ne := hHyphen
      equals_notMem_opening := by
        rintro s ⟨⟩
        exact f.equals_notMem_opening }
  refine ⟨g, ?_, ?_⟩
  · have hToken : String.ofList g.token = f.token := by
      apply String.toList_inj.mp
      rw [token, String.toList_append, String.toList_append, String.toList_append,
        String.toList_ofList, List.append_assoc, List.append_assoc]
      have hQuotation : f.quotation.token.toList = f.quotation.spelling.opening :=
        String.toList_ofList
      rw [hQuotation]
      rfl
    rw [FlagGroup.tokens, hToken]
    rfl
  · have hValue := f.quotation.value_spelling
    exact congrArg (fun value => [(lower f.name, value)]) hValue

theorem exists_flagGroups {flags : List QuotedFlag} (h : ∀ f ∈ flags, IsFlagName (lower f.name)) :
    ∃ gs : List FlagGroup,
      gs.flatMap FlagGroup.tokens = flags.map token ∧
        gs.flatMap FlagGroup.settings = flags.map setting := by
  induction flags with
  | nil => exact ⟨[], rfl, rfl⟩
  | cons f flags ih =>
    obtain ⟨hFirst, hOthers⟩ := List.forall_mem_cons.mp h
    obtain ⟨gs, hTokens, hSettings⟩ := ih hOthers
    obtain ⟨g, hToken, hSetting⟩ := f.exists_flagGroup hFirst
    refine ⟨g :: gs, ?_, ?_⟩
    · rw [List.flatMap_cons, hToken, hTokens, List.map_cons, List.singleton_append]
    · rw [List.flatMap_cons, hSetting, hSettings, List.map_cons, List.singleton_append]

end QuotedFlag

/-! ## Slicing -/

/-- Quoted arguments are sliced into the texts between their marks. -/
theorem slice_quotations {flags : List QuotedFlag} (h : ∀ f ∈ flags, IsFlagName (lower f.name))
    (positionals : List Quotation) :
    slice (flags.map QuotedFlag.token ++ positionals.map Quotation.token) =
      .ok ⟨FlagMap.setAll ∅ (flags.map QuotedFlag.setting), positionals.map Quotation.text⟩ := by
  obtain ⟨gs, hTokens, hSettings⟩ := QuotedFlag.exists_flagGroups h
  have hHead : ∀ s ∈ (positionals.map Quotation.spelling).head?,
      s.opening.head? ≠ some '-' := by
    intro s hs
    obtain ⟨q, -, rfl⟩ := List.mem_map.mp (List.mem_of_mem_head? hs)
    exact q.head?_opening_ne
  let c : Cut := ⟨gs, positionals.map Quotation.spelling, hHead⟩
  have hCut : c.tokens = flags.map QuotedFlag.token ++ positionals.map Quotation.token := by
    have hPositionals : (positionals.map Quotation.spelling).flatMap Spelling.tokens =
        positionals.map Quotation.token := by
      rw [List.flatMap_map, List.map_eq_flatMap]
      rfl
    rw [Cut.tokens, hTokens, hPositionals]
  have hSliced : c.sliced =
      ⟨FlagMap.setAll ∅ (flags.map QuotedFlag.setting), positionals.map Quotation.text⟩ := by
    have hTexts : (positionals.map Quotation.spelling).map (fun s => String.ofList s.value) =
        positionals.map Quotation.text := by
      rw [List.map_map]
      exact List.map_congr_left fun q _ => q.value_spelling
    rw [Cut.sliced, Cut.settings, hSettings, hTexts]
  rw [← hCut, c.slice_tokens, hSliced]

end CommandDispatch.Arguments
