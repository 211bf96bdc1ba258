import CommandDispatch.Dispatcher.Generate
import CommandDispatch.Proofs.Dispatcher.ItemLines
import CommandDispatch.Proofs.Source.Name

/-!
# The text of a dispatcher is source text

A dispatcher is laid out as a module with its items. Whatever its names are, the text of the module
is cut into the tokens of a module. If its comments can be read back and the paths of its commands
can be called, the tokens are read as a file of one module.

* `IsPrintable`: what must be known of the names and the comments of a dispatcher,
* `IsPrintable.onLines_items`: the items are read back,
* `IsPrintable.parseFile_text_cases`: the text is read as a file of one module, or not at all,
* `IsPrintable.parseFile_text`: it is read, if the paths of the commands can be called.
-/

namespace CommandDispatch.Dispatcher

open Layout Source Source.Parser Text

variable {φ ψ : Prop}

/-! ## The attribute of the module -/

theorem spells_warnings {ws : List String} (h : ∀ w ∈ ws, IsName w) :
    Spells φ .free .free (Repeated fun _ => True)
      (ws.flatMap fun w => Doc.join [[.text w] ++ [.text ","], (Doc.newline 0 : Doc String)]) := by
  refine .flatMap fun w hw => ?_
  have hComma : Spells φ .word .free (fun ts => ∃ joint, ts = [.mark ',' joint])
      ("," : Doc String) :=
    .phrase (by decide) fun _ _ _ => rfl
  exact (((Spells.word (h w hw)).append hComma).append ((Spells.newline 0).append .nil)).imp
    fun _ _ => trivial

theorem spells_allowed : Spells φ .free .free AreAttributes (allowedDoc : Doc String) := by
  have hNames : ∀ w ∈ ["dead_code", "unused_variables", "unreachable_code",
      "unreachable_patterns"], IsName w := by decide
  have hClippy : Spells φ .free .word (· = [.word "clippy", .mark ':' true, .mark ':' false,
      .word "all"]) ("clippy::all" : Doc String) :=
    .text (by decide) fun _ _ _ => rfl
  have hLast : Spells φ .free .word (fun _ => True) ("clippy::all" : Doc String) :=
    hClippy.imp fun _ _ => trivial
  have hMiddle := (Spells.newline (φ := φ) 0).append ((spells_warnings hNames).append
    (hLast.append ((Spells.newline (-step)).append .nil)))
  have hOpens : isPhrase .free .free "#[allow(" = true := by decide
  have hOpened := Lexes.text .free hOpens hMiddle
  refine (hOpened.block.cons (Lexes.text (s := ")]") .free (by decide) Lexes.nil)).imp ?_
  rintro ls ⟨_, _, rfl, ⟨_, ms, rfl, ⟨joint, rfl⟩, inside, -, hInside⟩, _, _, rfl, ⟨joint', rfl⟩,
    rfl⟩
  refine ⟨_, areAttributes_cons false (isAttributeText_allow inside) .nil, fun level outer => ?_⟩
  have hBefore : nest (lexemesOf .free joint "#[allow(") level outer = some ([],
      (.parenthesis, [.word "allow"]) :: (.bracket, .mark '#' false :: level) :: outer) := rfl
  rw [List.append_assoc, nest_append, hBefore, Option.bind_some]
  dsimp only
  rw [nest_append, hInside, Option.bind_some, List.append_nil, List.append_nil]
  have hAfter : nest (lexemesOf .free joint' ")]") inside.reverse
      ((.parenthesis, [.word "allow"]) :: (.bracket, .mark '#' false :: level) :: outer) =
      some (.group .bracket [.word "allow", .group .parenthesis inside.reverse.reverse] ::
        .mark '#' false :: level, outer) := rfl
  rw [List.reverse_reverse] at hAfter
  exact hAfter

/-! ## The module -/

/-- What a dispatcher of so many commands says of itself. -/
def summary (n : Nat) : String :=
  "//! Dispatcher for " ++ toString n ++ " command(s). Generated by cligen."

theorem onLine_summary (n : Nat) :
    OnLine φ (IsDocumentation true) (summary n) := by
  let text := " Dispatcher for ".toList ++
    ((toString n).toList ++ " command(s). Generated by cligen.".toList)
  have hList : (summary n).toList = '/' :: '/' :: '!' :: text := by
    unfold summary
    rw [String.toList_append, String.toList_append, List.append_assoc]
    rfl
  have hDigits : (toString n).toList = Nat.toDigits 10 n := Nat.toList_repr
  have hNotMem : ∀ c ∈ ['\n', '\r'], c ∉ text := by
    intro c hc hMem
    rw [List.mem_append, List.mem_append, hDigits] at hMem
    have hPlain : ['\n', '\r'].all (fun c => !" Dispatcher for ".toList.contains c &&
      !c.isDigit && !" command(s). Generated by cligen.".toList.contains c) = true := by decide
    have hAt := List.all_eq_true.mp hPlain c hc
    simp only [Bool.and_eq_true, Bool.not_eq_true', List.contains_eq_mem,
      decide_eq_false_iff_not] at hAt
    rcases hMem with hMem | hMem | hMem
    · exact hAt.1.1 hMem
    · rw [Nat.isDigit_of_mem_toDigits (by decide) (by decide) hMem] at hAt
      cases hAt.1.2
    · exact hAt.2 hMem
  have hReads : Reads φ .free .line (Yields (IsDocumentation true))
      ('/' :: '/' :: '!' :: text) := by
    intro rest hRest
    refine ⟨trivial, _, ⟨docAttribute true text, ⟨text, rfl⟩, fun _ _ => rfl⟩,
      cuts_innerComment (hNotMem _ (by decide)) (hNotMem _ (by decide)) hRest⟩
  rw [← hList] at hReads
  exact .of_spells (Lexes.of_text (by decide) hReads)

/-- The names and the texts of the dispatcher can be read back. -/
structure IsPrintable (φ : Prop) (d : Dispatcher String) : Prop where
  moduleName : IsIdentifier d.moduleName
  row : ∀ r ∈ d.rows, r.IsPrintable φ
  lookupNames : ∀ w ∈ d.lookupNames.toList, IsIdentifier w
  startNames : ∀ w ∈ d.startNames.toList, IsIdentifier w
  arm : ∀ a ∈ d.arms, a.IsPrintable

/-- The tokens of a file that is one module. Under the condition they are those of items. -/
def IsModule (ψ : Prop) (m : String) (ts : Tokens) : Prop :=
  ∃ attributes text items, AreAttributes attributes ∧ Given ψ IsContent items ∧
    ts = attributes ++ moduleTokens m (docAttribute true text ++ items)

namespace IsPrintable

variable {d : Dispatcher String}

theorem onLines_items (h : d.IsPrintable φ)
    (hCallees : ψ → ∀ a ∈ d.arms, a.path.isCallee = true) :
    OnLines φ (Given ψ IsContent)
      (targetItems d.rows ++ (tableItems d.rows ++ (lookupItems d.lookupNames ++
        usageItem d.usage :: (startItems d.startNames d.arms ++ [])))) :=
  onLines_targetItems h.row <| onLines_tableItems h.row <|
    onLines_lookupItems h.lookupNames <| onLines_item (onLine_usage d.usage) <|
    onLines_startItems h.startNames h.arm hCallees (.nil fun _ => .nil)

theorem onLine_module (h : d.IsPrintable φ) (n : Nat) {docs : List (Doc String)}
    {P : Tokens → Prop} (hDocs : OnLines φ P docs) :
    OnLine φ (fun ts => ∃ text items, P items ∧
        ts = moduleTokens d.moduleName (docAttribute true text ++ items))
      (Doc.braces ("pub mod " ++ d.moduleName ++ " ") (summary n :: docs)) := by
  have hFirst : Spells φ .free .free (· = [.word "pub", .word "mod"]) ("pub mod " : Doc String) :=
    .text (by decide) fun _ _ _ => rfl
  have hLast : Spells φ .word .word (· = []) (" " : Doc String) :=
    .text (by decide) fun _ _ _ => rfl
  have hHead := (hFirst.append (.word h.moduleName.isName)).append hLast
  refine OnLine.imp (.braces hHead (.cons (onLine_summary n) hDocs)) ?_
  rintro ts ⟨_, _, rfl, ⟨_, _, rfl, ⟨_, _, rfl, rfl, rfl⟩, rfl⟩, _, rfl, _, items, rfl,
    ⟨text, rfl⟩, hItems⟩
  exact ⟨text, items, hItems, rfl⟩

theorem reads_render (h : d.IsPrintable φ)
    (hCallees : ψ → ∀ a ∈ d.arms, a.path.isCallee = true) :
    Reads φ .free .free (Yields (IsModule ψ d.moduleName)) (render d.doc).toList := by
  let body := targetItems d.rows ++ (tableItems d.rows ++ (lookupItems d.lookupNames ++
    usageItem d.usage :: (startItems d.startNames d.arms ++ [])))
  let module := Doc.braces ("pub mod " ++ d.moduleName ++ " " : Doc String)
    (summary d.rows.length :: body)
  have hModule := h.onLine_module d.rows.length (h.onLines_items hCallees)
  let inside : Doc String := allowedDoc ++ (Doc.newline 0 ++ (module ++ Doc.newline 0))
  have hDoc : d.doc = Doc.block 0 .consistent inside := rfl
  have hInside : Writes Page.InLines inside
      (Reads φ .free .free (Yields (IsModule ψ d.moduleName))) := by
    have hAllowed : Spells φ .free .free _ (allowedDoc : Doc String) := spells_allowed
    refine ((Writes.of_imp hAllowed fun _ _ => trivial).append
      (Writes.newline_append (hModule.endLine 0))
      fun _ _ _ hPage hExtends => hPage.of_extends hExtends).imp ?_
    rintro out ⟨s, t, rfl, hs, u, rfl, hu⟩
    refine (hs.append ((Reads.newline (b := .free) (a := .free)).append hu)).imp ?_
    rintro ls ⟨ms, _, rfl, hms, _, ns, rfl, rfl, hns⟩
    refine (hms.append hns).imp ?_
    rintro ts ⟨attributes, _, rfl, hAttributes, text, items, hItems, rfl⟩
    exact ⟨attributes, text, items, hAttributes, hItems, rfl⟩
  have hWide : infiniteWidth ≤ inside.width :=
    Doc.width_le_of_mem (p := .gap { blank := infiniteWidth, offset := 0 })
      (List.mem_append_right _ List.mem_cons_self)
  rw [hDoc]
  exact (Writes.brokenBlock (le_refl 0) hWide hInside).render ⟨by decide, by decide⟩

theorem cuts_header (rest : List Char) : Cuts φ header.toList rest [] := by
  intro level outer level' outer' r hNest h
  cases hNest
  have hLine : skipOne (header.toList ++ rest) = some ('\n' :: rest) := rfl
  exact .inl (ReadsAs.skip hLine (ReadsAs.skip rfl h))

/-- The tokens of the text. There may be none only where the comments cannot be read back. -/
theorem exists_isModule (h : d.IsPrintable φ)
    (hCallees : ψ → ∀ a ∈ d.arms, a.path.isCallee = true) :
    ∃ ts, IsModule ψ d.moduleName ts ∧
      (parseFile d.text = readAll fileItems ts ∨ φ ∧ parseFile d.text = none) := by
  have hText : d.text.toList = header.toList ++ (render d.doc).toList := String.toList_append
  obtain ⟨-, ls, ⟨ts, hModule, hNest⟩, hCuts⟩ := h.reads_render hCallees [] trivial
  have hAll : Cuts φ d.text.toList [] ([] ++ ls) := by
    rw [hText]
    exact (cuts_header _).append hCuts
  have hMark : d.text.toList.head? ≠ some '\ufeff' := by
    rw [hText]
    exact fun hHead => absurd (Option.some.inj hHead) (by decide)
  have hProgram : beginsWith d.text.toList "#!" = false := by
    rw [hText]
    rfl
  have hParse := parseFile_eq hMark hProgram
  refine ⟨ts, hModule, ?_⟩
  obtain hTokens | ⟨hφ, hNone⟩ := tokenize_of_cuts hMark hAll (hNest [] [])
  · rw [List.append_nil, List.reverse_reverse] at hTokens
    exact .inl (by rw [hParse, hTokens, Option.bind_some])
  · exact .inr ⟨hφ, by rw [hParse, hNone, Option.bind_none]⟩

/-- Whatever the paths and the comments are, the text is read as a file of one item, or not at
all. -/
theorem parseFile_text_cases (h : d.IsPrintable φ) :
    parseFile d.text = some [.other] ∨ parseFile d.text = none := by
  obtain ⟨ts, ⟨attributes, text, items, hAttributes, -, rfl⟩, hParse | ⟨-, hNone⟩⟩ :=
    h.exists_isModule (ψ := False) False.elim
  · rw [hParse]
    exact readAll_module_cases hAttributes h.moduleName.not_reserved _
  · exact .inr hNone

end IsPrintable

end CommandDispatch.Dispatcher
