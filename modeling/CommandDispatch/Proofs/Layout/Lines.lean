import CommandDispatch.Proofs.Layout.Reading
import CommandDispatch.Proofs.Source.Items

/-!
# Documents that are read as tokens

The tokens of a document are put together from those of its parts. A comment ends with its line, so
that a document with comments is read back only where its lines do end: in blocks that are on
several lines.

* `Spells φ b a P d`: wherever its lines end, the document is read as tokens with `P`,
* `Given ψ P`: tokens with `P` if a condition holds, such as one on what stands in their place,
* `Spells.template`: phrases with names between them,
* `Spells.delimited`: documents with commas in delimiters, `SpellsOpen`: a group that is left open,
* `SpelledLines φ P ds`: lines that are read back anywhere, `Spells.braces`: such lines in braces,
* `OnLine φ P d`, `OnLines φ P ds`: what is read back on a line of its own, and lines in a block,
* `OnLine.braces`: lines in braces.
-/

namespace CommandDispatch.Layout

open Source Source.Parser

variable {φ : Prop} {P Q H : Tokens → Prop} {b c a : Edge} {d e : Doc String}

/-! ## Documents anywhere -/

/-- Wherever its lines end, the document is read as tokens with the property. -/
abbrev Spells (φ : Prop) (b a : Edge) (P : Tokens → Prop) (d : Doc String) : Prop :=
  Lexes φ b a (Yields P) d

/-- The property holds of the tokens if the condition holds. -/
def Given (ψ : Prop) (P : Tokens → Prop) (ts : Tokens) : Prop :=
  ψ → P ts

namespace Spells

/-- Where a document may be followed by anything, it may be followed by less. -/
theorem of_free (h : Spells φ b .free P d) : Spells φ b a P d :=
  Lexes.of_free h

theorem imp (h : Spells φ b a P d) (hPQ : ∀ ts, P ts → Q ts) : Spells φ b a Q d :=
  Lexes.imp h fun _ hls => hls.imp hPQ

/-- What holds holds under any condition. -/
theorem always {ψ : Prop} (h : Spells φ b a P d) : Spells φ b a (Given ψ P) d :=
  h.imp fun _ hts _ => hts

theorem nil : Spells φ a a (· = []) [] :=
  Lexes.nil.imp fun _ hls => hls ▸ Yields.nil

theorem append (hd : Spells φ b c P d) (he : Spells φ c a Q e) :
    Spells φ b a (Then P Q) (d ++ e) := by
  refine (Lexes.cons hd he).imp ?_
  rintro ls ⟨ms, ns, rfl, hms, hns⟩
  exact hms.append hns

/-- A phrase is read as the tokens that its lexemes nest into. They may depend on whether its last
mark is joined to another one. -/
theorem phrase {s : String} (h : isPhrase b a s = true) {ts : Bool → Tokens}
    (hTokens : ∀ joint level outer,
      nest (lexemesOf a joint s) level outer = some ((ts joint).reverse ++ level, outer)) :
    Spells φ b a (fun us => ∃ joint, us = ts joint) [.text s] := by
  have hb : b ≠ .line := by
    rintro rfl
    cases h
  refine Lexes.of_text hb ((reads_phrase h).imp ?_)
  rintro ls ⟨joint, rfl⟩
  exact ⟨ts joint, ⟨joint, rfl⟩, hTokens joint⟩

theorem text {s : String} (h : isPhrase b a s = true) {ts : Tokens}
    (hTokens : ∀ joint level outer,
      nest (lexemesOf a joint s) level outer = some (ts.reverse ++ level, outer)) :
    Spells φ b a (· = ts) [.text s] :=
  (phrase h hTokens).imp fun _ ⟨_, hus⟩ => hus

theorem word {s : String} (hs : IsName s) : Spells φ .free .word (· = [.word s]) [.text s] :=
  (Lexes.word hs).imp fun _ hls => hls ▸ .leaf (.word s)

theorem name {s : String} (hs : IsName s) : Spells φ .free .word (· = [.word s]) (Doc.name s) :=
  (Lexes.name hs).imp fun _ hls => hls ▸ .leaf (.word s)

theorem stringLiteral (s : String) :
    Spells φ .free .word (· = [.literal (.string s) (Text.stringLiteral s)])
      [.text (Text.stringLiteral s)] :=
  (Lexes.stringLiteral s).imp fun _ hls => hls ▸ .leaf _

theorem count (n : Nat) :
    Spells φ .free .word (· = [.literal .number (toString n ++ "usize")])
      ([.text (toString n)] ++ [.text "usize"]) :=
  (Lexes.count n).imp fun _ hls => hls ▸ .leaf _

/-- A document that may follow a word may stand anywhere. -/
theorem free_of (h : Spells φ b a P d) : Spells φ .free a P d :=
  Lexes.free_of h

theorem block {offset : Int} {style : Style} (h : Spells φ b a P d) :
    Spells φ b a P (Doc.block offset style d) :=
  Lexes.block h

theorem space (blank : Nat) : Spells φ a a (· = []) (Doc.space blank) :=
  Lexes.gap nil

theorem joint : Spells φ a a (· = []) Doc.joint :=
  Lexes.gap nil

theorem newline (offset : Int) : Spells φ a a (· = []) (Doc.newline offset) :=
  Lexes.gap nil

/-- One document after the other. -/
theorem flatMap {α : Type} {xs : List α} {f : α → Doc String}
    (h : ∀ x ∈ xs, Spells φ a a P (f x)) : Spells φ a a (Repeated P) (xs.flatMap f) := by
  induction xs with
  | nil =>
    refine nil.imp ?_
    rintro ts rfl
    exact .nil
  | cons x xs ih =>
    obtain ⟨hx, hRest⟩ := List.forall_mem_cons.mp h
    refine (hx.append (ih hRest)).imp ?_
    rintro ts ⟨us, vs, rfl, hus, hvs⟩
    exact .cons hus hvs

/-! ### Commas -/

/-- At the gap before a closing delimiter a comma may be written. -/
theorem lastGap (ha : isPhrase a .free "," = true) :
    Spells φ a a (fun ts => ts = [] ∨ ∃ joint, ts = [.mark ',' joint])
      [.gap { offset := -step, before := "," }] := by
  refine (Lexes.lastGap ha).imp ?_
  rintro ls (rfl | ⟨joint, rfl⟩)
  · exact Yields.nil.imp fun ts hts => .inl hts
  · exact (Yields.leaf (.mark ',' joint)).imp fun ts hts => .inr ⟨joint, hts⟩

/-- Documents with commas between them, and perhaps after the last one. -/
theorem commas {ds : List (Doc String)} (ha : isPhrase a .free "," = true)
    (h : ∀ d ∈ ds, Spells φ .free a P d) (hNe : ds ≠ []) :
    Spells φ .free a (Separated P) (Doc.commas ds) := by
  fun_induction Doc.commas ds with
  | case1 => exact absurd rfl hNe
  | case2 d =>
    refine ((h d List.mem_cons_self).append (lastGap ha)).imp ?_
    rintro ts ⟨us, _, rfl, hus, rfl | ⟨joint, rfl⟩⟩
    · rw [List.append_nil]
      exact .last hus
    · exact .cons joint hus .nil
  | case3 d ds hNe' ih =>
    have hComma : Spells φ a .free (fun ts => ∃ joint, ts = [.mark ',' joint]) (",": Doc String) :=
      phrase ha fun _ _ _ => rfl
    have hRest := ih (fun e he => h e (List.mem_cons_of_mem d he)) hNe'
    refine (((h d List.mem_cons_self).append (hComma.append (Lexes.gap nil))).append hRest).imp ?_
    rintro ts ⟨_, vs, rfl, ⟨us, _, rfl, hus, _, _, rfl, ⟨joint, rfl⟩, rfl⟩, hvs⟩
    rw [List.append_assoc]
    exact .cons joint hus hvs

section

variable {left right : String} {δ : Delimiter} (hLeft : isPhrase b .free left = true)
  (hOpens : ∀ joint, lexemesOf .free joint left = [.opening δ])
  (hRight : isPhrase c .free right = true)
  (hCloses : ∀ joint, lexemesOf .free joint right = [.closing δ])

include hLeft hOpens hRight hCloses

/-- A document in delimiters. -/
theorem enclosed (h : Spells φ .free c P d) :
    Spells φ b .free (Grouped δ P) (Doc.join [[.text left], d, [.text right]]) := by
  refine (Lexes.text .free hLeft (h.cons (Lexes.text .free hRight Lexes.nil))).imp ?_
  rintro ls ⟨_, _, rfl, ⟨joint, rfl⟩, ms, _, rfl, hms, _, _, rfl, ⟨joint', rfl⟩, rfl⟩
  rw [hOpens, hCloses]
  exact hms.group δ

/-- Documents with commas in delimiters. -/
theorem delimited (hComma : isPhrase c .free "," = true) {ds : List (Doc String)}
    (h : ∀ d ∈ ds, Spells φ .free c P d) :
    Spells φ b .free (Grouped δ (Separated P)) (Doc.delimited left right ds) := by
  unfold Doc.delimited
  split
  · refine (Lexes.text .free hLeft (Lexes.free_of (Lexes.text .free hRight Lexes.nil))).imp ?_
    rintro ls ⟨_, _, rfl, ⟨joint, rfl⟩, _, _, rfl, ⟨joint', rfl⟩, rfl⟩
    rw [hOpens, hCloses]
    exact (Yields.nil.group δ).imp fun ts ⟨us, hts, hus⟩ => ⟨us, hts, hus ▸ .nil⟩
  · rename_i hNe
    have hInside : Spells φ .free c (Separated P) (Doc.space 0 ++ Doc.commas ds) :=
      Lexes.gap (commas hComma h fun hNil => hNe hNil)
    exact enclosed hLeft hOpens hRight hCloses hInside.block

end

/-- Documents with commas in parentheses. -/
theorem parentheses {ds : List (Doc String)} (h : ∀ d ∈ ds, Spells φ .free .word P d) :
    Spells φ .word .free (Grouped .parenthesis (Separated P)) (Doc.delimited "(" ")" ds) :=
  delimited (by decide) (fun _ => rfl) (by decide) (fun _ => rfl) (by decide) h

end Spells

/-! ## Phrases with names in them -/

/-- Names, each after a phrase, and a phrase after them. -/
def template : (heads names : List String) → (last : String) → Doc String
  | s :: heads, w :: names, last => [.text s] ++ (Doc.name w ++ template heads names last)
  | _, _, last => [.text last]

/-- The phrases of a template may stand where they do, between `b` and `a`. -/
def isTemplate (b a : Edge) : (heads : List String) → (last : String) → Bool
  | [], last => isPhrase b a last
  | s :: heads, last => isPhrase b .free s && isTemplate .word a heads last

/-- The lexemes of a template. It is not known whether the last mark of each phrase is joined to
another one. -/
def templateLexemes (a : Edge) (joints : Nat → Bool) : (heads names : List String) →
    (last : String) → List Lexeme
  | s :: heads, w :: names, last =>
    lexemesOf .free (joints 0) s ++
      (.leaf (.word w) :: templateLexemes a (fun i => joints (i + 1)) heads names last)
  | _, _, last => lexemesOf a (joints 0) last

theorem lexes_template {heads names : List String} {last : String}
    (hPhrases : isTemplate b a heads last = true) (hNames : ∀ w ∈ names, IsName w)
    (hLength : heads.length = names.length) :
    Lexes φ b a (fun ls => ∃ joints, ls = templateLexemes a joints heads names last)
      (template heads names last) := by
  induction heads generalizing b names with
  | nil =>
    obtain rfl : names = [] := List.length_eq_zero_iff.mp hLength.symm
    have hLast := Lexes.text (φ := φ) a hPhrases Lexes.nil
    rw [List.append_nil] at hLast
    refine hLast.imp ?_
    rintro ls ⟨_, _, rfl, ⟨joint, rfl⟩, rfl⟩
    exact ⟨fun _ => joint, List.append_nil _⟩
  | cons s heads ih =>
    cases names with
    | nil => cases hLength
    | cons w names =>
      rw [isTemplate, Bool.and_eq_true] at hPhrases
      obtain ⟨hw, hNames⟩ := List.forall_mem_cons.mp hNames
      have hOthers := ih hPhrases.2 hNames (Nat.succ.inj hLength)
      refine (Lexes.text .free hPhrases.1 ((Lexes.name hw).cons hOthers)).imp ?_
      rintro ls ⟨_, _, rfl, ⟨joint, rfl⟩, _, _, rfl, rfl, joints, rfl⟩
      exact ⟨fun i => Nat.casesOn i joint joints, rfl⟩

/-- A template is read as the tokens that its lexemes nest into. -/
theorem Spells.template (heads names : List String) (last : String) (ts : (Nat → Bool) → Tokens)
    (hPhrases : isTemplate b a heads last = true) (hNames : ∀ w ∈ names, IsName w)
    (hLength : heads.length = names.length)
    (hTokens : ∀ joints level outer, nest (templateLexemes a joints heads names last) level outer =
      some ((ts joints).reverse ++ level, outer)) :
    Spells φ b a (fun us => ∃ joints, us = ts joints) (Layout.template heads names last) := by
  refine (lexes_template hPhrases hNames hLength).imp ?_
  rintro ls ⟨joints, rfl⟩
  exact ⟨_, ⟨joints, rfl⟩, hTokens joints⟩

/-! ## Groups that are left open -/

/-- The lexemes leave a group open. Before it are tokens with `H`, and in it are tokens with `P`. -/
def Opens (δ : Delimiter) (H P : Tokens → Prop) (ls : List Lexeme) : Prop :=
  ∃ us vs, H us ∧ P vs ∧
    ∀ level outer, nest ls level outer = some (vs.reverse, (δ, us.reverse ++ level) :: outer)

/-- What the document writes leaves a group open. -/
abbrev SpellsOpen (φ : Prop) (b a : Edge) (δ : Delimiter) (H P : Tokens → Prop)
    (d : Doc String) : Prop :=
  Lexes φ b a (Opens δ H P) d

namespace SpellsOpen

variable {δ : Delimiter}

/-- A phrase that ends where the group opens. -/
theorem text {s : String} {us : Tokens} (h : isPhrase b .free s = true)
    (hOpens : ∀ joint level outer,
      nest (lexemesOf .free joint s) level outer = some ([], (δ, us.reverse ++ level) :: outer)) :
    SpellsOpen φ b .free δ (· = us) (· = []) [.text s] := by
  have hb : b ≠ .line := by
    rintro rfl
    cases h
  refine Lexes.of_text hb ((reads_phrase h).imp ?_)
  rintro ls ⟨joint, rfl⟩
  exact ⟨us, [], rfl, rfl, hOpens joint⟩

/-- A template that ends where the group opens. -/
theorem template (heads names : List String) (last : String) (us : Tokens)
    (hPhrases : isTemplate b .free heads last = true) (hNames : ∀ w ∈ names, IsName w)
    (hLength : heads.length = names.length)
    (hOpens : ∀ joints level outer,
      nest (templateLexemes .free joints heads names last) level outer =
        some ([], (δ, us.reverse ++ level) :: outer)) :
    SpellsOpen φ b .free δ (· = us) (· = []) (Layout.template heads names last) := by
  refine (lexes_template hPhrases hNames hLength).imp ?_
  rintro ls ⟨joints, rfl⟩
  exact ⟨us, [], rfl, rfl, hOpens joints⟩

theorem append (h : SpellsOpen φ b c δ H P d) (he : Spells φ c a Q e) :
    SpellsOpen φ b a δ H (Then P Q) (d ++ e) := by
  refine (Lexes.cons h he).imp ?_
  rintro ls ⟨ms, ns, rfl, ⟨us, vs, hus, hvs, hms⟩, ws, hws, hns⟩
  refine ⟨us, vs ++ ws, hus, ⟨vs, ws, rfl, hvs, hws⟩, fun level outer => ?_⟩
  rw [nest_append, hms, Option.bind_some]
  dsimp only
  rw [hns, List.reverse_append]

theorem block {offset : Int} {style : Style} (h : SpellsOpen φ b a δ H P d) :
    SpellsOpen φ b a δ H P (Doc.block offset style d) :=
  Lexes.block h

/-- A phrase that begins where the group closes. What stands after the group may depend on whether
its last mark is joined to another one. -/
theorem close {s : String} (h : SpellsOpen φ b c δ H P d) (ws : Bool → Tokens)
    (hs : isPhrase c a s = true)
    (hCloses : ∀ joint inner level outer,
      nest (lexemesOf a joint s) inner ((δ, level) :: outer) =
        some ((ws joint).reverse ++ .group δ inner.reverse :: level, outer)) :
    Spells φ b a (Then H (Then (Grouped δ P) fun us => ∃ joint, us = ws joint))
      (d ++ [.text s]) := by
  have hText := Lexes.text (φ := φ) a hs Lexes.nil
  rw [List.append_nil] at hText
  refine (Lexes.cons h hText).imp ?_
  rintro ls ⟨ms, _, rfl, ⟨us, vs, hus, hvs, hms⟩, _, _, rfl, ⟨joint, rfl⟩, rfl⟩
  refine ⟨us ++ ([.group δ vs] ++ ws joint),
    ⟨us, _, rfl, hus, _, _, rfl, ⟨vs, rfl, hvs⟩, joint, rfl⟩, fun level outer => ?_⟩
  rw [List.append_nil, nest_append, hms, Option.bind_some]
  dsimp only
  rw [hCloses]
  simp

end SpellsOpen

/-! ## Lines anywhere -/

/-- Wherever they stand, the lines are read as tokens with the property. Without lines there are no
tokens. -/
structure SpelledLines (φ : Prop) (P : Tokens → Prop) (ds : List (Doc String)) : Prop where
  of_eq_nil : ds = [] → P []
  spells : ds ≠ [] → Spells φ .free .free P (Doc.lines ds)

namespace SpelledLines

variable {ds : List (Doc String)}

theorem imp (h : SpelledLines φ P ds) (hPQ : ∀ ts, P ts → Q ts) : SpelledLines φ Q ds where
  of_eq_nil hNil := hPQ [] (h.of_eq_nil hNil)
  spells hNe := (h.spells hNe).imp hPQ

theorem nil (h : P []) : SpelledLines φ P [] where
  of_eq_nil _ := h
  spells hNe := absurd rfl hNe

theorem cons (hd : Spells φ .free .free P d) (hds : SpelledLines φ Q ds) :
    SpelledLines φ (Then P Q) (d :: ds) where
  of_eq_nil hNil := absurd hNil (List.cons_ne_nil _ _)
  spells _ := by
    have hEnd (offset : Int) : Spells φ .free .free (· = []) (Doc.newline offset) :=
      Lexes.gap Spells.nil
    cases ds with
    | nil =>
      refine (hd.append (hEnd (-step))).imp ?_
      rintro ts ⟨us, _, rfl, hus, rfl⟩
      exact ⟨us, [], rfl, hus, hds.of_eq_nil rfl⟩
    | cons e ds =>
      have hLines : Doc.lines (d :: e :: ds) = d ++ (Doc.newline 0 ++ Doc.lines (e :: ds)) :=
        List.append_assoc ..
      rw [hLines]
      exact hd.append (Lexes.gap (hds.spells (List.cons_ne_nil _ _)))

theorem singleton (hd : Spells φ .free .free P d) : SpelledLines φ P [d] := by
  refine (cons hd (nil (P := (· = [])) rfl)).imp ?_
  rintro ts ⟨us, _, rfl, hus, rfl⟩
  rwa [List.append_nil]

end SpelledLines

/-- Lines in braces. -/
theorem Spells.braces {head : Doc String} {body : List (Doc String)}
    (hHead : Spells φ b .word H head) (hBody : SpelledLines φ P body) :
    Spells φ b .free (Then H (Grouped .brace P)) (Doc.braces head body) := by
  cases body with
  | nil =>
    have hBraces : Spells φ .word .free (· = [.group .brace []]) ("\x7b\x7d" : Doc String) :=
      .text (by decide) fun _ _ _ => rfl
    refine (hHead.append hBraces).imp ?_
    rintro ts ⟨us, _, rfl, hus, rfl⟩
    exact ⟨us, _, rfl, hus, [], rfl, hBody.of_eq_nil rfl⟩
  | cons first others =>
    let lines : Doc String := Doc.newline 0 ++ Doc.lines (first :: others)
    have hDoc : Doc.braces head (first :: others) =
        Doc.block step .consistent (head ++ (("\x7b" : Doc String) ++ lines)) ++
          [.text "\x7d"] := by
      simp [Doc.braces, Doc.join, lines]
    have hLines : Spells φ .free .free P lines :=
      Lexes.gap (hBody.spells (List.cons_ne_nil _ _))
    have hOpening : isPhrase .word .free "\x7b" = true := by decide
    have hInside := hHead.cons (Lexes.text .free hOpening hLines)
    rw [hDoc]
    refine (hInside.block.cons (Lexes.text .free (s := "\x7d") (by decide) Lexes.nil)).imp ?_
    rintro ls ⟨_, _, rfl, ⟨ms, _, rfl, hms, _, ns, rfl, ⟨joint, rfl⟩, hns⟩, _, _, rfl,
      ⟨joint', rfl⟩, rfl⟩
    rw [List.append_assoc, List.append_assoc]
    exact hms.append (hns.group .brace)

/-! ## Documents on lines of their own -/

/-- On a line of its own, the document is read as tokens with the property. -/
abbrev OnLine (φ : Prop) (P : Tokens → Prop) (d : Doc String) : Prop :=
  Writes Page.AtLine d (Reads φ .free .line (Yields P))

/-- The documents are read as tokens with the property if each of them is on a line. Without
documents there are no tokens. -/
structure OnLines (φ : Prop) (P : Tokens → Prop) (ds : List (Doc String)) : Prop where
  of_eq_nil : ds = [] → P []
  writes : ds ≠ [] → Writes Page.AtLine (Doc.lines ds) (Reads φ .free .free (Yields P))

theorem OnLine.imp (h : OnLine φ P d) (hPQ : ∀ ts, P ts → Q ts) : OnLine φ Q d :=
  Writes.imp h fun _ hOut => hOut.imp fun _ hls => hls.imp hPQ

theorem OnLine.of_spells (h : Spells φ .free .line P d) : OnLine φ P d :=
  Writes.of_imp h fun _ _ => trivial

/-- The end of the line after a document. -/
theorem OnLine.endLine (hd : OnLine φ P d) (offset : Int) :
    Writes Page.AtLine (d ++ Doc.newline offset) (Reads φ .free .free (Yields P)) := by
  have hEnd : Writes Page.InLines (Doc.newline offset) (· = ['\n']) := by
    refine ((Writes.gap_of_broken (g := { blank := infiniteWidth, offset }) rfl).of_imp
      fun _ hPage => hPage.1).imp ?_
    rintro out ⟨s, t, rfl, rfl, rfl⟩
    rfl
  refine (Writes.append hd hEnd fun _ _ _ hPage hExtends => hPage.1.of_extends hExtends).imp ?_
  rintro out ⟨s, t, rfl, hs, rfl⟩
  refine (hs.append (Reads.newline (a := .free))).imp ?_
  rintro ls ⟨ms, ns, rfl, hms, rfl⟩
  rwa [List.append_nil]

namespace OnLines

variable {ds : List (Doc String)}

theorem imp (h : OnLines φ P ds) (hPQ : ∀ ts, P ts → Q ts) : OnLines φ Q ds where
  of_eq_nil hNil := hPQ [] (h.of_eq_nil hNil)
  writes hNe := (h.writes hNe).imp fun _ hOut => hOut.imp fun _ hls => hls.imp hPQ

theorem nil (h : P []) : OnLines φ P [] where
  of_eq_nil _ := h
  writes hNe := absurd rfl hNe

theorem cons (hd : OnLine φ P d) (hds : OnLines φ Q ds) : OnLines φ (Then P Q) (d :: ds) where
  of_eq_nil hNil := absurd hNil (List.cons_ne_nil _ _)
  writes _ := by
    cases ds with
    | nil =>
      refine (hd.endLine (-step)).imp fun _ hOut => hOut.imp fun _ hls => hls.imp fun ts hts => ?_
      exact ⟨ts, [], (List.append_nil ts).symm, hts, hds.of_eq_nil rfl⟩
    | cons e ds =>
      have hRest := hds.writes (List.cons_ne_nil _ _)
      have hLines : Doc.lines (d :: e :: ds) = d ++ (Doc.newline 0 ++ Doc.lines (e :: ds)) :=
        List.append_assoc ..
      rw [hLines]
      refine (Writes.append hd (Writes.newline_append hRest)
        fun _ _ _ hPage hExtends => hPage.1.of_extends hExtends).imp ?_
      rintro out ⟨s, t, rfl, hs, u, rfl, hu⟩
      refine (hs.append ((Reads.newline (b := .line) (a := .free)).append hu)).imp ?_
      rintro ls ⟨ms, ns, rfl, hms, _, os, rfl, rfl, hos⟩
      exact hms.append hos

end OnLines

/-- What stands before a brace, and the lines after it. -/
theorem writes_opened {head body : Doc String} (hHead : Spells φ .free .word H head)
    (hBody : Writes Page.AtLine body (Reads φ .free .free (Yields P))) :
    Writes Page.InLines (head ++ ("\x7b" : Doc String) ++ (Doc.newline 0 ++ body))
      (Reads φ .free .free fun ls => ∃ ms ns, Yields H ms ∧ Yields P ns ∧
        ls = ms ++ .opening .brace :: ns) := by
  have hOpened : Lexes φ .free .free (fun ls => ∃ ms, Yields H ms ∧ ls = ms ++ [.opening .brace])
      (head ++ ("\x7b" : Doc String)) := by
    refine (hHead.cons (Lexes.text .free (by decide) Lexes.nil)).imp ?_
    rintro ls ⟨ms, _, rfl, hms, _, _, rfl, ⟨joint, rfl⟩, rfl⟩
    exact ⟨ms, hms, rfl⟩
  refine ((Writes.of_imp hOpened fun _ _ => trivial).append (Writes.newline_append hBody)
    fun _ _ _ hPage hExtends => hPage.of_extends hExtends).imp ?_
  rintro out ⟨s, t, rfl, hs, u, rfl, hu⟩
  refine (hs.append ((Reads.newline (b := .free) (a := .free)).append hu)).imp ?_
  rintro ls ⟨_, _, rfl, ⟨ms, hms, rfl⟩, _, os, rfl, rfl, hos⟩
  exact ⟨ms, os, hms, hos, by simp⟩

/-- Lines in braces. The first of them ends after the brace that opens, so that the block is on
several lines wherever it stands. -/
theorem OnLine.braces {head : Doc String} {body : List (Doc String)}
    (hHead : Spells φ .free .word H head) (hBody : OnLines φ P body) :
    OnLine φ (Then H (Grouped .brace P)) (Doc.braces head body) := by
  cases body with
  | nil =>
    have hBraces : Spells φ .word .free (· = [.group .brace []]) ("\x7b\x7d" : Doc String) :=
      .text (by decide) fun _ _ _ => rfl
    refine OnLine.imp (.of_spells (.of_free (hHead.append hBraces))) ?_
    rintro ts ⟨us, _, rfl, hus, rfl⟩
    exact ⟨us, _, rfl, hus, [], rfl, hBody.of_eq_nil rfl⟩
  | cons first others =>
    let inside := head ++ ("\x7b" : Doc String) ++ (Doc.newline 0 ++ Doc.lines (first :: others))
    have hDoc : Doc.braces head (first :: others) =
        Doc.block step .consistent inside ++ ("\x7d" : Doc String) := by
      simp [Doc.braces, Doc.join, inside]
    have hInside := writes_opened hHead (hBody.writes (List.cons_ne_nil _ _))
    have hWide : infiniteWidth ≤ inside.width :=
      Doc.width_le_of_mem (p := .gap { blank := infiniteWidth, offset := 0 })
        (List.mem_append_right _ List.mem_cons_self)
    have hClosing :
        Lexes φ .free .line (fun ls => ls = [.closing .brace]) ("\x7d" : Doc String) := by
      refine (Lexes.text .line (by decide) Lexes.nil).imp ?_
      rintro ls ⟨_, _, rfl, ⟨joint, rfl⟩, rfl⟩
      rfl
    rw [hDoc]
    refine (((Writes.brokenBlock (by decide) hWide hInside).of_imp fun _ hPage => hPage.2).append
      hClosing fun _ _ _ _ _ => trivial).imp ?_
    rintro out ⟨s, t, rfl, hs, ht⟩
    refine (hs.append ht).imp ?_
    rintro ls ⟨_, _, rfl, ⟨ms, ns, hms, hns, rfl⟩, rfl⟩
    rw [List.append_assoc, List.cons_append]
    exact hms.append (hns.group .brace)

end CommandDispatch.Layout
