import CommandDispatch.Proofs.Layout.Writing
import CommandDispatch.Proofs.Source.Phrase

/-!
# Documents that are read back

A document is read back if every text that it may write is cut into lexemes of which something is
known. What is known of the lexemes of a document follows from what is known of its parts, since
texts are cut one after the other.

* `Reads φ b a t out`: before what may follow it, the text is cut into lexemes with `t`,
* `Reads.append`: texts after each other,
* `Lexes φ b a t d`: what the document writes is cut so, wherever its lines end.
-/

namespace CommandDispatch.Layout

open Source

variable {φ : Prop}

/-! ## Texts -/

/-- Before whatever `a` allows, the text is cut into lexemes with `t`. With what follows it, the
text is what `b` allows. -/
def Reads (φ : Prop) (b a : Edge) (t : List Lexeme → Prop) (out : List Char) : Prop :=
  ∀ rest, Follows a rest → Follows b (out ++ rest) ∧ ∃ ls, t ls ∧ Cuts φ out rest ls

namespace Reads

variable {a b c : Edge} {t u : List Lexeme → Prop} {r s out : List Char}

theorem append (h : Reads φ b c t r) (h' : Reads φ c a u s) :
    Reads φ b a (fun ls => ∃ ms ns, ls = ms ++ ns ∧ t ms ∧ u ns) (r ++ s) := by
  intro rest hRest
  obtain ⟨hFollows, ns, hns, hCutsSecond⟩ := h' rest hRest
  obtain ⟨hBegins, ms, hms, hCutsFirst⟩ := h (s ++ rest) hFollows
  rw [List.append_assoc]
  exact ⟨hBegins, ms ++ ns, ⟨ms, ns, rfl, hms, hns⟩, hCutsFirst.append hCutsSecond⟩

theorem imp (h : Reads φ b a t out) (htu : ∀ ls, t ls → u ls) : Reads φ b a u out := by
  intro rest hRest
  obtain ⟨hBegins, ls, hls, hCuts⟩ := h rest hRest
  exact ⟨hBegins, ls, htu ls hls, hCuts⟩

/-- What may be followed by more is demanded less of. -/
theorem of_follows (h : Reads φ b a t out) (hb : ∀ rest, Follows b rest → Follows c rest)
    {e : Edge} (ha : ∀ rest, Follows e rest → Follows a rest) : Reads φ c e t out := by
  intro rest hRest
  obtain ⟨hBegins, ls, hls, hCuts⟩ := h rest (ha rest hRest)
  exact ⟨hb _ hBegins, ls, hls, hCuts⟩

theorem nil : Reads φ a a (· = []) [] :=
  fun _ hRest => ⟨hRest, [], rfl, .nil⟩

theorem newline : Reads φ b a (· = []) ['\n'] := by
  intro rest _
  refine ⟨?_, [], rfl, Cuts.skip rfl⟩
  cases b with
  | free => trivial
  | word =>
    intro c hc
    obtain rfl : '\n' = c := Option.some.inj hc
    decide
  | token =>
    intro c hc
    obtain rfl : '\n' = c := Option.some.inj hc
    decide
  | line => rfl

theorem cuts_spaces (n : Nat) (rest : List Char) : Cuts φ (List.replicate n ' ') rest [] := by
  induction n with
  | zero => exact .nil
  | succ n ih => exact Cuts.append (Cuts.skip rfl) ih

/-- Spaces before a text change nothing, unless the end of the line is wanted. -/
theorem of_spaced {s : String} (hb : b ≠ .line) (h : Reads φ b a t s.toList)
    (hOut : Writes.Spaced s out) : Reads φ b a t out := by
  obtain ⟨n, rfl⟩ := hOut
  intro rest hRest
  obtain ⟨hBegins, ls, hls, hCuts⟩ := h rest hRest
  rw [List.append_assoc]
  refine ⟨?_, ls, hls, (cuts_spaces n _).append hCuts⟩
  cases n with
  | zero => exact hBegins
  | succ n =>
    cases b with
    | free => trivial
    | word =>
      intro c hc
      obtain rfl : ' ' = c := Option.some.inj hc
      decide
    | token =>
      intro c hc
      obtain rfl : ' ' = c := Option.some.inj hc
      decide
    | line => exact absurd rfl hb

end Reads

/-! ## Phrases -/

/-- The text begins with what `b` allows. -/
def beginsWithin (b : Edge) (s : List Char) : Bool :=
  match b with
  | .free => true
  | .word => s.head?.any (!isWordish ·)
  | .token => s.head?.any (!isTokenish ·)
  | .line => false

theorem follows_of_beginsWithin {b : Edge} {s : List Char} (h : beginsWithin b s = true)
    (rest : List Char) : Follows b (s ++ rest) := by
  cases b with
  | free => trivial
  | line => cases h
  | word =>
    cases s with
    | nil => cases h
    | cons c s =>
      intro d hd
      obtain rfl : c = d := Option.some.inj hd
      simpa [beginsWithin] using h
  | token =>
    cases s with
    | nil => cases h
    | cons c s =>
      intro d hd
      obtain rfl : c = d := Option.some.inj hd
      simpa [beginsWithin] using h

theorem follows_free (rest : List Char) : Follows .free rest :=
  trivial

/-- The lexemes of a phrase that may stand before what `a` allows. -/
def lexemesOf (a : Edge) (joint : Bool) (s : String) : List Lexeme :=
  (phrase (a == .word) joint s.toList).getD []

/-- The text is a phrase that may stand where `b` is wanted and before what `a` allows. -/
def isPhrase (b a : Edge) (s : String) : Bool :=
  beginsWithin b s.toList &&
    [true, false].all fun joint => (phrase (a == .word) joint s.toList).isSome

theorem reads_phrase {b a : Edge} {s : String} (h : isPhrase b a s = true) :
    Reads φ b a (fun ls => ∃ joint, ls = lexemesOf a joint s) s.toList := by
  rw [isPhrase, Bool.and_eq_true] at h
  obtain ⟨hBegins, hAll⟩ := h
  intro rest hRest
  have hJoint := List.all_eq_true.mp hAll (takeMark rest).isSome
    (by cases (takeMark rest).isSome <;> decide)
  obtain ⟨ls, hPhrase⟩ := Option.isSome_iff_exists.mp hJoint
  refine ⟨follows_of_beginsWithin hBegins rest, ls, ⟨(takeMark rest).isSome, ?_⟩,
    cuts_phrase hPhrase ?_ rfl⟩
  · rw [lexemesOf, hPhrase, Option.getD_some]
  · intro hWord
    rw [beq_iff_eq] at hWord
    exact hWord ▸ hRest

/-! ## Documents -/

/-- What the document writes is cut into lexemes with `t`. -/
abbrev Lexes (φ : Prop) (b a : Edge) (t : List Lexeme → Prop) (d : Doc String) : Prop :=
  Writes (fun _ => True) d (Reads φ b a t)

namespace Lexes

variable {a b c : Edge} {t u : List Lexeme → Prop} {d e : Doc String}

theorem imp (h : Lexes φ b a t d) (htu : ∀ ls, t ls → u ls) : Lexes φ b a u d :=
  Writes.imp h fun _ hOut => hOut.imp htu

theorem nil : Lexes φ a a (· = []) [] :=
  Writes.nil.imp fun _ hOut => hOut ▸ Reads.nil

theorem cons (hd : Lexes φ b c t d) (he : Lexes φ c a u e) :
    Lexes φ b a (fun ls => ∃ ms ns, ls = ms ++ ns ∧ t ms ∧ u ns) (d ++ e) := by
  refine (Writes.append hd he fun _ _ _ _ _ => trivial).imp ?_
  rintro out ⟨r, s, rfl, hr, hs⟩
  exact hr.append hs

theorem of_text {s : String} (hb : b ≠ .line) (h : Reads φ b a t s.toList) :
    Lexes φ b a t [.text s] :=
  (Writes.text s).imp fun _ hOut => Reads.of_spaced hb h hOut

/-- A phrase, and what follows it. -/
theorem text {s : String} (c : Edge) (h : isPhrase b c s = true) (hd : Lexes φ c a t d) :
    Lexes φ b a (fun ls => ∃ ms ns, ls = ms ++ ns ∧ (∃ joint, ms = lexemesOf c joint s) ∧ t ns)
      ([.text s] ++ d) := by
  have hb : b ≠ .line := by
    rintro rfl
    cases h
  exact (of_text hb (reads_phrase h)).cons hd

/-- A gap at which nothing but a line may end, and what follows it. -/
theorem gap {g : Gap} (hd : Lexes φ b a t d) (hUnbroken : g.unbroken = "" := by rfl)
    (hBefore : g.before.isEmpty = true := by rfl) (hAfter : g.after.isEmpty = true := by rfl) :
    Lexes φ b a t ([.gap g] ++ d) := by
  have hGap : Lexes φ b b (· = []) [.gap g] := by
    refine (Writes.gap g).imp ?_
    rintro out (rfl | ⟨s, u, rfl, hs, hu⟩)
    · rw [hUnbroken]
      exact Reads.nil
    · rw [if_pos hBefore] at hs
      rw [if_pos hAfter] at hu
      subst hs hu
      exact Reads.newline
  refine (hGap.cons hd).imp ?_
  rintro ls ⟨ms, ns, rfl, rfl, hns⟩
  exact hns

/-- The gap before the closing delimiter. A comma may stand before the end of the line. -/
theorem lastGap (h : isPhrase a .free "," = true) :
    Lexes φ a a (fun ls => ls = [] ∨ ∃ joint, ls = lexemesOf .free joint ",")
      [.gap { offset := -step, before := "," }] := by
  have ha : a ≠ .line := by
    rintro rfl
    cases h
  refine (Writes.gap _).imp ?_
  rintro out (rfl | ⟨s, u, rfl, hs, hu⟩)
  · exact Reads.nil.imp fun ls hls => .inl hls
  · subst hu
    have hComma : Reads φ a .free (fun ls => ∃ joint, ls = lexemesOf .free joint ",") s :=
      Reads.of_spaced ha (reads_phrase h) hs
    refine (hComma.append Reads.newline).imp ?_
    rintro ls ⟨ms, ns, rfl, hms, rfl⟩
    rw [List.append_nil]
    exact .inr hms

theorem block {offset : Int} {style : Style} (h : Lexes φ b a t d) :
    Lexes φ b a t (Doc.block offset style d) :=
  Writes.block (Writes.of_imp h fun _ _ => trivial)

/-- Where a document may be followed by anything, it may be followed by less. -/
theorem of_free (h : Lexes φ b .free t d) : Lexes φ b a t d :=
  Writes.imp h fun _ hOut => hOut.of_follows (fun _ hRest => hRest) fun rest _ => follows_free rest

/-- A document that may follow a word may stand anywhere. -/
theorem free_of (h : Lexes φ b a t d) : Lexes φ .free a t d :=
  Writes.imp h fun _ hOut => hOut.of_follows (fun rest _ => follows_free rest) fun _ hRest => hRest

/-! ### Single lexemes -/

theorem of_cuts {s : List Char} {ls : List Lexeme} (h : ∀ rest, Follows a rest → Cuts φ s rest ls) :
    Reads φ .free a (· = ls) s :=
  fun rest hRest => ⟨trivial, ls, rfl, h rest hRest⟩

theorem name {s : String} (hs : IsName s) :
    Lexes φ .free .word (· = [.leaf (.word s)]) (Doc.name s) :=
  (Writes.name s).imp fun _ hOut =>
    Reads.of_spaced (by decide) (of_cuts fun _ hRest => cuts_name hs hRest) hOut

theorem word {s : String} (hs : IsName s) :
    Lexes φ .free .word (· = [.leaf (.word s)]) [.text s] :=
  of_text (by decide) (of_cuts fun _ hRest => cuts_name hs hRest)

theorem stringLiteral (s : String) :
    Lexes φ .free .word (· = [.leaf (.literal (.string s) (Text.stringLiteral s))])
      [.text (Text.stringLiteral s)] :=
  of_text (by decide) (of_cuts fun _ hRest => cuts_stringLiteral s hRest)

theorem count (n : Nat) :
    Lexes φ .free .word (· = [.leaf (.literal .number (toString n ++ "usize"))])
      ([.text (toString n)] ++ [.text "usize"]) :=
  (Writes.text_text _ _).imp fun _ hOut =>
    Reads.of_spaced (by decide) (of_cuts fun _ hRest => cuts_count n hRest) hOut

end Lexes

end CommandDispatch.Layout
