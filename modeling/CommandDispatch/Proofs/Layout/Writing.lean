import Mathlib.Algebra.Order.BigOperators.Group.List
import Mathlib.Algebra.Order.Group.Nat
import Mathlib.Algebra.Ring.Nat
import CommandDispatch.Layout.Page

/-!
# What a document writes

Where the lines of a document end depends on widths, but little of its text does. What can be said
of the text wherever the lines end is said by a property that holds of every text that the document
may write.

* `Doc.width` is the width of a document on one line,
* `Writes ok d p`: from a page with `ok`, the document appends a text with the property `p`, and
  leaves the blocks around it as they are,
* `Writes.append`, `Writes.block`, `Writes.brokenBlock`: documents after each other and in blocks,
* `Writes.render`: what holds of the text of a document.
-/

namespace CommandDispatch.Layout

/-! ## Widths -/

def Piece.width : Piece String → Nat
  | .text s => s.utf8ByteSize
  | .name s => s.utf8ByteSize
  | .gap g => g.blank
  | .opening .. => 0
  | .closing => 0

def Doc.width (d : Doc String) : Nat :=
  (d.map Piece.width).sum

theorem Doc.width_append (d e : Doc String) : Doc.width (d ++ e) = d.width + e.width := by
  rw [Doc.width, List.map_append, List.sum_append]
  rfl

theorem Doc.width_block (offset : Int) (style : Style) (d : Doc String) :
    (Doc.block offset style d).width = d.width := by
  simp [Doc.block, Doc.width, Piece.width]

theorem Doc.width_le_of_mem {d : Doc String} {p : Piece String} (h : p ∈ d) :
    p.width ≤ d.width :=
  List.le_sum_of_mem (List.mem_map_of_mem h)

theorem addWidth_addWidth (v w : Nat) (distances : List Nat) :
    addWidth v (addWidth w distances) = addWidth (v + w) distances := by
  simp [addWidth, Nat.add_comm w v]

/-! ## Pages -/

/-- The page goes on with a text, in the same blocks as before. -/
structure Page.Extends (p q : Page) (out : List Char) : Prop where
  written_eq : q.written.toList = p.written.toList ++ out
  frames_eq : q.frames = p.frames
  indentation_eq : q.indentation = p.indentation

theorem Page.Extends.trans {p q r : Page} {s t : List Char} (h : p.Extends q s)
    (h' : q.Extends r t) : p.Extends r (s ++ t) where
  written_eq := by rw [h'.written_eq, h.written_eq, List.append_assoc]
  frames_eq := h'.frames_eq.trans h.frames_eq
  indentation_eq := h'.indentation_eq.trans h.indentation_eq

/-- The document is measured to these pieces. The distances from its start are those from its end
with its width added, apart from that to the next gap. -/
def IsMeasured (d : Doc String) (x : Nat) (xs : List Nat) (ms : List (Piece String × Nat))
    (y : Nat) : Prop :=
  ∀ ps, d.foldr measureStep (ps, x :: xs) = (ms ++ ps, y :: addWidth d.width xs)

/-- From a page with `ok`, the document appends a text with the property `p`, whatever follows
it. -/
def Writes (ok : Page → Prop) (d : Doc String) (p : List Char → Prop) : Prop :=
  ∀ x xs, ∃ ms y, IsMeasured d x xs ms y ∧
    ∀ page, ok page → ∃ out, p out ∧ page.Extends (ms.foldl Page.write page) out

/-- The page is in a block on several lines. -/
def Page.InLines (page : Page) : Prop :=
  (∃ i, page.frames.head? = some (.broken i .consistent)) ∧ 0 ≤ page.indentation

/-- There is no room for a line that must end. -/
def Page.IsNarrow (page : Page) : Prop :=
  page.room < infiniteWidth ∧ 0 ≤ page.indentation

/-- The page is where a line begins, in a block on several lines. -/
def Page.AtLine (page : Page) : Prop :=
  page.InLines ∧ page.IsNarrow

theorem Page.InLines.of_extends {page page' : Page} {out : List Char} (h : page.InLines)
    (hExtends : page.Extends page' out) : page'.InLines := by
  rw [Page.InLines, hExtends.frames_eq, hExtends.indentation_eq]
  exact h

namespace Writes

variable {ok ok' : Page → Prop} {d e : Doc String} {p q : List Char → Prop}

theorem imp (h : Writes ok d p) (hpq : ∀ out, p out → q out) : Writes ok d q := by
  intro x xs
  obtain ⟨ms, y, hMeasure, hWrite⟩ := h x xs
  refine ⟨ms, y, hMeasure, fun page hPage => ?_⟩
  obtain ⟨out, hOut, hExtends⟩ := hWrite page hPage
  exact ⟨out, hpq out hOut, hExtends⟩

theorem of_imp (h : Writes ok d p) (hok : ∀ page, ok' page → ok page) : Writes ok' d p := by
  intro x xs
  obtain ⟨ms, y, hMeasure, hWrite⟩ := h x xs
  exact ⟨ms, y, hMeasure, fun page hPage => hWrite page (hok page hPage)⟩

theorem nil : Writes ok [] (· = []) := by
  intro x xs
  refine ⟨[], x, fun ps => ?_, fun page _ => ⟨[], rfl, ⟨by simp, rfl, rfl⟩⟩⟩
  simp [Doc.width, addWidth]

/-- Documents after each other. What is asked of the page must hold still after the first. -/
theorem append (h : Writes ok d p) (h' : Writes ok' e q)
    (hok : ∀ page page' out, ok page → page.Extends page' out → ok' page') :
    Writes ok (d ++ e) (fun out => ∃ s t, out = s ++ t ∧ p s ∧ q t) := by
  intro x xs
  obtain ⟨ns, z, hns, hWriteSecond⟩ := h' x xs
  obtain ⟨ms, y, hms, hWriteFirst⟩ := h z (addWidth e.width xs)
  refine ⟨ms ++ ns, y, fun ps => ?_, fun page hPage => ?_⟩
  · rw [List.foldr_append, hns, hms, addWidth_addWidth, Doc.width_append, List.append_assoc]
  · obtain ⟨s, hs, hFirst⟩ := hWriteFirst page hPage
    obtain ⟨t, ht, hSecond⟩ := hWriteSecond _ (hok _ _ _ hPage hFirst)
    rw [List.foldl_append]
    exact ⟨s ++ t, ⟨s, t, rfl, hs, ht⟩, hFirst.trans hSecond⟩

/-! ### Single pieces -/

theorem piece {c : Piece String}
    (hMeasure : ∀ x xs, ∃ w y, ∀ ps, measureStep c (ps, x :: xs) =
      ((c, w) :: ps, y :: addWidth c.width xs))
    (hWrite : ∀ page w, ok page → ∃ out, p out ∧ page.Extends (page.write (c, w)) out) :
    Writes ok [c] p := by
  intro x xs
  obtain ⟨w, y, hw⟩ := hMeasure x xs
  refine ⟨[(c, w)], y, fun ps => ?_, fun page hPage => hWrite page w hPage⟩
  have hWidth : Doc.width [c] = c.width := Nat.add_zero _
  rw [List.foldr_cons, List.foldr_nil, hw, hWidth]
  rfl

/-- Spaces that are due stand before a text. -/
def Spaced (s : String) (out : List Char) : Prop :=
  ∃ n, out = List.replicate n ' ' ++ s.toList

theorem toList_pushn (s : String) (c : Char) (n : Nat) :
    (s.pushn c n).toList = s.toList ++ List.replicate n c := by
  unfold String.pushn
  induction n with
  | zero => simp [Nat.repeat]
  | succ n ih =>
    rw [Nat.repeat, String.toList_push, ih, List.append_assoc, List.replicate_succ']

theorem extends_text (page : Page) (s : String) :
    page.Extends (page.text s) (List.replicate page.pending ' ' ++ s.toList) where
  written_eq := by simp [Page.text, Page.indent, toList_pushn]
  frames_eq := rfl
  indentation_eq := rfl

theorem text (s : String) : Writes ok [.text s] (Spaced s) :=
  piece (fun _ _ => ⟨_, _, fun _ => rfl⟩) fun page _ _ => ⟨_, ⟨_, rfl⟩, extends_text page s⟩

theorem name (s : String) : Writes ok (Doc.name s) (Spaced s) :=
  piece (fun _ _ => ⟨_, _, fun _ => rfl⟩) fun page _ _ => ⟨_, ⟨_, rfl⟩, extends_text page s⟩

/-- No spaces stand between two texts. -/
theorem text_text (s t : String) : Writes ok ([.text s] ++ [.text t]) (Spaced (s ++ t)) := by
  intro x xs
  refine ⟨[(.text s, s.utf8ByteSize), (.text t, t.utf8ByteSize)],
    x + t.utf8ByteSize + s.utf8ByteSize, fun ps => ?_, fun page _ => ?_⟩
  · rw [Doc.width_append, ← addWidth_addWidth]
    rfl
  · have hSecond := extends_text (page.text s) t
    have hPending : (page.text s).pending = 0 := rfl
    rw [hPending, List.replicate_zero, List.nil_append] at hSecond
    refine ⟨_, ⟨page.pending, rfl⟩, ?_⟩
    have hBoth := (extends_text page s).trans hSecond
    rw [List.append_assoc, ← String.toList_append] at hBoth
    exact hBoth

/-- What a gap writes at the end of a line. -/
def GapEnd (g : Gap) (out : List Char) : Prop :=
  ∃ s t, out = s ++ '\n' :: t ∧ (if g.before.isEmpty then s = [] else Spaced g.before s) ∧
    (if g.after.isEmpty then t = [] else Spaced g.after t)

theorem extends_stay (page : Page) (g : Gap) :
    page.Extends (page.stay g) g.unbroken.toList := by
  unfold Page.stay
  split
  · rename_i hEmpty
    rw [String.isEmpty_iff.mp hEmpty]
    exact ⟨by simp, rfl, rfl⟩
  · exact ⟨by simp [Page.tail], rfl, rfl⟩

theorem extends_endLine (page : Page) (g : Gap) :
    ∃ out, GapEnd g out ∧ page.Extends (page.endLine g) out := by
  let spaces (n : Nat) := List.replicate n ' '
  let s := if g.before.isEmpty then [] else spaces page.pending ++ g.before.toList
  let t := if g.after.isEmpty then []
    else spaces (page.indentation + g.offset).toNat ++ g.after.toList
  refine ⟨s ++ '\n' :: t, ⟨s, t, rfl, ?_, ?_⟩, ?_, ?_, ?_⟩
  · dsimp only [s]
    split
    · rfl
    · exact ⟨_, rfl⟩
  · dsimp only [t]
    split
    · rfl
    · exact ⟨_, rfl⟩
  all_goals unfold Page.endLine
  · dsimp only [s, t]
    split <;> split <;> simp [Page.text, Page.indent, Page.tail, toList_pushn, spaces]
  · dsimp only
    split <;> split <;> rfl
  · dsimp only
    split <;> split <;> rfl

theorem gap (g : Gap) : Writes ok [.gap g] (fun out => out = g.unbroken.toList ∨ GapEnd g out) := by
  refine piece (fun _ _ => ⟨_, _, fun _ => rfl⟩) fun page w _ => ?_
  rw [Page.write]
  split
  · exact ⟨_, .inl rfl, extends_stay page g⟩
  · obtain ⟨out, hOut, hExtends⟩ := extends_endLine page g
    exact ⟨out, .inr hOut, hExtends⟩

/-- In a block that fits, no line ends. -/
theorem gap_of_fits (g : Gap) :
    Writes (fun page => page.frames.head? = some .fits) [.gap g] (· = g.unbroken.toList) := by
  refine piece (fun _ _ => ⟨_, _, fun _ => rfl⟩) fun page w hFits => ?_
  have hStays : page.staysAt g w = true := by simp [Page.staysAt, hFits]
  rw [Page.write, if_pos hStays]
  exact ⟨_, rfl, extends_stay page g⟩

/-- In a block on several lines, a line ends at every gap that is meant for it. -/
theorem gap_of_broken {g : Gap} (hNever : g.isNever = false) :
    Writes (fun page => ∃ i, page.frames.head? = some (.broken i .consistent)) [.gap g]
      (GapEnd g) := by
  refine piece (fun _ _ => ⟨_, _, fun _ => rfl⟩) fun page w ⟨i, hBroken⟩ => ?_
  have hStays : ¬ page.staysAt g w = true := by simp [Page.staysAt, hBroken, hNever]
  rw [Page.write, if_neg hStays]
  exact extends_endLine page g

/-! ### Blocks -/

theorem isMeasured_block {offset : Int} {style : Style} {x : Nat} {xs : List Nat}
    {ms : List (Piece String × Nat)} {y : Nat} (h : IsMeasured d x (x :: xs) ms y) :
    IsMeasured (Doc.block offset style d) x xs
      ((.opening offset style, x + d.width) :: (ms ++ [(.closing, 0)])) (x + d.width) := by
  intro ps
  have hClosing : [Piece.closing].foldr measureStep (ps, x :: xs) =
      ((.closing, 0) :: ps, x :: x :: xs) := rfl
  rw [Doc.width_block, Doc.block, List.cons_append, List.foldr_cons, List.foldr_append, hClosing, h]
  simp [measureStep, addWidth]

theorem isMeasured_unique {x : Nat} {xs : List Nat} {ms ns : List (Piece String × Nat)} {y z : Nat}
    (h : IsMeasured d x xs ms y) (h' : IsMeasured d x xs ns z) : ms = ns := by
  have hEq := (h []).symm.trans (h' [])
  rw [List.append_nil, List.append_nil] at hEq
  exact (Prod.mk.inj hEq).1

/-- Two kinds of pages on which a document writes the same. -/
theorem or (h : Writes ok d p) (h' : Writes ok' d p) :
    Writes (fun page => ok page ∨ ok' page) d p := by
  intro x xs
  obtain ⟨ms, y, hMeasure, hWrite⟩ := h x xs
  obtain ⟨ns, z, hMeasure', hWrite'⟩ := h' x xs
  obtain rfl := isMeasured_unique hMeasure hMeasure'
  exact ⟨ms, y, hMeasure, fun page hPage => hPage.elim (hWrite page) (hWrite' page)⟩

/-- After a block the page is as before. -/
theorem extends_leave {page inner : Page} {out : List Char} {offset : Int} {style : Style}
    {width : Nat} (h : (page.enter offset style width).Extends inner out) :
    page.Extends inner.leave out := by
  unfold Page.enter at h
  split at h
  · have hFrames : inner.frames = .broken page.indentation style :: page.frames := h.frames_eq
    have hLeave : inner.leave =
        { inner with indentation := page.indentation, frames := page.frames } := by
      rw [Page.leave, hFrames]
    rw [hLeave]
    exact ⟨h.written_eq, rfl, rfl⟩
  · have hFrames : inner.frames = .fits :: page.frames := h.frames_eq
    have hLeave : inner.leave = { inner with frames := page.frames } := by
      rw [Page.leave, hFrames]
    rw [hLeave]
    exact ⟨h.written_eq, rfl, h.indentation_eq⟩

/-- A document in a block is written from the page that the block leads to. -/
theorem block_of_enter {offset : Int} {style : Style} {inside : Page → Prop} (h : Writes inside d p)
    (hEnter : ∀ page width, ok page → d.width ≤ width → inside (page.enter offset style width)) :
    Writes ok (Doc.block offset style d) p := by
  intro x xs
  obtain ⟨ms, y, hMeasure, hWrite⟩ := h x (x :: xs)
  refine ⟨_, _, isMeasured_block hMeasure, fun page hPage => ?_⟩
  obtain ⟨out, hOut, hExtends⟩ := hWrite (page.enter offset style (x + d.width))
    (hEnter page _ hPage (Nat.le_add_left _ _))
  refine ⟨out, hOut, ?_⟩
  rw [List.foldl_cons, List.foldl_append]
  exact extends_leave hExtends

/-- A document is written in a block if it is written both on one line and on several. -/
theorem block {offset : Int} {style : Style}
    (h : Writes (fun page => page.frames.head? = some .fits ∨
      ∃ i, page.frames.head? = some (.broken i style)) d p) :
    Writes ok (Doc.block offset style d) p := by
  apply h.block_of_enter
  intro page width _ _
  unfold Page.enter
  split
  · exact .inr ⟨_, rfl⟩
  · exact .inl rfl

/-- A block in which a line must end is on several lines. -/
theorem brokenBlock {offset : Int} (hOffset : 0 ≤ offset) (hWide : infiniteWidth ≤ d.width)
    (h : Writes Page.InLines d p) : Writes Page.IsNarrow (Doc.block offset .consistent d) p := by
  apply h.block_of_enter
  intro page width hNarrow hWidth
  obtain ⟨hRoom, hIndentation⟩ := hNarrow
  have hNoRoom : page.room < (width : Int) := by omega
  rw [Page.enter, if_pos hNoRoom]
  exact ⟨⟨_, rfl⟩, Int.add_nonneg hIndentation hOffset⟩

/-- After the end of a line the next one is narrow. -/
theorem newline_append (h : Writes Page.AtLine d p) :
    Writes Page.InLines (Doc.newline 0 ++ d) (fun out => ∃ t, out = '\n' :: t ∧ p t) := by
  intro x xs
  obtain ⟨ms, y, hMeasure, hWrite⟩ := h x xs
  let g : Gap := { blank := infiniteWidth, offset := 0 }
  refine ⟨(.gap g, infiniteWidth + y) :: ms, 0, fun ps => ?_, fun page hPage => ?_⟩
  · rw [Doc.width_append, ← addWidth_addWidth, Doc.newline, List.singleton_append, List.foldr_cons,
      hMeasure]
    rfl
  · obtain ⟨⟨i, hBroken⟩, hIndentation⟩ := hPage
    have hStays : ¬ page.staysAt g (infiniteWidth + y) = true := by
      simp [Page.staysAt, hBroken, g]
    have hEnd : page.Extends (page.endLine g) ['\n'] :=
      ⟨by simp [Page.endLine, g], rfl, rfl⟩
    have hRoom : (page.endLine g).room = max (lineWidth - (page.indentation + 0)) minimumRoom := rfl
    have hNarrow : (page.endLine g).room < infiniteWidth := by
      rw [hRoom, lineWidth, minimumRoom, infiniteWidth]
      omega
    obtain ⟨t, ht, hExtends⟩ := hWrite (page.endLine g)
      ⟨⟨⟨i, hBroken⟩, hIndentation⟩, hNarrow, hIndentation⟩
    rw [List.foldl_cons, Page.write, if_neg hStays]
    exact ⟨'\n' :: t, ⟨t, rfl, ht⟩, hEnd.trans hExtends⟩

/-- The text of a document has the property of what the document writes. -/
theorem render (h : Writes ok d p) (hok : ok {}) : p (Layout.render d).toList := by
  obtain ⟨ms, y, hMeasure, hWrite⟩ := h 0 []
  obtain ⟨out, hOut, hExtends⟩ := hWrite {} hok
  have hEq : measure d = ms := by
    rw [measure, hMeasure, List.append_nil]
  rw [Layout.render, hEq, hExtends.written_eq]
  exact hOut

end Writes

end CommandDispatch.Layout
