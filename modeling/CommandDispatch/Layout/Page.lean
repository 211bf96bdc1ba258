import CommandDispatch.Layout.Document

/-!
# Writing documents on a page

A block is written on one line if it fits there together with what follows it up to the next gap;
the line never ends at the gaps of such a block. The width of a text is the number of its bytes.

Widths are found from the end of the document to its start, and the document is then written from
its start to its end.
-/

namespace CommandDispatch.Layout

/-! ## Widths -/

/-- Adds a width to distances, the first of which is never missing. -/
def addWidth (w : Nat) (distances : List Nat) : List Nat :=
  distances.map (· + w)

/-- Pieces with widths, and distances from their start. The width of a gap or of an opening is the
distance from there to the next gap in the same block or around it, for an opening after its block.
The distances lead to the next gap in the innermost block or around it, to the next one in the block
around that or further out, and so on. -/
abbrev Measured := List (Piece String × Nat) × List Nat

/-- Measures a piece before those that are measured already. -/
def measureStep (p : Piece String) : Measured → Measured
  | (pieces, distances) =>
    match p with
    | .text s => ((p, s.utf8ByteSize) :: pieces, addWidth s.utf8ByteSize distances)
    | .name s => ((p, s.utf8ByteSize) :: pieces, addWidth s.utf8ByteSize distances)
    | .gap g =>
      ((p, g.blank + distances.headD 0) :: pieces, 0 :: addWidth g.blank (distances.drop 1))
    | .opening .. => ((p, (distances.drop 1).headD 0) :: pieces, distances.drop 1)
    | .closing => ((p, 0) :: pieces, distances.headD 0 :: distances)

/-- The pieces of a document with their widths. -/
def measure (d : Doc String) : List (Piece String × Nat) :=
  (d.foldr measureStep ([], [0])).1

/-! ## Lines -/

def lineWidth : Int := 89

/-- The room that every line has, however far it is indented. -/
def minimumRoom : Int := 60

/-- A block that is being written. -/
inductive Frame where
  /-- All of it is on one line. -/
  | fits
  /-- It is on several lines; the indentation around it comes back after it. -/
  | broken (indentation : Int) (style : Style)

/-- What has been written. -/
structure Page where
  written : String := ""
  /-- The room that is left on the line. -/
  room : Int := lineWidth
  /-- The indentation of the block. -/
  indentation : Int := 0
  /-- Spaces that are written before the next text. -/
  pending : Nat := 0
  frames : List Frame := []

namespace Page

def indent (p : Page) : Page :=
  { p with written := p.written.pushn ' ' p.pending, pending := 0 }

def text (p : Page) (s : String) : Page :=
  let p := p.indent
  { p with written := p.written ++ s, room := p.room - s.utf8ByteSize }

/-- Writes a text that belongs to the end of a line, without the spaces that are due. -/
def tail (p : Page) (s : String) : Page :=
  { p with written := p.written ++ s, room := p.room - s.utf8ByteSize }

def staysAt (p : Page) (g : Gap) (width : Nat) : Bool :=
  g.isNever ||
    match p.frames.head? with
    | some .fits => true
    | some (.broken _ .consistent) => false
    | some (.broken _ .inconsistent) => width ≤ p.room
    | none => width ≤ p.room

def stay (p : Page) (g : Gap) : Page :=
  let p := { p with pending := p.pending + g.blank, room := p.room - g.blank }
  if g.unbroken.isEmpty then p else p.tail g.unbroken

def endLine (p : Page) (g : Gap) : Page :=
  let p := if g.before.isEmpty then p else p.indent.tail g.before
  let indentation := p.indentation + g.offset
  let p := { p with
    written := p.written.push '\n'
    pending := indentation.toNat
    room := max (lineWidth - indentation) minimumRoom }
  if g.after.isEmpty then p else p.text g.after

def enter (p : Page) (offset : Int) (style : Style) (width : Nat) : Page :=
  if p.room < width then
    { p with
      frames := .broken p.indentation style :: p.frames
      indentation := p.indentation + offset }
  else { p with frames := .fits :: p.frames }

def leave (p : Page) : Page :=
  match p.frames with
  | .broken indentation _ :: frames => { p with indentation, frames }
  | .fits :: frames => { p with frames }
  | [] => p

def write (p : Page) : Piece String × Nat → Page
  | (.text s, _) => p.text s
  | (.name s, _) => p.text s
  | (.gap g, width) => if p.staysAt g width then p.stay g else p.endLine g
  | (.opening offset style, width) => p.enter offset style width
  | (.closing, _) => p.leave

end Page

def render (d : Doc String) : String :=
  ((measure d).foldl Page.write {}).written

end CommandDispatch.Layout
