/-!
# Documents

A document is a sequence of texts, names and gaps, some of them enclosed in blocks. A gap is either
a run of spaces or the end of a line; blocks decide for the gaps in them. Names are kept apart from
other text, so that they can be changed without changing the document.
-/

namespace CommandDispatch.Layout

/-- How the gaps of a block that does not fit on the line are treated. -/
inductive Style where
  /-- Every gap ends the line. -/
  | consistent
  /-- A gap ends the line if what follows it up to the next gap does not fit. -/
  | inconsistent
deriving Repr, DecidableEq

/-- A place where a line may end. -/
structure Gap where
  /-- The spaces that are written if the line does not end here. -/
  blank : Nat := 0
  /-- The indentation of the next line relative to the block. -/
  offset : Int := 0
  /-- What ends the line. -/
  before : String := ""
  /-- What begins the next line. -/
  after : String := ""
  /-- What is written if the line does not end here. -/
  unbroken : String := ""
  /-- The line never ends here. The gap only bounds what must fit together. -/
  isNever : Bool := false
deriving Repr, DecidableEq

/-- A part of a document. -/
inductive Piece (ι : Type) where
  | text (s : String)
  | name (i : ι)
  | gap (g : Gap)
  | opening (offset : Int) (style : Style)
  | closing
deriving Repr, DecidableEq

abbrev Doc (ι : Type) := List (Piece ι)

def Piece.map {ι κ : Type} (f : ι → κ) : Piece ι → Piece κ
  | text s => text s
  | name i => name (f i)
  | gap g => gap g
  | opening offset style => opening offset style
  | closing => closing

/-- A width that no line has, so that a gap of this width always ends the line. -/
def infiniteWidth : Nat := 65535

/-- The steps of indentation. -/
def step : Int := 4

variable {ι : Type}

instance : Coe String (Doc ι) where
  coe s := [.text s]

namespace Doc

def name (i : ι) : Doc ι :=
  [.name i]

def join (ds : List (Doc ι)) : Doc ι :=
  ds.flatten

def space (blank : Nat) : Doc ι :=
  [.gap { blank }]

def joint : Doc ι :=
  [.gap { isNever := true }]

def newline (offset : Int) : Doc ι :=
  [.gap { blank := infiniteWidth, offset }]

/-- Encloses a document in a block. -/
def block (offset : Int) (style : Style) (d : Doc ι) : Doc ι :=
  .opening offset style :: d ++ [.closing]

/-- Lines, each with its end; the end of the last leads back by one step. -/
def lines : List (Doc ι) → Doc ι
  | [] => []
  | [last] => last ++ newline (-step)
  | d :: ds => d ++ newline 0 ++ lines ds

def braces (head : Doc ι) (body : List (Doc ι)) : Doc ι :=
  match body with
  | [] => join [head, "\x7b\x7d"]
  | _ =>
    join [block step .consistent (join [head, "\x7b", newline 0, lines body]), "\x7d"]

/-- Documents with commas between them. On lines of their own, the last one is also followed by a
comma, and what follows is led back by one step. -/
def commas : List (Doc ι) → Doc ι
  | [] => []
  | [last] => last ++ [.gap { offset := -step, before := "," }]
  | d :: ds => join [d, ",", space 1] ++ commas ds

def delimited (left right : String) (items : List (Doc ι)) : Doc ι :=
  match items with
  | [] => join [left, right]
  | _ => join [left, block step .consistent (space 0 ++ commas items), right]

end Doc

end CommandDispatch.Layout
