import CommandDispatch.Text.CharRange

/-!
# Blanks, words and lines

Blanks are the characters with the property `White_Space`. Words are the maximal runs of other
characters, and lines end with a line feed or with a carriage return and a line feed.
-/

namespace CommandDispatch.Text

/-- Characters with the property `White_Space`. -/
def blank : CharSet :=
  [ ⟨0x9, 0xd⟩, ⟨0x20, 0x20⟩, ⟨0x85, 0x85⟩, ⟨0xa0, 0xa0⟩, ⟨0x1680, 0x1680⟩, ⟨0x2000, 0x200a⟩,
    ⟨0x2028, 0x2029⟩, ⟨0x202f, 0x202f⟩, ⟨0x205f, 0x205f⟩, ⟨0x3000, 0x3000⟩ ]

def isBlank (c : Char) : Bool :=
  CharSet.contains blank c

/-- The pieces between the characters that satisfy `p`. There is one piece more than there are such
characters. -/
def pieces (p : Char → Bool) : List Char → List (List Char)
  | [] => [[]]
  | c :: rest =>
    if p c then [] :: pieces p rest
    else
      match pieces p rest with
      | [] => [[c]]
      | piece :: others => (c :: piece) :: others

def words (s : List Char) : List (List Char) :=
  (pieces isBlank s).filter (!·.isEmpty)

def trim (s : List Char) : List Char :=
  ((s.dropWhile isBlank).reverse.dropWhile isBlank).reverse

/-- The line without the carriage return that closes it. -/
def withoutReturn (line : List Char) : List Char :=
  if line.getLast? = some '\r' then line.dropLast else line

/-- Ends the list of pieces between line feeds: all but the last piece were closed by a line feed
and lose a carriage return before it, and the last is a line only if it holds something. -/
def closeLines : List (List Char) → List (List Char)
  | [] => []
  | [last] => if last.isEmpty then [] else [last]
  | line :: others => withoutReturn line :: closeLines others

def lines (s : List Char) : List (List Char) :=
  closeLines (pieces (· == '\n') s)

theorem pieces_ne_nil (p : Char → Bool) (s : List Char) : pieces p s ≠ [] := by
  cases s with
  | nil => simp [pieces]
  | cons c rest =>
    unfold pieces
    split
    · simp
    · split <;> simp

end CommandDispatch.Text
