/-!
# Sets of characters given by intervals

The character properties used by this library are data of the Unicode standard. Each is a list of
code point intervals; a character has the property when one of the intervals holds it.
-/

namespace CommandDispatch.Text

/-- An interval of code points, both ends included. -/
structure CharRange where
  first : Nat
  last : Nat
deriving Repr, DecidableEq

def CharRange.contains (r : CharRange) (c : Char) : Bool :=
  r.first ≤ c.toNat && c.toNat ≤ r.last

/-- A set of characters, as a list of intervals. -/
abbrev CharSet := List CharRange

def CharSet.contains (s : CharSet) (c : Char) : Bool :=
  s.any (·.contains c)

theorem CharSet.contains_iff {s : CharSet} {c : Char} :
    CharSet.contains s c = true ↔ ∃ r ∈ s, r.first ≤ c.toNat ∧ c.toNat ≤ r.last := by
  simp [CharSet.contains, CharRange.contains]

end CommandDispatch.Text
