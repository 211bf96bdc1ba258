/-!
# Runs of case mappings

Most case mappings shift a whole run of code points by one distance; in some runs only every second
code point is mapped.
-/

namespace CommandDispatch.Text

/-- The code points `first`, `first + step`, up to `last`, each mapped `shift` further. -/
structure CaseRun where
  first : Nat
  last : Nat
  step : Nat
  shift : Int
deriving Repr, DecidableEq

def CaseRun.contains (r : CaseRun) (n : Nat) : Bool :=
  r.first ≤ n && n ≤ r.last && (n - r.first) % r.step == 0

/-- The code point that a run puts in the place of `n`. -/
def CaseRun.image (r : CaseRun) (n : Nat) : Nat :=
  (n + r.shift).toNat

/-- The characters that stand for `c`: those listed for it if it has several, else its image in the
run that holds it, else `c` itself. -/
def mapCase (runs : List CaseRun) (several : List (Nat × List Nat)) (c : Char) : List Char :=
  match several.lookup c.toNat with
  | some cs => cs.map Char.ofNat
  | none =>
    match runs.find? (·.contains c.toNat) with
    | some r => [Char.ofNat (r.image c.toNat)]
    | none => [c]

end CommandDispatch.Text
