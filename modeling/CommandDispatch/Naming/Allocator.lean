import Std.Data.HashSet
import CommandDispatch.Naming.Word

/-!
# Names that are never given out twice

An allocator draws numbers from a source and gives out their words, passing over keywords, reserved
words and the words it gave out before. It gives up when a long run of draws brings nothing new.
-/

namespace CommandDispatch.Naming

/-- States of a source of numbers below `drawRange`. -/
class Source (σ : Type) where
  draw : σ → Fin drawRange × σ

/-- The number of consecutive draws that may bring nothing before an allocator gives up. -/
def maxAttempts : Nat := 4 * drawRange

/-- A source of numbers, and the words that must not be given out. -/
structure Allocator (σ : Type) where
  source : σ
  used : Std.HashSet String := ∅

namespace Allocator

variable {σ : Type} [Source σ]

def reserve (a : Allocator σ) (word : String) : Allocator σ :=
  { a with used := a.used.insert word }

def isFree (used : Std.HashSet String) (word : String) : Bool :=
  !keywords.contains word && !used.contains word

/-- Draws until a free word comes, at most the given number of times. -/
def search (used : Std.HashSet String) (exported : Bool) : Nat → σ → Option String × σ
  | 0, s => (none, s)
  | attempts + 1, s =>
    let (n, rest) := Source.draw s
    let word := wordOf n exported
    if isFree used word then (some word, rest) else search used exported attempts rest

/-- Gives out the next free word; an exported one begins with a capital letter. -/
def next (a : Allocator σ) (exported : Bool) : Option String × Allocator σ :=
  match search a.used exported maxAttempts a.source with
  | (some word, rest) => (some word, ⟨rest, a.used.insert word⟩)
  | (none, rest) => (none, ⟨rest, a.used⟩)

/-- Gives out one word after the other, or stops at the first that is not to be had. -/
def nextEach (a : Allocator σ) : List Bool → Option (List String) × Allocator σ
  | [] => (some [], a)
  | exported :: others =>
    match a.next exported with
    | (none, b) => (none, b)
    | (some word, b) =>
      match b.nextEach others with
      | (none, c) => (none, c)
      | (some ws, c) => (some (word :: ws), c)

end Allocator

end CommandDispatch.Naming
