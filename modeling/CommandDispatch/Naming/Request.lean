import CommandDispatch.Naming.Allocator
import CommandDispatch.Source.Word

/-!
# Requests to an allocator

An allocator is told which words to keep free and asked for words and for identifiers, in any order.
An identifier is given out like a word, but must be one that can stand in source text.
-/

namespace CommandDispatch.Naming

/-- What an allocator is asked for. -/
inductive Request where
  /-- A word is not to be given out from now on. -/
  | reserve (word : String)
  /-- A word is asked for. -/
  | word (exported : Bool)
  /-- A word is asked for that stands for an identifier. -/
  | identifier (exported : Bool)
deriving Repr, DecidableEq

/-- What comes of a request. -/
inductive Answer where
  | reserved
  | issued (word : String)
  | exhausted
  /-- A word was drawn that is no identifier. -/
  | unfit (word : String)
deriving Repr, DecidableEq

namespace Allocator

variable {σ : Type} [Source σ]

/-- Answers a request. -/
def answer (a : Allocator σ) : Request → Answer × Allocator σ
  | .reserve word => (.reserved, a.reserve word)
  | .word exported =>
    match a.next exported with
    | (some word, b) => (.issued word, b)
    | (none, b) => (.exhausted, b)
  | .identifier exported =>
    match a.next exported with
    | (some word, b) => (if Source.isWord word then .issued word else .unfit word, b)
    | (none, b) => (.exhausted, b)

/-- An allocator after some requests. -/
def after (a : Allocator σ) (requests : List Request) : Allocator σ :=
  requests.foldl (fun a r => (a.answer r).2) a

/-- Requests with their answers, one after the other. -/
def history (a : Allocator σ) : List Request → List (Request × Answer)
  | [] => []
  | r :: others => (r, (a.answer r).1) :: (a.answer r).2.history others

end Allocator

end CommandDispatch.Naming
