import CommandDispatch.Proofs.Naming.Allocator
import CommandDispatch.Proofs.Naming.Word
import CommandDispatch.Proofs.Source.Name

/-!
# Words that are given out are identifiers

The words of numbers have letters only, so each is one word of source text. A word that is free is
no keyword, so it is also an identifier.

* `isWord_wordOf`: the word of a number is one word,
* `Allocator.IsDrawn.isIdentifier`: what an allocator gives out is an identifier.
-/

open CommandDispatch.Source

namespace CommandDispatch.Naming

/-- The word of a number begins and goes on as words do. -/
theorem exists_wordParts (n : Nat) (exported : Bool) :
    ∃ c rest, (wordOf n exported).toList = c :: rest ∧ isWordStart c = true ∧
      ∀ x ∈ rest, isWordPart x = true := by
  obtain ⟨c, -, rest, -, hWord⟩ := exists_wordOf n exported
  have hAlpha : ∀ x ∈ (if exported then c.toUpper else c) :: rest, x.isAlpha = true :=
    fun x hx => isAlpha_of_mem_wordOf (hWord ▸ hx)
  obtain ⟨hFirst, hRest⟩ := List.forall_mem_cons.mp hAlpha
  refine ⟨_, rest, hWord, ?_, fun x hx => ?_⟩
  · rw [isWordStart, hFirst]
    rfl
  · rw [isWordPart, Char.isAlphanum, hRest x hx]
    rfl

theorem isWord_wordOf (n : Nat) (exported : Bool) : isWord (wordOf n exported) = true := by
  obtain ⟨c, rest, hWord, hStart, hParts⟩ := exists_wordParts n exported
  rw [isWord, hWord, takeWord, if_pos hStart, List.takeWhile_eq_self_iff.mpr hParts,
    List.dropWhile_eq_nil_iff.mpr hParts, beq_self_eq_true]

theorem reservedWords_subset : reservedWords ⊆ "_" :: keywords := by
  have hAll : reservedWords.all ("_" :: keywords).contains = true := by decide
  intro w hw
  simpa using List.all_eq_true.mp hAll w hw

namespace Allocator

variable {used : Std.HashSet String} {exported : Bool} {w : String}

theorem IsDrawn.notMem_keywords (h : IsDrawn used exported w) : w ∉ keywords :=
  (isFree_iff.mp h.isFree).1

/-- The words of numbers that are free are names. -/
theorem IsDrawn.isIdentifier (h : IsDrawn used exported w) : IsIdentifier w := by
  have hKeyword := h.notMem_keywords
  obtain ⟨-, n, rfl⟩ := h
  obtain ⟨c, rest, hWord, hStart, hParts⟩ := exists_wordParts n exported
  constructor
  · have hName := isName_of_isWordStart hStart rest
    rwa [List.takeWhile_eq_self_iff.mpr hParts, ← hWord, String.ofList_toList] at hName
  · rw [List.contains_eq_mem, decide_eq_false_iff_not]
    intro hMem
    rcases List.mem_cons.mp (reservedWords_subset hMem) with hBlank | hMem
    · have hMem : '_' ∈ (wordOf n exported).toList := hBlank ▸ by decide
      exact absurd (isAlpha_of_mem_wordOf hMem) (by decide)
    · exact hKeyword hMem

end Allocator

end CommandDispatch.Naming
