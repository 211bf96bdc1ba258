import CommandDispatch.Proofs.Source.Parser
import CommandDispatch.Proofs.Source.Phrase

/-!
# Words that are read are names

What is cut off a text as a word is a name, and the readers of words take one word.

* `isName_of_takeName`: what is cut off as a word,
* `name_eq_some`, `anyWord_eq_some`: what the readers of words take.
-/

namespace CommandDispatch.Source

open Source.Parser

/-- A word is taken up to where it does not go on. -/
theorem takeWord_eq_some {s word after : List Char} (h : takeWord s = some (word, after)) :
    ∃ c t, s = c :: t ∧ isWordStart c = true ∧ word = c :: t.takeWhile isWordPart ∧
      after = t.dropWhile isWordPart := by
  cases s with
  | nil => cases h
  | cons c t =>
    rw [takeWord] at h
    split at h
    · rename_i hc
      cases h
      exact ⟨c, t, rfl, hc, rfl, rfl⟩
    · cases h

/-- What is cut off as a word is one, also after the mark of raw words. -/
theorem isName_of_takeName {s after : List Char} {w : String}
    (h : takeName s = some (w, after)) : IsName w := by
  unfold takeName at h
  split at h
  · split at h
    · rename_i word rest hWord
      split at h
      · cases h
      · rename_i hExcluded
        cases h
        obtain ⟨c, t, rfl, hc, rfl, rfl⟩ := takeWord_eq_some hWord
        rw [IsName, String.toList_ofList, takeName, takeWord_takeWhile hc]
        exact if_neg hExcluded
    · cases h
  · obtain ⟨⟨word, rest⟩, hWord, hEq⟩ := Option.map_eq_some_iff.mp h
    cases hEq
    obtain ⟨c, t, rfl, hc, rfl, rfl⟩ := takeWord_eq_some hWord
    exact isName_of_isWordStart hc t

/-! ## Readers of words -/

theorem whole_eq_some {α : Type} {p : Parser α} {ts : Tokens} {a : α}
    (h : whole p ts = some a) : p ts = some (a, []) := by
  unfold whole at h
  split at h
  · rename_i b hRun
    cases h
    exact hRun
  · cases h

theorem name_eq_some {ts rest : Tokens} {w : String} (h : name ts = some (w, rest)) :
    ts = .word w :: rest ∧ reservedWords.contains w = false := by
  have hAhead : nameAhead ts = true := by
    cases hAhead : nameAhead ts with
    | true => rfl
    | false =>
      simp only [name, bind_apply, ahead_apply, Option.bind_some, hAhead] at h
      cases h
  unfold nameAhead at hAhead
  split at hAhead
  · rename_i v after
    rw [Bool.not_eq_true'] at hAhead
    rw [name_word hAhead] at h
    cases h
    exact ⟨rfl, hAhead⟩
  · cases hAhead

/-- The text is a name that is not reserved. -/
structure IsIdentifier (w : String) : Prop where
  isName : IsName w
  not_reserved : reservedWords.contains w = false

theorem anyWord_eq_some {ts rest : Tokens} {w : String} (h : anyWord ts = some (w, rest)) :
    ts = .word w :: rest := by
  cases ts with
  | nil => cases h
  | cons t ts =>
    cases t with
    | word v =>
      cases h
      rfl
    | _ => cases h

end CommandDispatch.Source
