import CommandDispatch.Naming.Word

/-!
# The letters of words made of numbers

A word made of a number has the letters `a` to `j` and nothing else, apart from the capital at the
start of an exported one.

* `wordOf_eq_ofList`: a word is the letters of its number, the first one as a capital if the word is
  exported,
* `exists_wordOf`: so it is a letter, or its capital, and more letters,
* `isAlpha_of_mem_wordOf`: so all its characters are letters of ASCII.
-/

namespace CommandDispatch.Naming

def wordLetters : List Char :=
  "abcdefghij".toList

/-- A letter of a word is a small letter, and its capital is a capital letter. -/
theorem of_mem_wordLetters {c : Char} (h : c ∈ wordLetters) :
    (c.isAlpha = true ∧ c.isUpper = false ∧ c.toLower = c) ∧
      c.toUpper.isAlpha = true ∧ c.toUpper.isUpper = true ∧ c.toUpper.toLower = c := by
  have hCheck : wordLetters.all (fun x => (x.isAlpha && !x.isUpper && x.toLower == x) &&
      (x.toUpper.isAlpha && x.toUpper.isUpper && x.toUpper.toLower == x)) = true := by decide
  simpa [and_assoc] using List.all_eq_true.mp hCheck c h

theorem letterOf_digitChar_mem {d : Nat} (h : d < 16) :
    letterOf (Nat.digitChar d) ∈ wordLetters := by
  have hAll : ∀ d ∈ List.range 16, letterOf (Nat.digitChar d) ∈ wordLetters := by decide
  exact hAll d (List.mem_range.mpr h)

/-- The letters of the word of a number, none of them a capital. -/
def lettersOf (n : Nat) : List Char :=
  (Nat.toDigits 16 n).map letterOf

theorem lettersOf_of_lt {n : Nat} (h : n < 16) : lettersOf n = [letterOf (Nat.digitChar n)] := by
  rw [lettersOf, Nat.toDigits_eq_if (by decide), if_pos h, List.map_singleton]

theorem lettersOf_of_le {n : Nat} (h : 16 ≤ n) :
    lettersOf n = lettersOf (n / 16) ++ [letterOf (Nat.digitChar (n % 16))] := by
  rw [lettersOf, Nat.toDigits_eq_if (by decide), if_neg (Nat.not_lt_of_le h), List.map_append,
    List.map_singleton, lettersOf]

theorem lettersOf_ne_nil (n : Nat) : lettersOf n ≠ [] := by
  rcases Nat.lt_or_ge n 16 with h | h
  · rw [lettersOf_of_lt h]
    exact List.cons_ne_nil _ _
  · rw [lettersOf_of_le h]
    exact List.append_ne_nil_of_right_ne_nil _ (List.cons_ne_nil _ _)

/-- The induction follows the digits of the number, the last one first. -/
theorem mem_wordLetters_of_mem_lettersOf {n : Nat} {c : Char} (h : c ∈ lettersOf n) :
    c ∈ wordLetters := by
  induction n using Nat.strongRecOn with
  | ind n ih =>
    rcases Nat.lt_or_ge n 16 with hn | hn
    · rw [lettersOf_of_lt hn, List.mem_singleton] at h
      rw [h]
      exact letterOf_digitChar_mem hn
    · rw [lettersOf_of_le hn, List.mem_append, List.mem_singleton] at h
      rcases h with h | rfl
      · exact ih (n / 16) (by omega) h
      · exact letterOf_digitChar_mem (Nat.mod_lt n (by decide))

theorem wordOf_eq_ofList (n : Nat) (exported : Bool) :
    wordOf n exported =
      String.ofList ((lettersOf n).modifyHead fun c => if exported then c.toUpper else c) := by
  unfold wordOf lettersOf
  split
  · rename_i hNil
    rw [hNil]
    rfl
  · rename_i c rest hCons
    rw [hCons, List.modifyHead_cons]

/-- A word is a letter, a capital one if it is exported, and more letters. -/
theorem exists_wordOf (n : Nat) (exported : Bool) :
    ∃ c ∈ wordLetters, ∃ rest : List Char, (∀ x ∈ rest, x ∈ wordLetters) ∧
      (wordOf n exported).toList = (if exported then c.toUpper else c) :: rest := by
  obtain ⟨c, rest, hWord⟩ := List.exists_cons_of_ne_nil (lettersOf_ne_nil n)
  have hLetters : ∀ x ∈ c :: rest, x ∈ wordLetters :=
    fun x hx => mem_wordLetters_of_mem_lettersOf (hWord ▸ hx)
  obtain ⟨hFirst, hRest⟩ := List.forall_mem_cons.mp hLetters
  refine ⟨c, hFirst, rest, hRest, ?_⟩
  rw [wordOf_eq_ofList, String.toList_ofList, hWord, List.modifyHead_cons]

theorem isAlpha_of_mem_wordOf {n : Nat} {exported : Bool} {c : Char}
    (h : c ∈ (wordOf n exported).toList) : c.isAlpha = true := by
  obtain ⟨x, hx, rest, hRest, hWord⟩ := exists_wordOf n exported
  rw [hWord, List.mem_cons] at h
  rcases h with rfl | h
  · split
    · exact (of_mem_wordLetters hx).2.1
    · exact (of_mem_wordLetters hx).1.1
  · exact (of_mem_wordLetters (hRest c h)).1.1

end CommandDispatch.Naming
