import Mathlib.Algebra.Group.Nat.Defs
import Mathlib.Data.List.Basic
import CommandDispatch.Source.LiteralText
import CommandDispatch.Text.Quoted

/-!
# String literals read back

A text is printed as a string literal with escapes. Whatever the text is, the literal is read back
as the text, and what follows the literal is left as it is.

* `codePointDigits_hexDigits`: the digits of a code point are read back,
* `stringBody_escapeChar`: an escaped character is read back,
* `takeLiteral_stringLiteral`: a literal is read back.
-/

namespace CommandDispatch.Source

open Text

/-! ## Code points -/

theorem hexValue?_digitChar {x : Nat} (h : x < 16) : hexValue? (Nat.digitChar x) = some x := by
  have hAll : ∀ x ∈ List.range 16, hexValue? (Nat.digitChar x) = some x := by decide
  exact hAll x (List.mem_range.mpr h)

theorem codePointDigits_digitChar {x : Nat} (h : x < 16) (value : Nat) {digits : Nat}
    (hDigits : digits < 6) (rest : List Char) :
    codePointDigits value digits (Nat.digitChar x :: rest) =
      codePointDigits (16 * value + x) (digits + 1) rest := by
  have hAll : ∀ x ∈ List.range 16, Nat.digitChar x ≠ '_' ∧ Nat.digitChar x ≠ '\x7d' := by
    decide
  obtain ⟨hUnderscore, hBrace⟩ := hAll x (List.mem_range.mpr h)
  have hSix : digits ≠ 6 := by omega
  rw [codePointDigits, hexValue?_digitChar h]
  simp [hUnderscore, hBrace, hSix]

/-- The induction follows the digits of the number, the last one first. -/
theorem codePointDigits_hexDigits (n value digits : Nat)
    (hDigits : digits + (hexDigits n).length ≤ 6) (rest : List Char) :
    codePointDigits value digits (hexDigits n ++ rest) =
      codePointDigits (16 ^ (hexDigits n).length * value + n) (digits + (hexDigits n).length)
        rest := by
  unfold hexDigits at *
  induction n using Nat.strongRecOn generalizing rest with
  | ind n ih =>
    rw [Nat.toDigits_eq_if (by decide)] at hDigits ⊢
    split at hDigits
    · rename_i hLt
      rw [List.length_singleton] at hDigits
      rw [if_pos hLt, List.singleton_append, codePointDigits_digitChar hLt value (by omega)]
      simp
    · rename_i hGe
      rw [List.length_append, List.length_singleton] at hDigits
      rw [if_neg hGe, List.append_assoc, List.singleton_append, ih (n / 16) (by omega) (by omega),
        codePointDigits_digitChar (Nat.mod_lt n (by decide)) _ (by omega), List.length_append,
        List.length_singleton]
      have hValue : 16 * (16 ^ (Nat.toDigits 16 (n / 16)).length * value + n / 16) + n % 16 =
          16 ^ ((Nat.toDigits 16 (n / 16)).length + 1) * value + n := by
        rw [Nat.pow_succ, Nat.mul_add, ← Nat.mul_assoc, Nat.mul_comm 16 (16 ^ _)]
        omega
      rw [hValue, Nat.add_assoc]

theorem length_hexDigits_le (c : Char) : (hexDigits c.toNat).length ≤ 6 := by
  have hBound : c.toNat < 16 ^ 6 := by
    have hMax : c.toNat < 0x110000 := by
      rcases c.valid with hLow | ⟨-, hHigh⟩
      · exact Nat.lt_trans hLow (by decide)
      · exact hHigh
    omega
  exact (Nat.length_toDigits_le_iff (by decide) (by decide)).mpr hBound

theorem charOfCodePoint?_toNat (c : Char) : charOfCodePoint? c.toNat = some c := by
  have hValid : c.toNat.isValidChar := c.valid
  rw [charOfCodePoint?, if_pos hValid, Char.ofNat_toNat]

/-! ## Escapes -/

theorem escapeSequence_codePoint (c : Char) (rest : List Char) :
    escapeSequence plainString ('u' :: '\x7b' :: (hexDigits c.toNat ++ '\x7d' :: rest)) =
      some (c, rest) := by
  have hRead := codePointDigits_hexDigits c.toNat 0 0
    (by simpa using length_hexDigits_le c) ('\x7d' :: rest)
  have hPositive : 0 < (hexDigits c.toNat).length := Nat.length_toDigits_pos
  have hBrace : codePointDigits 0 0 (hexDigits c.toNat ++ '\x7d' :: rest) = some (c, rest) := by
    rw [hRead, Nat.mul_zero, Nat.zero_add, Nat.zero_add, codePointDigits,
      charOfCodePoint?_toNat]
    simp [hPositive]
  simp [escapeSequence, plainString, hBrace]

/-- What stands for a character in a literal: the character itself, or an escape of it. -/
theorem escape_cases (c : Char) :
    (escape c = [c] ∧ c ≠ '"' ∧ c ≠ '\\' ∧ c ≠ '\r') ∨
      ∃ d s, escape c = '\\' :: d :: s ∧ d ≠ '\n' ∧ d ≠ '\r' ∧
        ∀ rest, escapeSequence plainString (d :: (s ++ rest)) = some (c, rest) := by
  unfold escape
  split
  · exact .inr ⟨'0', [], rfl, by decide, by decide, fun rest => rfl⟩
  · exact .inr ⟨'t', [], rfl, by decide, by decide, fun rest => rfl⟩
  · exact .inr ⟨'r', [], rfl, by decide, by decide, fun rest => rfl⟩
  · exact .inr ⟨'n', [], rfl, by decide, by decide, fun rest => rfl⟩
  · exact .inr ⟨'\\', [], rfl, by decide, by decide, fun rest => rfl⟩
  · exact .inr ⟨'"', [], rfl, by decide, by decide, fun rest => rfl⟩
  · rename_i hReturn _ hBackslash hQuote
    split
    · exact .inl ⟨rfl, fun h => hQuote h, fun h => hBackslash h, fun h => hReturn h⟩
    · refine .inr ⟨'u', '\x7b' :: (hexDigits c.toNat ++ ['\x7d']), rfl, by decide, by decide, ?_⟩
      intro rest
      rw [List.cons_append, List.append_assoc, List.singleton_append]
      exact escapeSequence_codePoint c rest

/-! ## Strings -/

theorem stringBody_visible {rules : StringRules} {c : Char} (hQuote : c ≠ '"')
    (hBackslash : c ≠ '\\') (hReturn : c ≠ '\r')
    (hAllowed : ((rules.wide || c.toNat < 128) && (rules.nul || c ≠ '\x00')) = true)
    (steps : Nat) (value rest : List Char) :
    stringBody rules (steps + 1) value (c :: rest) =
      stringBody rules steps (c :: value) rest := by
  rw [stringBody]
  · rw [if_pos hAllowed]
  · exact hQuote
  · exact fun _ h _ => hReturn h
  · exact hReturn
  · exact fun _ h _ => hBackslash h
  · exact fun _ h _ => hBackslash h
  · exact hBackslash

theorem stringBody_escape {rules : StringRules} {d c : Char} {s rest : List Char}
    (hNewline : d ≠ '\n') (hReturn : d ≠ '\r')
    (h : escapeSequence rules (d :: s) = some (c, rest)) (steps : Nat) (value : List Char) :
    stringBody rules (steps + 1) value ('\\' :: d :: s) =
      stringBody rules steps (c :: value) rest := by
  rw [stringBody, h]
  · rfl
  · exact fun _ hList => hNewline (List.cons.inj hList).1
  · exact fun _ hList => hReturn (List.cons.inj hList).1

/-- One step reads what stands for a character. -/
theorem stringBody_escapeChar (c : Char) (steps : Nat) (value rest : List Char) :
    stringBody plainString (steps + 1) value (escape c ++ rest) =
      stringBody plainString steps (c :: value) rest := by
  rcases escape_cases c with ⟨hEscape, hQuote, hBackslash, hReturn⟩ |
    ⟨d, s, hEscape, hNewline, hReturn, hRead⟩
  · rw [hEscape]
    exact stringBody_visible hQuote hBackslash hReturn rfl steps value rest
  · rw [hEscape]
    exact stringBody_escape hNewline hReturn (hRead rest) steps value

theorem escape_ne_nil (c : Char) : escape c ≠ [] := by
  rcases escape_cases c with ⟨h, -⟩ | ⟨_, _, h, -⟩ <;> simp [h]

/-- What the literal has for its first character stands for it. -/
theorem literalBody_cons (c : Char) (s : List Char) :
    ∃ written, literalBody (c :: s) = written ++ literalBody s ∧ written ≠ [] ∧
      ∀ steps value rest, stringBody plainString (steps + 1) value (written ++ rest) =
        stringBody plainString steps (c :: value) rest := by
  by_cases hNul : c = '\x00'
  · subst hNul
    rw [literalBody]
    split
    · exact ⟨_, rfl, by simp, fun steps value rest => rfl⟩
    · exact ⟨_, rfl, by simp, fun steps value rest => rfl⟩
  · refine ⟨escape c, ?_, escape_ne_nil c, stringBody_escapeChar c⟩
    rw [literalBody]
    exact fun h => hNul h

theorem stringBody_literalBody (s : List Char) {steps : Nat}
    (hSteps : (literalBody s).length < steps) (value rest : List Char) :
    stringBody plainString steps value (literalBody s ++ '"' :: rest) =
      some (value.reverse ++ s, rest) := by
  induction s generalizing steps value with
  | nil =>
    obtain ⟨n, rfl⟩ := Nat.exists_eq_succ_of_ne_zero (Nat.ne_zero_of_lt hSteps)
    rw [List.append_nil]
    rfl
  | cons c s ih =>
    obtain ⟨written, hBody, hNe, hRead⟩ := literalBody_cons c s
    have hLength := List.length_pos_of_ne_nil hNe
    rw [hBody, List.length_append] at hSteps
    obtain ⟨n, rfl⟩ := Nat.exists_eq_succ_of_ne_zero (Nat.ne_zero_of_lt hSteps)
    rw [hBody, List.append_assoc, hRead, ih (by omega), List.reverse_cons, List.append_assoc,
      List.singleton_append]

/-- A string literal is read back as the string. -/
theorem takeLiteral_stringLiteral (s : String) (rest : List Char) :
    takeLiteral ((stringLiteral s).toList ++ rest) = some (.string s, dropWord rest) := by
  have hList : (stringLiteral s).toList ++ rest = '"' :: (literalBody s.toList ++ '"' :: rest) := by
    rw [stringLiteral, String.toList_ofList]
    simp
  have hRead : cookedString plainString (literalBody s.toList ++ '"' :: rest) =
      some (s.toList, rest) := by
    apply stringBody_literalBody
    rw [List.length_append]
    omega
  rw [hList, takeLiteral]
  simp only [hRead, asString, Option.map_some, String.ofList_toList]

end CommandDispatch.Source
