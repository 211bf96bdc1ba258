import Mathlib.Data.String.Basic

/-!
# The order of texts is the order of their bytes

Texts are compared by their code points. Comparing their bytes in UTF-8 gives the same order, since
of two characters the one with the smaller code point has the smaller byte where they first differ.
-/

namespace CommandDispatch.Text

def bytes (s : String) : List UInt8 :=
  s.toByteArray.data.toList

theorem bytes_eq_flatMap (s : String) : bytes s = s.toList.flatMap String.utf8EncodeChar := by
  obtain ⟨cs, rfl⟩ : ∃ cs, s = String.ofList cs := ⟨s.toList, String.ofList_toList.symm⟩
  rw [bytes, String.toByteArray_ofList, String.toList_ofList, List.utf8Encode,
    List.toList_data_toByteArray]

/-- The bytes of a smaller character come before those of a greater one, whatever follows. -/
theorem utf8EncodeChar_append_lt {c d : Char} (h : c < d) (r u : List UInt8) :
    String.utf8EncodeChar c ++ r < String.utf8EncodeChar d ++ u := by
  have hNat : c.val.toNat < d.val.toNat := h
  have hBound : d.val.toNat < 0x110000 := by
    rcases d.valid with h | ⟨-, h⟩
    · exact Nat.lt_trans h (by decide)
    · exact h
  unfold String.utf8EncodeChar
  generalize c.val.toNat = m at hNat
  generalize d.val.toNat = n at hNat hBound
  -- Each byte holds the last six bits of what is left after dividing by a power of 64.
  have hTwice : ∀ k, k / 4096 = k / 64 / 64 := fun k => (Nat.div_div_eq_div_mul k 64 64).symm
  have hThrice : ∀ k, k / 262144 = k / 64 / 64 / 64 := fun k => by
    rw [Nat.div_div_eq_div_mul, Nat.div_div_eq_div_mul]
  dsimp only
  split_ifs <;>
    simp only [List.cons_append, List.nil_append, List.cons_lt_cons_iff, UInt8.lt_iff_toNat_lt,
      ← UInt8.toNat_inj, UInt8.toNat_ofNat', hTwice, hThrice] <;>
    simp (disch := omega) only [Nat.mod_eq_of_lt] <;>
    omega

theorem flatMap_utf8EncodeChar_lt {s t : List Char} (h : s < t) :
    s.flatMap String.utf8EncodeChar < t.flatMap String.utf8EncodeChar := by
  induction h with
  | @nil c t =>
    obtain ⟨b, bs, hBytes⟩ :=
      List.exists_cons_of_ne_nil (String.utf8EncodeChar_ne_nil (c := c))
    rw [List.flatMap_nil, List.flatMap_cons, hBytes, List.cons_append]
    exact List.nil_lt_cons b _
  | @cons c s t _ ih =>
    rw [List.flatMap_cons, List.flatMap_cons]
    exact List.append_left_lt ih
  | @rel c s d t h =>
    rw [List.flatMap_cons, List.flatMap_cons]
    exact utf8EncodeChar_append_lt h _ _

theorem lt_iff_bytes_lt {s t : String} : s < t ↔ bytes s < bytes t := by
  rw [bytes_eq_flatMap, bytes_eq_flatMap, String.lt_iff_toList_lt]
  refine ⟨flatMap_utf8EncodeChar_lt, fun h => ?_⟩
  rcases lt_trichotomy s.toList t.toList with hLt | hEq | hGt
  · exact hLt
  · rw [hEq] at h
    exact absurd h (List.lt_irrefl _)
  · exact absurd (flatMap_utf8EncodeChar_lt hGt) (List.lt_asymm h)

end CommandDispatch.Text
