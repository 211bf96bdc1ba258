import CommandDispatch.Dispatcher.Evaluation
import CommandDispatch.Proofs.Dispatcher.Check
import CommandDispatch.Proofs.Dispatcher.Realize

/-!
# The table of commands

The search in the table halves the positions that are left. In a table whose keys are in strict
order it finds the row with a key wherever that is.

* `searchRows_eq_some_iff`: the search finds the rows with the key and nothing else,
* `Realizes.find_eq_some_iff`, `Realizes.find_eq_none_iff`: what a name stands for in the dispatcher
  of checked commands.
-/

namespace CommandDispatch.Dispatcher

open Command Text

variable {ι : Type}

/-! ## The search -/

/-- What is found has the key. This needs no order. -/
theorem exists_of_searchRows {rows : Array (Row ι)} {key : String} {low high : Nat} {v : ι}
    (h : searchRows rows key low high = some v) : ∃ r ∈ rows, r.key = key ∧ r.variant = v := by
  fun_induction searchRows rows key low high with
  | case1 low high _ hRow => cases h
  | case2 low high _ row hRow hLt ih => exact ih h
  | case3 low high _ row hRow hGt ih => exact ih h
  | case4 low high _ row hRow hEq =>
    exact ⟨row, Array.mem_of_getElem? hRow, compare_eq_iff_eq.mp hEq, Option.some.inj h⟩
  | case5 low high _ => cases h

def IsSorted (rows : Array (Row ι)) : Prop :=
  ∀ i j (hi : i < rows.size) (hj : j < rows.size), i < j → rows[i].key < rows[j].key

namespace IsSorted

variable {rows : Array (Row ι)} {i j : Nat}

theorem lt_of_key_lt (h : IsSorted rows) (hi : i < rows.size) (hj : j < rows.size)
    (hKeys : rows[i].key < rows[j].key) : i < j := by
  by_contra hNot
  rcases Nat.lt_or_eq_of_le (Nat.not_lt.mp hNot) with hLt | rfl
  · exact lt_asymm hKeys (h j i hj hi hLt)
  · exact lt_irrefl _ hKeys

theorem eq_of_key_eq (h : IsSorted rows) (hi : i < rows.size) (hj : j < rows.size)
    (hKeys : rows[i].key = rows[j].key) : i = j := by
  rcases Nat.lt_trichotomy i j with hLt | hEq | hGt
  · exact absurd hKeys (ne_of_lt (h i j hi hj hLt))
  · exact hEq
  · exact absurd hKeys (ne_of_gt (h j i hj hi hGt))

end IsSorted

/-- A row between the positions is found. The order keeps it on the side on which the search goes
on. -/
theorem searchRows_of_between {rows : Array (Row ι)} (hSorted : IsSorted rows) {low high i : Nat}
    (hSize : high ≤ rows.size) (hi : i < rows.size) (hLow : low ≤ i) (hHigh : i < high) :
    searchRows rows rows[i].key low high = some rows[i].variant := by
  fun_induction searchRows rows rows[i].key low high with
  | case1 low high _ hRow =>
    rw [Array.getElem?_eq_none_iff] at hRow
    omega
  | case2 low high _ row hRow hLt ih =>
    obtain ⟨hMid, rfl⟩ := Array.getElem?_eq_some_iff.mp hRow
    have hAfter := hSorted.lt_of_key_lt hMid hi (compare_lt_iff_lt.mp hLt)
    exact ih hSize hAfter hHigh
  | case3 low high _ row hRow hGt ih =>
    obtain ⟨hMid, rfl⟩ := Array.getElem?_eq_some_iff.mp hRow
    have hBefore := hSorted.lt_of_key_lt hi hMid (compare_gt_iff_gt.mp hGt)
    exact ih (by omega) hLow hBefore
  | case4 low high _ row hRow hEq =>
    obtain ⟨hMid, rfl⟩ := Array.getElem?_eq_some_iff.mp hRow
    have hSame := hSorted.eq_of_key_eq hMid hi (compare_eq_iff_eq.mp hEq)
    subst hSame
    rfl
  | case5 low high hEmpty => omega

/-- In a table in strict order, the search finds the rows with the key. -/
theorem searchRows_eq_some_iff {rows : List (Row ι)}
    (hSorted : (rows.map Row.key).Pairwise (· < ·)) {key : String} {v : ι} :
    searchRows rows.toArray key 0 rows.length = some v ↔
      ∃ r ∈ rows, r.key = key ∧ r.variant = v := by
  constructor
  · intro h
    obtain ⟨r, hr, hRow⟩ := exists_of_searchRows h
    exact ⟨r, List.mem_toArray.mp hr, hRow⟩
  · rintro ⟨r, hr, rfl, rfl⟩
    obtain ⟨i, hi, rfl⟩ := List.getElem_of_mem hr
    rw [List.pairwise_map] at hSorted
    have hArray : IsSorted rows.toArray := fun i j hi hj hij => by
      have hKeys := List.pairwise_iff_getElem.mp hSorted i j (by simpa using hi) (by simpa using hj)
      simpa using hKeys hij
    have hFound := searchRows_of_between hArray (i := i) (by simp) (by simpa using hi)
      (Nat.zero_le i) hi
    simpa using hFound

/-! ## Names -/

variable {d : Dispatcher ι} {p : Program} {entries : List Entry}

namespace Realizes

theorem keys_eq (h : Realizes d entries) : d.rows.map Row.key = entries.map Entry.key := by
  have hKeys := List.forall₂_map_left_iff.mpr (List.forall₂_map_right_iff.mpr
    (h.rows.imp fun r e hRow => hRow.key_eq))
  exact List.forall₂_eq_eq_eq ▸ hKeys

theorem variants_nodup (h : Realizes d entries) : d.variants.Nodup :=
  h.nodup.of_append_left

theorem find_eq_some_iff_row (h : Realizes d entries) (hc : IsCheckOf p entries) {name : String}
    {v : ι} : d.find name = some v ↔ ∃ r ∈ d.rows, r.key = lower name ∧ r.variant = v := by
  unfold find
  apply searchRows_eq_some_iff
  rw [h.keys_eq]
  exact hc.sorted

/-- A name stands for the command whose key is its lower-case form. -/
theorem find_eq_some_iff (h : Realizes d entries) (hc : IsCheckOf p entries) {name : String}
    {r : Row ι} (hr : r ∈ d.rows) : d.find name = some r.variant ↔ lower name = r.key := by
  rw [h.find_eq_some_iff_row hc]
  constructor
  · rintro ⟨q, hq, hKey, hVariant⟩
    have hSame : q = r := List.inj_on_of_nodup_map h.variants_nodup hq hr hVariant
    exact hSame ▸ hKey.symm
  · intro hKey
    exact ⟨r, hr, hKey.symm, rfl⟩

/-- The table and the program know the same names. -/
theorem find_eq_none_iff (h : Realizes d entries) (hc : IsCheckOf p entries) {name : String} :
    d.find name = none ↔ p.find name = none := by
  rw [hc.find_eq_none_iff, Option.eq_none_iff_forall_ne_some]
  have hMem : ∀ key, (∃ r ∈ d.rows, r.key = key) ↔ ∃ e ∈ entries, e.key = key := fun key => by
    rw [← List.mem_map, ← List.mem_map, h.keys_eq]
  constructor
  · intro hNone e he hKey
    obtain ⟨r, hr, hRow⟩ := (hMem _).mpr ⟨e, he, hKey⟩
    exact hNone r.variant ((h.find_eq_some_iff hc hr).mpr hRow.symm)
  · intro hNone v hFind
    obtain ⟨r, hr, hKey, -⟩ := (h.find_eq_some_iff_row hc).mp hFind
    obtain ⟨e, he, hEntry⟩ := (hMem _).mp ⟨r, hr, hKey⟩
    exact hNone e he hEntry

end Realizes

end CommandDispatch.Dispatcher
