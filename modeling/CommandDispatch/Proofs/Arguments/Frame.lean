import CommandDispatch.Proofs.Arguments.Concatenation

/-!
# What a flag and a further positional leave alone

Tokens are sliced alike whatever was read before them. So a flag among others changes nothing but
itself, and what stands after a positional changes nothing in front of it.

* `slice_flags_between`: flags in front of further tokens change nothing but these flags,
* `slice_append`: tokens after a positional are further positionals.
-/

namespace CommandDispatch.Arguments

/-- The two maps have the same values, apart from the keys of `hidden`. -/
def FlagMap.DiffersIn (hidden f g : FlagMap) : Prop :=
  ∀ key : String, hidden[key]? = none → f[key]? = g[key]?

theorem FlagMap.differsIn_union (f hidden g : FlagMap) :
    FlagMap.DiffersIn hidden (f ∪ (hidden ∪ g)) (f ∪ g) := by
  intro key hKey
  simp only [Std.ExtTreeMap.getElem?_union, hKey, Option.or_none]

/-- Flags in front of further tokens change nothing but these flags: the further tokens are refused
with the same error, or sliced into the same positionals and the same other flags. -/
theorem slice_flags_between {before flags : List String} {f hidden : FlagMap}
    (hBefore : slice before = .ok ⟨f, []⟩) (hFlags : slice flags = .ok ⟨hidden, []⟩)
    (after : List String) :
    SameResult (fun s t => s.positionals = t.positionals ∧
        FlagMap.DiffersIn hidden s.flags t.flags)
      (slice (before ++ flags ++ after)) (slice (before ++ after)) := by
  rw [List.append_assoc, slice_append_of_flags hBefore, slice_append_of_flags hBefore,
    slice_append_of_flags hFlags]
  cases slice after with
  | error e => exact .error e
  | ok s => exact .ok ⟨rfl, FlagMap.differsIn_union f hidden s.flags⟩

/-- Tokens after a positional are further positionals. -/
theorem slice_append {tokens more : List String} {s t : Sliced} (h : slice tokens = .ok s)
    (hNe : s.positionals ≠ []) (hMore : slice (tokens ++ more) = .ok t) :
    t.flags = s.flags ∧ ∃ others, t.positionals = s.positionals ++ others := by
  rw [slice_append_of_positionals h hNe] at hMore
  cases hPositionals : slicePositionals more with
  | error e =>
    rw [hPositionals] at hMore
    cases hMore
  | ok u =>
    rw [hPositionals] at hMore
    cases hMore
    refine ⟨?_, u.positionals, rfl⟩
    simp only [Sliced.append_eq, flags_eq_of_slicePositionals hPositionals, FlagMap.union_empty]

end CommandDispatch.Arguments
