import Mathlib.Data.List.Forall2

/-!
# Steps that may fail

How a step that succeeds or fails goes on, and what holds after many steps.
-/

namespace CommandDispatch

variable {ε α β : Type}

@[simp]
theorem ok_bind (a : α) (f : α → Except ε β) : (Except.ok a >>= f) = f a :=
  rfl

@[simp]
theorem error_bind (e : ε) (f : α → Except ε β) : (Except.error e >>= f) = .error e :=
  rfl

theorem bind_eq_ok {x : Except ε α} {f : α → Except ε β} {b : β} :
    (x >>= f) = .ok b ↔ ∃ a, x = .ok a ∧ f a = .ok b := by
  cases x with
  | error e => simp
  | ok a => simp

/-- A check goes on only if the condition for its error does not hold. -/
theorem throw_or_eq_ok {b : Prop} [Decidable b] {e : ε} {f : Unit → Except ε α} {x : Except ε α}
    {a : α} : (if b then throw e >>= f else x) = .ok a ↔ ¬ b ∧ x = .ok a := by
  by_cases hb : b
  · rw [if_pos hb]
    exact iff_of_false (fun h => by cases h) fun h => h.1 hb
  · rw [if_neg hb]
    exact (and_iff_right hb).symm

theorem bind_eq_error {x : Except ε α} {f : α → Except ε β} {e : ε} :
    (x >>= f) = .error e ↔ x = .error e ∨ ∃ a, x = .ok a ∧ f a = .error e := by
  cases x with
  | error e' => simp
  | ok a => simp

/-- A check fails if the condition for its error holds, or else with what comes after it. -/
theorem throw_or_eq_error {b : Prop} [Decidable b] {e e' : ε} {f : Unit → Except ε α}
    {x : Except ε α} :
    (if b then throw e' >>= f else x) = .error e ↔ b ∧ e' = e ∨ ¬ b ∧ x = .error e := by
  by_cases hb : b
  · rw [if_pos hb]
    refine ⟨fun h => .inl ⟨hb, Except.error.inj h⟩, ?_⟩
    rintro (⟨-, rfl⟩ | ⟨hNot, -⟩)
    · rfl
    · exact absurd hb hNot
  · rw [if_neg hb]
    refine ⟨fun h => .inr ⟨hb, h⟩, ?_⟩
    rintro (⟨h, -⟩ | ⟨-, h⟩)
    · exact absurd h hb
    · exact h

@[simp]
theorem mapError_eq_ok {δ : Type} {f : ε → δ} {x : Except ε α} {a : α} :
    x.mapError f = .ok a ↔ x = .ok a := by
  cases x <;> simp [Except.mapError]

theorem mapError_eq_error {δ : Type} {f : ε → δ} {x : Except ε α} {d : δ} :
    x.mapError f = .error d ↔ ∃ e, x = .error e ∧ f e = d := by
  cases x <;> simp [Except.mapError]

theorem map_eq_error {f : α → β} {x : Except ε α} {e : ε} : x.map f = .error e ↔ x = .error e := by
  cases x <;> simp [Except.map]

theorem map_eq_ok {f : α → β} {x : Except ε α} {b : β} :
    x.map f = .ok b ↔ ∃ a, x = .ok a ∧ f a = b := by
  cases x <;> simp [Except.map]

/-- A change of the result that the next step commutes with can be made after it. -/
theorem map_bind_comm {γ δ : Type} {x : Except ε α} {φ : α → γ} {ψ : β → δ} {f : α → Except ε β}
    {g : γ → Except ε δ} (h : ∀ a, g (φ a) = (f a).map ψ) :
    (x.map φ >>= g) = (x >>= f).map ψ := by
  cases x with
  | error e => rfl
  | ok a => exact h a

/-! ## Two runs -/

/-- Two runs that fail with the same error, or succeed with related results. -/
inductive SameResult {γ : Type} (r : α → γ → Prop) : Except ε α → Except ε γ → Prop where
  | ok {a : α} {c : γ} (h : r a c) : SameResult r (.ok a) (.ok c)
  | error (e : ε) : SameResult r (.error e) (.error e)

theorem SameResult.imp {γ : Type} {r s : α → γ → Prop} {x : Except ε α} {y : Except ε γ}
    (h : SameResult r x y) (hImp : ∀ a c, r a c → s a c) : SameResult s x y := by
  cases h with
  | ok hResult => exact .ok (hImp _ _ hResult)
  | error e => exact .error e

theorem SameResult.exists_of_ok {γ : Type} {r : α → γ → Prop} {x : Except ε α} {c : γ}
    (h : SameResult r x (.ok c)) : ∃ a, x = .ok a ∧ r a c := by
  cases h with
  | ok hResult => exact ⟨_, rfl, hResult⟩

/-! ## Many steps -/

theorem mapM_eq_ok_iff {f : α → Except ε β} {l : List α} {r : List β} :
    l.mapM f = .ok r ↔ List.Forall₂ (fun a b => f a = .ok b) l r := by
  induction l generalizing r with
  | nil =>
    rw [List.mapM_nil, List.forall₂_nil_left_iff]
    exact ⟨fun h => by cases h; rfl, fun h => by rw [h]; rfl⟩
  | cons a l ih =>
    rw [List.mapM_cons, bind_eq_ok, List.forall₂_cons_left_iff]
    constructor
    · rintro ⟨b, hFirst, h⟩
      obtain ⟨bs, hRest, h⟩ := bind_eq_ok.mp h
      cases h
      exact ⟨b, bs, hFirst, ih.mp hRest, rfl⟩
    · rintro ⟨b, bs, hFirst, hRest, rfl⟩
      refine ⟨b, hFirst, ?_⟩
      rw [ih.mpr hRest]
      rfl

theorem exists_of_mapM_eq_error {f : α → Except ε β} {l : List α} {e : ε}
    (h : l.mapM f = .error e) : ∃ a ∈ l, f a = .error e := by
  induction l with
  | nil => cases h
  | cons a l ih =>
    rw [List.mapM_cons] at h
    rcases bind_eq_error.mp h with hFirst | ⟨b, -, h⟩
    · exact ⟨a, List.mem_cons_self, hFirst⟩
    · rcases bind_eq_error.mp h with hRest | ⟨bs, -, h⟩
      · obtain ⟨a', ha', hError⟩ := ih hRest
        exact ⟨a', List.mem_cons_of_mem a ha', hError⟩
      · cases h

theorem mapM_congr_left {f g : α → Except ε β} {l : List α} (h : ∀ a ∈ l, f a = g a) :
    l.mapM f = l.mapM g := by
  induction l with
  | nil => rfl
  | cons a l ih =>
    obtain ⟨hFirst, hRest⟩ := List.forall_mem_cons.mp h
    rw [List.mapM_cons, List.mapM_cons, hFirst, ih hRest]

/-- What the first state satisfies and every step keeps, the last state satisfies. -/
theorem foldlM_invariant {f : β → α → Except ε β} {l : List α} {P : β → Prop} {b r : β}
    (hStart : P b) (hStep : ∀ a ∈ l, ∀ b b', P b → f b a = .ok b' → P b')
    (h : l.foldlM f b = .ok r) : P r := by
  induction l generalizing b with
  | nil =>
    cases h
    exact hStart
  | cons a l ih =>
    rw [List.foldlM_cons] at h
    obtain ⟨b', hFirst, h⟩ := bind_eq_ok.mp h
    have hNext : P b' := hStep a List.mem_cons_self b b' hStart hFirst
    exact ih hNext (fun a' ha' => hStep a' (List.mem_cons_of_mem a ha')) h

/-- Steps fail with the error of the first one that does; those after it are not taken. -/
theorem foldlM_eq_error_iff {f : β → α → Except ε β} {l : List α} {b : β} {e : ε} :
    l.foldlM f b = .error e ↔ ∃ before a after b', l = before ++ a :: after ∧
      before.foldlM f b = .ok b' ∧ f b' a = .error e := by
  constructor
  · intro h
    induction l generalizing b with
    | nil => cases h
    | cons a l ih =>
      rw [List.foldlM_cons] at h
      rcases bind_eq_error.mp h with hFirst | ⟨b', hFirst, hRest⟩
      · exact ⟨[], a, l, b, rfl, rfl, hFirst⟩
      · obtain ⟨before, a', after, b'', rfl, hBefore, hError⟩ := ih hRest
        refine ⟨a :: before, a', after, b'', rfl, ?_, hError⟩
        rw [List.foldlM_cons, hFirst, ok_bind]
        exact hBefore
  · rintro ⟨before, a, after, b', rfl, hBefore, hError⟩
    rw [List.foldlM_append, hBefore, ok_bind, List.foldlM_cons, hError, error_bind]

/-- Steps that succeed wherever the others do lead to the same result. -/
theorem foldlM_mono {δ : Type} {f : β → α → Except ε β} {g : β → α → Except δ β} {l : List α}
    {b r : β} (hStep : ∀ b a b', f b a = .ok b' → g b a = .ok b') (h : l.foldlM f b = .ok r) :
    l.foldlM g b = .ok r := by
  induction l generalizing b with
  | nil =>
    cases h
    rfl
  | cons a l ih =>
    rw [List.foldlM_cons] at h ⊢
    obtain ⟨b', hFirst, hRest⟩ := bind_eq_ok.mp h
    rw [hStep b a b' hFirst, ok_bind]
    exact ih hRest

/-- Elements at which nothing changes may be left out. -/
theorem foldlM_filter {f : β → α → Except ε β} {l : List α} {p : α → Bool}
    (h : ∀ a ∈ l, p a = false → ∀ b, f b a = .ok b) (b : β) :
    (l.filter p).foldlM f b = l.foldlM f b := by
  induction l generalizing b with
  | nil => rfl
  | cons a l ih =>
    obtain ⟨hFirst, hRest⟩ := List.forall_mem_cons.mp h
    rw [List.filter_cons, List.foldlM_cons]
    split
    · rw [List.foldlM_cons]
      cases f b a with
      | error e => rfl
      | ok b' => exact ih hRest b'
    · rename_i hp
      rw [hFirst (Bool.eq_false_iff.mpr hp) b, ok_bind]
      exact ih hRest b

/-- What is related to a list is related to its elements. -/
theorem exists_of_forall₂_of_mem {R : α → β → Prop} {l : List α} {m : List β}
    (h : List.Forall₂ R l m) {b : β} (hb : b ∈ m) : ∃ a ∈ l, R a b := by
  obtain ⟨i, hi, rfl⟩ := List.getElem_of_mem hb
  obtain ⟨hLength, hAll⟩ := List.forall₂_iff_get.mp h
  have hi' : i < l.length := by omega
  exact ⟨l[i], List.getElem_mem hi', hAll i hi' hi⟩

end CommandDispatch
