import CommandDispatch.Proofs.Source.Parser

/-!
# What the rules of the grammar read

The rules are built in levels, and parts nest no deeper than there are tokens. So what a rule reads
is stated for every level that the size of the tokens allows: a rule of a level reads its parts with
the level below, and these are smaller.

* `IsRead rule F ts`: the rule reads the tokens before whatever `F` allows,
* `IsPart field F ts`: so does the level above, which names the rule as one of its readers,
* `Repeated.sized`, `Separated.sized`: the parts of a list are no larger than the list.
-/

namespace CommandDispatch.Source

open Source.Parser Source.Grammar

/-! ## Sizes -/

theorem Tokens.size_append (ts us : Tokens) :
    Tokens.size (ts ++ us) = Tokens.size ts + Tokens.size us := by
  induction ts with
  | nil => exact (Nat.zero_add _).symm
  | cons t ts ih => rw [List.cons_append, size, size, ih, Nat.add_assoc]

theorem Tokens.size_cons (t : TokenTree) (ts : Tokens) :
    Tokens.size (t :: ts) = t.size + Tokens.size ts :=
  rfl

theorem TokenTree.size_pos (t : TokenTree) : 0 < t.size := by
  cases t <;> simp [size]

theorem Parser.Repeated.sized {P : Tokens → Prop} {ts : Tokens} (h : Repeated P ts) :
    Repeated (fun us => P us ∧ Tokens.size us ≤ Tokens.size ts) ts := by
  induction h with
  | nil => exact .nil
  | @cons us ts h _ ih =>
    have hSize := Tokens.size_append us ts
    exact .cons ⟨h, by omega⟩ (ih.imp fun vs hvs => ⟨hvs.1, by omega⟩)

theorem Parser.Separated.sized {P : Tokens → Prop} {ts : Tokens} (h : Separated P ts) :
    Separated (fun us => P us ∧ Tokens.size us ≤ Tokens.size ts) ts := by
  induction h with
  | nil => exact .nil
  | last h => exact .last ⟨h, Nat.le_refl _⟩
  | @cons us ts joint h _ ih =>
    have hSize := Tokens.size_append us (.mark ',' joint :: ts)
    rw [Tokens.size_cons] at hSize
    exact .cons joint ⟨h, by omega⟩ (ih.imp fun vs hvs => ⟨hvs.1, by omega⟩)

/-! ## Rules and parts -/

variable {α : Type} {F G : Tokens → Prop} {ts : Tokens}

/-- At every level from the size of the tokens on, the rule reads them before whatever `F`
allows. -/
def IsRead (rule : Grammar → Parser α) (F : Tokens → Prop) (ts : Tokens) : Prop :=
  ∀ forms depth rest, Tokens.size ts ≤ depth → F rest →
    ∃ a, rule (ofDepth forms depth) (ts ++ rest) = some (a, rest)

/-- At every level beyond the size of the tokens, the reader reads them before whatever `F`
allows. -/
def IsPart (field : Grammar → Parser α) (F : Tokens → Prop) (ts : Tokens) : Prop :=
  ∀ forms depth rest, Tokens.size ts < depth → F rest →
    ∃ a, field (ofDepth forms depth) (ts ++ rest) = some (a, rest)

/-- What a rule reads is a part for the level above. -/
theorem IsRead.isPart {p field : Grammar → Parser α} (h : IsRead p F ts)
    (hField : ∀ forms depth, field (ofDepth forms (depth + 1)) = p (ofDepth forms depth)) :
    IsPart field F ts := by
  intro forms depth rest hDepth hRest
  obtain ⟨n, rfl⟩ := Nat.exists_eq_succ_of_ne_zero (Nat.ne_zero_of_lt hDepth)
  rw [hField]
  exact h forms n rest (Nat.le_of_lt_succ hDepth) hRest

theorem IsPart.imp {field : Grammar → Parser α} (h : IsPart field F ts) (hGF : ∀ us, G us → F us) :
    IsPart field G ts :=
  fun forms depth rest hDepth hRest => h forms depth rest hDepth (hGF rest hRest)

/-- A part is read as an item of a list whose end it does not begin with. -/
theorem IsPart.isListItem {field : Grammar → Parser α} {done : Tokens → Bool}
    (h : IsPart field F ts) (hDone : ∀ rest, done (ts ++ rest) = false)
    (hF : ∀ rest, EndsItem done rest → F rest) (forms : Forms) (depth : Nat)
    (hDepth : Tokens.size ts < depth) : IsListItem done (field (ofDepth forms depth)) ts where
  done_eq := hDone
  apply_eq rest hRest := h forms depth rest hDepth (hF rest hRest)

/-- Parts with commas between them are read as a list. -/
theorem commaList_part {p : Grammar → Parser α}
    (h : Separated (fun us => us ≠ [] ∧ IsPart p F us) ts)
    (hF : ∀ rest, EndsItem List.isEmpty rest → F rest) (forms : Forms) (depth : Nat)
    (hDepth : Tokens.size ts < depth) :
    ∃ as, commaList (p (ofDepth forms depth)) ts = some (as, []) := by
  refine commaList_apply (h.sized.imp fun us ⟨⟨hNe, hPart⟩, hSize⟩ => ?_)
  exact hPart.isListItem (fun rest => by simp [hNe]) hF forms depth
    (Nat.lt_of_le_of_lt hSize hDepth)

end CommandDispatch.Source
