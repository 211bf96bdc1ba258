import CommandDispatch.Proofs.Source.Readable

/-!
# Readers that take whole tokens

A reader of the grammar never stops after the mark of a lifetime: what it takes of readable tokens
is readable, and so is what it leaves. This is stated since an earlier state, because types keep the
tokens that they were written with.

* `Consumes before after`: readable tokens were taken,
* `Takes before p R`: since `before` the reader takes readable tokens, and gives results with `R`,
* `Takes.bind`, `Takes.since`, `Takes.repeatWhile`, `Takes.separatedUntil`, `Takes.chain`: readers
  that are put together.
-/

namespace CommandDispatch.Source

open Source.Parser Source.Grammar

/-- The tokens between the two states are readable, and so are those that are left. -/
def Consumes (before after : Tokens) : Prop :=
  ∃ us, before = us ++ after ∧ AreReadable us ∧ AreReadable after

namespace Consumes

variable {before ts rest : Tokens}

theorem refl (h : AreReadable ts) : Consumes ts ts :=
  ⟨[], rfl, .nil, h⟩

theorem readable (h : Consumes before ts) : AreReadable ts := by
  obtain ⟨-, -, -, h⟩ := h
  exact h

theorem trans (h : Consumes before ts) (h' : Consumes ts rest) : Consumes before rest := by
  obtain ⟨us, rfl, hus, -⟩ := h
  obtain ⟨vs, rfl, hvs, hRest⟩ := h'
  exact ⟨us ++ vs, (List.append_assoc us vs rest).symm, hus.append hvs, hRest⟩

theorem word {w : String} (h : AreReadable (.word w :: rest)) :
    IsName w ∧ Consumes (.word w :: rest) rest := by
  cases h with
  | word hw hRest => exact ⟨hw, [_], rfl, .word hw .nil, hRest⟩

theorem mark {c : Char} {joint : Bool} (hTick : c ≠ '\'')
    (h : AreReadable (.mark c joint :: rest)) : Consumes (.mark c joint :: rest) rest := by
  cases h with
  | mark hc _ hRest => exact ⟨[_], rfl, .mark hc hTick .nil, hRest⟩
  | lifetime => exact absurd rfl hTick
  | tick => exact absurd rfl hTick

theorem lifetime {w : String} (h : AreReadable (.mark '\'' true :: .word w :: rest)) :
    IsName w ∧ Consumes (.mark '\'' true :: .word w :: rest) rest := by
  cases h with
  | mark _ hTick _ => exact absurd rfl hTick
  | lifetime hw hRest => exact ⟨hw, [_, _], rfl, .lifetime hw .nil, hRest⟩

theorem literal {kind : Literal} {text : String} (h : AreReadable (.literal kind text :: rest)) :
    Consumes (.literal kind text :: rest) rest := by
  cases h with
  | literal hText hRest => exact ⟨[_], rfl, .literal hText .nil, hRest⟩

theorem group {d : Delimiter} {trees : Tokens} (h : AreReadable (.group d trees :: rest)) :
    AreReadable trees ∧ Consumes (.group d trees :: rest) rest := by
  cases h with
  | group hTrees hRest => exact ⟨hTrees, [_], rfl, .group hTrees .nil, hRest⟩

theorem of_matchMarks {cs : List Char} (hTick : '\'' ∉ cs)
    (h : matchMarks cs ts = some rest) (hts : AreReadable ts) : Consumes ts rest := by
  fun_induction matchMarks cs ts with
  | case1 ts =>
    cases h
    exact .refl hts
  | case2 c joint ts =>
    cases h
    exact .mark (fun hc => hTick (by rw [hc]; exact List.mem_cons_self)) hts
  | case3 => cases h
  | case4 c cs d joint ts hNe hEq ih =>
    rw [List.mem_cons, not_or] at hTick
    have hFirst : Consumes (.mark d joint :: ts) ts := by
      refine .mark (fun hd => hTick.1 ?_) hts
      rw [Bool.and_eq_true, decide_eq_true_eq] at hEq
      rw [hEq.1, hd]
    exact hFirst.trans (ih hTick.2 h hFirst.readable)
  | case5 => cases h
  | case6 => cases h

end Consumes

/-- Since `before`, the reader takes readable tokens, and `R` holds of what it gives. -/
def Takes {α : Type} (before : Tokens) (p : Parser α) (R : α → Prop) : Prop :=
  ∀ ts a rest, Consumes before ts → p ts = some (a, rest) → Consumes before rest ∧ R a

namespace Takes

variable {α β : Type} {before : Tokens} {p : Parser α} {f : α → Parser β} {R : α → Prop}
  {Q : β → Prop}

/-! ## Steps -/

theorem bind (hp : Takes before p R) (hf : ∀ a, R a → Takes before (f a) Q) :
    Takes before (p >>= f) Q := by
  intro ts b rest hts h
  rw [bind_apply] at h
  obtain ⟨⟨a, us⟩, hFirst, hSecond⟩ := Option.bind_eq_some_iff.mp h
  obtain ⟨hus, ha⟩ := hp ts a us hts hFirst
  exact hf a ha us b rest hus hSecond

theorem pure {a : α} (h : R a) : Takes before (Pure.pure a) R := by
  intro ts b rest hts hRun
  cases hRun
  exact ⟨hts, h⟩

theorem failure : Takes before (failure : Parser α) R := by
  intro ts b rest hts hRun
  cases hRun

theorem imp {S : α → Prop} (h : Takes before p R) (hRS : ∀ a, R a → S a) : Takes before p S := by
  intro ts a rest hts hRun
  obtain ⟨hRest, ha⟩ := h ts a rest hts hRun
  exact ⟨hRest, hRS a ha⟩

theorem ite {c : Prop} [Decidable c] {p q : Parser α} (hp : Takes before p R)
    (hq : Takes before q R) : Takes before (if c then p else q) R := by
  split
  · exact hp
  · exact hq

theorem discard (h : Takes before p R) : Takes before (discard p) fun _ => True := by
  intro ts a rest hts hRun
  rw [discard_apply] at hRun
  obtain ⟨⟨b, us⟩, hRead, hEq⟩ := Option.map_eq_some_iff.mp hRun
  cases hEq
  exact ⟨(h ts b us hts hRead).1, trivial⟩

theorem map {f : α → β} (h : Takes before p R) (hf : ∀ a, R a → Q (f a)) :
    Takes before (f <$> p) Q := by
  intro ts b rest hts hRun
  have hBind : (p ts).bind (fun x => some (f x.1, x.2)) = some (b, rest) := hRun
  obtain ⟨⟨a, us⟩, hRead, hEq⟩ := Option.bind_eq_some_iff.mp hBind
  cases hEq
  obtain ⟨hRest, ha⟩ := h ts a us hts hRead
  exact ⟨hRest, hf a ha⟩

theorem get : Takes before (MonadState.get : Parser Tokens) (Consumes before) := by
  intro ts a rest hts hRun
  cases hRun
  exact ⟨hts, hts⟩

/-- A reader that keeps the state from where on it reads. -/
theorem get_bind {g : Tokens → Parser β} (h : ∀ ts, Takes ts (g ts) Q) :
    Takes before (MonadState.get >>= g) Q := by
  intro ts b rest hts hRun
  obtain ⟨hRest, hb⟩ := h ts ts b rest (.refl hts.readable) hRun
  exact ⟨hts.trans hRest, hb⟩

theorem ahead {test : Tokens → Bool} : Takes before (ahead test) fun _ => True := by
  intro ts a rest hts hRun
  cases hRun
  exact ⟨hts, trivial⟩

theorem require (condition : Bool) : Takes before (require condition) fun _ => True := by
  cases condition
  · exact failure
  · exact pure trivial

/-- The tokens that were read since an earlier state. -/
theorem since : Takes before (since before) AreReadable := by
  intro ts a rest hts hRun
  cases hRun
  obtain ⟨us, rfl, hus, hRest⟩ := hts
  refine ⟨⟨us, rfl, hus, hRest⟩, ?_⟩
  rw [List.length_append, Nat.add_sub_cancel, List.take_left]
  exact hus

/-! ## Single tokens -/

theorem mark {m : String} (hTick : m.toList.contains '\'' = false) :
    Takes before (mark m) fun _ => True := by
  intro ts a rest hts hRun
  cases hMatch : matchMarks m.toList ts with
  | none =>
    simp only [Parser.mark, bind_apply, get_apply, Option.bind_some, hMatch] at hRun
    cases hRun
  | some after =>
    simp only [Parser.mark, bind_apply, get_apply, Option.bind_some, hMatch] at hRun
    cases hRun
    exact ⟨hts.trans (.of_matchMarks (by simpa using hTick) hMatch hts.readable), trivial⟩

theorem mark? {m : String} (hTick : m.toList.contains '\'' = false) :
    Takes before (mark? m) fun _ => True := by
  intro ts a rest hts hRun
  cases hMatch : matchMarks m.toList ts with
  | none =>
    simp only [Parser.mark?, bind_apply, get_apply, Option.bind_some, hMatch] at hRun
    cases hRun
    exact ⟨hts, trivial⟩
  | some after =>
    simp only [Parser.mark?, bind_apply, get_apply, Option.bind_some, hMatch] at hRun
    cases hRun
    exact ⟨hts.trans (.of_matchMarks (by simpa using hTick) hMatch hts.readable), trivial⟩

theorem anyWord : Takes before anyWord IsName := by
  intro ts w rest hts hRun
  obtain rfl := anyWord_eq_some hRun
  obtain ⟨hw, hRest⟩ := Consumes.word hts.readable
  exact ⟨hts.trans hRest, hw⟩

theorem name : Takes before name IsIdentifier := by
  intro ts w rest hts hRun
  obtain ⟨rfl, hReserved⟩ := name_eq_some hRun
  obtain ⟨hw, hRest⟩ := Consumes.word hts.readable
  exact ⟨hts.trans hRest, hw, hReserved⟩

theorem word (w : String) : Takes before (word w) fun _ => True :=
  ahead.bind fun _ _ => (require _).bind fun _ _ => anyWord.discard

theorem word? (w : String) : Takes before (word? w) fun _ => True :=
  ahead.bind fun _ _ => ite ((word w).bind fun _ _ => pure trivial) (pure trivial)

/-- A word that is ahead is read before anything else. -/
theorem anyWord_or {test : Tokens → Bool} {ks : List String} {f : String → Parser β}
    {q : Parser β} (hTest : ∀ ts, test ts = true → ∃ w ∈ ks, ∃ us, ts = .word w :: us)
    (hf : ∀ w ∈ ks, IsName w → Takes before (f w) Q) (hq : Takes before q Q) :
    Takes before (do if ← Parser.ahead test then f (← Parser.anyWord) else q) Q := by
  intro ts b rest hts hRun
  have hTests : (if test ts = true then Parser.anyWord >>= f else q) ts = some (b, rest) := hRun
  split at hTests
  · rename_i hAhead
    obtain ⟨w, hMem, us, rfl⟩ := hTest ts hAhead
    obtain ⟨hw, hus⟩ := Consumes.word hts.readable
    exact hf w hMem hw us b rest (hts.trans hus) hTests
  · exact hq ts b rest hts hTests

theorem lifetime : Takes before lifetime IsName := by
  intro ts w rest hts hRun
  unfold Parser.lifetime at hRun
  rw [bind_apply, get_apply, Option.bind_some] at hRun
  dsimp only at hRun
  split at hRun
  · cases hRun
    obtain ⟨hw, hRest⟩ := Consumes.lifetime hts.readable
    exact ⟨hts.trans hRest, hw⟩
  · cases hRun

theorem literal : Takes before literal fun _ => True := by
  intro ts value rest hts hRun
  unfold Parser.literal at hRun
  rw [bind_apply, get_apply, Option.bind_some] at hRun
  dsimp only at hRun
  split at hRun
  · cases hRun
    exact ⟨hts.trans (.literal hts.readable), trivial⟩
  · cases hRun
    exact ⟨hts.trans (.literal hts.readable), trivial⟩
  · cases hRun
    have hMark := Consumes.mark (by decide) hts.readable
    exact ⟨hts.trans (hMark.trans (.literal hMark.readable)), trivial⟩
  · rename_i text after
    obtain ⟨u, -, hSet⟩ := Option.bind_eq_some_iff.mp hRun
    cases hSet
    exact ⟨hts.trans (Consumes.word hts.readable).2, trivial⟩
  · cases hRun

theorem inside {d : Delimiter} (h : ∀ ts a, AreReadable ts → p ts = some (a, []) → R a) :
    Takes before (inside d p) R := by
  intro ts a rest hts hRun
  unfold Parser.inside at hRun
  rw [bind_apply, get_apply, Option.bind_some] at hRun
  dsimp only at hRun
  split at hRun
  · rename_i e trees after
    obtain ⟨hTrees, hRest⟩ := Consumes.group hts.readable
    obtain ⟨⟨u, us⟩, hDelimiter, hInside⟩ := Option.bind_eq_some_iff.mp hRun
    cases hWhole : whole p trees with
    | none =>
      rw [hWhole] at hInside
      cases hInside
    | some b =>
      rw [hWhole] at hInside
      cases hInside
      exact ⟨hts.trans hRest, h trees a hTrees (whole_eq_some hWhole)⟩
  · cases hRun

theorem anyGroup : Takes before anyGroup fun _ => True := by
  intro ts a rest hts hRun
  unfold Parser.anyGroup at hRun
  rw [bind_apply, get_apply, Option.bind_some] at hRun
  dsimp only at hRun
  split at hRun
  · cases hRun
    exact ⟨hts.trans (Consumes.group hts.readable).2, trivial⟩
  · cases hRun

/-! ## Sequences -/

theorem repeatWhile {going : Tokens → Bool} (hp : Takes before p R) :
    Takes before (repeatWhile going p) fun as => ∀ a ∈ as, R a := by
  have hSteps : ∀ n, Takes before (repeatSteps going p n) fun as => ∀ a ∈ as, R a := by
    intro n
    induction n with
    | zero => exact failure
    | succ n ih =>
      refine ahead.bind fun b _ => ite ?_ (pure (List.forall_mem_nil _))
      exact hp.bind fun a ha => ih.bind fun as has => pure (List.forall_mem_cons.mpr ⟨ha, has⟩)
  exact get.bind fun ts _ => hSteps _

theorem separatedUntil {done : Tokens → Bool} {separator : String}
    (hTick : separator.toList.contains '\'' = false) (hp : Takes before p R) :
    Takes before (separatedUntil done separator p) fun as => ∀ a ∈ as, R a := by
  have hSteps : ∀ n, Takes before (separatedSteps done separator p n) fun as => ∀ a ∈ as, R a := by
    intro n
    induction n with
    | zero => exact failure
    | succ n ih =>
      refine ahead.bind fun b _ => ite (pure (List.forall_mem_nil _)) ?_
      refine hp.bind fun a ha => ahead.bind fun b _ => ite ?_ ?_
      · exact pure (List.forall_mem_singleton.mpr ha)
      · refine (mark hTick).bind fun _ _ => ih.bind fun as has => ?_
        exact pure (List.forall_mem_cons.mpr ⟨ha, has⟩)
  exact get.bind fun ts _ => hSteps _

theorem chain {done : Tokens → Bool} {separator : String}
    (hTick : separator.toList.contains '\'' = false) (hp : Takes before p R) :
    Takes before (chain done separator p) fun as => ∀ a ∈ as, R a := by
  have hSteps : ∀ n, Takes before (chainSteps done separator p n) fun as => ∀ a ∈ as, R a := by
    intro n
    induction n with
    | zero => exact failure
    | succ n ih =>
      refine ahead.bind fun b _ => ite (pure (List.forall_mem_nil _)) ?_
      refine hp.bind fun a ha => (mark? hTick).bind fun b _ => ite ?_ ?_
      · exact ih.bind fun as has => pure (List.forall_mem_cons.mpr ⟨ha, has⟩)
      · exact pure (List.forall_mem_singleton.mpr ha)
  exact get.bind fun ts _ => hSteps _

end Takes

end CommandDispatch.Source
