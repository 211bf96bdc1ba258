import CommandDispatch.Proofs.Arguments.SliceCut

/-!
# Slicing one list of tokens after another

Reading a token adds to the flags and positionals that were read before it, and never looks at them.
So they can as well be put underneath afterwards: tokens after flags are sliced as they are on their
own, and tokens after a positional as positionals.

* `Progress.readAll_onto`: reading commutes with putting something underneath,
* `slice_append_of_flags`, `slice_append_of_positionals`: tokens after flags, and after positionals,
* `slice_of_append`: two lists of tokens, whatever comes of the first one.
-/

namespace CommandDispatch.Arguments

open Text

/-- What two lists of tokens stand for together. A later flag replaces an earlier one of its name. -/
instance : Append Sliced where
  append s t := ⟨s.flags ∪ t.flags, s.positionals ++ t.positionals⟩

theorem Sliced.append_eq (s t : Sliced) :
    s ++ t = ⟨s.flags ∪ t.flags, s.positionals ++ t.positionals⟩ :=
  rfl

/-! ## Putting something underneath -/

namespace Progress

/-- Progress with flags and positionals underneath that were read before. -/
def onto (p : Progress) (s : Sliced) : Progress :=
  { p with flags := s.flags ∪ p.flags, positionals := s.positionals ++ p.positionals }

variable (p : Progress) (s : Sliced)

@[simp]
theorem onto_positionalsOnly : (p.onto s).positionalsOnly = p.positionalsOnly :=
  rfl

@[simp]
theorem onto_literal : (p.onto s).literal = p.literal :=
  rfl

theorem store_onto (value : List Char) (d : Destination) :
    (p.onto s).store value d = (p.store value d).onto s := by
  cases d with
  | flag key =>
    simp only [store, onto]
    congr 1
    exact (Std.ExtTreeMap.union_insert_right_eq_insert_union (p := ⟨key, _⟩)).symm
  | positional => simp only [store, onto, List.append_assoc]

theorem imply_onto (keys : List Char) : (p.onto s).imply keys = (p.imply keys).onto s := by
  unfold imply
  induction keys generalizing p with
  | nil => rfl
  | cons c keys ih => rw [List.foldl_cons, List.foldl_cons, store_onto, ih]

theorem extend_onto (mark : Char) (text piece : List Char) (d : Destination) :
    (p.onto s).extend mark text piece d = (p.extend mark text piece d).map (·.onto s) := by
  unfold extend
  cases Piece.of mark piece with
  | continues => rfl
  | closes before => exact congrArg Except.ok (store_onto { p with literal := none } s _ d)
  | misplaced => rfl

theorem begin_onto (value : List Char) (d : Destination) :
    (p.onto s).begin value d = (p.begin value d).map (·.onto s) := by
  cases value with
  | nil => exact congrArg Except.ok (p.store_onto s [] d)
  | cons c rest =>
    simp only [begin]
    split
    · exact p.extend_onto s c [] rest d
    · exact congrArg Except.ok (p.store_onto s (c :: rest) d)

theorem readShort_onto (body : List Char) :
    (p.onto s).readShort body = (p.readShort body).map (·.onto s) := by
  unfold readShort
  cases splitBody body with
  | error e => rfl
  | ok split =>
    obtain ⟨key, value⟩ := split
    simp only [ok_bind]
    cases key.getLast? with
    | none => rfl
    | some last =>
      dsimp only
      rw [imply_onto, begin_onto]

theorem readLong_onto (body : List Char) :
    (p.onto s).readLong body = (p.readLong body).map (·.onto s) := by
  unfold readLong
  cases splitBody body with
  | error e => rfl
  | ok split => exact p.begin_onto s _ _

theorem readGroup_onto (token : List Char) :
    (p.onto s).readGroup token = (p.readGroup token).map (·.onto s) := by
  unfold readGroup
  rw [onto_positionalsOnly]
  split
  · exact p.begin_onto s token .positional
  · split
    · exact p.toPositionals.begin_onto s token .positional
    · exact p.readShort_onto s _
    · exact p.readLong_onto s _
    · rfl

/-- What is underneath does not matter to a token. -/
theorem read_onto (token : String) :
    (p.onto s).read token = (p.read token).map (·.onto s) := by
  unfold read
  rw [onto_literal]
  split
  · exact p.extend_onto s _ _ _ _
  · exact p.readGroup_onto s _

/-- Nor does it to all tokens of a list. -/
theorem readAll_onto (tokens : List String) :
    (p.onto s).readAll tokens = (p.readAll tokens).map (·.onto s) := by
  induction tokens generalizing p with
  | nil => rfl
  | cons t tokens ih =>
    rw [readAll_cons, readAll_cons, read_onto]
    exact map_bind_comm ih

theorem finish_onto : (p.onto s).finish = p.finish.map (s ++ ·) := by
  unfold finish
  rw [onto_literal]
  split
  · rfl
  · rfl

/-- A whole reading on, with everything read before underneath. -/
theorem sliceFrom_onto (tokens : List String) :
    ((p.onto s).readAll tokens >>= finish) = (p.readAll tokens >>= finish).map (s ++ ·) := by
  rw [readAll_onto]
  exact map_bind_comm fun q => q.finish_onto s

end Progress

/-! ## Tokens after others -/

theorem FlagMap.union_empty (f : FlagMap) : f ∪ ∅ = f := by
  apply Std.ExtTreeMap.ext_getElem?
  intro key
  rw [Std.ExtTreeMap.getElem?_union, Std.ExtTreeMap.getElem?_empty, Option.none_or]

/-- Tokens that are sliced leave no literal open, and a positional among them makes all later
tokens positionals. -/
theorem readAll_of_slice {tokens : List String} {s : Sliced} (h : slice tokens = .ok s) :
    Progress.readAll tokens {} =
      .ok (Progress.onto { positionalsOnly := !s.positionals.isEmpty } s) := by
  obtain ⟨c, rfl⟩ := Cut.exists_of_slice_eq_ok h
  rw [c.slice_tokens, Except.ok.injEq] at h
  subst h
  have hEmpty : c.sliced.positionals.isEmpty = c.positionals.isEmpty := List.isEmpty_map
  rw [Progress.readAll_cut rfl rfl, hEmpty]
  unfold Progress.after
  cases c.positionals.isEmpty <;>
    simp [Progress.onto, Progress.give, Progress.add, Progress.toPositionals, Cut.sliced,
      FlagMap.union_empty]

/-- The first of two lists of tokens is read before the second one. -/
theorem slice_append_eq_bind (tokens more : List String) :
    slice (tokens ++ more) =
      Progress.readAll tokens {} >>= fun p => p.readAll more >>= Progress.finish := by
  change Progress.readAll (tokens ++ more) {} >>= Progress.finish = _
  rw [Progress.readAll_append]
  cases Progress.readAll tokens {} <;> rfl

theorem slice_append_eq {tokens : List String} {s : Sliced} (h : slice tokens = .ok s)
    (more : List String) :
    slice (tokens ++ more) =
      (Progress.readAll more { positionalsOnly := !s.positionals.isEmpty } >>=
        Progress.finish).map (s ++ ·) := by
  rw [slice_append_eq_bind, readAll_of_slice h, ok_bind, Progress.sliceFrom_onto]

/-- After flags, tokens are sliced as they are on their own. -/
theorem slice_append_of_flags {tokens : List String} {f : FlagMap} (h : slice tokens = .ok ⟨f, []⟩)
    (more : List String) : slice (tokens ++ more) = (slice more).map (⟨f, []⟩ ++ ·) :=
  slice_append_eq h more

/-- Slices tokens that stand after a positional. -/
def slicePositionals (tokens : List String) : Except TokenizeError Sliced :=
  Progress.readAll tokens { positionalsOnly := true } >>= Progress.finish

theorem flags_eq_of_slicePositionals {tokens : List String} {s : Sliced}
    (h : slicePositionals tokens = .ok s) : s.flags = ∅ := by
  obtain ⟨q, hRead, hFinish⟩ := bind_eq_ok.mp h
  obtain ⟨hq, rfl⟩ := Progress.finish_eq_ok.mp hFinish
  obtain ⟨ss, rfl⟩ := Progress.exists_spellings_of_readAll rfl rfl hRead hq
  have hAll := Progress.readAll_positionals (p := { positionalsOnly := true }) rfl rfl ss []
  rw [List.append_nil, hRead] at hAll
  cases hAll
  rfl

/-- After a positional, tokens are sliced as further positionals. -/
theorem slice_append_of_positionals {tokens : List String} {s : Sliced} (h : slice tokens = .ok s)
    (hNe : s.positionals ≠ []) (more : List String) :
    slice (tokens ++ more) = (slicePositionals more).map (s ++ ·) := by
  have hMode : (!s.positionals.isEmpty) = true := by simpa using hNe
  rw [slice_append_eq h, hMode]
  rfl

/-- After tokens that cannot be sliced, unless they only end inside a literal, nothing is read. -/
theorem slice_append_of_error {tokens : List String} {e : TokenizeError}
    (h : slice tokens = .error e) (hEnds : e ≠ .unterminatedString) (more : List String) :
    slice (tokens ++ more) = .error e := by
  have hRead : Progress.readAll tokens {} = .error e := by
    rcases bind_eq_error.mp h with hRead | ⟨q, -, hFinish⟩
    · exact hRead
    · unfold Progress.finish at hFinish
      split at hFinish
      · cases hFinish
        exact absurd rfl hEnds
      · cases hFinish
  rw [slice_append_eq_bind, hRead, error_bind]

theorem slice_bare : slice ["x"] = .ok ⟨∅, ["x"]⟩ := by
  rfl

/-- After flags, tokens are sliced as they are on their own, and their flags override those before.
After a positional they are sliced as further positionals, as they are after any bare word. After
an error, other than the end of the tokens inside a literal, they are not read. -/
theorem slice_of_append (before after : List String) :
    (∀ f : FlagMap, slice before = .ok ⟨f, []⟩ →
      slice (before ++ after) = (slice after).map fun s => ⟨f ∪ s.flags, s.positionals⟩) ∧
    (∀ s, slice before = .ok s → s.positionals ≠ [] →
      SameResult (fun t u => ∃ others, t = ⟨s.flags, s.positionals ++ others⟩ ∧
        u = ⟨∅, "x" :: others⟩) (slice (before ++ after)) (slice ("x" :: after))) ∧
    ∀ e, slice before = .error e → e ≠ .unterminatedString →
      slice (before ++ after) = .error e := by
  refine ⟨fun f h => slice_append_of_flags h after, fun s h hNe => ?_,
    fun e h hEnds => slice_append_of_error h hEnds after⟩
  have hBare : slice ("x" :: after) = (slicePositionals after).map (⟨∅, ["x"]⟩ ++ ·) :=
    slice_append_of_positionals slice_bare (by simp) after
  rw [slice_append_of_positionals h hNe, hBare]
  cases hAfter : slicePositionals after with
  | error e => exact .error e
  | ok t =>
    have hFlags : t.flags = ∅ := flags_eq_of_slicePositionals hAfter
    refine .ok ⟨t.positionals, ?_, ?_⟩
    · simp only [Sliced.append_eq, hFlags, FlagMap.union_empty]
    · simp only [Sliced.append_eq, hFlags, FlagMap.union_empty, List.singleton_append]

/-- A flag is overridden, a flag after a positional is none, and an error remains. -/
theorem slice_of_append_overridden :
    slice ["--Name=first"] = .ok ⟨(∅ : FlagMap).insert "name" "first", []⟩ ∧
      slice ["--Name=first", "--NAME=second", "p"] =
        .ok ⟨(∅ : FlagMap).insert "name" "first" ∪ (∅ : FlagMap).insert "name" "second", ["p"]⟩ ∧
      slice ["-v", "p", "--Name=a", "'b", "c'"] =
        .ok ⟨(∅ : FlagMap).insert "v" "true", ["p", "--Name=a", "b c"]⟩ ∧
      slice ["--a=b=c", "--Name=second"] = .error (.invalidFlagFormat "a=b=c") := by
  have hFlag : slice ["--Name=first"] = .ok ⟨(∅ : FlagMap).insert "name" "first", []⟩ := rfl
  have hAfter : slice ["--NAME=second", "p"] =
      .ok ⟨(∅ : FlagMap).insert "name" "second", ["p"]⟩ := rfl
  have hPositional : slice ["-v", "p"] = .ok ⟨(∅ : FlagMap).insert "v" "true", ["p"]⟩ := rfl
  have hBare : slice ["x", "--Name=a", "'b", "c'"] = .ok ⟨∅, ["x", "--Name=a", "b c"]⟩ := rfl
  refine ⟨hFlag, ?_, ?_, ?_⟩
  · have hSlice := (slice_of_append ["--Name=first"] ["--NAME=second", "p"]).1 _ hFlag
    rw [hAfter] at hSlice
    exact hSlice
  · have hSame := (slice_of_append ["-v", "p"] ["--Name=a", "'b", "c'"]).2.1 _ hPositional (by simp)
    rw [List.cons_append, List.cons_append, List.nil_append, hBare] at hSame
    obtain ⟨t, hSlice, others, rfl, hOthers⟩ := hSame.exists_of_ok
    rw [Sliced.mk.injEq, List.cons.injEq] at hOthers
    rw [hOthers.2.2]
    exact hSlice
  · exact (slice_of_append ["--a=b=c"] ["--Name=second"]).2.2 _ rfl (by decide)

end CommandDispatch.Arguments
