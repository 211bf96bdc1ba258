import CommandDispatch.Proofs.Arguments.Frame
import CommandDispatch.Proofs.Dispatcher.RoundTrip

/-!
# Unknown flags and surplus positionals

A command reads the flags of its own parameters, and as many positionals as it has required
parameters. So flags that it does not know and positionals beyond these change nothing, whatever
else stands before and after them, and whether or not it can be sliced.

* `ReadAlike` is agreement in what a signature reads,
* `start_eq_of_sameResult`: what slices alike is started alike,
* `sameOutcome_of_ofProgram`: the two cases, for every generated dispatcher.
-/

namespace CommandDispatch.Dispatcher

open Arguments Command Naming Text

/-- The signature reads the same from both: the flags of its parameters, and the positionals that it
needs. If there are too few of these, there are equally many. -/
structure ReadAlike (g : Signature) (s t : Sliced) : Prop where
  flags_eq : ∀ key ∈ g.arguments.filterMap flagKey?, s.flags[key]? = t.flags[key]?
  take_eq : s.positionals.take g.requiredCount = t.positionals.take g.requiredCount

namespace ReadAlike

variable {g : Signature} {s t : Sliced}

theorem length_eq_of_lt (h : ReadAlike g s t) (hCount : s.positionals.length < g.requiredCount) :
    s.positionals.length = t.positionals.length := by
  have hLength := congrArg List.length h.take_eq
  rw [List.length_take, List.length_take] at hLength
  omega

theorem symm (h : ReadAlike g s t) : ReadAlike g t s :=
  ⟨fun key hKey => (h.flags_eq key hKey).symm, h.take_eq.symm⟩

theorem length_lt_iff (h : ReadAlike g s t) :
    s.positionals.length < g.requiredCount ↔ t.positionals.length < g.requiredCount :=
  ⟨fun hs => h.length_eq_of_lt hs ▸ hs, fun ht => h.symm.length_eq_of_lt ht ▸ ht⟩

theorem getD_eq (h : ReadAlike g s t) {index : Nat} (hIndex : index < g.requiredCount) :
    s.positionals.getD index "" = t.positionals.getD index "" := by
  have hGet := congrArg (·[index]?) h.take_eq
  simp only [List.getElem?_take, if_pos hIndex] at hGet
  rw [List.getD_eq_getElem?_getD, List.getD_eq_getElem?_getD, hGet]

/-- A parameter of the signature is bound alike, after the parameters before it. -/
theorem parameterValue_eq (h : ReadAlike g s t) {before after : List Parameter} {p : Parameter}
    (hParameters : g.arguments = before ++ p :: after) (position : Nat) :
    parameterValue s (before.countP (!·.isOptional)) position p =
      parameterValue t (before.countP (!·.isOptional)) position p := by
  obtain ⟨name, kind, isOptional⟩ := p
  cases kind with
  | error => rfl
  | foreign => rfl
  | readable kind =>
    cases isOptional with
    | true =>
      cases name with
      | none => rfl
      | some name =>
        have hKey : lower name ∈ g.arguments.filterMap flagKey? :=
          List.mem_filterMap.mpr ⟨⟨some name, .readable kind, true⟩, by simp [hParameters], rfl⟩
        simp only [parameterValue, if_true, Option.bind_some, h.flags_eq _ hKey]
    | false =>
      have hIndex : before.countP (!·.isOptional) < g.requiredCount := by
        rw [Signature.requiredCount, hParameters, List.countP_append, List.countP_cons]
        simp
      simp only [parameterValue, Bool.false_eq_true, if_false, h.getD_eq hIndex]

theorem parameterValues_eq (h : ReadAlike g s t) :
    parameterValues s g.arguments = parameterValues t g.arguments := by
  unfold parameterValues
  apply mapM_congr_left
  rintro ⟨p, i⟩ hp
  obtain ⟨hIndex, hParameter⟩ := List.mem_zipIdx' hp
  have hSplit : g.arguments = g.arguments.take i ++ p :: g.arguments.drop (i + 1) := by
    rw [hParameter, ← List.drop_eq_getElem_cons hIndex, List.take_append_drop]
  exact h.parameterValue_eq hSplit (i + 1)

end ReadAlike

/-! ## Runs -/

variable {ι : Type} [DecidableEq ι] {d : Dispatcher ι} {p : Program} {entries : List Entry}

/-- Running comes to the same for both lists of arguments: the same call with the same values, the
usage text for both, or the same error. -/
def SameOutcome (d : Dispatcher ι) (arguments others : List String) : Prop :=
  d.start arguments = d.start others ∧
    ∀ (ρ : Type) (functions : String → List Bound → Effect ρ),
      ∃ o, d.run functions arguments = some o ∧ d.run functions others = some o

theorem Realizes.sameOutcome (h : Realizes d entries) (hc : IsCheckOf p entries)
    {arguments others : List String} (hStart : d.start arguments = d.start others) :
    SameOutcome d arguments others := by
  refine ⟨hStart, fun ρ functions => ⟨_, h.run_eq hc functions arguments, ?_⟩⟩
  rw [← h.run_eq hc functions arguments, run, run, hStart]

/-- Tokens that are refused are refused by `start`. -/
theorem start_eq_of_slice_eq_error (h : Realizes d entries) (hc : IsCheckOf p entries)
    {name : String} {rest : List String} {e : TokenizeError} {c : Command}
    (hFind : p.find name = some c) (hSlice : slice rest = .error e) :
    d.start (name :: rest) = throw (.tokenize e) := by
  obtain ⟨_, -, _, _, -, -, hRow, -, -⟩ := h.exists_of_find hc hFind
  have hHelp : ¬ sameUpToAsciiCase name helpName = true := by
    intro hHelp
    have hNone := hc.find_eq_none_of_help (isHelp_iff.mp hHelp)
    rw [hFind] at hNone
    cases hNone
  rw [start_cons h.nodup_startNames, if_neg hHelp]
  simp only [hRow, hSlice]

/-- Tokens that are refused with the same error, or sliced into what the command reads alike. -/
theorem start_eq_of_sameResult (h : Realizes d entries) (hc : IsCheckOf p entries) {name : String}
    {c : Command} (hFind : p.find name = some c) {rest others : List String}
    (hSlice : SameResult (ReadAlike c.signature) (slice rest) (slice others)) :
    d.start (name :: rest) = d.start (name :: others) := by
  cases hRest : slice rest with
  | error e =>
    rw [hRest] at hSlice
    cases hOthers : slice others with
    | ok t =>
      rw [hOthers] at hSlice
      cases hSlice
    | error e' =>
      rw [hOthers] at hSlice
      cases hSlice
      rw [start_eq_of_slice_eq_error h hc hFind hRest,
        start_eq_of_slice_eq_error h hc hFind hOthers]
  | ok s =>
    rw [hRest] at hSlice
    cases hOthers : slice others with
    | error e =>
      rw [hOthers] at hSlice
      cases hSlice
    | ok t =>
      rw [hOthers] at hSlice
      obtain ⟨hAlike⟩ := hSlice
      rw [start_eq_of_find h hc hFind hRest, start_eq_of_find h hc hFind hOthers,
        hAlike.parameterValues_eq]
      by_cases hCount : s.positionals.length < c.signature.requiredCount
      · rw [if_pos hCount, if_pos (hAlike.length_lt_iff.mp hCount), hAlike.length_eq_of_lt hCount]
      · rw [if_neg hCount, if_neg (hAlike.length_lt_iff.not.mp hCount)]

/-- A row that is found for a name leads to the command with its exposed name. -/
theorem find_of_row (h : Realizes d entries) (hc : IsCheckOf p entries) {r : Row ι}
    (hr : r ∈ d.rows) {c : Command} (hMem : c ∈ p.toList.map (·.2))
    (hExposed : r.exposed = c.exposed) {name : String} (hFind : d.find name = some r.variant) :
    p.find name = some c := by
  obtain ⟨e, he, _, -, hShows, -, -⟩ := h.exists_arm hr
  obtain ⟨e', he', rfl⟩ := hc.mem_commands_iff.mp hMem
  have hKey : e'.key = r.key := by
    rw [(hc.isChecked e' he').key_eq, ← hExposed, hShows.exposed_eq, hShows.key_eq,
      (hc.isChecked e he).key_eq]
  apply hc.find_eq_some_iff.mpr
  exact ⟨e', he', rfl, hKey.trans ((h.find_eq_some_iff hc hr).mp hFind).symm⟩

/-- Let a name be found in the table of a generated dispatcher. What becomes of it stays the same if
among its flags there are further ones that the command does not know, whatever comes after them. It
stays the same, too, if tokens are added after at least one positional and after all positionals
that the command needs. -/
theorem sameOutcome_of_ofProgram {σ : Type} [Naming.Source σ] (p : Program) (a : Allocator σ) :
    (∀ text, (generateWith p a).1 = .ok text → ∃ d, (ofProgram p a).1 = .ok d ∧ d.text = text) ∧
    ∀ d, (ofProgram p a).1 = .ok d → ∀ c ∈ p.toList.map (·.2), ∀ r ∈ d.rows,
      r.exposed = c.exposed → ∀ name, d.find name = some r.variant →
        (∀ before flags after f hidden, slice before = .ok ⟨f, []⟩ →
          slice flags = .ok ⟨hidden, []⟩ →
          (∀ key ∈ c.signature.arguments.filterMap flagKey?, key ∉ hidden) →
          SameOutcome d (name :: (before ++ flags ++ after)) (name :: (before ++ after))) ∧
        ∀ tokens more s t, slice tokens = .ok s → slice (tokens ++ more) = .ok t →
          s.positionals ≠ [] → c.signature.requiredCount ≤ s.positionals.length →
          SameOutcome d (name :: (tokens ++ more)) (name :: tokens) := by
  refine ⟨fun text h => exists_of_generateWith h, ?_⟩
  intro d hDispatcher c hMem r hr hExposed name hRow
  obtain ⟨entries, hCheck, h⟩ := realizes_of_ofProgram hDispatcher
  have hc := isCheckOf_of_check hCheck
  have hFind : p.find name = some c := find_of_row h hc hr hMem hExposed hRow
  refine ⟨?_, ?_⟩
  · intro before flags after f hidden hBefore hFlags hUnknown
    apply h.sameOutcome hc
    apply start_eq_of_sameResult h hc hFind
    apply (slice_flags_between hBefore hFlags after).imp
    rintro s t ⟨hPositionals, hDiffers⟩
    refine ⟨fun key hKey => ?_, by rw [hPositionals]⟩
    exact hDiffers key (Std.ExtTreeMap.getElem?_eq_none (hUnknown key hKey))
  · intro tokens more s t hTokens hMore hNe hCount
    obtain ⟨hFlags, others, hPositionals⟩ := slice_append hTokens hNe hMore
    apply h.sameOutcome hc
    apply start_eq_of_sameResult h hc hFind
    rw [hTokens, hMore]
    refine .ok ⟨fun key _ => by rw [hFlags], ?_⟩
    rw [hPositionals, List.take_append_of_le_length hCount]

/-- The flag `--session` is that of a foreign parameter. It is not read although its value is no
text for a session. Neither is the positional after the last one, nor the flag after a positional;
and what cannot be sliced stays refused. -/
theorem sameOutcome_sayCommand :
    slice ["--times=3"] = .ok ⟨(∅ : FlagMap).insert "times" "3", []⟩ ∧
      slice ["--session='a", "b'", "-xy"] =
        .ok ⟨(((∅ : FlagMap).insert "session" "a b").insert "x" "true").insert "y" "true", []⟩ ∧
      SameOutcome twoCommandsDispatcher
        ["SAY", "--times=3", "--session='a", "b'", "-xy", "hi", "5"]
        ["SAY", "--times=3", "hi", "5"] ∧
      SameOutcome twoCommandsDispatcher ["SAY", "--times=3", "--session='a", "b'", "-xy", "'hi"]
        ["SAY", "--times=3", "'hi"] ∧
      SameOutcome twoCommandsDispatcher ["SAY", "hi", "5", "--times=x"] ["SAY", "hi", "5"] := by
  have hRow :
      (⟨"B", "say", "Say", "", "crate::say"⟩ : Row String) ∈ twoCommandsDispatcher.rows := by
    decide
  obtain ⟨hFlags, hPositionals⟩ :=
    (sameOutcome_of_ofProgram twoCommands ⟨twoCommandsSource, ∅⟩).2 _ ofProgram_twoCommands
      sayCommand (by decide +kernel) _ hRow rfl "SAY" (by decide +kernel)
  have hBefore : slice ["--times=3"] = .ok ⟨(∅ : FlagMap).insert "times" "3", []⟩ := rfl
  have hUnknown : slice ["--session='a", "b'", "-xy"] =
      .ok ⟨(((∅ : FlagMap).insert "session" "a b").insert "x" "true").insert "y" "true", []⟩ := rfl
  have hKeys : ∀ key ∈ sayCommand.signature.arguments.filterMap flagKey?,
      key ∉ (((∅ : FlagMap).insert "session" "a b").insert "x" "true").insert "y" "true" := by
    decide
  have hBetween := fun after => hFlags _ _ after _ _ hBefore hUnknown hKeys
  refine ⟨hBefore, hUnknown, hBetween ["hi", "5"], hBetween ["'hi"], ?_⟩
  · exact hPositionals ["hi", "5"] ["--times=x"] ⟨∅, ["hi", "5"]⟩ ⟨∅, ["hi", "5", "--times=x"]⟩
      rfl rfl (by decide) (by decide)

end CommandDispatch.Dispatcher
