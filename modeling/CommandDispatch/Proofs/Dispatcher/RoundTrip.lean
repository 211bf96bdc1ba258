import CommandDispatch.Proofs.Arguments.Quotation
import CommandDispatch.Proofs.Dispatcher.Outcome

/-!
# Every value can be passed

A user who wants to call a command with given values writes its name, then a flag for each optional
parameter that is to have a value, in any order, and then the required parameters, all between quote
marks. Then `start` calls the function of the command with these values.

* `Supply` is a parameter with what is given for it: a quoted text that converts, or nothing,
* `HasFlagNames` holds of a signature whose optional parameters can be told apart as flags,
* `parameterValues_supplies`: what is sliced from the quoted texts is bound to their values,
* `start_of_supplies`: a generated dispatcher calls the function with them.
-/

namespace CommandDispatch.Dispatcher

open Arguments Command Naming Text

/-! ## Supplies -/

/-- The key of the flag of a parameter, if it is given by a flag. -/
def flagKey? (p : Parameter) : Option String :=
  match p.kind, p.isOptional with
  | .readable _, true => p.name.map lower
  | _, _ => none

/-- The keys of the flags differ, and each can be written. -/
structure HasFlagNames (s : Signature) : Prop where
  nodup : (s.arguments.filterMap flagKey?).Nodup
  isFlagName : ∀ key ∈ s.arguments.filterMap flagKey?, IsFlagName key

/-- A parameter with what is given for it. -/
inductive Supply where
  /-- A text for a required parameter, with the value that it converts to. -/
  | positional (name : Option String) (kind : TextKind) (q : Quotation) (v : Value)
      (hRead : kind.read q.text = some v)
  /-- A text for an optional parameter, with the value that it converts to. -/
  | flag (f : QuotedFlag) (kind : TextKind) (v : Value)
      (hRead : kind.read f.quotation.text = some v)
  /-- Nothing, for an optional parameter. -/
  | omitted (name : Option String) (kind : Kind)

namespace Supply

def parameter : Supply → Parameter
  | positional name kind _ _ _ => ⟨name, .readable kind, false⟩
  | flag f kind _ _ => ⟨some f.name, .readable kind, true⟩
  | omitted name kind => ⟨name, kind, true⟩

def quotation? : Supply → Option Quotation
  | positional _ _ q _ _ => some q
  | _ => none

def flag? : Supply → Option QuotedFlag
  | flag f _ _ _ => some f
  | _ => none

/-- What the parameter is to be bound to. -/
def bound : Supply → Bound
  | positional _ _ _ v _ => .required v
  | flag _ _ v _ => .optional (some v)
  | omitted _ _ => .optional none

end Supply

theorem convert_eq_ok {kind : TextKind} {raw : String} {v : Value} (h : kind.read raw = some v)
    (label : String) : kind.convert raw label = .ok v := by
  rw [TextKind.convert, h]

/-! ## Positionals -/

theorem countP_parameter (supplies : List Supply) :
    (supplies.map Supply.parameter).countP (!·.isOptional) =
      (supplies.filterMap Supply.quotation?).length := by
  induction supplies with
  | nil => rfl
  | cons s supplies ih =>
    rw [List.map_cons, List.countP_cons, ih]
    cases s <;> rfl

/-- The text of a required parameter has as many texts before it as there are required parameters
before it. -/
theorem getD_quotations (before : List Supply) {s : Supply} {q : Quotation}
    (hs : s.quotation? = some q) (after : List Supply) :
    (((before ++ s :: after).filterMap Supply.quotation?).map Quotation.text).getD
      ((before.map Supply.parameter).countP (!·.isOptional)) "" = q.text := by
  have hLength : (before.map Supply.parameter).countP (!·.isOptional) =
      ((before.filterMap Supply.quotation?).map Quotation.text).length := by
    rw [countP_parameter, List.length_map]
  rw [List.filterMap_append, List.filterMap_cons_some hs, List.map_append, List.map_cons, hLength,
    List.getD_eq_getElem?_getD, List.getElem?_append_right (Nat.le_refl _),
    Nat.sub_self]
  rfl

/-! ## Flags -/

theorem keys_eq_of_flag? {s : Supply} {f : QuotedFlag} (h : s.flag? = some f) :
    flagKey? s.parameter = some f.setting.1 := by
  cases s with
  | flag g kind v hRead =>
    obtain rfl : g = f := Option.some.inj h
    rfl
  | positional name kind q v hRead => cases h
  | omitted name kind => cases h

/-- The keys that are set are keys of the signature. -/
theorem sublist_keys (supplies : List Supply) :
    ((supplies.filterMap Supply.flag?).map fun f => f.setting.1).Sublist
      ((supplies.map Supply.parameter).filterMap flagKey?) := by
  induction supplies with
  | nil => exact List.Sublist.refl []
  | cons s supplies ih =>
    rw [List.map_cons]
    cases hFlag : s.flag? with
    | some f =>
      rw [List.filterMap_cons_some hFlag, List.filterMap_cons_some (keys_eq_of_flag? hFlag),
        List.map_cons]
      exact ih.cons_cons _
    | none =>
      rw [List.filterMap_cons_none hFlag]
      cases hKey : flagKey? s.parameter with
      | some key =>
        rw [List.filterMap_cons_some hKey]
        exact ih.cons _
      | none =>
        rw [List.filterMap_cons_none hKey]
        exact ih

/-- A key that is set once has the value that is set. -/
theorem lookup_eq_some_of_nodup {l : List (String × String)} (h : (l.map (·.1)).Nodup)
    {key value : String} (hMem : (key, value) ∈ l) : l.lookup key = some value := by
  induction l with
  | nil => cases hMem
  | cons s l ih =>
    obtain ⟨hFirst, hOthers⟩ := List.nodup_cons.mp h
    rcases List.mem_cons.mp hMem with rfl | hMem
    · exact List.lookup_cons_self
    · have hNe : key ≠ s.1 := by
        rintro rfl
        exact hFirst (List.mem_map.mpr ⟨(s.1, value), hMem, rfl⟩)
      rw [List.lookup_cons, beq_false_of_ne hNe]
      exact ih hOthers hMem

section

variable {supplies : List Supply} {flags : List QuotedFlag}

theorem getElem?_flags_of_mem (hNodup : ((supplies.map Supply.parameter).filterMap flagKey?).Nodup)
    (hPerm : flags.Perm (supplies.filterMap Supply.flag?)) {f : QuotedFlag} (hf : f ∈ flags) :
    (FlagMap.setAll ∅ (flags.map QuotedFlag.setting))[lower f.name]? = some f.quotation.text := by
  have hKeys : ((flags.map QuotedFlag.setting).map (·.1)).Nodup := by
    rw [List.map_map]
    apply (hPerm.map _).nodup_iff.mpr
    exact (sublist_keys supplies).nodup hNodup
  have hReverse : ((flags.map QuotedFlag.setting).reverse.map (·.1)).Nodup := by
    rw [List.map_reverse]
    exact List.nodup_reverse.mpr hKeys
  have hMem : f.setting ∈ (flags.map QuotedFlag.setting).reverse :=
    List.mem_reverse.mpr (List.mem_map_of_mem hf)
  rw [FlagMap.getElem?_setAll, lookup_eq_some_of_nodup hReverse hMem]
  rfl

/-- A flag that is not given is not set, since no other one has its key. -/
theorem getElem?_flags_of_omitted {before after : List Supply} {name : String} {kind : TextKind}
    (hSupplies : supplies = before ++ .omitted (some name) (.readable kind) :: after)
    (hNodup : ((supplies.map Supply.parameter).filterMap flagKey?).Nodup)
    (hPerm : flags.Perm (supplies.filterMap Supply.flag?)) :
    (FlagMap.setAll ∅ (flags.map QuotedFlag.setting))[lower name]? = none := by
  have hKey : flagKey? (Supply.omitted (some name) (.readable kind)).parameter =
      some (lower name) := rfl
  have hFlag : (Supply.omitted (some name) (.readable kind)).flag? = none := rfl
  rw [hSupplies, List.map_append, List.map_cons, List.filterMap_append,
    List.filterMap_cons_some hKey] at hNodup
  rw [hSupplies, List.filterMap_append, List.filterMap_cons_none hFlag] at hPerm
  have hNotMem := (List.nodup_cons.mp (List.perm_middle.nodup_iff.mp hNodup)).1
  rw [FlagMap.getElem?_setAll, Std.ExtTreeMap.getElem?_empty, Option.or_none,
    List.lookup_eq_none_iff]
  intro setting hSetting
  obtain ⟨f, hf, rfl⟩ := List.mem_map.mp (List.mem_reverse.mp hSetting)
  have hIn : f.setting.1 ∈ (before.map Supply.parameter).filterMap flagKey? ++
      (after.map Supply.parameter).filterMap flagKey? := by
    rcases List.mem_append.mp (hPerm.mem_iff.mp hf) with hBefore | hAfter
    · exact List.mem_append_left _ ((sublist_keys before).subset (List.mem_map_of_mem hBefore))
    · exact List.mem_append_right _ ((sublist_keys after).subset (List.mem_map_of_mem hAfter))
  apply bne_iff_ne.mpr
  intro hEq
  exact hNotMem (hEq ▸ hIn)

/-! ## Values -/

/-- Each parameter is bound to the value that is given for it. -/
theorem parameterValue_supply {before after : List Supply} {s : Supply}
    (hSupplies : supplies = before ++ s :: after)
    (hNodup : ((supplies.map Supply.parameter).filterMap flagKey?).Nodup)
    (hPerm : flags.Perm (supplies.filterMap Supply.flag?)) (position : Nat) :
    parameterValue
      ⟨FlagMap.setAll ∅ (flags.map QuotedFlag.setting),
        (supplies.filterMap Supply.quotation?).map Quotation.text⟩
      ((before.map Supply.parameter).countP (!·.isOptional)) position s.parameter =
      .ok s.bound := by
  cases s with
  | positional name kind q v hRead =>
    have hText := getD_quotations before (q := q) (s := .positional name kind q v hRead) rfl after
    rw [← hSupplies] at hText
    simp only [parameterValue, Supply.parameter, Bool.false_eq_true, if_false, hText,
      convert_eq_ok hRead]
    rfl
  | flag f kind v hRead =>
    have hf : f ∈ flags := by
      apply hPerm.mem_iff.mpr
      apply List.mem_filterMap.mpr
      exact ⟨.flag f kind v hRead, by rw [hSupplies]; simp, rfl⟩
    have hText := getElem?_flags_of_mem hNodup hPerm hf
    simp only [parameterValue, Supply.parameter, if_true, Option.bind_some, hText,
      convert_eq_ok hRead]
    rfl
  | omitted name kind =>
    cases kind with
    | error => rfl
    | foreign => rfl
    | readable kind =>
      cases name with
      | none => rfl
      | some name =>
        have hText := getElem?_flags_of_omitted hSupplies hNodup hPerm
        simp only [parameterValue, Supply.parameter, if_true, Option.bind_some, hText]
        rfl

theorem parameterValues_supplies
    (hNodup : ((supplies.map Supply.parameter).filterMap flagKey?).Nodup)
    (hPerm : flags.Perm (supplies.filterMap Supply.flag?)) :
    parameterValues
      ⟨FlagMap.setAll ∅ (flags.map QuotedFlag.setting),
        (supplies.filterMap Supply.quotation?).map Quotation.text⟩
      (supplies.map Supply.parameter) = .ok (supplies.map Supply.bound) := by
  unfold parameterValues
  rw [mapM_eq_ok_iff, List.forall₂_iff_get]
  refine ⟨by simp, ?_⟩
  intro i hi hi'
  have hIndex : i < supplies.length := by simpa using hi'
  have hSplit : supplies = supplies.take i ++ supplies[i] :: supplies.drop (i + 1) := by
    rw [← List.drop_eq_getElem_cons hIndex, List.take_append_drop]
  have hValue := parameterValue_supply hSplit hNodup hPerm (i + 1)
  rw [List.map_take] at hValue
  simpa using hValue

end

/-! ## Calls -/

/-- Take the name of a command, then in any order the flags that are given, and then the texts for
the required parameters. A generated dispatcher calls the function of the command with the values
that these texts convert to. The parameters for which nothing is given are absent. -/
theorem start_of_supplies {σ : Type} [Naming.Source σ] (p : Program) (a : Allocator σ) :
    (∀ text, (generateWith p a).1 = .ok text → ∃ d, (ofProgram p a).1 = .ok d ∧ d.text = text) ∧
    ∀ d, (ofProgram p a).1 = .ok d → ∀ c ∈ p.toList.map (·.2), HasFlagNames c.signature →
      ∀ supplies : List Supply, supplies.map Supply.parameter = c.signature.arguments →
      ∀ flags : List QuotedFlag, flags.Perm (supplies.filterMap Supply.flag?) →
        let arguments := c.exposed :: (flags.map QuotedFlag.token ++
          (supplies.filterMap Supply.quotation?).map Quotation.token)
        let call : Call := ⟨c.target, supplies.map Supply.bound, c.signature.errorReturns == 1⟩
        d.start arguments = pure (.call call) ∧
          ∀ (ρ : Type) (functions : String → List Bound → Effect ρ),
            d.run functions arguments = some (perform functions d.usage (.call call)) := by
  refine ⟨fun text h => exists_of_generateWith h, ?_⟩
  intro d hDispatcher c hMem hNames supplies hParameters flags hPerm arguments call
  obtain ⟨entries, hCheck, h⟩ := realizes_of_ofProgram hDispatcher
  have hc := isCheckOf_of_check hCheck
  obtain ⟨e, he, hCommand⟩ := hc.mem_commands_iff.mp hMem
  have hFind : p.find c.exposed = some c := by
    apply hc.find_eq_some_iff.mpr
    exact ⟨e, he, hCommand, hCommand ▸ (hc.isChecked e he).key_eq⟩
  have hNodup : ((supplies.map Supply.parameter).filterMap flagKey?).Nodup := by
    rw [hParameters]
    exact hNames.nodup
  have hFlagNames : ∀ f ∈ flags, IsFlagName (lower f.name) := by
    intro f hf
    apply hNames.isFlagName
    rw [← hParameters]
    apply (sublist_keys supplies).subset
    exact List.mem_map.mpr ⟨f, hPerm.mem_iff.mp hf, rfl⟩
  have hSlice := slice_quotations hFlagNames (supplies.filterMap Supply.quotation?)
  have hCount : ¬ ((supplies.filterMap Supply.quotation?).map Quotation.text).length <
      c.signature.requiredCount := by
    rw [Signature.requiredCount, ← hParameters, countP_parameter, List.length_map]
    exact Nat.lt_irrefl _
  have hStart : d.start arguments = pure (.call call) := by
    rw [start_eq_of_find h hc hFind hSlice, if_neg hCount, ← hParameters,
      parameterValues_supplies hNodup hPerm]
  exact ⟨hStart, fun ρ functions => run_of_start_eq_pure hStart⟩

/-- A text with hyphens and a space, a number of times, and a negative number. -/
def sayingSupplies : List Supply :=
  [ .positional (some "text") .string ⟨"-a b", '"', isQuoteMark_double, by decide⟩ (.string "-a b")
      rfl,
    .flag ⟨"Times", ⟨"3", '\'', isQuoteMark_single, by decide⟩, by decide⟩ .uint (.uint 3)
      (by decide),
    .omitted (some "session") .foreign,
    .positional none .int ⟨"-5", '\'', isQuoteMark_single, by decide⟩ (.int (-5)) (by decide) ]

theorem hasFlagNames_sayCommand : HasFlagNames sayCommand.signature where
  nodup := by decide
  isFlagName := by
    have hKeys : sayCommand.signature.arguments.filterMap flagKey? = ["times"] := by decide
    rw [hKeys]
    intro key hKey
    rw [List.mem_singleton.mp hKey]
    exact ⟨by decide, by decide, by decide, by decide⟩

/-- Between quote marks a negative number is not taken for a flag. -/
theorem start_sayingSupplies :
    sayingSupplies.map Supply.parameter = sayCommand.signature.arguments ∧
      HasFlagNames sayCommand.signature ∧
      twoCommandsDispatcher.start ["Say", "--Times='3'", "\"-a b\"", "'-5'"] =
        pure (.call
          ⟨"crate::say",
            [ .required (.string "-a b"), .optional (some (.uint 3)), .optional none,
              .required (.int (-5)) ], true⟩) := by
  have hParameters : sayingSupplies.map Supply.parameter = sayCommand.signature.arguments := by
    decide
  have hStart := (start_of_supplies twoCommands ⟨twoCommandsSource, ∅⟩).2 _ ofProgram_twoCommands
    sayCommand (by decide +kernel) hasFlagNames_sayCommand sayingSupplies hParameters _
    (List.Perm.refl _)
  exact ⟨hParameters, hasFlagNames_sayCommand, hStart.1⟩

end CommandDispatch.Dispatcher
