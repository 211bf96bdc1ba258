import Mathlib.Algebra.BigOperators.Group.List.Basic
import CommandDispatch.Proofs.Dispatcher.Completeness
import CommandDispatch.Proofs.Dispatcher.Violation
import CommandDispatch.Proofs.Naming.Capacity

/-!
# Programs with too many names

A dispatcher binds a name for each command, and more names for what it does with the arguments.
There are only so many words, so a program of very many commands or arguments has no dispatcher,
whatever numbers are drawn for it.

* `length_variants_of_check`, `length_locals_of_check`: how many names the dispatcher of a program
  binds, counted on its signatures,
* `ofProgram_eq_error_of_capacity_lt`: with more names than words none is given out for the last,
* `words_and_exhaustion`: how many words there are, how many an allocator gives out in any run, and
  the programs for which they are too few.
-/

namespace CommandDispatch

/-- The names that are bound where a command is run: one for each argument, one for the text of each
flag that is read, and one for an error. -/
def Command.Signature.localCount (s : Command.Signature) : Nat :=
  s.arguments.length + s.arguments.countP (fun q => q.isOptional && q.kind != .foreign) +
    if 0 < s.errorReturns then 1 else 0

namespace Dispatcher

open Command Naming

/-- The names that a dispatcher binds apart from those of its commands: nine of its functions, and
those that are bound where a command is run. -/
def localCount (p : Program) : Nat :=
  9 + (p.toList.map fun named => named.2.signature.localCount).sum

/-! ## Names of a dispatcher -/

theorem length_binders_bindingOf {command : String} {q : Parameter} {position : Nat} {a : Argument}
    (h : argumentOf command q position = .ok a) (next index : Nat) :
    (bindingOf next index a).binders.length =
      1 + if q.isOptional && q.kind != .foreign then 1 else 0 := by
  unfold argumentOf at h
  split at h
  · cases h
  · rename_i hKind
    split at h
    · cases h
    · split at h
      · cases h
      · cases h
        simp [hKind, bindingOf, Binding.binders]
  · rename_i kind hKind
    split at h
    · rename_i hOptional
      split at h
      · cases h
        simp [hKind, hOptional, bindingOf, Binding.binders]
      · cases h
    · rename_i hRequired
      cases h
      simp [hRequired, bindingOf, Binding.binders]

theorem length_binders_bindingsFrom {command : String} {start : Nat} {ps : List Parameter}
    {arguments : List Argument} (h : argumentsFrom command start ps = .ok arguments)
    (next index : Nat) :
    ((bindingsFrom next index arguments).flatMap Binding.binders).length =
      ps.length + ps.countP fun q => q.isOptional && q.kind != .foreign := by
  induction ps generalizing start arguments next index with
  | nil =>
    cases h
    rfl
  | cons q ps ih =>
    rw [argumentsFrom] at h
    obtain ⟨a, hFirst, h⟩ := bind_eq_ok.mp h
    obtain ⟨as, hOthers, h⟩ := bind_eq_ok.mp h
    cases h
    rw [bindingsFrom, List.flatMap_cons, List.length_append, length_binders_bindingOf hFirst,
      ih hOthers, List.countP_cons, List.length_cons]
    omega

theorem length_binders_armOf {e : Entry} (h : e.IsChecked) (variant next : Nat) :
    (armOf variant next e).binders.length = e.command.signature.localCount := by
  have hError : e.mayFail = decide (0 < e.command.signature.errorReturns) := by
    have hLe := h.errorReturns_le
    rw [h.mayFail_eq, Bool.eq_iff_iff, beq_iff_eq, decide_eq_true_iff]
    omega
  rw [Arm.binders, List.length_append, Signature.localCount]
  simp only [armOf]
  rw [length_binders_bindingsFrom h.arguments_eq, hError]
  by_cases hFails : 0 < e.command.signature.errorReturns <;> simp [hFails]

theorem length_binders_armsFrom {entries : List Entry} (h : ∀ e ∈ entries, e.IsChecked)
    (variant next : Nat) :
    ((armsFrom variant next entries).flatMap Arm.binders).length =
      (entries.map fun e => e.command.signature.localCount).sum := by
  induction entries generalizing variant next with
  | nil => rfl
  | cons e entries ih =>
    obtain ⟨hFirst, hOthers⟩ := List.forall_mem_cons.mp h
    rw [armsFrom, List.flatMap_cons, List.length_append, length_binders_armOf hFirst, ih hOthers,
      List.map_cons, List.sum_cons]

variable {p : Program} {entries : List Entry}

theorem length_variants_of_check (h : check p = .ok entries) :
    (ofEntries p.moduleName entries).variants.length = p.size := by
  have hLength := (isCheckOf_of_check h).perm.length_eq
  rw [List.length_map, List.length_map] at hLength
  rw [variants_ofEntries, List.length_range', hLength, Program.toList, Program.size,
    Std.ExtTreeMap.length_toList]

theorem length_locals_of_check (h : check p = .ok entries) :
    (ofEntries p.moduleName entries).locals.length = localCount p := by
  have hCheck := isCheckOf_of_check h
  have hSum := (hCheck.perm.map fun c => c.signature.localCount).sum_eq
  rw [List.map_map, List.map_map] at hSum
  have hArms := length_binders_armsFrom hCheck.isChecked 0 (entries.length + 9)
  rw [locals, List.length_append, List.length_append, localCount]
  change 9 + ((armsFrom 0 (entries.length + 9) entries).flatMap Arm.binders).length = _
  rw [hArms]
  exact congrArg (9 + ·) hSum

/-! ## Drawing them -/

variable {σ : Type} [Naming.Source σ]

/-- Names that are drawn are not more than there are words, neither the exported ones nor the
others. -/
theorem length_le_of_nextEach {a b : Allocator σ} {d : Dispatcher Nat} {names : List String}
    (h : a.nextEach d.exportedNames = (some names, b)) :
    d.variants.length ≤ capacity true ∧ d.locals.length ≤ capacity false := by
  obtain ⟨hDrawn, hNodup⟩ := Allocator.nextEach_eq_some h
  have hSome : ∀ (exported : Bool) {ws : List String} {es : List Bool}, ws.Nodup →
      List.Forall₂ (Allocator.IsDrawn a.used) es ws → (∀ e ∈ es, e = exported) →
      es.length ≤ capacity exported := by
    intro exported ws es hNodup hDrawn hAll
    rw [hDrawn.length_eq]
    refine length_le_capacity hNodup fun w hw => ?_
    obtain ⟨e, he, hDrawn⟩ := exists_of_forall₂_of_mem hDrawn hw
    exact hAll e he ▸ hDrawn.isIssuable
  have hSplit := hDrawn.flip
  rw [exportedNames] at hSplit
  have hVariants := hSome true (hNodup.sublist (List.take_sublist _ _))
    (List.forall₂_take_append _ _ _ hSplit).flip (by simp)
  have hLocals := hSome false (hNodup.sublist (List.drop_sublist _ _))
    (List.forall₂_drop_append _ _ _ hSplit).flip (by simp)
  rw [List.length_map] at hVariants hLocals
  exact ⟨hVariants, hLocals⟩

theorem ofProgram_eq_error_of_capacity_lt (hCheck : check p = .ok entries)
    (hName : Source.parseName p.moduleName = some p.moduleName)
    (hMany : capacity true < p.size ∨ capacity false < localCount p) (a : Allocator σ) :
    (ofProgram p a).1 = .error .identifiersExhausted := by
  rw [ofProgram, hCheck]
  simp only [named]
  rw [if_neg (not_not.mpr hName)]
  split
  · rfl
  · rename_i names b hNames
    obtain ⟨hVariants, hLocals⟩ := length_le_of_nextEach hNames
    rw [length_variants_of_check hCheck] at hVariants
    rw [length_locals_of_check hCheck] at hLocals
    omega

theorem generateWith_eq_error_of_capacity_lt (hCheck : check p = .ok entries)
    (hName : Source.parseName p.moduleName = some p.moduleName)
    (hMany : capacity true < p.size ∨ capacity false < localCount p) (a : Allocator σ) :
    (generateWith p a).1 = .error .identifiersExhausted := by
  rw [generateWith_eq, ofProgram_eq_error_of_capacity_lt hCheck hName hMany]
  rfl

/-- The numbers that are drawn have 19810 words, and of these only `if` is a keyword. So in no run
does an allocator give out more, and a program that binds more names has no dispatcher. -/
theorem words_and_exhaustion :
    (∀ exported, (words exported).card = 19810 ∧
      (words exported).filter (· ∈ keywords) = if exported then ∅ else {"if"}) ∧
    (∀ (σ : Type) [Naming.Source σ] (a : Allocator σ) (requests : List Request) (exported : Bool),
      ((a.history requests).countP fun event =>
        event.2.word?.isSome && event.1.exported? == some exported) ≤
          if exported then 19810 else 19809) ∧
    ∀ (p : Program) (entries : List Entry), check p = .ok entries →
      Source.parseName p.moduleName = some p.moduleName →
      19810 < p.size ∨ 19809 < localCount p →
      generate p = .error .identifiersExhausted ∧
        ∀ (σ : Type) [Naming.Source σ] (a : Allocator σ),
          (generateWith p a).1 = .error .identifiersExhausted :=
  ⟨fun exported => ⟨card_words exported, filter_mem_keywords exported⟩,
    fun _ _ a requests exported => a.countP_issued_le requests exported,
    fun _ _ hCheck hName hMany =>
      ⟨generateWith_eq_error_of_capacity_lt hCheck hName hMany _,
        fun _ _ a => generateWith_eq_error_of_capacity_lt hCheck hName hMany a⟩⟩

/-! ## A command with very many arguments -/

def wideCommand (n : Nat) : Command where
  target := "f"
  exposed := "f"
  signature := ⟨List.replicate n ⟨none, .readable .int, false⟩, []⟩
  description := ""

def wideProgram (n : Nat) : Program :=
  Program.insert { moduleName := "m" } (wideCommand n)

theorem toList_wideProgram (n : Nat) : (wideProgram n).toList = [("f", wideCommand n)] := by
  rfl

theorem isWellFormed_wideProgram (n : Nat) : IsWellFormed (wideProgram n) := by
  have hArguments : ∀ q ∈ (wideCommand n).signature.arguments,
      q = ⟨none, .readable .int, false⟩ := fun q hq => List.eq_of_mem_replicate hq
  constructor <;> rw [toList_wideProgram]
  case nodup => exact List.nodup_singleton _
  all_goals rw [List.forall_mem_singleton]
  case registered_eq => rfl
  case lower_ne => exact (by decide +kernel : Text.lower "f" ≠ helpName)
  case target_ne => exact (by decide +kernel : Source.parsePath "f" ≠ none)
  case errorReturns_le => exact Nat.zero_le 1
  all_goals
    intro q hq
    rw [hArguments q hq]
    simp

theorem localCount_wideProgram (n : Nat) : localCount (wideProgram n) = 9 + n := by
  rw [localCount, toList_wideProgram]
  simp [wideCommand, Signature.localCount, Signature.errorReturns, List.countP_replicate]

/-- A command of 19801 arguments passes, but there are too few words for it. -/
theorem generate_wideProgram :
    (∃ entries, check (wideProgram 19801) = .ok entries) ∧
      Source.parseName (wideProgram 19801).moduleName = some (wideProgram 19801).moduleName ∧
      19809 < localCount (wideProgram 19801) ∧
      generate (wideProgram 19801) = .error .identifiersExhausted := by
  have hName : Source.parseName "m" = some "m" := by decide +kernel
  have hMany : 19809 < localCount (wideProgram 19801) :=
    (localCount_wideProgram 19801).symm ▸ (by decide)
  have hCheck : ∃ entries, check (wideProgram 19801) = .ok entries :=
    (exists_check_iff (hName.trans_ne (Option.some_ne_none _))).mpr (isWellFormed_wideProgram 19801)
  obtain ⟨entries, hEntries⟩ := hCheck
  obtain ⟨-, -, hExhausted⟩ := words_and_exhaustion
  exact ⟨⟨entries, hEntries⟩, hName, hMany, (hExhausted _ entries hEntries hName (.inr hMany)).1⟩

end Dispatcher

end CommandDispatch
