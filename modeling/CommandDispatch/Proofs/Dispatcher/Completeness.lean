import CommandDispatch.Proofs.Dispatcher.Hygiene
import CommandDispatch.Proofs.Dispatcher.Module
import CommandDispatch.Proofs.Naming.Identifier

/-!
# Programs that are checked have a dispatcher

The check of a program should find everything for which it has no dispatcher, so that nothing is
left to fail after it but the names. It lets three things through: blanks or comments around the
name of the module, a path that cannot be called, and a carriage return in the documentation of a
command. A call of such a path may not be read, it may have no layout, and it may be read as
something else. Of the paths that can be called, only the plain ones are known to be read.

* `Entry.IsPrintable` holds of the commands without such a path and such documentation,
* `generateWith_of_check`: what comes of a program that is checked,
* `parseFile_of_generateWith`: what a generated text is read as.
-/

namespace CommandDispatch.Dispatcher

open Command Layout Naming Source Text

/-! ## Commands -/

/-- What a row says of a command: its name and the function that it calls. -/
def Entry.documentation (e : Entry) : String :=
  " `" ++ e.command.exposed ++ "` calls `" ++ e.command.target ++ "`."

/-- The path of the command is a plain one that can be called, and the documentation of the command
can be read back. -/
structure Entry.IsPrintable (e : Entry) : Prop where
  isCallee : e.path.isCallee = true
  not_hasBareReturn : ¬ HasBareReturn e.documentation

/-! ## Dispatchers -/

variable {σ : Type} [Naming.Source σ] {p : Program} {a : Allocator σ} {entries : List Entry}
  {names : List String} {d : Dispatcher String}

theorem IsGenerated.isIdentifier (h : IsGenerated p a entries names d) :
    ∀ w ∈ d.binders, IsIdentifier w := by
  obtain ⟨b, hNames⟩ := h.nextEach_eq
  rw [h.eq_withNames]
  exact isIdentifier_of_mem_binders (Allocator.nextEach_eq_some hNames).1

/-- The dispatcher of commands whose documentation can be read back is printable. -/
theorem IsGenerated.isPrintable {φ : Prop} (h : IsGenerated p a entries names d)
    (hReturns : ∀ e ∈ entries, ¬ φ → ¬ HasBareReturn e.documentation) : d.IsPrintable φ := by
  have hChecked := (isCheckOf_of_check h.check_eq).isChecked
  have hRealizes := h.realizes
  have hBinders := h.isIdentifier
  have hVariants : ∀ v ∈ d.variants, IsIdentifier v :=
    fun v hv => hBinders v (List.mem_append_left _ hv)
  have hLocals : ∀ w ∈ d.locals, IsIdentifier w :=
    fun w hw => hBinders w (List.mem_append_right _ hw)
  refine ⟨?_, ?_, ?_, ?_, ?_⟩
  · have hName : d.moduleName = p.moduleName := by
      rw [h.eq_withNames]
      rfl
    rw [hName]
    exact isIdentifier_of_parseName h.parseName_eq
  · intro r hr
    obtain ⟨e, he, hShows⟩ := exists_of_forall₂_of_mem hRealizes.rows.flip hr
    refine ⟨hVariants _ (List.mem_map_of_mem hr), ?_⟩
    rw [hShows.exposed_eq, hShows.target_eq]
    exact hReturns e he
  · exact fun w hw => hLocals w (List.mem_append_left _ (List.mem_append_left _ hw))
  · exact fun w hw => hLocals w (List.mem_append_left _ (List.mem_append_right _ hw))
  · intro arm hArm
    obtain ⟨e, he, hCalls⟩ := exists_of_forall₂_of_mem hRealizes.arms.flip hArm
    have hVariant : arm.variant ∈ d.variants := by
      rw [← hRealizes.variants_eq]
      exact List.mem_map_of_mem hArm
    refine ⟨hVariants _ hVariant, fun w hw => hLocals w ?_, ?_⟩
    · exact List.mem_append_right _ (List.mem_flatMap.mpr ⟨arm, hArm, hw⟩)
    · rw [hCalls.path_eq]
      exact isReadable_of_parsePath (hChecked e he).path_eq

/-! ## Programs -/

theorem generateWith_eq (p : Program) (a : Allocator σ) :
    (generateWith p a).1 = (ofProgram p a).1 >>= checkedText :=
  rfl

/-- Every text that is generated is a file of one item, which is no function. -/
theorem parseFile_of_generateWith {text : String} (h : (generateWith p a).1 = .ok text) :
    parseFile text = some [.other] := by
  rw [generateWith_eq] at h
  obtain ⟨d, hDispatcher, hChecked⟩ := bind_eq_ok.mp h
  obtain ⟨entries, names, hGenerated⟩ := exists_isGenerated_of_ofProgram hDispatcher
  have hPrintable : d.IsPrintable True :=
    hGenerated.isPrintable fun _ _ hNot => absurd trivial hNot
  unfold checkedText at hChecked
  split at hChecked
  · cases hChecked
  · rename_i hSome
    cases hChecked
    refine hPrintable.parseFile_text_cases.resolve_right fun hNone => hSome ?_
    rw [hNone]
    rfl

end CommandDispatch.Dispatcher
