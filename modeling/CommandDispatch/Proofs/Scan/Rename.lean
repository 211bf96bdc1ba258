import CommandDispatch.Proofs.Text.AsciiCase
import CommandDispatch.Scan.Directive

/-!
# Which parameter is renamed

A parameter is renamed by its name up to the case of ASCII letters, while flags and commands are
known by the lower-case forms of their names. The two agree on names with the same characters
outside ASCII; others with the same lower-case form are not found by renaming.

* `RenamesFirst`: what comes of renaming the first parameter with some property,
* `isNamed_iff`: which names a parameter answers to, in terms of lower-case forms,
* `FirstAgrees`: no name differs outside ASCII where it is the first with its lower-case form,
* `renamesFirst_rename_lower_iff`: then, and only then, renaming is by lower-case form.
-/

namespace CommandDispatch.Scan

open Command Text

/-- What comes of giving a new name to the first parameter with some property: this parameter has
the name and all else is as it was, or no parameter has the property. -/
inductive RenamesFirst (selected : Parameter → Prop) (new : String) (ps : List Parameter) :
    Option (List Parameter) → Prop where
  | found (before : List Parameter) (p : Parameter) (after : List Parameter)
      (hSplit : ps = before ++ p :: after) (hBefore : ∀ q ∈ before, ¬ selected q)
      (hFirst : selected p) :
      RenamesFirst selected new ps (some (before ++ { p with name := some new } :: after))
  | missing (h : ∀ p ∈ ps, ¬ selected p) : RenamesFirst selected new ps none

variable {selected selected' : Parameter → Prop} {old new : String} {p : Parameter}
  {ps : List Parameter} {result : Option (List Parameter)}

theorem RenamesFirst.of_first (h : selected p) :
    RenamesFirst selected new (p :: ps) (some ({ p with name := some new } :: ps)) :=
  .found [] p ps rfl (fun _ hq => absurd hq List.not_mem_nil) h

theorem RenamesFirst.cons (h : ¬ selected p) (hRest : RenamesFirst selected new ps result) :
    RenamesFirst selected new (p :: ps) (result.map (p :: ·)) := by
  cases hRest with
  | found before q after hSplit hBefore hFirst =>
    rw [hSplit]
    exact .found (p :: before) q after rfl (List.forall_mem_cons.mpr ⟨h, hBefore⟩) hFirst
  | missing hRest => exact .missing (List.forall_mem_cons.mpr ⟨h, hRest⟩)

theorem RenamesFirst.congr (hSame : ∀ p ∈ ps, (selected p ↔ selected' p))
    (h : RenamesFirst selected new ps result) : RenamesFirst selected' new ps result := by
  cases h with
  | found before q after hSplit hBefore hFirst =>
    have hSameFirst := hSame q (by simp [hSplit])
    refine .found before q after hSplit (fun r hr => ?_) (hSameFirst.mp hFirst)
    have hSameBefore := hSame r (by simp [hSplit, hr])
    exact hSameBefore.not.mp (hBefore r hr)
  | missing h => exact .missing fun p hp => (hSame p hp).not.mp (h p hp)

theorem renamesFirst_rename (old new : String) (ps : List Parameter) :
    RenamesFirst (fun p => isNamed old p = true) new ps (rename old new ps) := by
  induction ps with
  | nil => exact .missing fun _ hp => absurd hp List.not_mem_nil
  | cons p ps ih =>
    rw [rename]
    by_cases hNamed : isNamed old p = true
    · rw [if_pos hNamed]
      exact .of_first hNamed
    · rw [if_neg hNamed]
      exact .cons hNamed ih

theorem renamesFirst_cons_iff_of_selected (h : selected p) :
    RenamesFirst selected new (p :: ps) result ↔
      result = some ({ p with name := some new } :: ps) := by
  constructor
  · intro hRenames
    cases hRenames with
    | found before q after hSplit hBefore hFirst =>
      rcases List.cons_eq_append_iff.mp hSplit with ⟨rfl, hHead⟩ | ⟨before', rfl, -⟩
      · cases hHead
        rfl
      · exact absurd h (hBefore p List.mem_cons_self)
    | missing hNone => exact absurd h (hNone p List.mem_cons_self)
  · rintro rfl
    exact .of_first h

theorem renamesFirst_cons_iff_of_not_selected (h : ¬ selected p) :
    RenamesFirst selected new (p :: ps) (result.map (p :: ·)) ↔
      RenamesFirst selected new ps result := by
  refine ⟨fun hRenames => ?_, .cons h⟩
  generalize hResult : result.map (p :: ·) = whole at hRenames
  cases hRenames with
  | found before q after hSplit hBefore hFirst =>
    rcases List.cons_eq_append_iff.mp hSplit with ⟨rfl, hHead⟩ | ⟨before', rfl, hTail⟩
    · cases hHead
      exact absurd hFirst h
    · obtain ⟨rest, rfl, hRest⟩ := Option.map_eq_some_iff.mp hResult
      cases hRest
      exact .found before' q after hTail (fun r hr => hBefore r (List.mem_cons_of_mem p hr)) hFirst
  | missing hNone =>
    rw [Option.map_eq_none_iff] at hResult
    rw [hResult]
    exact .missing fun q hq => hNone q (List.mem_cons_of_mem p hq)

/-! ## Names -/

/-- The parameter has a name with the same lower-case form. -/
def HasLowerName (name : String) (p : Parameter) : Prop :=
  ∃ own, p.name = some own ∧ lower own = lower name

/-- The name of the parameter, if it has one, has the same characters outside ASCII. -/
def AgreesBeyondAscii (name : String) (p : Parameter) : Prop :=
  ∀ own, p.name = some own → SameBeyondAscii own name

/-- The first parameter that has a name with the same lower-case form has the same characters
outside ASCII there. -/
def FirstAgrees (name : String) (ps : List Parameter) : Prop :=
  ∀ before p after, ps = before ++ p :: after → (∀ q ∈ before, ¬ HasLowerName name q) →
    HasLowerName name p → AgreesBeyondAscii name p

variable {name : String}

theorem isNamed_iff :
    isNamed name p = true ↔ HasLowerName name p ∧ AgreesBeyondAscii name p := by
  rw [isNamed, Option.any_eq_true]
  simp only [sameUpToAsciiCase_iff]
  constructor
  · rintro ⟨own, hOwn, hLower, hSame⟩
    refine ⟨⟨own, hOwn, hLower⟩, fun own' hOwn' => ?_⟩
    cases hOwn.symm.trans hOwn'
    exact hSame
  · rintro ⟨⟨own, hOwn, hLower⟩, hSame⟩
    exact ⟨own, hOwn, hLower, hSame own hOwn⟩

theorem firstAgrees_cons_iff_of_hasLowerName (h : HasLowerName name p) :
    FirstAgrees name (p :: ps) ↔ AgreesBeyondAscii name p := by
  constructor
  · intro hFirst
    exact hFirst [] p ps rfl (fun _ hq => absurd hq List.not_mem_nil) h
  · intro hAgrees before q after hSplit hBefore _
    rcases List.cons_eq_append_iff.mp hSplit with ⟨rfl, hHead⟩ | ⟨before', rfl, -⟩
    · cases hHead
      exact hAgrees
    · exact absurd h (hBefore p List.mem_cons_self)

theorem firstAgrees_cons_iff_of_not_hasLowerName (h : ¬ HasLowerName name p) :
    FirstAgrees name (p :: ps) ↔ FirstAgrees name ps := by
  constructor
  · intro hFirst before q after hSplit hBefore
    exact hFirst (p :: before) q after (congrArg (p :: ·) hSplit)
      (List.forall_mem_cons.mpr ⟨h, hBefore⟩)
  · intro hFirst before q after hSplit hBefore hLower
    rcases List.cons_eq_append_iff.mp hSplit with ⟨rfl, hHead⟩ | ⟨before', rfl, hTail⟩
    · cases hHead
      exact absurd hLower h
    · exact hFirst before' q after hTail (fun r hr => hBefore r (List.mem_cons_of_mem p hr)) hLower

/-- A list is left as it is only where the parameter that is found has the new name already. -/
theorem exists_isNamed_of_rename_eq_self (h : rename old new ps = some ps) :
    ∃ q, isNamed old q = true ∧ q.name = some new := by
  have hRenames := renamesFirst_rename old new ps
  rw [h] at hRenames
  generalize hResult : some ps = result at hRenames
  cases hRenames with
  | found before q after hSplit _ hFirst =>
    have hSame := List.append_cancel_left ((Option.some.inj hResult).symm.trans hSplit)
    exact ⟨q, hFirst, (congrArg Parameter.name (List.cons.inj hSame).1).symm⟩
  | missing => cases hResult

/-- Renaming is by lower-case form if and only if the first parameter with the lower-case form of
the old name has the same characters outside ASCII. The induction is on the parameters: the first
one decides if it has the lower-case form. -/
theorem renamesFirst_hasLowerName_iff :
    RenamesFirst (HasLowerName old) new ps (rename old new ps) ↔ FirstAgrees old ps := by
  induction ps with
  | nil =>
    refine iff_of_true (.missing fun _ hp => absurd hp List.not_mem_nil) ?_
    intro before p after hSplit
    cases before <;> cases hSplit
  | cons p ps ih =>
    rw [rename]
    by_cases hLower : HasLowerName old p
    · have hAgrees : AgreesBeyondAscii old p ↔ isNamed old p = true := by
        rw [isNamed_iff, and_iff_right hLower]
      rw [renamesFirst_cons_iff_of_selected hLower, firstAgrees_cons_iff_of_hasLowerName hLower,
        hAgrees]
      split
      · rename_i hNamed
        exact iff_of_true rfl hNamed
      · rename_i hNamed
        refine iff_of_false (fun h => hNamed ?_) hNamed
        obtain ⟨qs, hRename, hCons⟩ := Option.map_eq_some_iff.mp h
        obtain ⟨hHead, rfl⟩ := List.cons.inj hCons
        obtain ⟨q, hq, hName⟩ := exists_isNamed_of_rename_eq_self hRename
        have hSameName : p.name = q.name := (congrArg Parameter.name hHead).trans hName.symm
        rw [isNamed, hSameName]
        exact hq
    · have hNamed : ¬ isNamed old p = true := fun h => hLower (isNamed_iff.mp h).1
      rw [if_neg hNamed, renamesFirst_cons_iff_of_not_selected hLower, ih,
        firstAgrees_cons_iff_of_not_hasLowerName hLower]

/-- Renaming changes the name of the first parameter that has the lower-case form of the old name
and the same characters outside ASCII, and nothing else. This is renaming by lower-case form unless
the first parameter with that form has other characters outside ASCII. -/
theorem renamesFirst_rename_lower_iff (old new : String) (ps : List Parameter) :
    RenamesFirst (fun p => HasLowerName old p ∧ AgreesBeyondAscii old p) new ps
        (rename old new ps) ∧
      (RenamesFirst (HasLowerName old) new ps (rename old new ps) ↔ FirstAgrees old ps) :=
  ⟨(renamesFirst_rename old new ps).congr fun _ _ => isNamed_iff, renamesFirst_hasLowerName_iff⟩

/-- A capital letter outside ASCII is not taken for its small letter. -/
theorem not_renamesFirst_capital :
    lower "É" = lower "é" ∧ rename "É" "e" [⟨some "é", .foreign, false⟩] = none ∧
      ¬ RenamesFirst (HasLowerName "É") "e" [⟨some "é", .foreign, false⟩]
        (rename "É" "e" [⟨some "é", .foreign, false⟩]) := by
  have hLower : lower "É" = lower "é" := by decide +kernel
  have hNone : rename "É" "e" [⟨some "é", .foreign, false⟩] = none := by decide
  refine ⟨hLower, hNone, fun h => ?_⟩
  rw [hNone] at h
  cases h with
  | missing hMissing => exact hMissing _ List.mem_cons_self ⟨"é", rfl, hLower.symm⟩

/-- Two sizes, written in two ways. -/
def sizes : List Parameter :=
  [⟨none, .readable .int, false⟩, ⟨some "Größe", .readable .int, true⟩,
    ⟨some "größe", .readable .int, true⟩]

theorem renamesFirst_sizes :
    FirstAgrees "GRößE" sizes ∧
      RenamesFirst (HasLowerName "GRößE") "g" sizes (rename "GRößE" "g" sizes) ∧
      (rename "GRößE" "g" sizes).map (·.map (·.name)) = some [none, some "g", some "größe"] := by
  have hNone : ¬ HasLowerName "GRößE" ⟨none, .readable .int, false⟩ := by
    rintro ⟨own, hOwn, -⟩
    cases hOwn
  have hFound : HasLowerName "GRößE" ⟨some "Größe", .readable .int, true⟩ ∧
      AgreesBeyondAscii "GRößE" ⟨some "Größe", .readable .int, true⟩ :=
    isNamed_iff.mp (by decide)
  have hAgrees : FirstAgrees "GRößE" sizes := by
    rw [sizes, firstAgrees_cons_iff_of_not_hasLowerName hNone,
      firstAgrees_cons_iff_of_hasLowerName hFound.1]
    exact hFound.2
  exact ⟨hAgrees, (renamesFirst_rename_lower_iff "GRößE" "g" sizes).2.mpr hAgrees, by decide⟩

end CommandDispatch.Scan
