import CommandDispatch.Proofs.Source.Taking
import CommandDispatch.Proofs.Source.TypeTokens

/-!
# Paths that were read can be written

The names in a type or in a path are names of the text, and the tokens that it keeps for forms that
can only be foreign are tokens of the text. The grammar is followed as far as paths of types go;
what stands in groups of its own may be anything.

* `Ty.IsReadable`, `Path.IsReadable`: the words are names, and the tokens are readable,
* `takes_path`, `takes_typeRule`: the rules for paths and types,
* `isReadable_of_parsePath`: paths that are read from texts.
-/

namespace CommandDispatch.Source

open Source.Parser Source.Grammar

mutual

/-- The words of the type are names, and the tokens that it keeps can be written and read again. -/
def Ty.IsReadable : Ty → Prop
  | .path p => p.IsReadable
  | .qualified _ written => AreReadable written
  | .paren inner => inner.IsReadable
  | .group inner => inner.IsReadable
  | .tuple elements => Ty.AllReadable elements
  | .reference lifetime _ inner => (∀ l ∈ lifetime, IsName l) ∧ inner.IsReadable
  | .pointer _ inner => inner.IsReadable
  | .slice inner => inner.IsReadable
  | .array inner length => inner.IsReadable ∧ AreReadable length
  | .never => True
  | .hole => True
  | .other written => AreReadable written

def Ty.AllReadable : List Ty → Prop
  | [] => True
  | t :: rest => t.IsReadable ∧ Ty.AllReadable rest

def Path.IsReadable : Path → Prop
  | .mk _ segments => segments ≠ [] ∧ Segment.AllReadable segments

def Segment.AllReadable : List Segment → Prop
  | [] => True
  | s :: rest => s.IsReadable ∧ Segment.AllReadable rest

def Segment.IsReadable : Segment → Prop
  | .mk name arguments => IsName name ∧
    (IsSegmentWord name ∨ name ∈ ["super", "self", "crate", "try"] ∧ arguments = .none) ∧
      arguments.IsReadable

def GenericArguments.IsReadable : GenericArguments → Prop
  | .none => True
  | .angled _ arguments _ => GenericArgument.AllReadable arguments

def GenericArgument.AllReadable : List GenericArgument → Prop
  | [] => True
  | a :: rest => a.IsReadable ∧ GenericArgument.AllReadable rest

def GenericArgument.IsReadable : GenericArgument → Prop
  | .type t => t.IsReadable
  | .lifetime name => IsName name
  | .other written => AreReadable written

end

theorem Ty.allReadable_of_forall {ts : List Ty} (h : ∀ t ∈ ts, t.IsReadable) :
    Ty.AllReadable ts := by
  induction ts with
  | nil => exact trivial
  | cons t ts ih =>
    obtain ⟨ht, hts⟩ := List.forall_mem_cons.mp h
    exact ⟨ht, ih hts⟩

theorem Segment.allReadable_of_forall {segments : List Segment}
    (h : ∀ s ∈ segments, s.IsReadable) : Segment.AllReadable segments := by
  induction segments with
  | nil => exact trivial
  | cons s segments ih =>
    obtain ⟨hs, hRest⟩ := List.forall_mem_cons.mp h
    exact ⟨hs, ih hRest⟩

theorem GenericArgument.allReadable_of_forall {arguments : List GenericArgument}
    (h : ∀ a ∈ arguments, a.IsReadable) : GenericArgument.AllReadable arguments := by
  induction arguments with
  | nil => exact trivial
  | cons a arguments ih =>
    obtain ⟨ha, hRest⟩ := List.forall_mem_cons.mp h
    exact ⟨ha, ih hRest⟩

/-- Types and bounds are read as they should be. -/
structure Grammar.IsSound (g : Grammar) : Prop where
  type : ∀ allowPlus before, Takes before (g.type allowPlus) Ty.IsReadable
  bound : ∀ place before, Takes before (g.bound place) fun _ => True

variable {g : Grammar} {before : Tokens} {style : PathStyle}

/-! ## Generic arguments and paths -/

/-- What stands in a group of its own may be anything. -/
theorem takes_group {α : Type} {d : Delimiter} {p : Parser α} :
    Takes before (inside d p) fun _ => True :=
  .inside fun _ _ _ _ => trivial

theorem takes_constantArgument : Takes before g.constantArgument fun _ => True := by
  refine .bind .ahead fun _ _ => .ite (.discard .literal) ?_
  exact .bind .ahead fun _ _ => .ite (.discard .name) (.discard takes_group)

theorem takes_boundsUntil (hg : g.IsSound) {done : Tokens → Bool} :
    Takes before (g.boundsUntil done) fun _ => True :=
  .discard (.chain rfl (hg.bound .parameter before))

theorem takes_genericArgument (hg : g.IsSound) :
    Takes before g.genericArgument GenericArgument.IsReadable := by
  refine .get_bind fun ts => .ite (.bind .lifetime fun _ hw => .pure hw) ?_
  have hOther : Takes ts (do return .other (← since ts)) GenericArgument.IsReadable :=
    .bind .since fun _ h => .pure h
  refine .ite (.bind takes_constantArgument fun _ _ => hOther) ?_
  refine .bind (hg.type true ts) fun t ht => ?_
  split
  · refine .bind (.mark? rfl) fun _ _ => .ite ?_ (.bind (.mark? rfl) fun _ _ => .ite ?_ (.pure ht))
    · refine .bind .ahead fun _ _ => .ite ?_ ?_
      · exact .bind takes_constantArgument fun _ _ => hOther
      · exact .bind (.discard (hg.type true ts)) fun _ _ => hOther
    · exact .bind (takes_boundsUntil hg) fun _ _ => hOther
  · exact .pure ht

theorem takes_angled (hg : g.IsSound) : Takes before g.angled GenericArguments.IsReadable := by
  refine .bind (.mark? rfl) fun _ _ => .bind (.mark rfl) fun _ _ => .get_bind fun _ => ?_
  refine .bind (.separatedUntil rfl (takes_genericArgument hg)) fun arguments h => ?_
  refine .bind .since fun _ _ => .bind (.mark rfl) fun _ _ => ?_
  exact .pure (GenericArgument.allReadable_of_forall h)

theorem exists_of_wordsAhead {l : List String} {ts : Tokens} (h : wordsAhead l ts = true) :
    ∃ w ∈ l, ∃ us, ts = .word w :: us := by
  obtain ⟨w, hMem, hWord⟩ := List.any_eq_true.mp h
  match ts, hWord with
  | .word v :: us, hWord => exact ⟨w, hMem, us, by rw [beq_iff_eq.mp hWord]⟩

theorem takes_argumentsAfter (hg : g.IsSound) {w : String} (hw : IsName w)
    (hWord : IsSegmentWord w) : Takes before (argumentsAfter g style w) Segment.IsReadable := by
  refine .bind .ahead fun _ _ => .ite ?_ (.pure ⟨hw, .inl hWord, trivial⟩)
  exact .bind (takes_angled hg) fun _ h => .pure ⟨hw, .inl hWord, h⟩

theorem takes_segment (hg : g.IsSound) : Takes before (g.segment style) Segment.IsReadable := by
  have hModule : ∀ w ∈ ["super", "self", "crate", "try"], IsName w →
      Takes before (pure (.mk w .none)) Segment.IsReadable :=
    fun w hMem hw => .pure ⟨hw, .inr ⟨hMem, rfl⟩, trivial⟩
  have hSelf : ∀ w ∈ ["Self"], IsName w →
      Takes before (argumentsAfter g style w) Segment.IsReadable := by
    intro w hMem hw
    exact takes_argumentsAfter hg hw (.inr (List.mem_singleton.mp hMem))
  refine .anyWord_or (fun _ => exists_of_wordsAhead) hModule (.anyWord_or ?_ hSelf ?_)
  · intro ts hts
    exact exists_of_wordsAhead (l := ["Self"]) (by rw [wordsAhead, List.any_cons, hts]; rfl)
  · exact .bind .name fun w hw => takes_argumentsAfter hg hw.isName (.inl hw.not_reserved)

/-- Segments, each after a double colon. -/
theorem takes_segments (hg : g.IsSound) {going : Tokens → Bool} :
    Takes before (repeatWhile going do mark "::"; g.segment style)
      (fun segments => ∀ s ∈ segments, s.IsReadable) := by
  refine .repeatWhile ?_
  exact .bind (.mark rfl) fun _ _ => takes_segment hg

theorem takes_path (hg : g.IsSound) : Takes before (g.path style) Path.IsReadable := by
  refine .bind (.mark? rfl) fun _ _ => .bind (takes_segment hg) fun s hs => ?_
  refine .bind (takes_segments hg) fun rest hRest => ?_
  exact .pure ⟨List.cons_ne_nil _ _, hs, Segment.allReadable_of_forall hRest⟩

/-- A path that starts from a type is kept as it was written. -/
theorem takes_qualifiedPath (hg : g.IsSound) :
    Takes before (g.qualifiedPath style) fun found => found.1 = true ∨ found.2.IsReadable := by
  refine .bind (.mark? rfl) fun _ _ => .ite ?_ (.bind (takes_path hg) fun _ hp => .pure (.inr hp))
  refine .bind (.discard (hg.type true before)) fun _ _ => .bind (.word? "as") fun _ _ => ?_
  have hRest : ∀ trait : Path, Takes before (do
      mark ">"
      let rest ← repeatWhile (marksAhead "::") do mark "::"; g.segment style
      require (!rest.isEmpty)
      return (true, Path.mk trait.isGlobal (trait.segments ++ rest)) : Parser (Bool × Path))
      fun found => found.1 = true ∨ found.2.IsReadable := by
    intro trait
    refine .bind (.mark rfl) fun _ _ => .bind (takes_segments hg) fun _ _ => ?_
    exact .bind (.require _) fun _ _ => .pure (.inl rfl)
  refine .ite ?_ ?_
  · exact .bind (takes_path hg) fun trait _ => hRest trait
  · exact .bind (R := fun _ => True) (.pure trivial) fun trait _ => hRest trait

/-! ## Bounds and generic parameters -/

theorem takes_outerAttributes : Takes before g.outerAttributes fun _ => True := by
  refine .imp (R := fun attributes => ∀ a ∈ attributes, True) (.repeatWhile ?_) fun _ _ => trivial
  exact .bind (.mark rfl) fun _ _ => .inside fun _ _ _ _ => trivial

theorem takes_genericParameter (hg : g.IsSound) (mayBeHole : Bool) :
    Takes before (g.genericParameter mayBeHole) fun _ => True := by
  refine .bind (.discard takes_outerAttributes) fun _ _ => .bind .ahead fun _ _ => .ite ?_ ?_
  · refine .bind (.discard .lifetime) fun _ _ => ?_
    refine .bind (.mark? rfl) fun _ _ => .ite ?_ (.pure trivial)
    exact .discard (.chain rfl .lifetime)
  · refine .bind (.word? "const") fun _ _ => .ite ?_ ?_
    · refine .bind (.discard .name) fun _ _ => .bind (.mark rfl) fun _ _ => ?_
      refine .bind (.discard (hg.type true before)) fun _ _ => .bind (.mark? rfl) fun _ _ => ?_
      exact .ite takes_constantArgument (.pure trivial)
    · refine .bind .ahead fun _ _ => .ite (.discard .anyWord) ?_
      refine .bind (.discard .name) fun _ _ => .bind (.mark? rfl) fun _ _ => ?_
      have hDefault : Takes before
          (do if ← mark? "=" then discard <| g.type true) fun _ => True :=
        .bind (.mark? rfl) fun _ _ => .ite (.discard (hg.type true before)) (.pure trivial)
      exact .ite (.bind (takes_boundsUntil hg) fun _ _ => hDefault) hDefault

theorem takes_boundLifetimes (hg : g.IsSound) : Takes before g.boundLifetimes fun _ => True := by
  refine .bind (.word? "for") fun _ _ => .ite ?_ (.pure trivial)
  refine .bind (.mark rfl) fun _ _ => ?_
  refine .bind (.discard (.separatedUntil rfl (takes_genericParameter hg false))) fun _ _ => ?_
  exact .bind (.mark rfl) fun _ _ => .pure trivial

theorem takes_output (hg : g.IsSound) (allowPlus : Bool) :
    Takes before (g.output allowPlus) fun _ => True := by
  refine .bind (.mark? rfl) fun _ _ => .ite ?_ (.pure trivial)
  exact .bind (hg.type allowPlus before) fun _ _ => .pure trivial

theorem takes_captures : Takes before captures fun _ => True := by
  refine .bind (.word "use") fun _ _ => .bind (.mark rfl) fun _ _ => ?_
  refine .bind (.discard (.separatedUntil (R := fun _ => True) rfl ?_)) fun _ _ => .mark rfl
  refine .bind .ahead fun _ _ => .ite (.discard .lifetime) ?_
  exact .bind .ahead fun _ _ => .ite (.discard .anyWord) (.discard .name)

theorem takes_constantMark (place : BoundPlace) :
    Takes before (g.constantMark place) fun _ => True := by
  refine .bind .ahead fun _ _ => .ite ?_ (.bind (.word? "const") fun _ _ => .ite ?_ (.pure trivial))
  · exact .bind takes_group fun _ _ => .bind (.require _) fun _ _ => .require _
  · exact .bind (.require _) fun _ _ => .require _

theorem takes_traitBound (hg : g.IsSound) (place : BoundPlace) :
    Takes before (g.traitBound place) fun _ => True := by
  refine .bind (takes_boundLifetimes hg) fun hasLifetimes _ => ?_
  refine .bind (takes_constantMark place) fun _ _ => .bind (.mark? rfl) fun _ _ => ?_
  extract_lets afterMark
  have hAfterMark : ∀ u, Takes before (afterMark u) fun _ => True := by
    refine fun _ => .bind (takes_path hg) fun trait _ => .bind .get fun _ _ => ?_
    refine .ite ?_ (.pure trivial)
    refine .bind (.discard (.mark? rfl)) fun _ _ => .bind (.discard takes_group) fun _ _ => ?_
    exact .discard (takes_output hg false)
  exact .ite (.bind (.discard (takes_boundLifetimes hg)) fun u _ => hAfterMark u) (hAfterMark ())

theorem takes_boundRule (hg : g.IsSound) (place : BoundPlace) :
    Takes before (g.boundRule place) fun _ => True := by
  refine .bind .ahead fun _ _ => .ite ?_ (.bind .ahead fun _ _ => .ite ?_ ?_)
  · exact .bind (.discard .lifetime) fun _ _ => .pure trivial
  · refine .bind (.require _) fun _ _ => .bind takes_captures fun _ _ => .pure trivial
  · refine .bind .ahead fun _ _ => .ite ?_ ?_
    · exact .bind takes_group fun _ _ => .pure trivial
    · exact .bind (takes_traitBound hg place) fun _ _ => .pure trivial

theorem takes_moreBounds (hg : g.IsSound) (place : BoundPlace) :
    Takes before (g.moreBounds place) fun _ => True := by
  refine .bind (.repeatWhile (R := fun _ => True) ?_) fun _ _ => ?_
  · exact .bind (.mark rfl) fun _ _ => hg.bound place before
  · exact .bind (.discard (.mark? rfl)) fun _ _ => .pure trivial

theorem takes_furtherBounds (hg : g.IsSound) : Takes before g.furtherBounds fun _ => True :=
  .discard (.repeatWhile (.bind (.mark rfl) fun _ _ => hg.bound .object before))

theorem takes_typeBounds (hg : g.IsSound) (place : BoundPlace) (allowPlus : Bool) :
    Takes before (g.typeBounds place allowPlus) fun _ => True := by
  refine .bind (hg.bound place before) fun _ _ => .ite ?_ ?_
  · exact .bind (takes_moreBounds hg place) fun _ _ => .require _
  · exact .bind (R := fun _ => True) (.pure trivial) fun _ _ => .require _

/-! ## Types -/

theorem takes_convention : Takes before convention fun _ => True := by
  refine .bind (.word? "extern") fun _ _ => .ite ?_ (.pure trivial)
  intro ts a rest hts hRun
  rw [bind_apply, get_apply, Option.bind_some] at hRun
  dsimp only at hRun
  split at hRun
  · cases hRun
    exact ⟨hts.trans (.literal hts.readable), trivial⟩
  · cases hRun
    exact ⟨hts, trivial⟩

theorem takes_functionType (hg : g.IsSound) : Takes before g.functionType fun _ => True := by
  refine .bind (.discard (.word? "unsafe")) fun _ _ => ?_
  refine .bind (.discard takes_convention) fun _ _ => .bind (.word "fn") fun _ _ => ?_
  refine .bind takes_group fun _ _ => ?_
  exact .discard (takes_output hg false)

/-- What is kept of the text of a type are the tokens since its start. -/
theorem takes_written : Takes before (do return .other (← since before)) Ty.IsReadable :=
  .bind .since fun _ h => .pure h

theorem takes_pathType (hg : g.IsSound) (hasLifetimes allowPlus : Bool) :
    Takes before (g.pathType hasLifetimes allowPlus) Ty.IsReadable := by
  refine .get_bind fun ts => .bind (takes_qualifiedPath hg) fun found hFound => ?_
  obtain ⟨isQualified, p⟩ := found
  cases isQualified with
  | true => exact .bind .since fun _ h => .pure h
  | false =>
    have hp : p.IsReadable := hFound.resolve_left Bool.false_ne_true
    refine .bind .get fun us _ => .ite ?_ (.ite ?_ (.pure hp))
    · exact .bind (.mark rfl) fun _ _ => .bind (.discard .anyGroup) fun _ _ => takes_written
    · extract_lets written
      exact .ite (.bind (.discard (takes_moreBounds hg .object)) fun _ _ => takes_written)
        takes_written

theorem takes_parenthesized (hg : g.IsSound) : Takes before g.parenthesized Ty.IsReadable := by
  refine .bind .ahead fun _ _ => .ite (.pure trivial) (.bind .ahead fun _ _ => .ite ?_ ?_)
  · refine .get_bind fun ts => .bind (takes_typeBounds hg .object true) fun _ _ => ?_
    exact .bind .since fun _ h => .pure h
  · refine .bind .ahead fun _ _ => .ite ?_ ?_
    · exact .bind (takes_traitBound hg .object) fun _ _ => .pure .nil
    · refine .bind (hg.type true before) fun t ht => ?_
      refine .bind (.mark? rfl) fun _ _ => .ite ?_ (.pure ht)
      refine .bind (.separatedUntil rfl (hg.type true before)) fun ts hts => ?_
      exact .pure ⟨ht, Ty.allReadable_of_forall hts⟩

/-- The length of an array is all that follows its mark. -/
theorem isReadable_of_bracketed (hg : g.IsSound) {ts : Tokens} {t : Ty} (hts : AreReadable ts)
    (h : g.bracketed ts = some (t, [])) : t.IsReadable := by
  unfold bracketed at h
  simp only [bind_apply, Option.bind_eq_some_iff] at h
  obtain ⟨⟨element, us⟩, hElement, ⟨isArray, vs⟩, hMark, h⟩ := h
  obtain ⟨hus, ht⟩ := hg.type true ts ts element us (.refl hts) hElement
  have hTakes : Takes ts (mark? ";") fun _ => True := .mark? rfl
  obtain ⟨hvs, -⟩ := hTakes us isArray vs hus hMark
  cases isArray with
  | false =>
    cases h
    exact ht
  | true =>
    have hLength :
        (discard (g.expression true) vs).bind (fun x => some (Ty.array element vs, x.2)) =
          some (t, []) := h
    obtain ⟨⟨u, ws⟩, -, hEq⟩ := Option.bind_eq_some_iff.mp hLength
    cases hEq
    exact ⟨ht, hvs.readable⟩

theorem takes_typeRule (hg : g.IsSound) (allowPlus : Bool) :
    Takes before (g.typeRule allowPlus) Ty.IsReadable := by
  refine .get_bind fun before => .bind (takes_boundLifetimes hg) fun hasLifetimes _ => ?_
  refine .bind .get fun ts _ => ?_
  extract_lets startsFunction afterStar afterName afterLifetimes
  have hAfter : ∀ u, Takes before (afterLifetimes u) Ty.IsReadable := by
    refine fun _ => .ite ?_ (.ite ?_ (.ite (takes_pathType hg hasLifetimes allowPlus) ?_))
    · refine .bind (.inside (R := Ty.IsReadable) fun us t hus h => ?_) fun t ht => ?_
      · exact (takes_parenthesized hg us t [] (.refl hus) h).2
      · split
        · exact .bind (takes_furtherBounds hg) fun _ _ => takes_written
        · refine .bind .ahead fun _ _ => .ite ?_ (.pure ht)
          exact .bind (takes_furtherBounds hg) fun _ _ => takes_written
        · exact .pure ht
    · exact .bind (takes_functionType hg) fun _ _ => takes_written
    · refine .bind (.word? "dyn") fun _ _ => .ite ?_ (.ite ?_ ?_)
      · have hAfterStar : ∀ u, Takes before (afterStar u) Ty.IsReadable :=
          fun _ => .bind (takes_typeBounds hg .object allowPlus) fun _ _ => takes_written
        refine .bind (.mark? rfl) fun _ _ => .ite ?_ (hAfterStar ())
        exact .bind (.require _) fun u _ => hAfterStar u
      · exact .inside fun us t hus h => isReadable_of_bracketed hg hus h
      · refine .bind (.mark? rfl) fun _ _ => .ite ?_ (.bind (.mark? rfl) fun _ _ => .ite ?_ ?_)
        · refine .bind (.word? "mut") fun isMutable _ => ?_
          extract_lets afterWord
          have hAfterWord : ∀ u, Takes before (afterWord u) Ty.IsReadable :=
            fun _ => .bind (hg.type false before) fun _ ht => .pure ht
          exact .ite (.bind (.word "const") fun u _ => hAfterWord u) (hAfterWord ())
        · have hAfterName : ∀ name : Option String, (∀ w ∈ name, IsName w) →
              Takes before (afterName name) Ty.IsReadable := by
            refine fun name hName => .bind (.word? "mut") fun _ _ => ?_
            exact .bind (hg.type false before) fun _ ht => .pure ⟨hName, ht⟩
          refine .bind .ahead fun _ _ => .ite ?_ ?_
          · refine .bind (.map .lifetime fun w hw => ?_) hAfterName
            rintro v ⟨⟩
            exact hw
          · exact .bind (.pure fun w hw => nomatch hw) hAfterName
        · refine .bind (.mark? rfl) fun _ _ => .ite (.pure trivial) ?_
          refine .bind (.word? "impl") fun _ _ => .ite ?_ ?_
          · exact .bind (takes_typeBounds hg .implementor allowPlus) fun _ _ => takes_written
          · refine .bind (.word? "_") fun _ _ => .ite (.pure trivial) ?_
            refine .bind (.require _) fun _ _ => ?_
            exact .bind (takes_typeBounds hg .object true) fun _ _ => takes_written
  exact .ite (.bind (.require _) fun u _ => hAfter u) (hAfter ())

/-! ## Whole texts -/

theorem isSound_ofDepth (forms : Forms) (depth : Nat) : (ofDepth forms depth).IsSound := by
  induction depth with
  | zero => exact ⟨fun _ _ => .failure, fun _ _ => .failure⟩
  | succ depth ih =>
    exact ⟨fun allowPlus _ => takes_typeRule ih allowPlus,
      fun place _ => (takes_boundRule ih place).imp fun _ _ => trivial⟩

/-- Paths that are read from texts can be written. -/
theorem isReadable_of_parsePath {text : String} {p : Path} (h : parsePath text = some p) :
    p.IsReadable := by
  obtain ⟨ts, hTokens, hWhole⟩ := Option.bind_eq_some_iff.mp h
  have hts := areReadable_of_tokenize hTokens
  exact (takes_path (isSound_ofDepth _ _) ts p [] (.refl hts) (whole_eq_some hWhole)).2

end CommandDispatch.Source
