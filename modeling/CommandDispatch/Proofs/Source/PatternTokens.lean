import CommandDispatch.Proofs.Source.TypeTokens

/-!
# Tokens of patterns

Names, holes, paths, and tuples of patterns with or without a path before them.

* `IsPattern`: patterns, before the marks that may follow them,
* `IsPattern.patterns_apply`: a pattern is read where there is a choice between patterns.
-/

namespace CommandDispatch.Source

open Source.Parser Source.Grammar

variable {ts us : Tokens}

/-! ## Paths in patterns and expressions -/

/-- A path does not start from a type in angle brackets. -/
theorem IsPath.qualifiedPath_apply {style : PathStyle} (h : IsPath style ts) (forms : Forms)
    (depth : Nat) (hDepth : Tokens.size ts ≤ depth) (rest : Tokens) (hRest : EndsPath style rest) :
    ∃ p, (ofDepth forms depth).qualifiedPath style (ts ++ rest) = some ((false, p), rest) := by
  obtain ⟨p, hp⟩ := h.isRead forms depth rest hDepth hRest
  have hAngle : mark? "<" (ts ++ rest) = some (false, ts ++ rest) := by
    obtain ⟨joint, us, rfl⟩ | ⟨w, us, rfl, -⟩ := h.begins <;> rfl
  refine ⟨p, ?_⟩
  simp only [qualifiedPath, bind_apply, hAngle, Option.bind_some, Bool.false_eq_true, if_false, hp,
    pure_apply]

/-! ## Patterns -/

/-- The tokens end a pattern. -/
def EndsPattern (ts : Tokens) : Prop :=
  ts = [] ∨ ∃ joint us, ts = .mark ',' joint :: us ∨ ts = .mark '=' joint :: us ∨
    ts = .mark '|' joint :: us ∨ ts = .mark ':' false :: us

/-- A pattern may begin with the token. -/
def beginsPattern : TokenTree → Bool
  | .word _ => true
  | .group .. => true
  | _ => false

/-- The tokens are read as a pattern. -/
structure IsPattern (ts : Tokens) : Prop where
  begins : ∃ t us, ts = t :: us ∧ beginsPattern t = true
  isPart : IsPart (·.pattern) EndsPattern ts

theorem IsPattern.ne_nil (h : IsPattern ts) : ts ≠ [] := by
  obtain ⟨t, us, rfl, -⟩ := h.begins
  exact List.cons_ne_nil _ _

theorem IsPattern.marksAhead_eq (h : IsPattern ts) {m : String} (hm : m.toList.head?.isSome = true)
    (rest : Tokens) : marksAhead m (ts ++ rest) = false := by
  obtain ⟨t, us, rfl, ht⟩ := h.begins
  refine marksAhead_eq_false (l := []) _ (by rwa [← Option.any_true] at hm) ?_
  rintro c joint rfl
  cases ht

/-- A pattern that a rule reads is one that is read on every level. -/
theorem isPattern_of_isRead {t : TokenTree} (ht : beginsPattern t = true)
    (h : IsRead Grammar.patternRule EndsPattern (t :: us)) : IsPattern (t :: us) :=
  ⟨⟨t, us, rfl, ht⟩, h.isPart fun _ _ => rfl⟩

section

variable {w : String} (hw : reservedWords.contains w = false) (g : Grammar) {rest : Tokens}

include hw

theorem namePattern_word (hRest : EndsPattern rest) :
    g.namePattern (.word w :: rest) = some (.name w, rest) := by
  have hAt : mark? "@" rest = some (false, rest) := by
    rcases hRest with rfl | ⟨joint, us, rfl | rfl | rfl | rfl⟩ <;> rfl
  simp only [namePattern, bind_apply, discard_apply, word?_eq_false hw (k := "ref") (by decide),
    word?_eq_false hw (k := "mut") (by decide), Option.map_some, Option.bind_some, ahead_apply,
    wordAhead_eq_false hw (k := "self") (by decide), Bool.false_eq_true, if_false, name_word hw,
    hAt, pure_apply]

/-- A name is a pattern that binds the name. -/
theorem patternRule_word (hRest : EndsPattern rest) :
    g.patternRule (.word w :: rest) = some (.name w, rest) := by
  have hPath : pathPatternAhead (.word w :: rest) = false := by
    rw [pathPatternAhead, wordsAhead_eq_false hw (by decide), wordAhead_eq_false hw (by decide),
      nameAhead_word hw]
    rcases hRest with rfl | ⟨joint, us, rfl | rfl | rfl | rfl⟩ <;> rfl
  have hMinus : marksAhead "-" (.word w :: rest) = false := rfl
  simp only [patternRule, bind_apply, get_apply, Option.bind_some, hPath, Bool.false_eq_true,
    if_false, word?_eq_false hw (k := "_") (by decide), word?_eq_false hw (k := "box") (by decide),
    hMinus, literalAhead_eq_false hw, wordAhead_eq_false hw (k := "const") (by decide),
    Bool.or_false, nameAhead_word hw, Bool.or_true, if_true, namePattern_word hw g hRest]

theorem isPattern_name : IsPattern [.word w] :=
  isPattern_of_isRead rfl fun _ _ _ _ hRest => ⟨.name w, patternRule_word hw _ hRest⟩

end

theorem isPattern_hole : IsPattern [.word "_"] :=
  isPattern_of_isRead rfl fun _ _ _ _ _ => ⟨.other, rfl⟩

/-! ### Choices and tuples -/

/-- Where there is a choice between patterns, there may be one. -/
theorem IsPattern.patterns_apply (h : IsPattern ts) (forms : Forms) (depth : Nat)
    (hDepth : Tokens.size ts < depth) (rest : Tokens) (hRest : EndsPattern rest)
    (hChoice : choiceAhead rest = false) :
    ∃ p, (ofDepth forms depth).patterns (ts ++ rest) = some (p, rest) := by
  obtain ⟨p, hp⟩ := h.isPart forms depth rest hDepth hRest
  have hLeading : mark? "|" (ts ++ rest) = some (false, ts ++ rest) :=
    mark?_of_marksAhead_eq_false (h.marksAhead_eq rfl rest)
  refine ⟨p, ?_⟩
  simp only [patterns, bind_apply, hLeading, Option.bind_some, hp,
    repeatWhile_of_going_eq_false _ hChoice]
  rfl

/-- Patterns with commas between them, to the end of a group. -/
theorem patternList_apply (h : Separated IsPattern ts) (forms : Forms) (depth : Nat)
    (hDepth : Tokens.size ts < depth) :
    ∃ ps, commaList (ofDepth forms depth).patterns ts = some (ps, []) := by
  refine commaList_apply (h.sized.imp fun us ⟨hus, hSize⟩ => ⟨fun rest => ?_, fun rest hRest => ?_⟩)
  · simp [hus.ne_nil]
  · refine hus.patterns_apply forms depth (Nat.lt_of_le_of_lt hSize hDepth) rest ?_ ?_
    · rcases hRest with hEmpty | ⟨joint, vs, rfl⟩
      · exact .inl (List.isEmpty_iff.mp hEmpty)
      · exact .inr ⟨joint, vs, .inl rfl⟩
    · rcases hRest with hEmpty | ⟨joint, vs, rfl⟩
      · rw [List.isEmpty_iff.mp hEmpty]
        rfl
      · rfl

theorem isPattern_tuple (h : Separated IsPattern ts) : IsPattern [.group .parenthesis ts] := by
  refine isPattern_of_isRead rfl fun forms depth rest hDepth _ => ?_
  have hSize : Tokens.size ts < depth := by
    simp only [Tokens.size, TokenTree.size] at hDepth
    omega
  obtain ⟨ps, hps⟩ := patternList_apply h forms _ hSize
  have hInside := inside_apply .parenthesis hps rest
  have hRule : (ofDepth forms depth).patternRule ([.group .parenthesis ts] ++ rest) =
      (discard (inside .parenthesis (commaList (ofDepth forms depth).patterns))
        (.group .parenthesis ts :: rest)).bind fun x => some (.other, x.2) := rfl
  refine ⟨.other, hRule.trans ?_⟩
  rw [discard_apply, hInside]
  rfl

/-! ### Paths -/

theorem endsPath_of_endsPattern {ts : Tokens} (h : EndsPattern ts) : EndsPath .expression ts := by
  rcases h with rfl | ⟨joint, us, rfl | rfl | rfl | rfl⟩ <;> exact ⟨rfl, rfl⟩

/-- A path goes on so that it is no name to bind. -/
theorem patternRule_path {g : Grammar} (h : pathPatternAhead ts = true) :
    g.patternRule ts = g.pathPattern ts := by
  simp only [patternRule, bind_apply, get_apply, Option.bind_some, h, if_true]

theorem isPattern_path {t : TokenTree} (ht : beginsPattern t = true)
    (h : IsPath .expression (t :: us))
    (hPath : ∀ rest, pathPatternAhead (t :: us ++ rest) = true) : IsPattern (t :: us) := by
  refine isPattern_of_isRead ht fun forms depth rest hDepth hRest => ⟨.other, ?_⟩
  obtain ⟨p, hp⟩ := h.qualifiedPath_apply forms _ hDepth rest
    (endsPath_of_endsPattern hRest)
  have hNone : marksAhead "!" rest = false ∧ groupAhead .brace rest = false ∧
      groupAhead .parenthesis rest = false ∧ marksAhead ".." rest = false := by
    rcases hRest with rfl | ⟨joint, us, rfl | rfl | rfl | rfl⟩ <;> exact ⟨rfl, rfl, rfl, rfl⟩
  rw [patternRule_path (hPath rest)]
  simp only [pathPattern, bind_apply, hp, Option.bind_some, get_apply, hNone, Bool.and_false,
    Bool.false_and, Bool.false_eq_true, if_false, pure_apply]

/-- A path with patterns in parentheses. -/
theorem isPattern_constructor {t : TokenTree} (ht : beginsPattern t = true)
    (h : IsPath .expression (t :: us)) (hts : Separated IsPattern ts)
    (hPath : ∀ rest, pathPatternAhead (t :: us ++ .group .parenthesis ts :: rest) = true) :
    IsPattern (t :: (us ++ [.group .parenthesis ts])) := by
  refine isPattern_of_isRead ht fun forms depth rest hDepth _ => ⟨.other, ?_⟩
  simp only [Tokens.size, Tokens.size_append, TokenTree.size] at hDepth
  obtain ⟨p, hp⟩ := h.qualifiedPath_apply forms depth
    (by rw [Tokens.size_cons]; omega) (.group .parenthesis ts :: rest) ⟨rfl, rfl⟩
  obtain ⟨ps, hps⟩ := patternList_apply hts forms depth (by omega)
  have hInside := inside_apply .parenthesis hps rest
  have hNone : marksAhead "!" (.group .parenthesis ts :: rest) = false ∧
      groupAhead .brace (.group .parenthesis ts :: rest) = false := ⟨rfl, rfl⟩
  have hGroup : groupAhead .parenthesis (.group .parenthesis ts :: rest) = true := rfl
  have hTokens : t :: (us ++ [.group .parenthesis ts]) ++ rest =
      t :: us ++ .group .parenthesis ts :: rest := by simp
  rw [hTokens, patternRule_path (hPath rest)]
  simp only [pathPattern, bind_apply, hp, Option.bind_some, get_apply, hNone, hGroup,
    Bool.and_false, Bool.false_and, Bool.false_eq_true, if_false, if_true, discard_apply, hInside,
    Option.map_some, pure_apply]

end CommandDispatch.Source
