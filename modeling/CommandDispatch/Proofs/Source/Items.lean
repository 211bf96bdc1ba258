import CommandDispatch.Proofs.Source.StatementTokens

/-!
# Items that are read

Items are read one after the other, each with the attributes before it. A function is read with the
statements of its body.

* `IsItem`, `AreItems`: items with their attributes, `isItem_append`: an item after its attributes,
* `IsVariant`: the variants of an enumeration,
* `isBareItem_function`, `isMethod_constant`: functions with one input, and methods,
* `readAll_module_eq_some`: a file that is one module of items,
* `readAll_module_cases`: what may come of a file that is one module.
-/

namespace CommandDispatch.Source

open Source.Parser Source.Grammar

variable {ts us : Tokens}

/-! ## Items after their attributes -/

/-- What is read of an item after its attributes. -/
def itemAfter (g : Grammar) (outer : List Attribute) : Parser Item := do
  let before ← get
  discard visibility
  if functionAhead false (← get) then
    let signature ← g.signature false
    if ← mark? ";" then
      g.unlaid
      return .other
    let inner ← g.attributedBlock
    return .function { attributes := outer ++ inner, signature }
  else
    set before
    g.otherItem
    return .other

theorem itemRule_eq (g : Grammar) : g.itemRule = g.outerAttributes >>= itemAfter g :=
  rfl

/-- The tokens are read as an item, whatever follows. -/
structure IsItem (ts : Tokens) : Prop where
  ne_nil : ts ≠ []
  isPart : IsPart (·.item) (fun _ => True) ts

/-- Items one after the other. -/
abbrev AreItems : Tokens → Prop :=
  Repeated IsItem

/-- The tokens are read as an item without attributes. -/
structure IsBareItem (ts : Tokens) : Prop where
  begins : BeginsWithWord ts
  apply_eq : ∀ forms depth outer rest, Tokens.size ts ≤ depth →
    ∃ item, itemAfter (ofDepth forms depth) outer (ts ++ rest) = some (item, rest)

/-- What is read after the attributes is read with them. -/
theorem item_append (hts : AreAttributes ts) (hus : BeginsWithWord us) (forms : Forms)
    (depth : Nat) (rest : Tokens) :
    ∃ outer, (ofDepth forms (depth + 1)).item (ts ++ us ++ rest) =
      itemAfter (ofDepth forms depth) outer (us ++ rest) := by
  obtain ⟨w, vs, rfl⟩ := hus
  have hCore : marksAhead "#" (.word w :: vs ++ rest) = false := rfl
  obtain ⟨outer, hOuter⟩ := outerAttributes_apply hts hCore (ofDepth forms depth)
  have hRule : (ofDepth forms (depth + 1)).item = (ofDepth forms depth).itemRule := rfl
  refine ⟨outer, ?_⟩
  rw [hRule, itemRule_eq, List.append_assoc, bind_apply, hOuter, Option.bind_some]

/-- An item, and the attributes before it. -/
theorem isItem_append (hts : AreAttributes ts) (hus : IsBareItem us) : IsItem (ts ++ us) where
  ne_nil := by
    obtain ⟨w, vs, rfl⟩ := hus.begins
    simp
  isPart forms depth rest hDepth _ := by
    obtain ⟨n, rfl⟩ := Nat.exists_eq_succ_of_ne_zero (Nat.ne_zero_of_lt hDepth)
    rw [Tokens.size_append] at hDepth
    obtain ⟨outer, hOuter⟩ := item_append hts hus.begins forms n rest
    obtain ⟨item, hItem⟩ := hus.apply_eq forms n outer rest (by omega)
    exact ⟨item, hOuter.trans hItem⟩

theorem IsBareItem.isItem (h : IsBareItem ts) : IsItem ts :=
  isItem_append .nil h

/-- All items of a module or a file. None of their attributes is taken for one of what encloses
them. -/
structure IsContent (ts : Tokens) : Prop where
  areItems : AreItems ts
  marksAhead_eq : marksAhead "!" (ts.drop 1) = false

/-! ## Variants -/

/-- A name after attributes. -/
def IsVariant (ts : Tokens) : Prop :=
  ∃ attributes v, AreAttributes attributes ∧ reservedWords.contains v = false ∧
    ts = attributes ++ [.word v]

theorem IsVariant.isListItem (h : IsVariant ts) (g : Grammar) :
    IsListItem List.isEmpty g.variant ts := by
  obtain ⟨attributes, v, hAttributes, hv, rfl⟩ := h
  refine ⟨by simp, fun rest hRest => ⟨(), ?_⟩⟩
  have hCore : marksAhead "#" (.word v :: rest) = false := rfl
  obtain ⟨outer, hOuter⟩ := outerAttributes_apply hAttributes hCore g
  have hEnd : rest = [] ∨ ∃ joint us, rest = .mark ',' joint :: us :=
    hRest.imp List.isEmpty_iff.mp id
  have hNoFields : groupAhead .brace rest = false ∧ groupAhead .parenthesis rest = false := by
    rcases hEnd with rfl | ⟨joint, us, rfl⟩ <;> exact ⟨rfl, rfl⟩
  have hNoValue : g.value rest = some (false, rest) := by
    rcases hEnd with rfl | ⟨joint, us, rfl⟩ <;> rfl
  rw [List.append_assoc, List.singleton_append]
  simp only [variant, visibility, bind_apply, discard_apply, hOuter, Option.map_some,
    Option.bind_some, word?_eq_false hv (k := "pub") (by decide), Bool.false_eq_true, if_false,
    pure_apply, name_word hv, ahead_apply, hNoFields, hNoValue]

/-! ## Functions -/

section

variable {w : String} (hw : reservedWords.contains w = false)

include hw

theorem receiver_eq_none (g : Grammar) (rest : Tokens) : g.receiver (.word w :: rest) = none := by
  have hMark : mark? "&" (.word w :: rest) = some (false, .word w :: rest) := rfl
  simp only [receiver, bind_apply, hMark, Option.bind_some, ahead_apply, Bool.false_and,
    Bool.false_eq_true, if_false, discard_apply, word?_eq_false hw (k := "mut") (by decide),
    Option.map_some, word_eq_none hw (k := "self") (by decide), Option.bind_none]

/-- An input that is a name with its type. -/
theorem input_apply (hts : IsType ts) (forms : Forms) (depth : Nat)
    (hDepth : Tokens.size ts + 1 < depth) {rest : Tokens} (hRest : EndsType rest) :
    ∃ p t, (ofDepth forms depth).input (.word w :: .mark ':' false :: (ts ++ rest)) =
      some (.input (.typed p t), rest) := by
  let all : Tokens := .word w :: .mark ':' false :: (ts ++ rest)
  obtain ⟨p, hPattern⟩ := (isPattern_name hw).isPart forms depth (.mark ':' false :: (ts ++ rest))
    (by simp only [Tokens.size, TokenTree.size]; omega) (.inr ⟨false, _, .inr (.inr (.inr rfl))⟩)
  obtain ⟨t, hType⟩ := hts.isPart true forms depth rest (by omega) hRest
  dsimp only at hPattern hType
  have hOuter : (ofDepth forms depth).outerAttributes all = some ([], all) := rfl
  have hDots : mark? "..." all = some (false, all) := rfl
  have hReceiver : (ofDepth forms depth).receiver.run all = none := receiver_eq_none hw _ _
  have hGeneric : marksAhead "<" (all.drop 1) = false := rfl
  have hColon : mark ":" (.mark ':' false :: (ts ++ rest)) = some ((), ts ++ rest) := rfl
  have hNoDots : mark? "..." (ts ++ rest) = some (false, ts ++ rest) :=
    mark?_of_marksAhead_eq_false (hts.marksAhead_eq (by decide) rest)
  refine ⟨p, t, ?_⟩
  show (ofDepth forms depth).input all = _
  simp only [input, bind_apply, discard_apply, hOuter, Option.map_some, Option.bind_some, hDots,
    Bool.false_eq_true, if_false, get_apply, hReceiver, hGeneric, Bool.and_false]
  rw [List.singleton_append] at hPattern
  simp only [all, hPattern, Option.bind_some, hColon, hNoDots, Bool.false_eq_true, if_false,
    bind_apply, hType, pure_apply]

/-- A function with one input. A comma may follow it. -/
theorem inputs_apply (hts : IsType ts) (forms : Forms) (depth : Nat)
    (hDepth : Tokens.size ts + 1 < depth) {comma : Tokens}
    (hComma : comma = [] ∨ ∃ joint, comma = [.mark ',' joint]) (steps : Nat) :
    ∃ found, (ofDepth forms depth).inputs (steps + 2) true
      (.word w :: .mark ':' false :: (ts ++ comma)) = some (found, []) := by
  have hEnds : EndsType comma := by
    obtain rfl | ⟨joint, rfl⟩ := hComma
    · exact .inl rfl
    · exact .inr (.inl ⟨joint, [], .inl rfl⟩)
  obtain ⟨p, t, hInput⟩ := input_apply hw hts forms _ hDepth hEnds
  have hEnd : (ofDepth forms depth).inputs (steps + 1) false [] = some (([], false), []) := rfl
  rw [inputs]
  simp only [bind_apply, ahead_apply, Option.bind_some, List.isEmpty_cons, Bool.false_eq_true,
    if_false, hInput]
  obtain rfl | ⟨joint, rfl⟩ := hComma
  · exact ⟨_, rfl⟩
  · have hMark : mark "," [.mark ',' joint] = some ((), []) := rfl
    simp only [List.isEmpty_cons, Bool.false_eq_true, if_false, bind_apply, hMark,
      Option.bind_some, hEnd, pure_apply, Option.some.injEq, Prod.mk.injEq, and_true]
    exact ⟨_, rfl⟩

end

/-- The type of what a function returns. -/
theorem output_apply (hus : IsType us) (forms : Forms) (depth : Nat)
    (hDepth : Tokens.size us < depth) (joint : Bool) (rest : Tokens) (hRest : EndsType rest) :
    ∃ t, (ofDepth forms depth).output true (.mark '-' true :: .mark '>' joint :: (us ++ rest)) =
      some (some t, rest) := by
  obtain ⟨t, ht⟩ := hus.isPart true forms depth rest hDepth hRest
  have hArrow : mark? "->" (.mark '-' true :: .mark '>' joint :: (us ++ rest)) =
      some (true, us ++ rest) := rfl
  dsimp only at ht
  refine ⟨t, ?_⟩
  simp only [output, bind_apply, hArrow, Option.bind_some, if_true, ht, pure_apply]

/-- The head of a function up to its body. -/
theorem signature_apply {g : Grammar} {name : String} {head vs ws body rest : Tokens}
    {modifiers : Bool × Bool} {isGeneric : Bool} {is : List Input × Bool} {t : Option Ty}
    (hModifiers : functionModifiers false head = some (modifiers, .word "fn" :: .word name :: vs))
    (hName : reservedWords.contains name = false)
    (hParameters : g.genericParameters vs = some (isGeneric, .group .parenthesis us :: ws))
    (hInputs : g.inputs (us.length + 1) true us = some (is, []))
    (hOutput : g.output true ws = some (t, .group .brace body :: rest)) :
    ∃ s, g.signature false head = some (s, .group .brace body :: rest) := by
  have hWord : word "fn" (.word "fn" :: .word name :: vs) = some ((), .word name :: vs) := rfl
  have hInside : inside .parenthesis (do g.inputs ((← get).length + 1) true)
      (.group .parenthesis us :: ws) = some (is, ws) :=
    inside_apply .parenthesis hInputs ws
  have hNoWhere : g.whereClause (.group .brace body :: rest) =
      some (false, .group .brace body :: rest) := rfl
  simp only [signature, bind_apply, hModifiers, Option.bind_some, hWord, name_word hName,
    hParameters, hInside, hOutput, discard_apply, hNoWhere, Option.map_some, pure_apply]
  exact ⟨_, rfl⟩

/-- The tokens are read as generic parameters before the inputs of a function. -/
def AreParameters (ts : Tokens) : Prop :=
  ∀ forms depth inputs rest, Tokens.size ts ≤ depth →
    ∃ isGeneric,
      (ofDepth forms depth).genericParameters (ts ++ .group .parenthesis inputs :: rest) =
        some (isGeneric, .group .parenthesis inputs :: rest)

theorem areParameters_nil : AreParameters [] :=
  fun _ _ _ _ _ => ⟨false, rfl⟩

/-- A function with one input. -/
theorem isBareItem_function (name : String) (hName : reservedWords.contains name = false)
    {w : String} (hw : reservedWords.contains w = false) {ps comma body : Tokens}
    (hps : AreParameters ps) (hts : IsType ts)
    (hComma : comma = [] ∨ ∃ joint, comma = [.mark ',' joint]) (joint : Bool) (hus : IsType us)
    (hBody : IsBlockBody body) :
    IsBareItem (.word "pub" :: .word "fn" :: .word name ::
      (ps ++ .group .parenthesis (.word w :: .mark ':' false :: (ts ++ comma)) ::
        .mark '-' true :: .mark '>' joint :: (us ++ [.group .brace body]))) where
  begins := ⟨_, _, rfl⟩
  apply_eq forms depth outer rest hDepth := by
    let g := ofDepth forms depth
    let inner : Tokens := .word w :: .mark ':' false :: (ts ++ comma)
    let after : Tokens := .group .brace body :: rest
    let result : Tokens := .mark '-' true :: .mark '>' joint :: (us ++ after)
    let head : Tokens := .word "fn" :: .word name :: (ps ++ .group .parenthesis inner :: result)
    simp only [Tokens.size_cons, Tokens.size_append, TokenTree.size] at hDepth
    obtain ⟨isGeneric, hParameters⟩ := hps forms depth inner result (by omega)
    obtain ⟨found, hInputs⟩ := inputs_apply hw hts forms depth (by omega)
      hComma (ts ++ comma).length.succ
    obtain ⟨t, hOutput⟩ := output_apply hus forms depth (by omega) joint
      after (.inr (.inr ⟨body, rest, rfl⟩))
    have hModifiers : functionModifiers false head = some ((false, false), head) := rfl
    obtain ⟨s, hSignature⟩ : ∃ s, g.signature false head = some (s, after) :=
      signature_apply hModifiers hName hParameters hInputs hOutput
    have hTokens : .word "pub" :: .word "fn" :: .word name ::
        (ps ++ .group .parenthesis (.word w :: .mark ':' false :: (ts ++ comma)) ::
          .mark '-' true :: .mark '>' joint :: (us ++ [.group .brace body])) ++ rest =
        .word "pub" :: head := by simp [head, inner, result, after]
    have hVisibility : visibility (.word "pub" :: head) = some (true, head) := rfl
    have hAhead : functionAhead false head = true := rfl
    have hMark : mark? ";" after = some (false, after) := rfl
    have hBlock : g.attributedBlock after = some ([], rest) :=
      attributedBlock_apply hBody forms depth (by omega) rest
    refine ⟨.function ⟨outer ++ [], s⟩, ?_⟩
    rw [hTokens]
    show itemAfter g outer _ = _
    simp only [itemAfter, bind_apply, get_apply, Option.bind_some, discard_apply, hVisibility,
      Option.map_some, hAhead, if_true, hSignature, after, hMark, Bool.false_eq_true, if_false,
      hBlock, pure_apply]

/-! ## Methods -/

/-- The tokens are read as a method. -/
structure IsMethod (ts : Tokens) : Prop where
  ne_nil : ts ≠ []
  apply_eq : ∀ forms depth rest, Tokens.size ts ≤ depth →
    (ofDepth forms depth).associatedItem false (ts ++ rest) = some ((), rest)

/-- A constant method that only takes its object. -/
theorem isMethod_constant {name : String} (hName : reservedWords.contains name = false)
    {attributes body : Tokens} (hAttributes : AreAttributes attributes) (joint : Bool)
    (hus : IsType us) (hBody : IsBlockBody body) :
    IsMethod (attributes ++ .word "pub" :: .word "const" :: .word "fn" :: .word name ::
      .group .parenthesis [.word "self"] :: .mark '-' true :: .mark '>' joint ::
        (us ++ [.group .brace body])) where
  ne_nil := by simp
  apply_eq forms depth rest hDepth := by
    let g := ofDepth forms depth
    let after : Tokens := .group .brace body :: rest
    let result : Tokens := .mark '-' true :: .mark '>' joint :: (us ++ after)
    let head : Tokens := .word "const" :: .word "fn" :: .word name ::
      .group .parenthesis [.word "self"] :: result
    simp only [Tokens.size_cons, Tokens.size_append, TokenTree.size] at hDepth
    obtain ⟨t, hOutput⟩ := output_apply hus forms depth (by omega) joint
      after (.inr (.inr ⟨body, rest, rfl⟩))
    have hModifiers : functionModifiers false head = some ((false, false), head.tail) := rfl
    have hParameters : g.genericParameters (.group .parenthesis [.word "self"] :: result) =
        some (false, .group .parenthesis [.word "self"] :: result) := rfl
    have hInputs : g.inputs ([TokenTree.word "self"].length + 1) true [.word "self"] =
        some (([.receiver], false), []) := rfl
    obtain ⟨s, hSignature⟩ : ∃ s, g.signature false head = some (s, after) :=
      signature_apply hModifiers hName hParameters hInputs hOutput
    have hCore : marksAhead "#" (.word "pub" :: head) = false := rfl
    obtain ⟨outer, hOuter⟩ := outerAttributes_apply hAttributes hCore g
    have hTokens : attributes ++ .word "pub" :: .word "const" :: .word "fn" :: .word name ::
        .group .parenthesis [.word "self"] :: .mark '-' true :: .mark '>' joint ::
          (us ++ [.group .brace body]) ++ rest = attributes ++ .word "pub" :: head := by
      simp [head, result, after]
    have hVisibility : visibility (.word "pub" :: head) = some (true, head) := rfl
    have hDefault : word? "default" head = some (false, head) := rfl
    have hNoBang : marksAhead "!" (head.drop 1) = false := rfl
    have hAhead : functionAhead false head = true := rfl
    have hMark : mark? ";" after = some (false, after) := rfl
    have hBlock : g.attributedBlock after = some ([], rest) :=
      attributedBlock_apply hBody forms depth (by omega) rest
    rw [hTokens]
    show g.associatedItem false _ = _
    simp only [associatedItem, bodyOrNone, bind_apply, get_apply, Option.bind_some, discard_apply,
      hOuter, Option.map_some, hVisibility, ahead_apply, hNoBang, Bool.false_or, Bool.not_false,
      if_true, hDefault, Bool.false_and, Bool.false_eq_true, if_false, hAhead, hSignature, after,
      hMark, hBlock, pure_apply, Bool.not_true]

/-! ## Modules -/

def moduleTokens (m : String) (trees : Tokens) : Tokens :=
  [.word "pub", .word "mod", .word m, .group .brace trees]

/-- What is read of the inside of a module. -/
def moduleContent (g : Grammar) : Parser Unit := do
  discard g.innerAttributes
  discard <| all g.item

/-- All of the inside of a module is read, or there is no module. -/
theorem itemAfter_module (g : Grammar) (outer : List Attribute) {m : String}
    (hm : reservedWords.contains m = false) (trees rest : Tokens) :
    itemAfter g outer (moduleTokens m trees ++ rest) =
      (whole (moduleContent g) trees).map fun _ => (.other, rest) := by
  let after : Tokens := .group .brace trees :: rest
  have hModule : itemAfter g outer (moduleTokens m trees ++ rest) =
      (g.moduleItem (.word "mod" :: .word m :: after)).bind fun x => some (.other, x.2) := rfl
  have hUnsafe : word? "unsafe" (.word "mod" :: .word m :: after) =
      some (false, .word "mod" :: .word m :: after) := rfl
  have hMod : word "mod" (.word "mod" :: .word m :: after) = some ((), .word m :: after) := rfl
  have hMark : mark? ";" after = some (false, after) := rfl
  have hInside : inside .brace (moduleContent g) after =
      (whole (moduleContent g) trees).bind fun _ => some ((), rest) := by
    cases hWhole : whole (moduleContent g) trees with
    | none => simp only [inside, after, bind_apply, get_apply, Option.bind_some, hWhole]; rfl
    | some u => simp only [inside, after, bind_apply, get_apply, Option.bind_some, hWhole]; rfl
  rw [hModule]
  simp only [moduleItem, bind_apply, discard_apply, hUnsafe, Option.map_some, Option.bind_some,
    hMod, ahead_apply, wordAhead_eq_false hm (k := "try") (by decide), Bool.false_eq_true,
    if_false, name_word hm, hMark, Bool.not_false, if_true]
  refine (congrArg (·.bind fun x => some (Item.other, x.2)) hInside).trans ?_
  cases whole (moduleContent g) trees <;> rfl

/-- What is read of a file. -/
def fileItems (g : Grammar) : Parser (List Item) := do
  discard g.innerAttributes
  all g.item

/-- A text without a byte order mark and without a program line is read as its tokens are. -/
theorem parseFile_eq {text : String} (hMark : text.toList.head? ≠ some '\ufeff')
    (hProgram : beginsWith text.toList "#!" = false) :
    parseFile text = (tokenize text.toList).bind (readAll fileItems) := by
  have hLine : dropProgramLine text.toList = text.toList := by
    rw [dropProgramLine, hProgram]
    rfl
  rw [parseFile]
  simp only [if_neg hMark, hLine, parseAs]
  rfl

/-- The attributes of a module are none of the file. -/
theorem marksAhead_module (hts : AreAttributes ts) (m : String) (trees : Tokens) :
    marksAhead "!" ((ts ++ moduleTokens m trees).drop 1) = false := by
  cases hts with
  | nil => rfl
  | cons h =>
    obtain ⟨joint, inner, rfl, -⟩ := h
    rfl

/-- A file that is one module is read if all of the inside of the module is. -/
theorem readAll_module (hts : AreAttributes ts) {m : String}
    (hm : reservedWords.contains m = false) (trees : Tokens) :
    ∃ depth, Tokens.size trees < depth ∧
      readAll fileItems (ts ++ moduleTokens m trees) =
        (whole (moduleContent (ofDepth .all depth)) trees).map fun _ => [.other] := by
  let tokens := ts ++ moduleTokens m trees
  let g := ofDepth .all (Tokens.size tokens + 1)
  have hSize : Tokens.size trees < Tokens.size tokens := by
    simp only [tokens, moduleTokens, Tokens.size_append, Tokens.size, TokenTree.size]
    omega
  refine ⟨Tokens.size tokens, hSize, ?_⟩
  have hBegins : BeginsWithWord (moduleTokens m trees) := ⟨"pub", _, rfl⟩
  obtain ⟨outer, hOuter⟩ := item_append hts hBegins .all (Tokens.size tokens) []
  rw [List.append_nil, itemAfter_module _ outer hm] at hOuter
  have hNone : g.innerAttributes tokens = some ([], tokens) := by
    refine repeatWhile_of_going_eq_false _ ?_
    rw [marksAhead_module hts, Bool.and_false]
  have hSteps : all g.item tokens = (g.item tokens).bind fun x =>
      (repeatSteps (!·.isEmpty) g.item tokens.length x.2).bind fun y => some (x.1 :: y.1, y.2) := by
    have hAll : all g.item tokens =
        repeatSteps (!·.isEmpty) g.item (tokens.length + 1) tokens := rfl
    have hGoing : (!tokens.isEmpty) = true := by simp [tokens, moduleTokens]
    rw [hAll, repeatSteps_apply, if_pos hGoing]
  have hEnd : repeatSteps (!·.isEmpty) g.item tokens.length [] = some ([], []) := by
    obtain ⟨n, hLength⟩ : ∃ n, tokens.length = n + 1 :=
      Nat.exists_eq_succ_of_ne_zero (by simp [tokens, moduleTokens])
    rw [hLength, repeatSteps_apply]
    rfl
  have hRun : fileItems g tokens =
      (whole (moduleContent (ofDepth .all (Tokens.size tokens))) trees).map
        fun _ => ([.other], []) := by
    rw [fileItems, bind_apply, discard_apply, hNone, Option.map_some, Option.bind_some, hSteps,
      hOuter]
    cases whole (moduleContent (ofDepth .all (Tokens.size tokens))) trees with
    | none => rfl
    | some u => rw [Option.map_some, Option.bind_some, hEnd]; rfl
  rw [readAll, whole, StateT.run, hRun]
  cases whole (moduleContent (ofDepth .all (Tokens.size tokens))) trees <;> rfl

/-- A file that is one module is read as one item, which is no function, or not at all. -/
theorem readAll_module_cases (hts : AreAttributes ts) {m : String}
    (hm : reservedWords.contains m = false) (trees : Tokens) :
    readAll fileItems (ts ++ moduleTokens m trees) = some [.other] ∨
      readAll fileItems (ts ++ moduleTokens m trees) = none := by
  obtain ⟨depth, -, hRead⟩ := readAll_module hts hm trees
  rw [hRead]
  cases whole (moduleContent (ofDepth .all depth)) trees with
  | none => exact .inr rfl
  | some u => exact .inl rfl

end CommandDispatch.Source
