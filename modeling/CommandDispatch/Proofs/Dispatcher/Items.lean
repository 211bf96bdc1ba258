import CommandDispatch.Proofs.Dispatcher.Expressions
import CommandDispatch.Proofs.Source.Items

/-!
# The items of a dispatcher

The items that a dispatcher consists of, as tokens. Each is read as an item, whatever its names are,
as long as they are not reserved, if the values and the bodies in it are read.
-/

namespace CommandDispatch.Dispatcher

open Source Source.Parser Source.Grammar

/-! ## The type of the commands -/

def enumTokens : Tokens :=
  [.word "pub", .word "enum", .word "Target"]

theorem isItem_enum {ts variants : Tokens} (hts : AreAttributes ts)
    (h : Separated IsVariant variants) :
    IsItem (ts ++ (enumTokens ++ [.group .brace variants])) := by
  refine isItem_append hts ⟨⟨_, _, rfl⟩, fun forms depth outer rest _ => ⟨.other, ?_⟩⟩
  let g := ofDepth forms depth
  obtain ⟨as, hAll⟩ := commaList_apply (h.imp fun us hus => hus.isListItem g)
  have hItem : itemAfter g outer (enumTokens ++ [.group .brace variants] ++ rest) =
      (discard (inside .brace (commaList g.variant)) (.group .brace variants :: rest)).bind
        fun x => some (.other, x.2) := rfl
  refine hItem.trans ?_
  rw [discard_apply, inside_apply .brace hAll]
  rfl

/-! ## The texts of the commands -/

def implTokens : Tokens :=
  [.word "impl", .word "Target"]

/-- A type of texts that are always there. -/
def staticTextTokens : Tokens :=
  [.mark '&' true, .mark '\'' true, .word "static", .word "str"]

theorem isType_staticTextTokens : IsType staticTextTokens :=
  isType_reference true (some "static") false (isType_word rfl)

/-- The head of a method that gives a text. -/
def methodTokens (name : String) : Tokens :=
  .word "pub" :: .word "const" :: .word "fn" :: .word name :: .group .parenthesis [.word "self"] ::
    .mark '-' true :: .mark '>' false :: staticTextTokens

theorem isMethod_text {name : String} (hName : reservedWords.contains name = false)
    {ts body : Tokens} (hts : AreAttributes ts) (hBody : IsBlockBody body) :
    IsMethod (ts ++ (methodTokens name ++ [.group .brace body])) :=
  isMethod_constant hName hts false isType_staticTextTokens hBody

/-- What is read of an implementation after its first type. -/
def implAfter (g : Grammar) (first : Ty) : Parser Unit := do
  if ← word? "for" then
    match first with
    | .path _ => pure ()
    | _ => g.unlaid
    discard <| g.type true
  discard g.whereClause
  g.associatedItems false

theorem associatedItems_apply {ts : Tokens} (h : Repeated IsMethod ts)
    (hInner : marksAhead "!" (ts.drop 1) = false) (forms : Forms) (depth : Nat)
    (hDepth : Tokens.size ts ≤ depth) (rest : Tokens) :
    (ofDepth forms depth).associatedItems false (.group .brace ts :: rest) = some ((), rest) := by
  let g := ofDepth forms depth
  have hSteps : Repeated (IsStep (!·.isEmpty) (g.associatedItem false) fun _ => True) ts :=
    h.sized.imp fun us ⟨hus, hSize⟩ => ⟨hus.ne_nil, fun rest _ => by simp [hus.ne_nil],
      fun _ _ => trivial, fun rest _ => ⟨(), hus.apply_eq forms depth rest (by omega)⟩⟩
  have hEnd : (!([] : Tokens).isEmpty) = false := rfl
  obtain ⟨items, hItems⟩ := repeatWhile_apply hSteps trivial hEnd
  rw [List.append_nil] at hItems
  have hNone : g.innerAttributes ts = some ([], ts) := by
    refine repeatWhile_of_going_eq_false _ ?_
    rw [hInner, Bool.and_false]
  have hAll : (do discard g.innerAttributes; discard <| all (g.associatedItem false) :
      Parser Unit) ts = some ((), []) := by
    simp only [bind_apply, discard_apply, hNone, Option.map_some, Option.bind_some, all, hItems]
  exact inside_apply .brace hAll rest

theorem isItem_impl {ts : Tokens} (h : Repeated IsMethod ts)
    (hInner : marksAhead "!" (ts.drop 1) = false) :
    IsItem (implTokens ++ [.group .brace ts]) := by
  refine IsBareItem.isItem ⟨⟨_, _, rfl⟩, fun forms depth outer rest hDepth => ⟨.other, ?_⟩⟩
  let g := ofDepth forms depth
  let after : Tokens := .group .brace ts :: rest
  simp only [implTokens, Tokens.size_append, Tokens.size, TokenTree.size] at hDepth
  have hSize : Tokens.size [.word "Target"] < depth := by
    simp only [Tokens.size, TokenTree.size]
    omega
  obtain ⟨t, ht⟩ := (isType_word (w := "Target") rfl).isPart true forms depth after hSize
    (.inr (.inr ⟨ts, rest, rfl⟩))
  have hItem : itemAfter g outer (implTokens ++ [.group .brace ts] ++ rest) =
      (g.implItem false (implTokens ++ after)).bind fun x => some (.other, x.2) := rfl
  have hImpl : g.implItem false (implTokens ++ after) =
      (g.type true (.word "Target" :: after)).bind fun x => implAfter g x.1 x.2 := rfl
  have hAfter : implAfter g t after = g.associatedItems false after := rfl
  have hType : g.type true (.word "Target" :: after) = some (t, after) := ht
  rw [hItem, hImpl, hType, Option.bind_some]
  dsimp only
  rw [hAfter, associatedItems_apply h hInner forms depth (by omega)]
  rfl

/-! ## Constants -/

/-- What is read of a constant after its type. -/
def constAfter (g : Grammar) : Parser Bool := do
  let hasValue ← g.value
  if ← g.whereClause then g.unlaid
  mark ";"
  return hasValue

/-- What is read of a static constant after its type. -/
def staticAfter (g : Grammar) : Parser Unit := do
  if !(← g.value) then g.unlaid
  mark ";"

theorem value_apply {ts : Tokens} (hts : IsExpression true ts) (joint joint' : Bool) (forms : Forms)
    (depth : Nat) (hDepth : Tokens.size ts < depth) (rest : Tokens) :
    (ofDepth forms depth).value (.mark '=' joint :: (ts ++ .mark ';' joint' :: rest)) =
      some (true, .mark ';' joint' :: rest) := by
  obtain ⟨kind, hRead⟩ := hts.apply (Nat.zero_le _) forms depth hDepth (.mark ';' joint' :: rest)
    (.inr (.inl ⟨joint', rest, .inr rfl⟩))
  have hEquals : mark? "=" (.mark '=' joint :: (ts ++ .mark ';' joint' :: rest)) =
      some (true, ts ++ .mark ';' joint' :: rest) := rfl
  simp only [value, bind_apply, hEquals, Option.bind_some, if_true, discard_apply, hRead,
    Option.map_some, pure_apply]

theorem isType_textTokens : IsType [.mark '&' false, .word "str"] :=
  isType_reference false none false (isType_word rfl)

def usageTokens : Tokens :=
  [.word "pub", .word "const", .word "USAGE", .mark ':' false, .mark '&' false, .word "str"]

theorem isItem_usage {value : Tokens} (h : IsExpression true value) (joint : Bool) :
    IsItem (usageTokens ++ .mark '=' false :: (value ++ [.mark ';' joint])) := by
  refine IsBareItem.isItem ⟨⟨_, _, rfl⟩, fun forms depth outer rest hDepth => ⟨.other, ?_⟩⟩
  let g := ofDepth forms depth
  simp only [usageTokens, Tokens.size_append, Tokens.size, TokenTree.size] at hDepth
  let after : Tokens := .mark '=' false :: (value ++ .mark ';' joint :: rest)
  have hSize : Tokens.size [.mark '&' false, .word "str"] < depth := by
    simp only [Tokens.size, TokenTree.size]
    omega
  obtain ⟨t, ht⟩ := isType_textTokens.isPart true forms depth after hSize
    (.inr (.inl ⟨false, _, .inr (.inr (.inr rfl))⟩))
  have hType : g.type true (.mark '&' false :: .word "str" :: after) = some (t, after) := ht
  have hTokens : usageTokens ++ .mark '=' false :: (value ++ [.mark ';' joint]) ++ rest =
      usageTokens ++ after := by simp [after]
  have hItem : itemAfter g outer (usageTokens ++ after) =
      ((g.constItem ((usageTokens ++ after).drop 1)).bind fun x =>
        (if !x.1 then g.unlaid else pure () : Parser Unit) x.2).bind fun x =>
          some (.other, x.2) := rfl
  have hConst : g.constItem ((usageTokens ++ after).drop 1) =
      (discard (g.type true) (.mark '&' false :: .word "str" :: after)).bind fun x =>
        constAfter g x.2 := rfl
  have hValue := value_apply h false joint forms depth (by omega) rest
  have hEnd : constAfter g after = some (true, rest) := by
    have hNoWhere : g.whereClause (.mark ';' joint :: rest) =
        some (false, .mark ';' joint :: rest) := rfl
    have hMark : mark ";" (.mark ';' joint :: rest) = some ((), rest) := rfl
    simp only [constAfter, bind_apply, after, g, hValue, Option.bind_some, hNoWhere,
      Bool.false_eq_true, if_false, hMark, pure_apply]
  rw [hTokens, hItem, hConst, discard_apply, hType, Option.map_some, Option.bind_some]
  dsimp only
  rw [hEnd]
  rfl

/-! ## The table of the commands -/

def tableTypeTokens : Tokens :=
  [.mark '&' false, .group .bracket
    [.group .parenthesis [.mark '&' false, .word "str", .mark ',' false, .word "Target"]]]

theorem isType_tableTypeTokens : IsType tableTypeTokens :=
  isType_reference false none false (isType_slice (isType_parenthesized
    (.cons false isType_textTokens (.last (isType_word rfl)))))

/-- The table of the commands before its rows. -/
def tableTokens : Tokens :=
  [.word "pub", .word "static", .word "COMMANDS", .mark ':' false] ++ tableTypeTokens

theorem isExpression_rows {rows : Tokens} (joint : Bool)
    (hRows : Separated (IsExpression true) rows) :
    IsExpression true [.mark '&' joint, .group .bracket rows] :=
  isExpression_of_operand (List.cons_ne_nil _ _) (((isCore_array hRows).isPlainOperand
    |>.isOperand_marked (isOperandMark_reference joint) fun _ _ => ⟨rfl, rfl⟩).imp
      fun _ => endsOperand_of_endsExpression)

theorem isItem_table {ts rows : Tokens} (hts : AreAttributes ts) (joint joint' : Bool)
    (hRows : Separated (IsExpression true) rows) :
    IsItem (ts ++ (tableTokens ++ [.mark '=' false, .mark '&' joint, .group .bracket rows,
      .mark ';' joint'])) := by
  refine isItem_append hts ⟨⟨_, _, rfl⟩, fun forms depth outer rest hDepth => ⟨.other, ?_⟩⟩
  let g := ofDepth forms depth
  let after : Tokens :=
    [.mark '=' false, .mark '&' joint, .group .bracket rows, .mark ';' joint'] ++ rest
  simp only [tableTokens, Tokens.size_append, Tokens.size, TokenTree.size] at hDepth
  obtain ⟨t, ht⟩ := isType_tableTypeTokens.isPart true forms depth after (by omega)
    (.inr (.inl ⟨false, _, .inr (.inr (.inr rfl))⟩))
  have hType : g.type true (tableTypeTokens ++ after) = some (t, after) := ht
  have hItem : itemAfter g outer (tableTokens ++ after) =
      ((discard (g.type true) (tableTypeTokens ++ after)).bind fun x =>
        staticAfter g x.2).bind fun x => some (.other, x.2) := rfl
  have hValue := value_apply (isExpression_rows joint hRows) false joint' forms depth
    (by simp only [Tokens.size, TokenTree.size]; omega) rest
  have hEnd : staticAfter g after = some ((), rest) := by
    have hMark : mark ";" (.mark ';' joint' :: rest) = some ((), rest) := rfl
    refine (bind_apply _ _ _).trans ?_
    rw [show g.value after = some (true, .mark ';' joint' :: rest) from hValue, Option.bind_some]
    exact hMark
  rw [List.append_assoc]
  refine hItem.trans ?_
  rw [discard_apply, hType, Option.map_some, Option.bind_some]
  dsimp only
  rw [hEnd]
  rfl

/-! ## Functions -/

/-- The search of a command by name. -/
def lookupTokens (w : String) : Tokens :=
  [.word "pub", .word "fn", .word "lookup",
    .group .parenthesis [.word w, .mark ':' false, .mark '&' false, .word "str"],
    .mark '-' true, .mark '>' false, .word "Option", .mark '<' false, .word "Target",
    .mark '>' false]

theorem isItem_lookup {ts body : Tokens} (hts : AreAttributes ts) {w : String}
    (hw : IsIdentifier w) (hBody : IsBlockBody body) :
    IsItem (ts ++ (lookupTokens w ++ [.group .brace body])) :=
  isItem_append hts (isBareItem_function "lookup" rfl hw.not_reserved areParameters_nil
    isType_textTokens (.inl rfl) false (isType_angled rfl false false
      (.last (isArgument_type (isType_word rfl)))) hBody)

/-- Nothing, or a comma. -/
def IsComma (ts : Tokens) : Prop :=
  ts = [] ∨ ∃ joint, ts = [.mark ',' joint]

def parametersTokens : Tokens :=
  [.mark '<' false, .word "S", .mark ':' false, .word "AsRef", .mark '<' false, .word "str",
    .mark '>' true, .mark '>' false]

theorem areParameters_parametersTokens : AreParameters parametersTokens := by
  intro forms depth inputs rest hDepth
  simp only [parametersTokens, Tokens.size, TokenTree.size] at hDepth
  obtain ⟨n, rfl⟩ : ∃ n, depth = n + 8 := ⟨depth - 8, by omega⟩
  exact ⟨true, rfl⟩

def startOutput : Tokens :=
  [.mark '-' true, .mark '>' false, .word "Result", .mark '<' false, .group .parenthesis [],
    .mark ',' false, .mark ':' true, .mark ':' false, .word "cligen_runtime", .mark ':' true,
    .mark ':' false, .word "DispatchError", .mark '>' false]

/-- The start of a command. A comma may follow the input. -/
def startTokens (w : String) (comma : Tokens) : Tokens :=
  [.word "pub", .word "fn", .word "start"] ++ parametersTokens ++ .group .parenthesis
    (.word w :: .mark ':' false :: .mark '&' false :: .group .bracket [.word "S"] :: comma) ::
      startOutput

theorem isItem_start {ts comma body : Tokens} (hts : AreAttributes ts) {w : String}
    (hw : IsIdentifier w) (hComma : IsComma comma) (hBody : IsBlockBody body) :
    IsItem (ts ++ (startTokens w comma ++ [.group .brace body])) := by
  have hInput : IsType [.mark '&' false, .group .bracket [.word "S"]] :=
    isType_reference false none false (isType_slice (isType_word rfl))
  have hError : IsType (wordsTokens ["cligen_runtime", "DispatchError"]) :=
    isType_path (isPath_wordsTokens (by decide)) rfl
  have hOutput := isType_angled (w := "Result") rfl false false
    (.cons false (isArgument_type (isType_parenthesized .nil)) (.last (isArgument_type hError)))
  exact isItem_append hts (isBareItem_function "start" rfl hw.not_reserved
    areParameters_parametersTokens hInput hComma false hOutput hBody)

end CommandDispatch.Dispatcher
