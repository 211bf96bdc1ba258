import CommandDispatch.Source.File

/-!
# Runs of readers

A reader runs on tokens; a run of several readers is put together from theirs. What a reader finds
at a word that is not reserved does not depend on the word.

* `repeatWhile_apply`: parts after each other are read one by one,
* `separatedUntil_apply`, `commaList_apply`: items with commas between them are read as a list,
* `outerAttributes_apply`: attributes are read up to what they belong to.
-/

namespace CommandDispatch.Source.Parser

variable {α β : Type}

theorem bind_apply (p : Parser α) (f : α → Parser β) (ts : Tokens) :
    (p >>= f) ts = (p ts).bind fun x => f x.1 x.2 :=
  rfl

theorem pure_apply (a : α) (ts : Tokens) : (pure a : Parser α) ts = some (a, ts) :=
  rfl

theorem get_apply (ts : Tokens) : (get : Parser Tokens) ts = some (ts, ts) :=
  rfl

theorem ahead_apply (test : Tokens → Bool) (ts : Tokens) : ahead test ts = some (test ts, ts) :=
  rfl

theorem discard_apply (p : Parser α) (ts : Tokens) :
    discard p ts = (p ts).map fun x => ((), x.2) := by
  show (p ts).bind _ = _
  cases p ts <;> rfl

theorem inside_apply (d : Delimiter) {p : Parser α} {trees : Tokens} {a : α}
    (h : p trees = some (a, [])) (rest : Tokens) :
    inside d p (.group d trees :: rest) = some (a, rest) := by
  have hWhole : whole p trees = some a := by
    rw [whole, StateT.run, h]
  have hSame : (d == d) = true := by
    cases d <;> rfl
  rw [inside, bind_apply, get_apply, Option.bind_some]
  dsimp only
  rw [hSame, hWhole]
  rfl

/-! ## Words that are not reserved -/

/-- A word that is not reserved is none of the words that rules ask for. -/
theorem ne_of_not_reserved {w k : String} (h : reservedWords.contains w = false)
    (hk : reservedWords.contains k = true) : w ≠ k := by
  rintro rfl
  rw [h] at hk
  cases hk

theorem wordAhead_eq_false {w k : String} (h : reservedWords.contains w = false)
    (hk : reservedWords.contains k = true) (rest : Tokens) :
    wordAhead k (.word w :: rest) = false :=
  beq_false_of_ne (ne_of_not_reserved h hk)

theorem wordsAhead_eq_false {w : String} {ks : List String} (h : reservedWords.contains w = false)
    (hks : ks.all reservedWords.contains = true) (rest : Tokens) :
    wordsAhead ks (.word w :: rest) = false := by
  rw [wordsAhead, List.any_eq_false]
  intro k hk
  rw [wordAhead_eq_false h (List.all_eq_true.mp hks k hk)]
  exact Bool.false_ne_true

theorem literalAhead_eq_false {w : String} (h : reservedWords.contains w = false)
    (rest : Tokens) : literalAhead (.word w :: rest) = false :=
  wordsAhead_eq_false h (by decide) rest

theorem word?_eq_false {w k : String} (h : reservedWords.contains w = false)
    (hk : reservedWords.contains k = true) (rest : Tokens) :
    word? k (.word w :: rest) = some (false, .word w :: rest) := by
  simp only [word?, bind_apply, ahead_apply, Option.bind_some, wordAhead_eq_false h hk,
    Bool.false_eq_true, if_false, pure_apply]

theorem word_eq_none {w k : String} (h : reservedWords.contains w = false)
    (hk : reservedWords.contains k = true) (rest : Tokens) : word k (.word w :: rest) = none := by
  simp only [word, bind_apply, ahead_apply, Option.bind_some, wordAhead_eq_false h hk]
  rfl

theorem nameAhead_word {w : String} (h : reservedWords.contains w = false) (rest : Tokens) :
    nameAhead (.word w :: rest) = true := by
  rw [nameAhead, h]
  rfl

theorem name_word {w : String} (h : reservedWords.contains w = false) (rest : Tokens) :
    name (.word w :: rest) = some (w, rest) := by
  simp only [name, bind_apply, ahead_apply, Option.bind_some, nameAhead_word h]
  rfl

/-! ## Sequences -/

theorem repeatSteps_apply (going : Tokens → Bool) (p : Parser α) (steps : Nat) (ts : Tokens) :
    repeatSteps going p (steps + 1) ts =
      if going ts then
        (p ts).bind fun x => (repeatSteps going p steps x.2).bind fun y => some (x.1 :: y.1, y.2)
      else some ([], ts) := by
  have hTest : repeatSteps going p (steps + 1) ts =
      (if going ts then (do let a ← p; return a :: (← repeatSteps going p steps) : Parser (List α))
        else return []) ts := rfl
  rw [hTest]
  split <;> rfl

theorem separatedSteps_apply (done : Tokens → Bool) (separator : String) (p : Parser α)
    (steps : Nat) (ts : Tokens) :
    separatedSteps done separator p (steps + 1) ts =
      if done ts then some ([], ts)
      else (p ts).bind fun x =>
        if done x.2 then some ([x.1], x.2)
        else (mark separator x.2).bind fun y =>
          (separatedSteps done separator p steps y.2).bind fun z => some (x.1 :: z.1, z.2) := by
  have hTest : separatedSteps done separator p (steps + 1) ts =
      (if done ts then return [] else do
        let a ← p
        if done (← get) then return [a]
        mark separator
        return a :: (← separatedSteps done separator p steps) : Parser (List α)) ts := rfl
  rw [hTest]
  split
  · rfl
  · rw [bind_apply]
    congr 1
    funext x
    have hNext : (do
        if done (← get) then return [x.1]
        mark separator
        return x.1 :: (← separatedSteps done separator p steps) : Parser (List α)) x.2 =
        (if done x.2 then return [x.1] else do
          mark separator
          return x.1 :: (← separatedSteps done separator p steps) : Parser (List α)) x.2 := rfl
    rw [hNext]
    split <;> rfl

/-- Parts one after the other. -/
inductive Repeated (P : Tokens → Prop) : Tokens → Prop where
  | nil : Repeated P []
  | cons {us ts : Tokens} (h : P us) (hts : Repeated P ts) : Repeated P (us ++ ts)

theorem Repeated.imp {P Q : Tokens → Prop} {ts : Tokens} (h : Repeated P ts)
    (hPQ : ∀ us, P us → Q us) : Repeated Q ts := by
  induction h with
  | nil => exact .nil
  | cons h _ ih => exact .cons (hPQ _ h) ih

theorem Repeated.append {P : Tokens → Prop} {ts us : Tokens} (h : Repeated P ts)
    (h' : Repeated P us) : Repeated P (ts ++ us) := by
  induction h with
  | nil => exact h'
  | cons h _ ih =>
    rw [List.append_assoc]
    exact .cons h ih

theorem Repeated.singleton {P : Tokens → Prop} {ts : Tokens} (h : P ts) : Repeated P ts := by
  have hOne := Repeated.cons h .nil
  rwa [List.append_nil] at hOne

/-- The tokens are read as one of several parts, before whatever `F` allows. -/
structure IsStep (going : Tokens → Bool) (p : Parser α) (F : Tokens → Prop) (ts : Tokens) :
    Prop where
  ne_nil : ts ≠ []
  going_eq : ∀ rest, F rest → going (ts ++ rest) = true
  follows : ∀ rest, F rest → F (ts ++ rest)
  apply_eq : ∀ rest, F rest → ∃ a, p (ts ++ rest) = some (a, rest)

theorem Repeated.follows {going : Tokens → Bool} {p : Parser α} {F : Tokens → Prop}
    {ts rest : Tokens} (h : Repeated (IsStep going p F) ts) (hRest : F rest) : F (ts ++ rest) := by
  induction h with
  | nil => exact hRest
  | cons hFirst _ ih =>
    rw [List.append_assoc]
    exact hFirst.follows _ ih

/-- Parts that are read one by one are read after each other. -/
theorem repeatWhile_apply {going : Tokens → Bool} {p : Parser α} {F : Tokens → Prop}
    {ts : Tokens} (h : Repeated (IsStep going p F) ts) {rest : Tokens} (hRest : F rest)
    (hEnd : going rest = false) : ∃ as, repeatWhile going p (ts ++ rest) = some (as, rest) := by
  have hSteps : ∀ steps, ts.length < steps →
      ∃ as, repeatSteps going p steps (ts ++ rest) = some (as, rest) := by
    induction h with
    | nil =>
      intro steps hSteps
      obtain ⟨n, rfl⟩ := Nat.exists_eq_succ_of_ne_zero (Nat.ne_zero_of_lt hSteps)
      exact ⟨[], by rw [List.nil_append, repeatSteps_apply, hEnd]; rfl⟩
    | @cons us ts hFirst hOthers ih =>
      intro steps hSteps
      obtain ⟨n, rfl⟩ := Nat.exists_eq_succ_of_ne_zero (Nat.ne_zero_of_lt hSteps)
      have hFollows := hOthers.follows hRest
      have hPositive := List.length_pos_iff.mpr hFirst.ne_nil
      rw [List.length_append] at hSteps
      obtain ⟨a, ha⟩ := hFirst.apply_eq _ hFollows
      obtain ⟨as, hAll⟩ := ih n (by omega)
      refine ⟨a :: as, ?_⟩
      rw [List.append_assoc, repeatSteps_apply, if_pos (hFirst.going_eq _ hFollows), ha,
        Option.bind_some, hAll]
      rfl
  exact hSteps ((ts ++ rest).length + 1) (by rw [List.length_append]; omega)

theorem repeatWhile_of_going_eq_false {going : Tokens → Bool} (p : Parser α) {ts : Tokens}
    (h : going ts = false) : repeatWhile going p ts = some ([], ts) := by
  have hSame : repeatWhile going p ts = repeatSteps going p (ts.length + 1) ts := rfl
  rw [hSame, repeatSteps_apply, h, if_neg Bool.false_ne_true]

/-- The tokens end an item of a list: the end of the list follows, or a comma. -/
def EndsItem (done : Tokens → Bool) (ts : Tokens) : Prop :=
  done ts = true ∨ ∃ joint us, ts = .mark ',' joint :: us

/-- The tokens are read as one item of a list. -/
structure IsListItem (done : Tokens → Bool) (p : Parser α) (ts : Tokens) : Prop where
  done_eq : ∀ rest, done (ts ++ rest) = false
  apply_eq : ∀ rest, EndsItem done rest → ∃ a, p (ts ++ rest) = some (a, rest)

/-- Items with commas between them, and perhaps after the last one. -/
inductive Separated (P : Tokens → Prop) : Tokens → Prop where
  | nil : Separated P []
  | last {ts : Tokens} (h : P ts) : Separated P ts
  | cons {us ts : Tokens} (joint : Bool) (h : P us) (hts : Separated P ts) :
    Separated P (us ++ .mark ',' joint :: ts)

theorem Separated.imp {P Q : Tokens → Prop} {ts : Tokens} (h : Separated P ts)
    (hPQ : ∀ us, P us → Q us) : Separated Q ts := by
  induction h with
  | nil => exact .nil
  | last h => exact .last (hPQ _ h)
  | cons joint h _ ih => exact .cons joint (hPQ _ h) ih

/-- Items that are read one by one are read as a list. -/
theorem separatedUntil_apply {done : Tokens → Bool} {p : Parser α} {ts : Tokens}
    (h : Separated (IsListItem done p) ts) (rest : Tokens) (hDone : done rest = true)
    (hComma : ∀ joint us, done (.mark ',' joint :: us) = false) :
    ∃ as, separatedUntil done "," p (ts ++ rest) = some (as, rest) := by
  have hSteps : ∀ steps, ts.length < steps →
      ∃ as, separatedSteps done "," p steps (ts ++ rest) = some (as, rest) := by
    induction h with
    | nil =>
      intro steps hSteps
      obtain ⟨n, rfl⟩ := Nat.exists_eq_succ_of_ne_zero (Nat.ne_zero_of_lt hSteps)
      exact ⟨[], by rw [List.nil_append, separatedSteps_apply, hDone]; rfl⟩
    | @last ts hItem =>
      intro steps hSteps
      obtain ⟨n, rfl⟩ := Nat.exists_eq_succ_of_ne_zero (Nat.ne_zero_of_lt hSteps)
      obtain ⟨a, ha⟩ := hItem.apply_eq rest (.inl hDone)
      refine ⟨[a], ?_⟩
      rw [separatedSteps_apply, hItem.done_eq, if_neg Bool.false_ne_true, ha, Option.bind_some]
      dsimp only
      rw [hDone, if_pos rfl]
    | @cons us ts joint hItem _ ih =>
      intro steps hSteps
      obtain ⟨n, rfl⟩ := Nat.exists_eq_succ_of_ne_zero (Nat.ne_zero_of_lt hSteps)
      have hLength : ts.length < n := by
        rw [List.length_append, List.length_cons] at hSteps
        omega
      obtain ⟨a, ha⟩ := hItem.apply_eq (.mark ',' joint :: (ts ++ rest)) (.inr ⟨joint, _, rfl⟩)
      obtain ⟨as, hRest⟩ := ih n hLength
      have hMark : mark "," (.mark ',' joint :: (ts ++ rest)) = some ((), ts ++ rest) := rfl
      refine ⟨a :: as, ?_⟩
      rw [List.append_assoc, List.cons_append, separatedSteps_apply, hItem.done_eq,
        if_neg Bool.false_ne_true, ha, Option.bind_some]
      dsimp only
      rw [hComma, if_neg Bool.false_ne_true, hMark, Option.bind_some, hRest]
      rfl
  exact hSteps ((ts ++ rest).length + 1) (by rw [List.length_append]; omega)

theorem commaList_apply {p : Parser α} {ts : Tokens}
    (h : Separated (IsListItem List.isEmpty p) ts) : ∃ as, commaList p ts = some (as, []) := by
  obtain ⟨as, hAll⟩ := separatedUntil_apply h [] rfl fun _ _ => rfl
  rw [List.append_nil] at hAll
  exact ⟨as, hAll⟩

/-! ## Attributes -/

open Grammar

/-- The tokens of an attribute in front of what it belongs to. -/
def attributeTokens (joint : Bool) (inner : Tokens) : Tokens :=
  [.mark '#' joint, .group .bracket inner]

/-- The tokens are the inside of an attribute. -/
def IsAttributeText (inner : Tokens) : Prop :=
  ∀ g : Grammar, ∃ a, g.attributeText inner = some (a, [])

theorem isAttributeText_derive (trees : Tokens) :
    IsAttributeText [.word "derive", .group .parenthesis trees] :=
  fun _ => ⟨.other, rfl⟩

theorem isAttributeText_allow (trees : Tokens) :
    IsAttributeText [.word "allow", .group .parenthesis trees] :=
  fun _ => ⟨.other, rfl⟩

theorem isAttributeText_doc (joint : Bool) (value text : String) :
    IsAttributeText [.word "doc", .mark '=' joint, .literal (.string value) text] := by
  intro g
  cases joint <;> exact ⟨.doc value, rfl⟩

/-- The tokens are an attribute in front of what it belongs to. -/
def IsAttribute (ts : Tokens) : Prop :=
  ∃ joint inner, ts = attributeTokens joint inner ∧ IsAttributeText inner

/-- Attributes one after the other. -/
abbrev AreAttributes : Tokens → Prop :=
  Repeated IsAttribute

theorem areAttributes_cons (joint : Bool) {inner ts : Tokens} (h : IsAttributeText inner)
    (hts : AreAttributes ts) : AreAttributes (attributeTokens joint inner ++ ts) :=
  .cons ⟨joint, inner, rfl, h⟩ hts

/-- Attributes are read up to what they belong to. -/
theorem outerAttributes_apply {ts core : Tokens} (h : AreAttributes ts)
    (hCore : marksAhead "#" core = false) (g : Grammar) :
    ∃ attributes, g.outerAttributes (ts ++ core) = some (attributes, core) := by
  refine repeatWhile_apply (F := fun _ => True) (h.imp ?_) trivial hCore
  rintro us ⟨joint, inner, rfl, hInner⟩
  obtain ⟨a, ha⟩ := hInner g
  refine ⟨List.cons_ne_nil _ _, fun _ _ => rfl, fun _ _ => trivial, fun rest _ => ⟨a, ?_⟩⟩
  rw [← inside_apply .bracket ha rest]
  rfl

end CommandDispatch.Source.Parser
