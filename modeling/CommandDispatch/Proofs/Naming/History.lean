import Mathlib.Data.List.Induction
import Mathlib.Data.List.Nodup
import CommandDispatch.Naming.Request
import CommandDispatch.Proofs.Naming.Identifier

/-!
# What an allocator gives out over a whole run

An allocator is asked for words and told to keep words free, in any order and for any numbers that
are drawn. A word is taken once it was given out or was to be kept free, and no taken word is given
out. Several numbers stand for one word, so this is owed to the used words alone.

* `search_eq_none_iff`: a search gives up if and only if none of the words that it draws is free,
* `IsIssuable`: what every word is like that is given out,
* `Outcome`: what a request may come to when some words are taken,
* `outcome_answer`: what a request comes to, with the used words for the taken ones,
* `Outcome.mem_used_iff`: what it adds to the used words,
* `isTaken_history_iff`: the words taken in a run are the used ones at its end,
* `outcome_and_nodup_history`: what a request comes to after any others, and no word comes twice.
-/

open CommandDispatch.Source

namespace CommandDispatch.Naming

variable {σ : Type} [Source σ]

/-! ## Draws -/

/-- The source after some draws. -/
def Source.skip : Nat → σ → σ
  | 0, s => s
  | n + 1, s => Source.skip n (Source.draw s).2

/-- The number that is drawn after some others. -/
def Source.number (s : σ) (i : Nat) : Fin drawRange :=
  (Source.draw (Source.skip i s)).1

namespace Allocator

theorem search_eq_none_iff {used : Std.HashSet String} {exported : Bool} {attempts : Nat}
    {s rest : σ} :
    search used exported attempts s = (none, rest) ↔
      rest = Source.skip attempts s ∧
        ∀ i < attempts, isFree used (wordOf (Source.number s i) exported) = false := by
  induction attempts generalizing s with
  | zero =>
    constructor
    · intro h
      cases h
      exact ⟨rfl, fun i hi => absurd hi (Nat.not_lt_zero i)⟩
    · rintro ⟨rfl, -⟩
      rfl
  | succ attempts ih =>
    rw [search, Nat.forall_lt_succ_left']
    dsimp only
    change _ ↔ rest = Source.skip attempts (Source.draw s).2 ∧
      isFree used (wordOf (Source.draw s).1 exported) = false ∧
        ∀ i < attempts, isFree used (wordOf (Source.number (Source.draw s).2 i) exported) = false
    split
    · rename_i hFree
      simp [hFree]
    · rename_i hTaken
      rw [ih, Bool.eq_false_iff.mpr hTaken]
      simp

theorem next_eq_none {b c : Allocator σ} {exported : Bool} (h : b.next exported = (none, c)) :
    (∀ i < maxAttempts, isFree b.used (wordOf (Source.number b.source i) exported) = false) ∧
      c.source = Source.skip maxAttempts b.source ∧ c.used = b.used := by
  unfold next at h
  split at h
  · cases h
  · rename_i hSearch
    cases h
    obtain ⟨hSource, hNone⟩ := search_eq_none_iff.mp hSearch
    exact ⟨hNone, hSource, rfl⟩

end Allocator

/-! ## Words -/

/-- A word of letters `a` to `j`, at most five, that is made of a number and can stand for an
identifier. It begins with a capital letter if and only if it is exported. -/
structure IsIssuable (exported : Bool) (w : String) : Prop where
  letters : ∃ c rest, w.toList = c :: rest ∧ c.toLower ∈ wordLetters ∧ c.isUpper = exported ∧
    ∀ x ∈ rest, x ∈ wordLetters
  length_le : w.length ≤ 5
  notMem_keywords : w ∉ keywords
  isIdentifier : IsIdentifier w
  eq_wordOf : ∃ n : Fin drawRange, w = wordOf n exported

/-- Five hexadecimal digits are enough for every number that is drawn. -/
theorem length_wordOf_le (n : Fin drawRange) (exported : Bool) : (wordOf n exported).length ≤ 5 := by
  rw [wordOf_eq_ofList, String.length_ofList, List.length_modifyHead, lettersOf, List.length_map]
  exact (Nat.length_toDigits_le_iff (by decide) (by decide)).mpr (n.isLt.trans (by decide))

theorem exists_letters_wordOf (n : Nat) (exported : Bool) :
    ∃ c rest, (wordOf n exported).toList = c :: rest ∧ c.toLower ∈ wordLetters ∧
      c.isUpper = exported ∧ ∀ x ∈ rest, x ∈ wordLetters := by
  obtain ⟨c, hc, rest, hRest, hWord⟩ := exists_wordOf n exported
  obtain ⟨⟨-, hSmall, hLower⟩, -, hCapital, hUpper⟩ := of_mem_wordLetters hc
  refine ⟨_, rest, hWord, ?_, ?_, hRest⟩
  · cases exported
    · exact hLower.symm ▸ hc
    · exact hUpper.symm ▸ hc
  · cases exported
    · exact hSmall
    · exact hCapital

theorem Allocator.IsDrawn.isIssuable {used : Std.HashSet String} {exported : Bool} {w : String}
    (h : IsDrawn used exported w) : IsIssuable exported w where
  letters := by
    obtain ⟨n, rfl⟩ := h.eq_wordOf
    exact exists_letters_wordOf n exported
  length_le := by
    obtain ⟨n, rfl⟩ := h.eq_wordOf
    exact length_wordOf_le n exported
  notMem_keywords := h.notMem_keywords
  isIdentifier := h.isIdentifier
  eq_wordOf := h.eq_wordOf

/-! ## One request -/

/-- Whether the word that is asked for is an exported one. -/
def Request.exported? : Request → Option Bool
  | reserve _ => none
  | word exported => some exported
  | identifier exported => some exported

/-- The word that is given out. -/
def Answer.word? : Answer → Option String
  | issued word => some word
  | _ => none

/-- What a request to `b` may come to when some words are taken; `c` is what becomes of `b`. -/
inductive Outcome (taken : String → Prop) (b : Allocator σ) :
    Request → Answer → Allocator σ → Prop
  | reserved (word : String) : Outcome taken b (.reserve word) .reserved (b.reserve word)
  | issued {r : Request} {exported : Bool} {word : String} {c : Allocator σ}
      (asks : r.exported? = some exported) (issuable : IsIssuable exported word)
      (new : ¬ taken word) (used_eq : c.used = b.used.insert word) :
      Outcome taken b r (.issued word) c
  | exhausted {r : Request} {exported : Bool} {c : Allocator σ}
      (asks : r.exported? = some exported)
      (none_free : ∀ i < maxAttempts, wordOf (Source.number b.source i) exported ∈ keywords ∨
        taken (wordOf (Source.number b.source i) exported))
      (source_eq : c.source = Source.skip maxAttempts b.source) (used_eq : c.used = b.used) :
      Outcome taken b r .exhausted c

theorem Request.ne_reserve {r : Request} {exported : Bool} (asks : r.exported? = some exported)
    (w : String) : r ≠ .reserve w := by
  rintro rfl
  cases asks

/-- A request adds the word that it reserves or that is given out, and no other. -/
theorem Outcome.mem_used_iff {taken : String → Prop} {b c : Allocator σ} {r : Request}
    {given : Answer} (h : Outcome taken b r given c) {w : String} :
    w ∈ c.used ↔ w ∈ b.used ∨ r = .reserve w ∨ given = .issued w := by
  cases h with
  | reserved word => simp [Allocator.reserve, or_comm]
  | issued asks _ _ used_eq => simp [used_eq, Request.ne_reserve asks w, or_comm]
  | exhausted asks _ _ used_eq => simp [used_eq, Request.ne_reserve asks w]

namespace Allocator

theorem outcome_of_next {b : Allocator σ} {r : Request} {exported : Bool}
    (asks : r.exported? = some exported) :
    (∃ word c, b.next exported = (some word, c) ∧ Source.isWord word = true ∧
        Outcome (· ∈ b.used) b r (.issued word) c) ∨
      ∃ c, b.next exported = (none, c) ∧ Outcome (· ∈ b.used) b r .exhausted c := by
  rcases hNext : b.next exported with ⟨_ | word, c⟩
  · obtain ⟨hNone, hSource, hUsed⟩ := next_eq_none hNext
    refine .inr ⟨c, rfl, .exhausted asks (fun i hi => ?_) hSource hUsed⟩
    have hTaken := hNone i hi
    rw [Bool.eq_false_iff, Ne, isFree_iff] at hTaken
    tauto
  · obtain ⟨hDrawn, hUsed⟩ := next_eq_some hNext
    have hNew : word ∉ b.used := (isFree_iff.mp hDrawn.isFree).2
    refine .inl ⟨word, c, rfl, ?_, .issued asks hDrawn.isIssuable hNew hUsed⟩
    obtain ⟨n, rfl⟩ := hDrawn.eq_wordOf
    exact isWord_wordOf n exported

/-- A request for an identifier never fails for a word that is none. -/
theorem outcome_answer (b : Allocator σ) (r : Request) :
    Outcome (· ∈ b.used) b r (b.answer r).1 (b.answer r).2 := by
  cases r with
  | reserve word => exact .reserved word
  | word exported =>
    rw [answer]
    obtain ⟨word, c, hNext, -, hOutcome⟩ | ⟨c, hNext, hOutcome⟩ :=
      outcome_of_next (b := b) (r := .word exported) rfl
    all_goals
      rw [hNext]
      exact hOutcome
  | identifier exported =>
    rw [answer]
    obtain ⟨word, c, hNext, hWord, hOutcome⟩ | ⟨c, hNext, hOutcome⟩ :=
      outcome_of_next (b := b) (r := .identifier exported) rfl
    · rw [hNext]
      simp only [hWord, if_true]
      exact hOutcome
    · rw [hNext]
      exact hOutcome

/-! ## Runs -/

variable {a : Allocator σ} {requests : List Request} {w : String}

theorem history_append (a : Allocator σ) (requests others : List Request) :
    a.history (requests ++ others) = a.history requests ++ (a.after requests).history others := by
  induction requests generalizing a with
  | nil => rfl
  | cons r requests ih =>
    rw [List.cons_append, history, ih]
    rfl

/-- The word was used at the start, or was reserved or given out since. -/
def IsTaken (a : Allocator σ) (past : List (Request × Answer)) (w : String) : Prop :=
  w ∈ a.used ∨ ∃ event ∈ past, event.1 = .reserve w ∨ event.2 = .issued w

/-- The induction is on the requests: each takes the word that it adds to the used ones. -/
theorem isTaken_history_iff : IsTaken a (a.history requests) w ↔ w ∈ (a.after requests).used := by
  induction requests generalizing a with
  | nil => simp [IsTaken, history, after]
  | cons r requests ih =>
    change _ ↔ w ∈ ((a.answer r).2.after requests).used
    rw [← ih, IsTaken, IsTaken, (outcome_answer a r).mem_used_iff, history]
    simp [or_assoc]

/-- What a request comes to after others: an outcome for the words that were taken by them. -/
theorem outcome_after (a : Allocator σ) (requests : List Request) (r : Request) :
    Outcome (IsTaken a (a.history requests)) (a.after requests) r ((a.after requests).answer r).1
      ((a.after requests).answer r).2 := by
  have hTaken : IsTaken a (a.history requests) = (· ∈ (a.after requests).used) :=
    funext fun w => propext isTaken_history_iff
  rw [hTaken]
  exact outcome_answer (a.after requests) r

theorem isIssuable_of_mem_history {event : Request × Answer} (h : event ∈ a.history requests)
    (hWord : event.2.word? = some w) :
    ∃ exported, event.1.exported? = some exported ∧ IsIssuable exported w := by
  induction requests generalizing a with
  | nil => cases h
  | cons r requests ih =>
    rw [history] at h
    rcases List.mem_cons.mp h with rfl | h
    · have hOutcome := outcome_answer a r
      generalize (a.answer r).1 = given, (a.answer r).2 = c at hOutcome hWord
      cases hOutcome with
      | reserved => cases hWord
      | exhausted => cases hWord
      | issued asks issuable _ _ =>
        cases hWord
        exact ⟨_, asks, issuable⟩
    · exact ih h

/-- The words that were given out, in their order. -/
def issuedWords (events : List (Request × Answer)) : List String :=
  events.filterMap fun event => event.2.word?

omit [Source σ] in
theorem isTaken_of_mem_issuedWords {past : List (Request × Answer)} (h : w ∈ issuedWords past) :
    IsTaken a past w := by
  obtain ⟨⟨r, given⟩, hMem, hWord⟩ := List.mem_filterMap.mp h
  refine .inr ⟨_, hMem, .inr ?_⟩
  cases given <;> cases hWord
  rfl

/-- The induction is at the end of the requests: the last word is new to those before it. -/
theorem nodup_issuedWords_history (a : Allocator σ) (requests : List Request) :
    (issuedWords (a.history requests)).Nodup := by
  induction requests using List.reverseRecOn with
  | nil => exact List.nodup_nil
  | append_singleton requests r ih =>
    rw [history_append, issuedWords, List.filterMap_append]
    change (issuedWords (a.history requests) ++
      [(r, ((a.after requests).answer r).1)].filterMap fun event => event.2.word?).Nodup
    have hOutcome := outcome_after a requests r
    generalize ((a.after requests).answer r).1 = given,
      ((a.after requests).answer r).2 = c at hOutcome
    cases hOutcome with
    | reserved => simpa [Answer.word?] using ih
    | exhausted => simpa [Answer.word?] using ih
    | issued _ _ new _ =>
      refine List.nodup_append.mpr ⟨ih, List.nodup_singleton _, fun v hv w hw => ?_⟩
      obtain rfl := List.mem_singleton.mp hw
      rintro rfl
      exact new (isTaken_of_mem_issuedWords hv)

/-- In every run an allocator takes its words from the numbers that it draws, never a word that is
taken, and gives up only where none of many words in a row is free. So no word comes twice. -/
theorem outcome_and_nodup_history (a : Allocator σ) (requests : List Request) :
    (∀ r, a.history (requests ++ [r]) =
        a.history requests ++ [(r, ((a.after requests).answer r).1)] ∧
      Outcome (IsTaken a (a.history requests)) (a.after requests) r
        ((a.after requests).answer r).1 ((a.after requests).answer r).2) ∧
      (issuedWords (a.history requests)).Nodup :=
  ⟨fun r => ⟨history_append a requests [r], outcome_after a requests r⟩,
    nodup_issuedWords_history a requests⟩

end Allocator

end CommandDispatch.Naming
