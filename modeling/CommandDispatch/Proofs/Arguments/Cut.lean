import Mathlib.Data.List.TakeWhile
import CommandDispatch.Arguments.Slice

/-!
# Cuts of a list of tokens

A cut divides a list of tokens into groups: flags first, then positionals. Here a cut is a value of
its own, from which both its tokens and its flags and positionals are read off.

* `Spelling` is a way to write a value: as it is, or as a literal between two quote marks, whose
  text may go on over several tokens,
* `FlagGroup` is a flag with the tokens of its value,
* `Cut.tokens` and `Cut.sliced` are the tokens of a cut and what they stand for,
* `Cut.eq_of_tokens_eq`: no list of tokens has two cuts. No group is the beginning of another one
  (`Spelling.eq_of_tokens_append_eq`, `FlagGroup.eq_of_tokens_append_eq`), and flags and positionals
  are told apart by their first characters.
-/

namespace CommandDispatch.Arguments

open Text

/-! ## Literals and spellings -/

/-- A text between two quote marks, divided at the ends of tokens. Only the last token holds the
closing mark, at its end. -/
structure Literal where
  mark : Char
  isQuoteMark_mark : isQuoteMark mark = true
  /-- The pieces before the last one. -/
  init : List (List Char)
  /-- The last piece, without the closing mark. -/
  last : List Char
  mark_notMem_init : ∀ piece ∈ init, mark ∉ piece
  mark_notMem_last : mark ∉ last

namespace Literal

/-- What the tokens hold after the opening mark. -/
def pieces (l : Literal) : List (List Char) :=
  l.init ++ [l.last ++ [l.mark]]

/-- The text: the pieces with single spaces between them. -/
def value (l : Literal) : List Char :=
  [' '].intercalate (l.init ++ [l.last])

theorem pieces_ne_nil (l : Literal) : l.pieces ≠ [] := by
  simp [pieces]

/-- The first piece that holds the mark ends a literal. -/
theorem eq_of_pieces_append_eq {l m : Literal} {r s : List (List Char)} (hMark : l.mark = m.mark)
    (h : l.pieces ++ r = m.pieces ++ s) : l = m ∧ r = s := by
  obtain ⟨mark, _, init, last, hInit, hLast⟩ := l
  obtain ⟨mark', _, init', last', hInit', hLast'⟩ := m
  obtain rfl : mark = mark' := hMark
  simp only [pieces, List.append_assoc, List.singleton_append] at h
  suffices init = init' ∧ last = last' ∧ r = s by
    obtain ⟨rfl, rfl, rfl⟩ := this
    exact ⟨rfl, rfl⟩
  induction init generalizing init' with
  | nil =>
    cases init' with
    | nil =>
      simp only [List.nil_append, List.cons.injEq, List.append_cancel_right_eq] at h
      exact ⟨rfl, h.1, h.2⟩
    | cons a init' =>
      simp only [List.nil_append, List.cons_append, List.cons.injEq] at h
      exact absurd (h.1 ▸ by simp) (hInit' a (by simp))
  | cons a init ih =>
    cases init' with
    | nil =>
      simp only [List.nil_append, List.cons_append, List.cons.injEq] at h
      exact absurd (h.1 ▸ by simp) (hInit a (by simp))
    | cons b init' =>
      simp only [List.cons_append, List.cons.injEq] at h
      obtain ⟨hInits, hRest⟩ := ih (fun p hp => hInit p (by simp [hp])) init'
        (fun p hp => hInit' p (by simp [hp])) h.2
      exact ⟨by rw [h.1, hInits], hRest⟩

end Literal

/-- A quote mark is none of the other characters. -/
theorem ne_of_isQuoteMark {mark c : Char} (hMark : isQuoteMark mark = true)
    (hc : isQuoteMark c = false) : mark ≠ c := by
  rintro rfl
  rw [hMark] at hc
  cases hc

/-- The text begins with a quote mark. -/
def StartsQuoted (s : List Char) : Prop :=
  ∃ c ∈ s.head?, isQuoteMark c = true

instance (s : List Char) : Decidable (StartsQuoted s) :=
  decidable_of_iff (s.head?.any isQuoteMark = true) (Option.any_eq_true _ _)

/-- A way to write a value. -/
inductive Spelling where
  /-- The text is the value. -/
  | plain (text : List Char) (h : ¬ StartsQuoted text)
  | quoted (l : Literal)

namespace Spelling

/-- What the first token holds of it. -/
def opening : Spelling → List Char
  | plain text _ => text
  | quoted l => l.mark :: l.pieces.head l.pieces_ne_nil

def following : Spelling → List (List Char)
  | plain _ _ => []
  | quoted l => l.pieces.tail

/-- What is written. -/
def value : Spelling → List Char
  | plain text _ => text
  | quoted l => l.value

def tokens (s : Spelling) : List String :=
  String.ofList s.opening :: s.following.map String.ofList

/-- The value of a flag that is given none. -/
def implied : Spelling :=
  plain impliedValue.toList (by decide)

theorem eq_implied_of_opening_eq {s : Spelling} (h : s.opening = impliedValue.toList) :
    s = implied := by
  cases s with
  | plain text hText =>
    simp only [opening] at h
    subst h
    rfl
  | quoted l =>
    have hMark : l.mark = 't' := by
      simpa [opening, impliedValue] using congrArg List.head? h
    exact absurd hMark (ne_of_isQuoteMark l.isQuoteMark_mark (by decide))

/-- A spelling is the beginning of no other one. -/
theorem eq_of_following_append_eq {s t : Spelling} {r u : List (List Char)}
    (hOpening : s.opening = t.opening) (h : s.following ++ r = t.following ++ u) :
    s = t ∧ r = u := by
  cases s with
  | plain text hText =>
    cases t with
    | plain text' hText' =>
      simp only [opening, following, List.nil_append] at hOpening h
      subst hOpening
      exact ⟨rfl, h⟩
    | quoted m =>
      simp only [opening] at hOpening
      subst hOpening
      exact absurd ⟨m.mark, rfl, m.isQuoteMark_mark⟩ hText
  | quoted l =>
    cases t with
    | plain text' hText' =>
      simp only [opening] at hOpening
      subst hOpening
      exact absurd ⟨l.mark, rfl, l.isQuoteMark_mark⟩ hText'
    | quoted m =>
      simp only [opening, following, List.cons.injEq] at hOpening h
      have hPieces : l.pieces ++ r = m.pieces ++ u := by
        rw [← List.cons_head_tail l.pieces_ne_nil, ← List.cons_head_tail m.pieces_ne_nil,
          hOpening.2, List.cons_append, h, List.cons_append]
      obtain ⟨rfl, rfl⟩ := Literal.eq_of_pieces_append_eq hOpening.1 hPieces
      exact ⟨rfl, rfl⟩

theorem eq_of_map_following_append_eq {s t : Spelling} {r u : List String}
    (hOpening : s.opening = t.opening)
    (h : s.following.map String.ofList ++ r = t.following.map String.ofList ++ u) :
    s = t ∧ r = u := by
  have hChars := congrArg (List.map String.toList) h
  simp only [List.map_append, List.map_map, Function.comp_def, String.toList_ofList,
    List.map_id'] at hChars
  obtain ⟨rfl, -⟩ := eq_of_following_append_eq hOpening hChars
  exact ⟨rfl, List.append_cancel_left h⟩

theorem eq_of_tokens_append_eq {s t : Spelling} {r u : List String}
    (h : s.tokens ++ r = t.tokens ++ u) : s = t ∧ r = u := by
  simp only [tokens, List.cons_append, List.cons.injEq, String.ofList_inj] at h
  obtain ⟨hOpening, hFollowing⟩ := h
  exact eq_of_map_following_append_eq hOpening hFollowing

/-- No list of tokens is divided into spellings in two ways. -/
theorem eq_of_flatMap_tokens_eq {ss ts : List Spelling}
    (h : ss.flatMap tokens = ts.flatMap tokens) : ss = ts := by
  induction ss generalizing ts with
  | nil =>
    cases ts with
    | nil => rfl
    | cons t ts => simp [tokens] at h
  | cons s ss ih =>
    cases ts with
    | nil => simp [tokens] at h
    | cons t ts =>
      obtain ⟨rfl, hRest⟩ := eq_of_tokens_append_eq (by simpa only [List.flatMap_cons] using h)
      rw [ih hRest]

end Spelling

/-! ## Flags -/

/-- What is written after the hyphens of a flag. -/
def bodyOf (key : List Char) : Option (List Char) → List Char
  | none => key
  | some text => key ++ '=' :: text

theorem head?_bodyOf {key : List Char} (hKey : key ≠ []) (text : Option (List Char)) :
    (bodyOf key text).head? = key.head? := by
  obtain ⟨c, rest, rfl⟩ := List.exists_cons_of_ne_nil hKey
  cases text <;> rfl

/-- Every text is a body, cut at its first equals sign. -/
theorem exists_bodyOf (body : List Char) :
    ∃ key text, '=' ∉ key ∧ bodyOf key text = body := by
  have hBody := List.takeWhile_append_dropWhile (p := (· != '=')) (l := body)
  have hKey : '=' ∉ body.takeWhile (· != '=') := fun hMem => by
    simpa using List.mem_takeWhile_imp hMem
  cases hDrop : body.dropWhile (· != '=') with
  | nil =>
    rw [hDrop, List.append_nil] at hBody
    exact ⟨_, none, hKey, hBody⟩
  | cons c text =>
    have hc : c = '=' := by
      have := List.head_dropWhile_not (· != '=') (l := body) (by simp [hDrop])
      simpa [hDrop] using this
    rw [hDrop, hc] at hBody
    exact ⟨_, some text, hKey, hBody⟩

/-- What comes of a body: a second equals sign is refused before an empty name is. -/
theorem Progress.splitBody_bodyOf {key : List Char} (hKey : '=' ∉ key)
    (text : Option (List Char)) :
    splitBody (bodyOf key text) =
      if ∃ t ∈ text, '=' ∈ t then .error (.invalidFlagFormat (String.ofList (bodyOf key text)))
      else if key = [] then .error .emptyFlagName
      else .ok (key, text) := by
  have hAll : ∀ c ∈ key, (c != '=') = true := fun c hc => by
    simpa using fun he : c = '=' => hKey (he ▸ hc)
  unfold splitBody
  cases text with
  | none =>
    dsimp only [bodyOf]
    rw [List.takeWhile_eq_self_iff.mpr hAll, List.dropWhile_eq_nil_iff.mpr hAll]
    simp
  | some text =>
    dsimp only [bodyOf]
    rw [List.takeWhile_append_of_pos hAll, List.dropWhile_append_of_pos hAll]
    simp

theorem Progress.splitBody_eq_ok_iff {body key : List Char} {text : Option (List Char)} :
    splitBody body = .ok (key, text) ↔
      key ≠ [] ∧ '=' ∉ key ∧ (∀ t ∈ text, '=' ∉ t) ∧ bodyOf key text = body := by
  constructor
  · intro h
    obtain ⟨key', text', hKey, rfl⟩ := exists_bodyOf body
    rw [splitBody_bodyOf hKey] at h
    split at h
    · cases h
    · rename_i hText
      split at h
      · cases h
      · rename_i hNe
        cases h
        exact ⟨hNe, hKey, fun t ht hMem => hText ⟨t, ht, hMem⟩, rfl⟩
  · rintro ⟨hNe, hKey, hText, rfl⟩
    rw [splitBody_bodyOf hKey, if_neg (fun ⟨t, ht, hMem⟩ => hText t ht hMem), if_neg hNe]

/-- A flag: its name, and how its value is written if it is given one. -/
@[ext]
structure FlagGroup where
  isLong : Bool
  key : List Char
  given : Option Spelling
  key_ne_nil : key ≠ []
  equals_notMem_key : '=' ∉ key
  /-- The hyphens before the name are all hyphens of the flag. -/
  head?_key_ne : key.head? ≠ some '-'
  /-- No second equals sign is in the first token. -/
  equals_notMem_opening : ∀ s ∈ given, '=' ∉ s.opening

namespace FlagGroup

/-- What is written after the hyphens, in the first token. -/
def body (g : FlagGroup) : List Char :=
  bodyOf g.key (g.given.map Spelling.opening)

/-- The first token. -/
def token (g : FlagGroup) : List Char :=
  List.replicate (if g.isLong then 2 else 1) '-' ++ g.body

/-- How its value is written, or would be. -/
def spelling (g : FlagGroup) : Spelling :=
  g.given.getD .implied

/-- The tokens of a flag. -/
def tokens (g : FlagGroup) : List String :=
  String.ofList g.token :: g.spelling.following.map String.ofList

/-- What a flag sets, in order. Each character of a short flag is set for itself, and the last one
takes the value. -/
def settings (g : FlagGroup) : List (String × String) :=
  let value := String.ofList g.spelling.value
  if g.isLong then [(String.ofList (lowerChars g.key), value)]
  else
    g.key.dropLast.map (fun c => (String.ofList (lowerChar c), impliedValue)) ++
      [(String.ofList (lowerChar (g.key.getLast g.key_ne_nil)), value)]

theorem splitBody_body (g : FlagGroup) :
    Progress.splitBody g.body = .ok (g.key, g.given.map Spelling.opening) :=
  Progress.splitBody_eq_ok_iff.mpr
    ⟨g.key_ne_nil, g.equals_notMem_key, by simpa using g.equals_notMem_opening, rfl⟩

theorem head?_body_ne (g : FlagGroup) : g.body.head? ≠ some '-' :=
  head?_bodyOf g.key_ne_nil _ ▸ g.head?_key_ne

theorem isLong_eq_of_token_eq {g f : FlagGroup} (h : g.token = f.token) :
    g.isLong = f.isLong ∧ g.body = f.body := by
  have hg := g.head?_body_ne
  have hf := f.head?_body_ne
  unfold token at h
  cases hgLong : g.isLong <;> cases hfLong : f.isLong <;>
    simp only [hgLong, hfLong, if_true, if_false, Bool.false_eq_true, List.replicate,
      List.cons_append, List.nil_append, List.cons.injEq, true_and] at h
  · exact ⟨rfl, h⟩
  · exact absurd (by rw [h]; rfl) hg
  · exact absurd (by rw [← h]; rfl) hf
  · exact ⟨rfl, h⟩

theorem opening_spelling (g : FlagGroup) :
    g.spelling.opening = (g.given.map Spelling.opening).getD impliedValue.toList := by
  unfold spelling
  cases g.given <;> rfl

/-- The first token shows whether a value is given, and its spelling which one it is. -/
theorem given_eq {g f : FlagGroup}
    (hOpening : g.given.map Spelling.opening = f.given.map Spelling.opening)
    (hSpelling : g.spelling = f.spelling) : g.given = f.given := by
  cases hg : g.given with
  | none =>
    rw [hg, Option.map_none] at hOpening
    exact (Option.map_eq_none_iff.mp hOpening.symm).symm
  | some s =>
    rw [hg, Option.map_some] at hOpening
    obtain ⟨t, hf, -⟩ := Option.map_eq_some_iff.mp hOpening.symm
    rw [spelling, spelling, hg, hf] at hSpelling
    rw [hf]
    exact congrArg some hSpelling

/-- A flag is the beginning of no other one. -/
theorem eq_of_tokens_append_eq {g f : FlagGroup} {r u : List String}
    (h : g.tokens ++ r = f.tokens ++ u) : g = f ∧ r = u := by
  simp only [tokens, List.cons_append, List.cons.injEq, String.ofList_inj] at h
  obtain ⟨hToken, hFollowing⟩ := h
  obtain ⟨hLong, hBody⟩ := isLong_eq_of_token_eq hToken
  have hSplit := g.splitBody_body
  rw [hBody, f.splitBody_body, Except.ok.injEq, Prod.mk.injEq] at hSplit
  obtain ⟨hKey, hGiven⟩ := hSplit
  have hOpening : g.spelling.opening = f.spelling.opening := by
    rw [opening_spelling, opening_spelling, hGiven]
  obtain ⟨hSpelling, hRest⟩ := Spelling.eq_of_map_following_append_eq hOpening hFollowing
  exact ⟨FlagGroup.ext hLong hKey.symm (given_eq hGiven.symm hSpelling), hRest⟩

end FlagGroup

/-! ## Cuts -/

/-- A list of tokens divided into flags and positionals. The first positional does not begin with a
hyphen. -/
structure Cut where
  flags : List FlagGroup
  positionals : List Spelling
  head?_opening_ne : ∀ s ∈ positionals.head?, s.opening.head? ≠ some '-'

def FlagMap.setAll (m : FlagMap) (settings : List (String × String)) : FlagMap :=
  settings.foldl (fun m s => m.insert s.1 s.2) m

/-- The last setting of a name holds. -/
theorem FlagMap.getElem?_setAll (m : FlagMap) (settings : List (String × String)) (key : String) :
    (m.setAll settings)[key]? = (settings.reverse.lookup key).or m[key]? := by
  induction settings generalizing m with
  | nil => rfl
  | cons s settings ih =>
    obtain ⟨name, value⟩ := s
    have hStep : m.setAll ((name, value) :: settings) =
        FlagMap.setAll (m.insert name value) settings := rfl
    rw [hStep, ih, Std.ExtTreeMap.getElem?_insert, List.reverse_cons, List.lookup_append,
      Option.or_assoc]
    by_cases hKey : name = key
    · subst hKey
      simp
    · have hNe : (key == name) = false := beq_false_of_ne fun h => hKey h.symm
      simp [List.lookup_cons, hKey, hNe]

namespace Cut

/-- The tokens. -/
def tokens (c : Cut) : List String :=
  c.flags.flatMap FlagGroup.tokens ++ c.positionals.flatMap Spelling.tokens

/-- What the flags set, in order. -/
def settings (c : Cut) : List (String × String) :=
  c.flags.flatMap FlagGroup.settings

/-- The flags and the positionals. A later setting replaces an earlier one of the same name. -/
def sliced (c : Cut) : Sliced where
  flags := FlagMap.setAll ∅ c.settings
  positionals := c.positionals.map fun s => String.ofList s.value

/-- The first token of a flag is no first token of a positional. -/
theorem flagTokens_ne_positionalTokens {g : FlagGroup} {r : List String} {ss : List Spelling}
    (hHead : ∀ s ∈ ss.head?, s.opening.head? ≠ some '-') :
    g.tokens ++ r ≠ ss.flatMap Spelling.tokens := by
  intro h
  cases ss with
  | nil => simp [FlagGroup.tokens] at h
  | cons s ss =>
    simp only [FlagGroup.tokens, Spelling.tokens, List.flatMap_cons, List.cons_append,
      List.cons.injEq, String.ofList_inj] at h
    apply hHead s rfl
    rw [← h.1, FlagGroup.token]
    cases g.isLong <;> rfl

theorem eq_of_tokens_eq {c d : Cut} (h : c.tokens = d.tokens) : c = d := by
  obtain ⟨flags, positionals, hHead⟩ := c
  obtain ⟨flags', positionals', hHead'⟩ := d
  simp only [tokens] at h
  suffices flags = flags' ∧ positionals = positionals' by
    obtain ⟨rfl, rfl⟩ := this
    rfl
  induction flags generalizing flags' with
  | nil =>
    cases flags' with
    | nil => exact ⟨rfl, Spelling.eq_of_flatMap_tokens_eq (by simpa using h)⟩
    | cons g flags' =>
      exact absurd (by simpa using h.symm) (flagTokens_ne_positionalTokens hHead (g := g))
  | cons g flags ih =>
    cases flags' with
    | nil => exact absurd (by simpa using h) (flagTokens_ne_positionalTokens hHead' (g := g))
    | cons f flags' =>
      simp only [List.flatMap_cons, List.append_assoc] at h
      obtain ⟨rfl, hRest⟩ := FlagGroup.eq_of_tokens_append_eq h
      obtain ⟨rfl, hPositionals⟩ := ih flags' hRest
      exact ⟨rfl, hPositionals⟩

end Cut

end CommandDispatch.Arguments
