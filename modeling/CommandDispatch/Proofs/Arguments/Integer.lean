import Mathlib.Data.List.Induction
import Mathlib.Tactic.Ring
import CommandDispatch.Arguments.Value

/-!
# Integers as arguments

A text stands for an integer if it is digits after an optional sign, with the value that decimal
notation gives them. Reading accepts these texts and no others, and of them the ones whose value
fits into a word of 64 bits. It makes no difference whether the value is computed first and compared
with the bounds afterwards, or is kept within them at every digit.

* `AreDigitsOf`, `WritesInteger`, `WritesNatural`: decimal notation,
* `readInteger_eq_some_iff`, `readNatural_eq_some_iff`: the readers without bounds,
* `foldlM_pushDigit_eq_some_iff`: what comes of a number that is kept within bounds digit by digit,
* `convertsExactly_integer`: the conversion of arguments.
-/

namespace CommandDispatch.Number

/-! ## Decimal notation -/

/-- One or more digits of a number. Each counts ten to the power of the number of digits after
it. -/
inductive AreDigitsOf : List Char → Nat → Prop
  | last {d : Nat} (lt : d < 10) : AreDigitsOf [Nat.digitChar d] d
  | more {d n : Nat} {ds : List Char} (lt : d < 10) (rest : AreDigitsOf ds n) :
      AreDigitsOf (Nat.digitChar d :: ds) (d * 10 ^ ds.length + n)

/-- The texts of a number without a minus sign. -/
inductive WritesNatural : List Char → Nat → Prop
  | unsigned {ds : List Char} {n : Nat} (h : AreDigitsOf ds n) : WritesNatural ds n
  | plus {ds : List Char} {n : Nat} (h : AreDigitsOf ds n) : WritesNatural ('+' :: ds) n

/-- The texts of an integer. -/
inductive WritesInteger : List Char → Int → Prop
  | natural {s : List Char} {n : Nat} (h : WritesNatural s n) : WritesInteger s n
  | minus {ds : List Char} {n : Nat} (h : AreDigitsOf ds n) : WritesInteger ('-' :: ds) (-n)

variable {s ds : List Char} {c : Char} {n : Nat} {v : Int}

theorem exists_digitChar (h : c.isDigit = true) : ∃ d < 10, c = Nat.digitChar d := by
  have hBounds := Char.isDigit_iff_toNat.mp h
  have hAll : ∀ k < 58, 48 ≤ k → ∃ d < 10, Char.ofNat k = Nat.digitChar d := by decide
  obtain ⟨d, hd, hChar⟩ := hAll c.toNat (Nat.lt_succ_of_le hBounds.2) hBounds.1
  exact ⟨d, hd, (Char.ofNat_toNat c).symm.trans hChar⟩

theorem digitValue_digitChar {d : Nat} (h : d < 10) : digitValue (Nat.digitChar d) = d :=
  Nat.toNat_digitChar_sub_48_of_lt_ten h

theorem valueOfDigits_eq_ofDigitChars (ds : List Char) :
    valueOfDigits ds = Nat.ofDigitChars 10 ds 0 := rfl

theorem valueOfDigits_cons (c : Char) (ds : List Char) :
    valueOfDigits (c :: ds) = digitValue c * 10 ^ ds.length + valueOfDigits ds := by
  have hValue : valueOfDigits (c :: ds) = Nat.ofDigitChars 10 ds (10 * 0 + digitValue c) := rfl
  rw [hValue, Nat.ofDigitChars_eq_ofDigitChars_zero, ← valueOfDigits_eq_ofDigitChars]
  ring

theorem valueOfDigits_singleton (c : Char) : valueOfDigits [c] = digitValue c :=
  Nat.zero_add _

theorem AreDigitsOf.all_isDigit (h : AreDigitsOf ds n) : ∀ c ∈ ds, c.isDigit = true := by
  induction h with
  | last lt => simpa using lt
  | more lt _ ih => exact List.forall_mem_cons.mpr ⟨by simpa using lt, ih⟩

theorem AreDigitsOf.ne_nil (h : AreDigitsOf ds n) : ds ≠ [] := by
  cases h <;> exact List.cons_ne_nil _ _

theorem AreDigitsOf.valueOfDigits_eq (h : AreDigitsOf ds n) : valueOfDigits ds = n := by
  induction h with
  | last lt => rw [valueOfDigits_singleton, digitValue_digitChar lt]
  | more lt _ ih => rw [valueOfDigits_cons, digitValue_digitChar lt, ih]

theorem areDigitsOf_valueOfDigits (hNe : ds ≠ []) (hDigits : ∀ c ∈ ds, c.isDigit = true) :
    AreDigitsOf ds (valueOfDigits ds) := by
  induction ds with
  | nil => exact absurd rfl hNe
  | cons c ds ih =>
    obtain ⟨hc, hRest⟩ := List.forall_mem_cons.mp hDigits
    obtain ⟨d, hd, rfl⟩ := exists_digitChar hc
    cases ds with
    | nil =>
      rw [valueOfDigits_singleton, digitValue_digitChar hd]
      exact .last hd
    | cons c' ds =>
      rw [valueOfDigits_cons, digitValue_digitChar hd]
      exact .more hd (ih (List.cons_ne_nil c' ds) hRest)

theorem AreDigitsOf.not_sign (h : AreDigitsOf (c :: ds) n) : c ≠ '+' ∧ c ≠ '-' := by
  have hc := h.all_isDigit c List.mem_cons_self
  constructor <;> rintro rfl <;> cases hc

theorem writesNatural_plus_iff : WritesNatural ('+' :: ds) n ↔ AreDigitsOf ds n := by
  refine ⟨fun h => ?_, .plus⟩
  cases h with
  | unsigned h => exact absurd rfl h.not_sign.1
  | plus h => exact h

theorem writesNatural_iff_of_ne (hPlus : ∀ ds, s ≠ '+' :: ds) :
    WritesNatural s n ↔ AreDigitsOf s n := by
  refine ⟨fun h => ?_, .unsigned⟩
  cases h with
  | unsigned h => exact h
  | plus _ => exact absurd rfl (hPlus _)

theorem not_writesNatural_minus : ¬ WritesNatural ('-' :: ds) n := by
  rw [writesNatural_iff_of_ne (by simp)]
  exact fun h => h.not_sign.2 rfl

theorem writesInteger_minus_iff :
    WritesInteger ('-' :: ds) v ↔ ∃ n : Nat, AreDigitsOf ds n ∧ v = -n := by
  constructor
  · intro h
    cases h with
    | natural h => exact absurd h not_writesNatural_minus
    | minus h => exact ⟨_, h, rfl⟩
  · rintro ⟨n, h, rfl⟩
    exact .minus h

theorem writesInteger_iff_of_ne (hMinus : ∀ ds, s ≠ '-' :: ds) :
    WritesInteger s v ↔ ∃ n : Nat, WritesNatural s n ∧ v = n := by
  constructor
  · intro h
    cases h with
    | natural h => exact ⟨_, h, rfl⟩
    | minus _ => exact absurd rfl (hMinus _)
  · rintro ⟨n, h, rfl⟩
    exact .natural h

/-! ## Readers without bounds -/

theorem readDigits_eq_some_iff : readDigits s = some n ↔ AreDigitsOf s n := by
  have hRead : readDigits s = some n ↔
      s ≠ [] ∧ (∀ c ∈ s, c.isDigit = true) ∧ valueOfDigits s = n := by
    simp [readDigits, and_assoc]
  rw [hRead]
  constructor
  · rintro ⟨hNe, hDigits, rfl⟩
    exact areDigitsOf_valueOfDigits hNe hDigits
  · exact fun h => ⟨h.ne_nil, h.all_isDigit, h.valueOfDigits_eq⟩

theorem readNatural_eq_some_iff : readNatural s = some n ↔ WritesNatural s n := by
  unfold readNatural
  split
  · rw [readDigits_eq_some_iff, writesNatural_plus_iff]
  · rename_i hPlus
    rw [readDigits_eq_some_iff, writesNatural_iff_of_ne hPlus]

theorem map_readDigits_eq_some_iff {f : Int → Int} :
    (readDigits ds >>= fun n => pure (n : Int)).map f = some v ↔
      ∃ n : Nat, AreDigitsOf ds n ∧ v = f n := by
  cases hRead : readDigits ds with
  | none => simp [← readDigits_eq_some_iff, hRead]
  | some n => simp [← readDigits_eq_some_iff, hRead, eq_comm]

theorem readInteger_eq_some_iff : readInteger s = some v ↔ WritesInteger s v := by
  unfold readInteger
  split
  · exact map_readDigits_eq_some_iff.trans writesInteger_minus_iff.symm
  · rw [writesInteger_iff_of_ne (by simp)]
    simp only [writesNatural_plus_iff]
    exact map_readDigits_eq_some_iff
  · rename_i hMinus hPlus
    rw [writesInteger_iff_of_ne hMinus]
    simp only [writesNatural_iff_of_ne hPlus]
    exact map_readDigits_eq_some_iff

/-! ## Words -/

theorem readSigned_eq_some_iff :
    readSigned s = some v ↔ WritesInteger s v ∧ -2 ^ 63 ≤ v ∧ v < 2 ^ 63 := by
  have hMin : Int64.minValue.toInt = -2 ^ 63 := rfl
  have hMax : Int64.maxValue.toInt = 2 ^ 63 - 1 := rfl
  rw [readSigned, Option.filter_eq_some_iff, readInteger_eq_some_iff, hMin, hMax, Bool.and_eq_true,
    decide_eq_true_eq, decide_eq_true_eq, Int.le_sub_one_iff]

theorem readUnsigned_eq_some_iff : readUnsigned s = some n ↔ WritesNatural s n ∧ n < 2 ^ 64 := by
  have hSize : UInt64.size = 2 ^ 64 := rfl
  rw [readUnsigned, Option.filter_eq_some_iff, readNatural_eq_some_iff, hSize, decide_eq_true_eq]

/-! ## Digit by digit -/

/-- Puts a digit behind a number of the given sign, unless a bound is passed. -/
def pushDigit (low high sign v : Int) (c : Char) : Option Int :=
  if c.isDigit = true ∧ low ≤ 10 * v ∧ 10 * v ≤ high ∧
      low ≤ 10 * v + sign * digitValue c ∧ 10 * v + sign * digitValue c ≤ high then
    some (10 * v + sign * digitValue c)
  else none

/-- The digits of a number that is kept within bounds while they are read. -/
def readDigitsWithin (low high sign : Int) (ds : List Char) : Option Int :=
  if ds.isEmpty then none else ds.foldlM (pushDigit low high sign) 0

/-- An integer that is kept within bounds while it is read. A minus sign stands only where there
are negative numbers. -/
def readWithin (low high : Int) : List Char → Option Int
  | '-' :: ds => if low < 0 then readDigitsWithin low high (-1) ds else none
  | '+' :: ds => readDigitsWithin low high 1 ds
  | ds => readDigitsWithin low high 1 ds

theorem valueOfDigits_append_singleton (ds : List Char) (c : Char) :
    valueOfDigits (ds ++ [c]) = 10 * valueOfDigits ds + digitValue c := by
  rw [valueOfDigits, List.foldl_append]
  rfl

theorem pushDigit_eq_some_iff {low high sign w : Int} :
    pushDigit low high sign v c = some w ↔
      c.isDigit = true ∧ low ≤ 10 * v ∧ 10 * v ≤ high ∧ w = 10 * v + sign * digitValue c ∧
        low ≤ w ∧ w ≤ high := by
  rw [pushDigit]
  split
  · grind
  · grind

/-- The induction is at the end of the digits. A number is nearer to zero than the one with a digit
more, so bounds that the last number keeps are kept all the way. -/
theorem foldlM_pushDigit_eq_some_iff {low high sign : Int} (hLow : low ≤ 0) (hHigh : 0 ≤ high)
    (hSign : sign = 1 ∨ sign = -1) :
    ds.foldlM (pushDigit low high sign) 0 = some v ↔
      (∀ c ∈ ds, c.isDigit = true) ∧ v = sign * valueOfDigits ds ∧ low ≤ v ∧ v ≤ high := by
  induction ds using List.reverseRecOn generalizing v with
  | nil =>
    have hZero : valueOfDigits [] = 0 := rfl
    simp only [List.foldlM_nil, hZero]
    grind
  | append_singleton ds c ih =>
    have hStep : (ds ++ [c]).foldlM (pushDigit low high sign) 0 = some v ↔
        ∃ u, ds.foldlM (pushDigit low high sign) 0 = some u ∧
          pushDigit low high sign u c = some v := by
      simp [List.foldlM_append, Option.bind_eq_some_iff]
    rw [hStep, valueOfDigits_append_singleton, List.forall_mem_append, List.forall_mem_singleton]
    simp only [ih, pushDigit_eq_some_iff]
    constructor
    · rintro ⟨u, ⟨hDigits, rfl, -, -⟩, hDigit, -, -, rfl, hLow', hHigh'⟩
      refine ⟨⟨hDigits, hDigit⟩, ?_, hLow', hHigh'⟩
      push_cast
      ring
    · rintro ⟨⟨hDigits, hDigit⟩, rfl, hLow', hHigh'⟩
      refine ⟨sign * (valueOfDigits ds : Int), ⟨hDigits, rfl, ?_, ?_⟩, hDigit, ?_, ?_, ?_, ?_, ?_⟩
      all_goals rcases hSign with rfl | rfl <;> omega

theorem readDigitsWithin_eq_some_iff {low high sign : Int} (hLow : low ≤ 0) (hHigh : 0 ≤ high)
    (hSign : sign = 1 ∨ sign = -1) :
    readDigitsWithin low high sign ds = some v ↔
      ∃ n, AreDigitsOf ds n ∧ v = sign * n ∧ low ≤ v ∧ v ≤ high := by
  have hRead : readDigitsWithin low high sign ds = some v ↔
      ds ≠ [] ∧ ds.foldlM (pushDigit low high sign) 0 = some v := by
    simp [readDigitsWithin]
  rw [hRead, foldlM_pushDigit_eq_some_iff hLow hHigh hSign]
  constructor
  · rintro ⟨hNe, hDigits, hValue, hBounds⟩
    exact ⟨_, areDigitsOf_valueOfDigits hNe hDigits, hValue, hBounds⟩
  · rintro ⟨n, h, hValue, hBounds⟩
    rw [← h.valueOfDigits_eq] at hValue
    exact ⟨h.ne_nil, h.all_isDigit, hValue, hBounds⟩

theorem readWithin_eq_some_iff {low high : Int} (hLow : low < 0) (hHigh : 0 ≤ high) :
    readWithin low high s = some v ↔ WritesInteger s v ∧ low ≤ v ∧ v ≤ high := by
  unfold readWithin
  split
  · rw [if_pos hLow, readDigitsWithin_eq_some_iff hLow.le hHigh (.inr rfl), writesInteger_minus_iff]
    simp [← and_assoc]
  · rw [readDigitsWithin_eq_some_iff hLow.le hHigh (.inl rfl), writesInteger_iff_of_ne (by simp)]
    simp [← and_assoc, writesNatural_plus_iff]
  · rename_i hMinus hPlus
    rw [readDigitsWithin_eq_some_iff hLow.le hHigh (.inl rfl), writesInteger_iff_of_ne hMinus]
    simp [← and_assoc, writesNatural_iff_of_ne hPlus]

theorem readWithin_zero_eq_some_iff {high : Int} (hHigh : 0 ≤ high) :
    readWithin 0 high s = some v ↔ ∃ n : Nat, WritesNatural s n ∧ v = n ∧ v ≤ high := by
  unfold readWithin
  split
  · simp [not_writesNatural_minus]
  · rw [readDigitsWithin_eq_some_iff le_rfl hHigh (.inl rfl)]
    simp only [writesNatural_plus_iff]
    grind
  · rename_i hPlus
    rw [readDigitsWithin_eq_some_iff le_rfl hHigh (.inl rfl)]
    simp only [writesNatural_iff_of_ne hPlus]
    grind

/-! ## Printed integers -/

theorem areDigitsOf_toDigits (n : Nat) : AreDigitsOf (Nat.toDigits 10 n) n := by
  have hDigits : ∀ c ∈ Nat.toDigits 10 n, c.isDigit = true := fun c hc =>
    Nat.isDigit_of_mem_toDigits (by decide) le_rfl hc
  have hValue := areDigitsOf_valueOfDigits Nat.toDigits_ne_nil hDigits
  rwa [valueOfDigits_eq_ofDigitChars, Nat.ofDigitChars_ten_toDigits] at hValue

theorem writesNatural_toString (n : Nat) : WritesNatural (toString n).toList n := by
  rw [Nat.toString_eq_repr, Nat.toList_repr]
  exact .unsigned (areDigitsOf_toDigits n)

theorem writesInteger_toString (v : Int) : WritesInteger (toString v).toList v := by
  rw [Int.toString_eq_repr, Int.repr_eq_if]
  split
  · rename_i hNonneg
    have hWrites := WritesInteger.natural (writesNatural_toString v.toNat)
    rwa [Int.toNat_of_nonneg hNonneg] at hWrites
  · rename_i hNeg
    have hWrites := WritesInteger.minus (areDigitsOf_toDigits (-v).toNat)
    rw [Int.toNat_of_nonneg (by omega), neg_neg] at hWrites
    simpa using hWrites

end CommandDispatch.Number

namespace CommandDispatch.Arguments

open Number

/-- What the conversion of a text owes it: a value if and only if the text writes it, and an error
with parameter, text and type if it writes none. -/
def ConvertsExactly (kind : TextKind) (raw parameter : String) (Writes : Value → Prop) : Prop :=
  (∀ v, kind.convert raw parameter = .ok v ↔ Writes v) ∧
    ∀ e, kind.convert raw parameter = .error e ↔
      (∀ v, ¬ Writes v) ∧ e = ⟨parameter, raw, kind.typeName⟩

theorem convertsExactly_of_read {kind : TextKind} {raw : String} {Writes : Value → Prop}
    (hRead : ∀ v, kind.read raw = some v ↔ Writes v) (parameter : String) :
    ConvertsExactly kind raw parameter Writes := by
  unfold ConvertsExactly TextKind.convert
  simp only [← hRead]
  cases kind.read raw with
  | none => simp [eq_comm]
  | some v => simp [eq_comm]

variable {raw : String} {v : Value}

theorem read_int_eq_some_iff :
    TextKind.int.read raw = some v ↔
      ∃ n, v = .int n ∧ WritesInteger raw.toList n ∧ -2 ^ 63 ≤ n ∧ n < 2 ^ 63 := by
  rw [TextKind.read, Option.map_eq_some_iff]
  simp only [readSigned_eq_some_iff]
  grind

theorem read_uint_eq_some_iff :
    TextKind.uint.read raw = some v ↔
      ∃ n, v = .uint n ∧ WritesNatural raw.toList n ∧ n < 2 ^ 64 := by
  rw [TextKind.read, Option.map_eq_some_iff]
  simp only [readUnsigned_eq_some_iff]
  grind

theorem readSigned_eq_readWithin (s : List Char) :
    readSigned s = readWithin (-2 ^ 63) (2 ^ 63 - 1) s := by
  ext v
  rw [readSigned_eq_some_iff, readWithin_eq_some_iff (by decide) (by decide), Int.le_sub_one_iff]

theorem readUnsigned_eq_readWithin (s : List Char) :
    readUnsigned s = (readWithin 0 (2 ^ 64 - 1) s).map Int.toNat := by
  ext n
  rw [readUnsigned_eq_some_iff, Option.map_eq_some_iff]
  simp only [readWithin_zero_eq_some_iff (show (0 : Int) ≤ 2 ^ 64 - 1 by decide)]
  constructor
  · rintro ⟨hWrites, hLt⟩
    exact ⟨n, ⟨n, hWrites, rfl, by omega⟩, Int.toNat_natCast n⟩
  · rintro ⟨_, ⟨m, hWrites, rfl, hLe⟩, rfl⟩
    rw [Int.toNat_natCast]
    exact ⟨hWrites, by omega⟩

/-- A text converts to an integer if and only if it writes one that fits into the word, and
otherwise there is an error with parameter, text and type. So a printed integer converts back.
Nothing changes when the number is kept within the word at every digit. -/
theorem convertsExactly_integer (parameter : String) :
    (∀ raw, ConvertsExactly .int raw parameter fun v =>
        ∃ n, v = .int n ∧ WritesInteger raw.toList n ∧ -2 ^ 63 ≤ n ∧ n < 2 ^ 63) ∧
      (∀ raw, ConvertsExactly .uint raw parameter fun v =>
        ∃ n, v = .uint n ∧ WritesNatural raw.toList n ∧ n < 2 ^ 64) ∧
      (∀ n : Int, -2 ^ 63 ≤ n ∧ n < 2 ^ 63 →
        TextKind.int.convert (toString n) parameter = .ok (.int n)) ∧
      (∀ n : Nat, n < 2 ^ 64 →
        TextKind.uint.convert (toString n) parameter = .ok (.uint n)) ∧
      ∀ s, readSigned s = readWithin (-2 ^ 63) (2 ^ 63 - 1) s ∧
        readUnsigned s = (readWithin 0 (2 ^ 64 - 1) s).map Int.toNat := by
  have hInt (raw : String) :=
    convertsExactly_of_read (fun v => @read_int_eq_some_iff raw v) parameter
  have hUint (raw : String) :=
    convertsExactly_of_read (fun v => @read_uint_eq_some_iff raw v) parameter
  refine ⟨hInt, hUint, fun n hFits => ?_, fun n hFits => ?_,
    fun s => ⟨readSigned_eq_readWithin s, readUnsigned_eq_readWithin s⟩⟩
  · exact ((hInt (toString n)).1 _).mpr ⟨n, rfl, writesInteger_toString n, hFits⟩
  · exact ((hUint (toString n)).1 _).mpr ⟨n, rfl, writesNatural_toString n, hFits⟩

/-- Zeros in front of a number do not count, and an unsigned one has no minus sign. -/
example :
    TextKind.uint.convert "+00018446744073709551615" "count" = .ok (.uint (2 ^ 64 - 1)) ∧
      TextKind.uint.convert "-0" "count" = .error ⟨"count", "-0", "usize"⟩ := by
  decide

/-- The least signed integer, whose negative is too large. -/
theorem convert_least :
    (-2 ^ 63 ≤ (-2 ^ 63 : Int) ∧ (-2 ^ 63 : Int) < 2 ^ 63) ∧
      TextKind.int.convert (toString (-2 ^ 63 : Int)) "count" = .ok (.int (-2 ^ 63)) :=
  ⟨by decide, (convertsExactly_integer "count").2.2.1 (-2 ^ 63) (by decide)⟩

end CommandDispatch.Arguments
