import Mathlib.Algebra.Order.Field.Basic
import Mathlib.Data.List.Induction
import Mathlib.Data.Rat.Lemmas
import Mathlib.Tactic.FieldSimp
import Mathlib.Tactic.Ring

/-! Decimal numbers as texts: a whole part and a fraction of digits, what they denote,
and the one canonical spelling of a number with a given count of decimals. -/
namespace Decimal

variable {cs ds : List Char}

def Digits (cs : List Char) : Prop :=
  ∀ c ∈ cs, c.isDigit = true

def value (cs : List Char) : Nat :=
  Nat.ofDigitChars 10 cs 0

/-- No zero stands before another digit. -/
def Trimmed (cs : List Char) : Prop :=
  cs.length = 1 ∨ cs.head? ≠ some '0'

section digits

theorem digits_append : Digits (cs ++ ds) ↔ Digits cs ∧ Digits ds :=
  List.forall_mem_append

theorem digits_replicate_zero (n : Nat) : Digits (List.replicate n '0') := by
  intro c hc
  rw [List.eq_of_mem_replicate hc]
  rfl

/-- Numbers are written in digits. -/
theorem digits_toDigits (n : Nat) : Digits (Nat.toDigits 10 n) := fun _ hc =>
  Nat.isDigit_of_mem_toDigits (by decide) (by decide) hc

theorem digit_bounds {c : Char} (h : c.isDigit = true) : 48 ≤ c.toNat ∧ c.toNat ≤ 57 := by
  simp only [Char.isDigit, ge_iff_le, Bool.and_eq_true, decide_eq_true_eq] at h
  exact h

theorem toNat_sub_lt {c : Char} (h : c.isDigit = true) : c.toNat - '0'.toNat < 10 := by
  have hBounds := digit_bounds h
  have hZero : '0'.toNat = 48 := rfl
  omega

theorem digitChar_toNat_sub {c : Char} (h : c.isDigit = true) :
    (c.toNat - '0'.toNat).digitChar = c := by
  have hBounds := digit_bounds h
  have hZero : '0'.toNat = 48 := rfl
  apply Char.toNat_inj.mp
  rw [Nat.toNat_digitChar_of_lt_ten (by omega)]
  omega

/-- Digits after others count less. -/
theorem value_append (cs ds : List Char) :
    value (cs ++ ds) = 10 ^ ds.length * value cs + value ds := by
  rw [value, Nat.ofDigitChars_append, Nat.ofDigitChars_eq_ofDigitChars_zero]
  rfl

theorem value_singleton (c : Char) : value [c] = c.toNat - '0'.toNat := by
  simp [value, Nat.ofDigitChars_cons]

theorem value_replicate_zero (n : Nat) : value (List.replicate n '0') = 0 := by
  rw [value, Nat.ofDigitChars_replicate_zero, Nat.mul_zero]

/-- The value of a number's digits is the number. -/
theorem value_toDigits (n : Nat) : value (Nat.toDigits 10 n) = n :=
  Nat.ofDigitChars_ten_toDigits

/-- The value of n digits is below the n-th power of ten. -/
theorem value_lt (h : Digits cs) : value cs < 10 ^ cs.length := by
  induction cs using List.reverseRecOn with
  | nil => simp [value]
  | append_singleton cs c ih =>
      obtain ⟨hFront, hLast⟩ := digits_append.mp h
      have hLt := ih hFront
      have hDigit := toNat_sub_lt (hLast c List.mem_cons_self)
      rw [value_append, value_singleton, List.length_append, List.length_singleton, pow_succ]
      omega

/-- A positive number is written without leading zeros. -/
theorem head_toDigits_ne_zero {n : Nat} (h : 0 < n) : (Nat.toDigits 10 n).head? ≠ some '0' := by
  induction n using Nat.strong_induction_on with
  | _ n ih =>
      rw [Nat.toDigits_eq_if (by decide)]
      split
      · next hSmall =>
          intro hHead
          have hZero : n = 0 := Nat.digitChar_eq_zero.mp (Option.some.inj hHead)
          omega
      · next hLarge =>
          rw [List.head?_append_of_ne_nil _ Nat.toDigits_ne_nil]
          exact ih (n / 10) (by omega) (by omega)

theorem trimmed_toDigits (n : Nat) : Trimmed (Nat.toDigits 10 n) := by
  cases n with
  | zero => exact .inl rfl
  | succ n => exact .inr (head_toDigits_ne_zero n.succ_pos)

/-- Trimmed digits are the digits of their value. -/
theorem toDigits_value (hSome : cs ≠ []) (hDigits : Digits cs) (hTrimmed : Trimmed cs) :
    Nat.toDigits 10 (value cs) = cs := by
  induction cs using List.reverseRecOn with
  | nil => exact absurd rfl hSome
  | append_singleton cs c ih =>
      obtain ⟨hFront, hLast⟩ := digits_append.mp hDigits
      have hDigit : c.isDigit = true := hLast c List.mem_cons_self
      have hLt := toNat_sub_lt hDigit
      have hShown : Nat.toDigits 10 (c.toNat - '0'.toNat) = [c] := by
        rw [Nat.toDigits_of_lt_base hLt, digitChar_toNat_sub hDigit]
      rw [value_append, value_singleton, List.length_singleton, pow_one]
      by_cases hNil : cs = []
      · subst hNil
        simpa [value] using hShown
      · have hHead : cs.head? ≠ some '0' := by
          cases hTrimmed with
          | inl hLength =>
              rw [List.length_append, List.length_singleton, Nat.add_eq_right] at hLength
              exact absurd (List.eq_nil_of_length_eq_zero hLength) hNil
          | inr hHead => rwa [List.head?_append_of_ne_nil _ hNil] at hHead
        have hRest := ih hNil hFront (.inr hHead)
        have hPos : 0 < value cs := by
          apply Nat.pos_of_ne_zero
          intro hZero
          rw [hZero, Nat.toDigits_zero] at hRest
          rw [← hRest] at hHead
          exact hHead rfl
        rw [← Nat.toDigits_append_toDigits (by decide) hPos hLt, hRest, hShown]

/-- Digits without leading zeros are determined by their value. -/
theorem eq_of_value_of_trimmed (hSome : cs ≠ [] ∧ ds ≠ []) (hDigits : Digits cs ∧ Digits ds)
    (hTrimmed : Trimmed cs ∧ Trimmed ds) (hValue : value cs = value ds) : cs = ds := by
  rw [← toDigits_value hSome.1 hDigits.1 hTrimmed.1, hValue,
    toDigits_value hSome.2 hDigits.2 hTrimmed.2]

/-- With a one in front no digits have a zero in front. -/
theorem eq_of_value_of_length (hDigits : Digits cs ∧ Digits ds) (hLength : cs.length = ds.length)
    (hValue : value cs = value ds) : cs = ds := by
  have hOne : Digits ['1'] := by simp [Digits]
  have hSame : ['1'] ++ cs = ['1'] ++ ds := by
    apply eq_of_value_of_trimmed ⟨by simp, by simp⟩
      ⟨digits_append.mpr ⟨hOne, hDigits.1⟩, digits_append.mpr ⟨hOne, hDigits.2⟩⟩
      ⟨.inr (by simp), .inr (by simp)⟩
    rw [value_append, value_append, hLength, hValue]
  exact List.append_cancel_left hSame

end digits

/-- Digits, and where the fraction is not empty a point and the digits of it. -/
structure Spelling where
  whole : List Char
  fraction : List Char
  whole_some : whole ≠ []
  whole_digits : Digits whole
  fraction_digits : Digits fraction

namespace Spelling

variable {decimals n : Nat}

def chars (a : Spelling) : List Char :=
  if a.fraction = [] then a.whole else a.whole ++ '.' :: a.fraction

/-- The number that is spelt. -/
def number (a : Spelling) : ℚ :=
  value a.whole + value a.fraction / 10 ^ a.fraction.length

/-- The fraction filled up with zeros. -/
def padded (a : Spelling) (decimals : Nat) : List Char :=
  a.fraction ++ List.replicate (decimals - a.fraction.length) '0'

/-- The number in units of the last decimal, where no digit of it is lost. -/
def units (a : Spelling) (decimals : Nat) : Nat :=
  value a.whole * 10 ^ decimals + value (a.padded decimals)

/-- A spelling with few enough decimals is a whole number of units. -/
theorem number_mul (a : Spelling) (hFits : a.fraction.length ≤ decimals) :
    a.number * 10 ^ decimals = a.units decimals := by
  obtain ⟨more, rfl⟩ := Nat.exists_eq_add_of_le hFits
  have hPadded : value (a.padded (a.fraction.length + more)) = 10 ^ more * value a.fraction := by
    rw [padded, value_append, value_replicate_zero, List.length_replicate, Nat.add_zero,
      Nat.add_sub_cancel_left]
  rw [units, hPadded, number, pow_add]
  push_cast
  field_simp
  ring

structure Canonical (decimals : Nat) (a : Spelling) : Prop where
  whole : Trimmed a.whole
  fraction : a.fraction.length = decimals

/-- Canonical spellings of one number are equal. -/
theorem eq_of_canonical {a b : Spelling} (ha : a.Canonical decimals) (hb : b.Canonical decimals)
    (hNumber : a.number = b.number) : a = b := by
  have hPad : ∀ c : Spelling, c.Canonical decimals → c.padded decimals = c.fraction := by
    intro c hc
    rw [padded, hc.fraction, Nat.sub_self, List.replicate_zero, List.append_nil]
  have hUnits : value a.whole * 10 ^ decimals + value a.fraction =
      value b.whole * 10 ^ decimals + value b.fraction := by
    have hScaled : a.number * 10 ^ decimals = b.number * 10 ^ decimals := by rw [hNumber]
    rw [number_mul a ha.fraction.le, number_mul b hb.fraction.le, units, units, hPad a ha,
      hPad b hb] at hScaled
    exact_mod_cast hScaled
  have hLtA : value a.fraction < 10 ^ decimals := ha.fraction ▸ value_lt a.fraction_digits
  have hLtB : value b.fraction < 10 ^ decimals := hb.fraction ▸ value_lt b.fraction_digits
  have hFraction : value a.fraction = value b.fraction := by
    have hMod := congrArg (· % 10 ^ decimals) hUnits
    simpa [Nat.mod_eq_of_lt hLtA, Nat.mod_eq_of_lt hLtB] using hMod
  have hWhole : value a.whole = value b.whole := by
    rw [hFraction] at hUnits
    exact Nat.eq_of_mul_eq_mul_right (Nat.pow_pos (by decide)) (Nat.add_right_cancel hUnits)
  have hSameWhole : a.whole = b.whole :=
    eq_of_value_of_trimmed ⟨a.whole_some, b.whole_some⟩ ⟨a.whole_digits, b.whole_digits⟩
      ⟨ha.whole, hb.whole⟩ hWhole
  have hSameFraction : a.fraction = b.fraction :=
    eq_of_value_of_length ⟨a.fraction_digits, b.fraction_digits⟩
      (ha.fraction.trans hb.fraction.symm) hFraction
  cases a
  cases b
  cases hSameWhole
  cases hSameFraction
  rfl

/-- The spelling of a count of units. -/
def ofUnits (decimals n : Nat) : Spelling where
  whole := Nat.toDigits 10 (n / 10 ^ decimals)
  fraction := List.replicate (decimals - (Nat.toDigits 10 (n % 10 ^ decimals)).length) '0' ++
    Nat.toDigits 10 (n % 10 ^ decimals)
  whole_some := Nat.toDigits_ne_nil
  whole_digits := digits_toDigits _
  fraction_digits := digits_append.mpr ⟨digits_replicate_zero _, digits_toDigits _⟩

/-- Units are spelled canonically. -/
theorem canonical_ofUnits (h : 0 < decimals) (n : Nat) : (ofUnits decimals n).Canonical decimals := by
  have hShort : (Nat.toDigits 10 (n % 10 ^ decimals)).length ≤ decimals :=
    (Nat.length_toDigits_le_iff (by decide) h).mpr (Nat.mod_lt n (Nat.pow_pos (by decide)))
  refine ⟨trimmed_toDigits _, ?_⟩
  rw [ofUnits, List.length_append, List.length_replicate]
  omega

/-- The spelling of units has their value. -/
theorem number_ofUnits (h : 0 < decimals) (n : Nat) :
    (ofUnits decimals n).number * 10 ^ decimals = n := by
  have hLength := (canonical_ofUnits h n).fraction
  rw [number_mul _ hLength.le, units, padded, hLength, Nat.sub_self, List.replicate_zero, List.append_nil,
    ofUnits, value_append, value_replicate_zero, value_toDigits, value_toDigits, Nat.mul_zero,
    Nat.zero_add, Nat.div_add_mod']

end Spelling

end Decimal
