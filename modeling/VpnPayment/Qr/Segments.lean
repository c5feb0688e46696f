import Mathlib.Data.List.Induction
import VpnPayment.Qr.Codewords

/-! Reading the content of a segment back: each number, digit group or character is
read from the front of the bits, whatever follows it. -/
namespace VpnPayment.Qr

open Collections

/-- A number is read from the bits it was written to. -/
theorem take_append (n value : Nat) (rest : List Bool) :
    take n (bitsOf n value ++ rest) = (value % 2 ^ n, rest) := by
  have hFront : (List.range n).map (fun k => (bitsOf n value ++ rest).getD k false) =
      bitsOf n value := by
    refine List.ext_getElem (by simp) fun k hk _ => ?_
    have hLt : k < (bitsOf n value).length := by simpa using hk
    simp [List.getElem?_append_left hLt, List.getElem?_eq_getElem hLt]
  rw [take, hFront, ofBits_bitsOf, List.drop_left' (length_bitsOf n value)]

section numeric

variable {digits : List Char}

theorem parseDigits_append (digits : List Char) (c : Char) :
    parseDigits (digits ++ [c]) = 10 * parseDigits digits + (c.toNat - '0'.toNat) := by
  simp [parseDigits, List.foldl_append]

theorem isDigit_bounds {c : Char} (h : c.isDigit = true) : 48 ≤ c.toNat ∧ c.toNat ≤ 57 := by
  simp only [Char.isDigit, Bool.and_eq_true, decide_eq_true_eq] at h
  exact h

theorem parseDigits_lt (h : ∀ c ∈ digits, c.isDigit = true) :
    parseDigits digits < 10 ^ digits.length := by
  induction digits using List.reverseRecOn with
  | nil => simp [parseDigits]
  | append_singleton digits c ih =>
      have hFront := ih fun d hd => h d (List.mem_append_left _ hd)
      have hDigit := isDigit_bounds (h c (List.mem_append_right _ (List.mem_singleton_self c)))
      have hZero : '0'.toNat = 48 := rfl
      rw [parseDigits_append, List.length_append, List.length_singleton, pow_succ]
      omega

theorem digitChar_sub {c : Char} (h : c.isDigit = true) :
    (c.toNat - '0'.toNat).digitChar = c := by
  obtain ⟨hLow, hHigh⟩ := isDigit_bounds h
  have hZero : '0'.toNat = 48 := rfl
  refine Char.toNat_inj.mp ?_
  rw [Nat.toNat_digitChar_of_lt_ten (by omega)]
  omega

/-- The last digit of a padded number. -/
theorem padStart_succ {width value digit : Nat} (hWidth : 1 ≤ width) (hDigit : digit < 10) :
    padStart (width + 1) (10 * value + digit) = padStart width value ++ [digit.digitChar] := by
  unfold padStart
  rcases Nat.eq_zero_or_pos value with rfl | hPos
  · rw [Nat.mul_zero, Nat.zero_add, Nat.toDigits_of_lt_base hDigit, Nat.toDigits_zero]
    obtain ⟨k, rfl⟩ := Nat.exists_eq_add_of_le' hWidth
    simp [List.replicate_succ']
  · rw [← Nat.toDigits_append_toDigits (by decide) hPos hDigit, Nat.toDigits_of_lt_base hDigit]
    simp [Nat.add_sub_add_right]

/-- Digits read as a number and padded to their length are the digits again. -/
theorem padStart_parseDigits (hDigits : ∀ c ∈ digits, c.isDigit = true) (hPos : 1 ≤ digits.length) :
    padStart digits.length (parseDigits digits) = digits := by
  induction digits using List.reverseRecOn with
  | nil => simp at hPos
  | append_singleton digits c ih =>
      have hDigit := hDigits c (List.mem_append_right _ (List.mem_singleton_self c))
      have hBounds := isDigit_bounds hDigit
      have hZero : '0'.toNat = 48 := rfl
      have hLess : c.toNat - '0'.toNat < 10 := by omega
      rw [parseDigits_append, List.length_append, List.length_singleton]
      rcases Nat.eq_zero_or_pos digits.length with hNil | hFront
      · obtain rfl := List.length_eq_zero_iff.mp hNil
        have hOne : padStart 1 (c.toNat - '0'.toNat) = [c] := by
          rw [padStart, Nat.toDigits_of_lt_base hLess, digitChar_sub hDigit]
          rfl
        simpa [parseDigits] using hOne
      · rw [padStart_succ hFront hLess, ih (fun d hd => hDigits d (List.mem_append_left _ hd)) hFront,
          digitChar_sub hDigit]

/-- The groups of three digits and the rest are read back, leading zeros included. -/
theorem readNumeric_numericBits (hDigits : ∀ c ∈ digits, c.isDigit = true) (rest : List Bool) :
    readNumeric digits.length (numericBits digits ++ rest) = digits := by
  induction digits using numericBits.induct with
  | case1 a b c digits ih =>
      have hGroup : ∀ d ∈ [a, b, c], d.isDigit = true := by
        intro d hd
        refine hDigits d ?_
        simp only [List.mem_cons, List.not_mem_nil, or_false] at hd
        simp only [List.mem_cons]
        tauto
      have hLess : parseDigits [a, b, c] < 10 ^ 3 := parseDigits_lt hGroup
      have hSmall : parseDigits [a, b, c] < 2 ^ 10 := by omega
      rw [numericBits, List.append_assoc, List.length_cons, List.length_cons, List.length_cons,
        readNumeric, take_append, Nat.mod_eq_of_lt hSmall,
        ih fun d hd => hDigits d (List.mem_cons_of_mem _ (List.mem_cons_of_mem _
          (List.mem_cons_of_mem _ hd)))]
      exact congrArg (· ++ digits) (padStart_parseDigits hGroup (by simp))
  | case2 a b =>
      have hLess : parseDigits [a, b] < 10 ^ 2 := parseDigits_lt hDigits
      have hSmall : parseDigits [a, b] < 2 ^ 7 := by omega
      show readNumeric 2 (bitsOf 7 (parseDigits [a, b]) ++ rest) = [a, b]
      rw [readNumeric, take_append, Nat.mod_eq_of_lt hSmall]
      exact padStart_parseDigits hDigits (by simp)
  | case3 a =>
      have hLess : parseDigits [a] < 10 := parseDigits_lt hDigits
      have hSmall : parseDigits [a] < 2 ^ 4 := by omega
      have hPadded := padStart_parseDigits hDigits (by simp)
      show readNumeric 1 (bitsOf 4 (parseDigits [a]) ++ rest) = [a]
      rw [readNumeric, take_append, Nat.mod_eq_of_lt hSmall, Nat.toDigits_of_lt_base hLess]
      rw [padStart, Nat.toDigits_of_lt_base hLess] at hPadded
      exact hPadded
  | case4 => rfl

end numeric

section bytes

theorem readBytes_append (bytes : List UInt8) (rest : List Bool) :
    readBytes bytes.length ((bytes.flatMap fun b => bitsOf 8 b.toNat) ++ rest) = bytes := by
  induction bytes with
  | nil => rfl
  | cons b bytes ih =>
      rw [List.flatMap_cons, List.append_assoc, List.length_cons, readBytes, take_append, ih,
        Nat.mod_eq_of_lt b.toNat_lt]
      simp

/-- The bytes of characters are decoded to these characters. -/
theorem utf8Chars_flatMap (chars : List Char) :
    utf8Chars (chars.flatMap String.utf8EncodeChar) = chars := by
  induction chars with
  | nil => simp [utf8Chars]
  | cons c chars ih =>
      obtain ⟨b, rest, hBytes⟩ := List.exists_cons_of_ne_nil (@String.utf8EncodeChar_ne_nil c)
      have hLength : (b :: rest).length = c.utf8Size := by
        rw [← hBytes, String.length_utf8EncodeChar]
      have hFirst : (b :: (rest ++ chars.flatMap String.utf8EncodeChar)).toByteArray.utf8DecodeChar? 0 =
          some c := by
        rw [← List.cons_append, ← hBytes, List.toByteArray_append]
        exact ByteArray.utf8DecodeChar?_utf8EncodeChar_append
      have hRest : c.utf8Size - 1 = rest.length := by
        rw [← hLength]
        rfl
      rw [List.flatMap_cons, hBytes, List.cons_append, utf8Chars]
      simp only [hFirst]
      rw [hRest, List.drop_left, ih]

end bytes
end VpnPayment.Qr
