import Mathlib.Data.List.Basic
import Mathlib.Data.Nat.Bits
import Mathlib.Tactic.Ring

/-! Numbers as lists of bits, most significant bit first. -/
namespace Collections

/-- The low `width` bits of a number. -/
def bitsOf (width value : Nat) : List Bool :=
  (List.range width).map fun i => value.testBit (width - 1 - i)

def ofBits (bits : List Bool) : Nat :=
  bits.foldl (fun value bit => 2 * value + bit.toNat) 0

/-- The whole bytes at the front of a list of bits. -/
def toBytes (bits : List Bool) : List Nat :=
  if 8 ≤ bits.length then ofBits (bits.take 8) :: toBytes (bits.drop 8) else []
termination_by bits.length
decreasing_by simp; omega

variable {width value : Nat} {bits : List Bool}

@[simp] theorem length_bitsOf (width value : Nat) : (bitsOf width value).length = width := by
  simp [bitsOf]

theorem bitsOf_succ (width value : Nat) :
    bitsOf (width + 1) value = value.testBit width :: bitsOf width value := by
  simp only [bitsOf, List.range_succ_eq_map, List.map_cons, List.map_map]
  congr 1
  refine List.map_congr_left fun i _ => ?_
  simp only [Function.comp_apply]
  congr 1
  omega

theorem ofBits_foldl (bits : List Bool) (start : Nat) :
    bits.foldl (fun value bit => 2 * value + bit.toNat) start =
      start * 2 ^ bits.length + ofBits bits := by
  induction bits generalizing start with
  | nil => simp [ofBits]
  | cons bit rest ih =>
      have hRest : ofBits (bit :: rest) = bit.toNat * 2 ^ rest.length + ofBits rest := by
        show rest.foldl _ (2 * 0 + bit.toNat) = _
        rw [ih, Nat.mul_zero, Nat.zero_add]
      rw [List.foldl_cons, ih, hRest, List.length_cons, pow_succ]
      ring

@[simp] theorem ofBits_nil : ofBits [] = 0 := rfl

theorem ofBits_cons (bit : Bool) (bits : List Bool) :
    ofBits (bit :: bits) = bit.toNat * 2 ^ bits.length + ofBits bits := by
  show bits.foldl _ (2 * 0 + bit.toNat) = _
  rw [ofBits_foldl, Nat.mul_zero, Nat.zero_add]

theorem ofBits_lt (bits : List Bool) : ofBits bits < 2 ^ bits.length := by
  induction bits with
  | nil => simp
  | cons bit rest ih =>
      rw [ofBits_cons, List.length_cons, pow_succ]
      cases bit <;> simp <;> omega

/-- Writing a number and reading it back keeps its low bits. -/
theorem ofBits_bitsOf (width value : Nat) : ofBits (bitsOf width value) = value % 2 ^ width := by
  induction width with
  | zero => simp [bitsOf, Nat.mod_one]
  | succ width ih =>
      rw [bitsOf_succ, ofBits_cons, ih, length_bitsOf, Nat.toNat_testBit, Nat.mod_pow_succ]
      ring

theorem ofBits_bitsOf_of_lt (h : value < 2 ^ width) : ofBits (bitsOf width value) = value := by
  rw [ofBits_bitsOf, Nat.mod_eq_of_lt h]

theorem bitsOf_ofBits (bits : List Bool) : bitsOf bits.length (ofBits bits) = bits := by
  induction bits with
  | nil => rfl
  | cons bit rest ih =>
      have hBit (j : Nat) : (ofBits (bit :: rest)).testBit j =
          if j < rest.length then (ofBits rest).testBit j else bit.toNat.testBit (j - rest.length) := by
        rw [ofBits_cons, Nat.mul_comm, Nat.testBit_two_pow_mul_add _ (ofBits_lt rest)]
      have hHead : (ofBits (bit :: rest)).testBit rest.length = bit := by
        rw [hBit, if_neg (lt_irrefl _), Nat.sub_self]
        cases bit <;> rfl
      have hTail : bitsOf rest.length (ofBits (bit :: rest)) = bitsOf rest.length (ofBits rest) := by
        refine List.map_congr_left fun i hi => ?_
        have hLt := List.mem_range.mp hi
        rw [hBit, if_pos (by omega)]
      rw [List.length_cons, bitsOf_succ, hHead, hTail, ih]

theorem bitsOf_of_length {width : Nat} (h : bits.length = width) :
    bitsOf width (ofBits bits) = bits := by
  rw [← h, bitsOf_ofBits]

/-- Bits packed into bytes and unpacked are the bits again, up to the last whole
byte. -/
theorem flatMap_toBytes (bits : List Bool) :
    (toBytes bits).flatMap (bitsOf 8) = bits.take (8 * (bits.length / 8)) := by
  induction bits using toBytes.induct with
  | case1 bits hLong ih =>
      have hTake : (bits.take 8).length = 8 := by simp [hLong]
      have hSplit : 8 * (bits.length / 8) = 8 + 8 * ((bits.drop 8).length / 8) := by
        simp only [List.length_drop]
        omega
      rw [toBytes, if_pos hLong, List.flatMap_cons, bitsOf_of_length hTake, ih, hSplit, List.take_add]
  | case2 bits hShort =>
      have hZero : bits.length / 8 = 0 := by omega
      rw [toBytes, if_neg hShort, hZero]
      rfl

theorem length_toBytes (bits : List Bool) : (toBytes bits).length = bits.length / 8 := by
  induction bits using toBytes.induct with
  | case1 bits hLong ih =>
      rw [toBytes, if_pos hLong, List.length_cons, ih, List.length_drop]
      omega
  | case2 bits hShort =>
      rw [toBytes, if_neg hShort, List.length_nil]
      omega

theorem lt_of_mem_toBytes {byte : Nat} (h : byte ∈ toBytes bits) : byte < 256 := by
  induction bits using toBytes.induct with
  | case1 bits hLong ih =>
      rw [toBytes, if_pos hLong, List.mem_cons] at h
      obtain rfl | h := h
      · simpa [hLong] using ofBits_lt (bits.take 8)
      · exact ih h
  | case2 bits hShort =>
      rw [toBytes, if_neg hShort] at h
      cases h

/-- Bytes written as bits are read back, whatever follows them. -/
theorem toBytes_flatMap {bytes : List Nat} (hBytes : ∀ byte ∈ bytes, byte < 256)
    (rest : List Bool) : toBytes (bytes.flatMap (bitsOf 8) ++ rest) = bytes ++ toBytes rest := by
  induction bytes with
  | nil => rfl
  | cons byte bytes ih =>
      have hByte : byte < 2 ^ 8 := hBytes byte List.mem_cons_self
      have hLong : 8 ≤ ((byte :: bytes).flatMap (bitsOf 8) ++ rest).length := by
        simp only [List.flatMap_cons, List.length_append, length_bitsOf]
        omega
      rw [toBytes, if_pos hLong, List.flatMap_cons, List.append_assoc,
        List.take_left' (length_bitsOf 8 byte), List.drop_left' (length_bitsOf 8 byte),
        ofBits_bitsOf_of_lt hByte, ih fun b hb => hBytes b (List.mem_cons_of_mem _ hb),
        List.cons_append]

end Collections
