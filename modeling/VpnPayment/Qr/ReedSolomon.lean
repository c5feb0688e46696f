import VpnPayment.Collections.Coefficients
import VpnPayment.Qr.Codewords
import VpnPayment.Qr.GaloisField

/-! The error correction codewords are the remainder of the data by the generator
polynomial. -/
namespace VpnPayment.Qr

open Collections Polynomial

/-- The generator polynomial over the field. -/
def generator (degree : Nat) : List Gf256 :=
  (List.range degree).foldl (fun poly i =>
    List.zipWith (· + ·) (poly ++ [0]) (0 :: poly.map (· * Gf256.alpha ^ i))) [1]

theorem generator_succ (degree : Nat) : generator (degree + 1) =
    List.zipWith (· + ·) (generator degree ++ [0])
      (0 :: (generator degree).map (· * Gf256.alpha ^ degree)) := by
  rw [generator, List.range_succ, List.foldl_append]
  rfl

theorem val_alpha_pow_eq_gfExp {i : Nat} (h : i < 512) : (Gf256.alpha ^ i).val = gfExp i := by
  rw [Gf256.val_alpha_pow, gfExp_eq h]

theorem rsGenerator_eq {degree : Nat} (h : degree ≤ 512) :
    rsGenerator degree = (generator degree).map Gf256.val := by
  induction degree with
  | zero => rfl
  | succ degree ih =>
      have hPower := val_alpha_pow_eq_gfExp (i := degree) (by omega)
      have hRest := ih (by omega)
      rw [rsGenerator] at hRest
      have hScaled : (generator degree).map (fun a => gfMul a.val (gfExp degree)) =
          ((generator degree).map (· * Gf256.alpha ^ degree)).map Gf256.val := by
        rw [List.map_map, ← hPower]
        rfl
      rw [generator_succ, rsGenerator, List.range_succ, List.foldl_append, hRest, List.foldl_cons,
        List.foldl_nil, List.map_map, List.map_zipWith]
      show List.zipWith _ ((generator degree).map Gf256.val ++ [0])
        (0 :: (generator degree).map (fun a => gfMul a.val (gfExp degree))) = _
      rw [hScaled, ← Gf256.val_zero, ← List.map_singleton, ← List.map_append, ← List.map_cons,
        List.zipWith_map]
      rfl

/-- A generator polynomial is monic, and a root longer at every step. -/
theorem generator_cons (degree : Nat) :
    ∃ gen, generator degree = 1 :: gen ∧ gen.length = degree := by
  induction degree with
  | zero => exact ⟨[], rfl, rfl⟩
  | succ degree ih =>
      obtain ⟨gen, hGen, hLength⟩ := ih
      rw [generator_succ, hGen]
      refine ⟨_, by rw [List.cons_append, List.zipWith_cons_cons, add_zero], ?_⟩
      simp [hLength]

theorem ofCoeffs_generator (degree : Nat) : ofCoeffs (generator degree) =
    ∏ i ∈ Finset.range degree, (X - C (Gf256.alpha ^ i)) := by
  induction degree with
  | zero => simp [generator, ofCoeffs_cons]
  | succ degree ih =>
      have hNeg : (X - C (Gf256.alpha ^ degree) : Gf256[X]) = X + C (Gf256.alpha ^ degree) := by
        rw [sub_eq_add_neg, ← C_neg, Gf256.neg_eq]
      rw [Finset.prod_range_succ, ← ih, hNeg, generator_succ, ofCoeffs_mul_root]

/-- One round of the encoder is one step of the long division. -/
theorem val_divStep {gen register : List Gf256} (b : Gf256)
    (h : (register.tail ++ [0]).length = gen.length) :
    (divStep gen register b).map Gf256.val =
      if b.val ^^^ (register.map Gf256.val).headD 0 ≠ 0 then
        List.zipWith (fun r g => r ^^^ gfMul g (b.val ^^^ (register.map Gf256.val).headD 0))
          ((register.map Gf256.val).tail ++ [0]) (gen.map Gf256.val)
      else (register.map Gf256.val).tail ++ [0] := by
  have hFactor : b.val ^^^ (register.map Gf256.val).headD 0 = (b + register.headD 0).val := by
    cases register <;> rfl
  have hShifted : (register.map Gf256.val).tail ++ [0] = (register.tail ++ [0]).map Gf256.val := by
    rw [← List.map_tail, List.map_append]
    rfl
  rw [hFactor, hShifted]
  split
  · rw [divStep, Gf256.neg_eq, List.map_zipWith, List.zipWith_map]
    rfl
  · next hZero => rw [divStep_of_eq_zero (Gf256.ext (not_not.mp hZero)) h]

/-- The shift register of the encoder is that of the long division. -/
theorem rsEncode_eq {ecLen : Nat} {gen : List Gf256} (hLe : ecLen ≤ 512)
    (hPos : 0 < ecLen) (hGen : generator ecLen = 1 :: gen) (hLength : gen.length = ecLen)
    (data : List Gf256) : rsEncode (data.map Gf256.val) ecLen =
      (data.foldl (divStep gen) (List.replicate ecLen 0)).map Gf256.val := by
  have hTail : (rsGenerator ecLen).tail = gen.map Gf256.val := by
    rw [rsGenerator_eq hLe, hGen]
    rfl
  have hRun : ∀ register : List Gf256, register.length = gen.length →
      (data.map Gf256.val).foldl (fun res b =>
        let factor := b ^^^ res.headD 0
        let shifted := res.tail ++ [0]
        if factor ≠ 0 then
          List.zipWith (fun r g => r ^^^ gfMul g factor) shifted (rsGenerator ecLen).tail
        else shifted) (register.map Gf256.val) =
      (data.foldl (divStep gen) register).map Gf256.val := by
    induction data with
    | nil => exact fun _ _ => rfl
    | cons b data ih =>
        intro register hRegister
        have hShift : (register.tail ++ [0]).length = gen.length := by
          rw [List.length_append, List.length_tail, hRegister]
          simp only [List.length_singleton]
          omega
        rw [List.map_cons, List.foldl_cons, List.foldl_cons,
          ← ih _ (length_divStep (by omega) hRegister), val_divStep b hShift, hTail]
  have hStart := hRun (List.replicate ecLen 0) (by rw [List.length_replicate, hLength])
  rw [List.map_replicate] at hStart
  exact hStart

/-- The polynomial of a list of bytes, highest degree first. -/
noncomputable def codePoly (bytes : List Nat) : Gf256[X] :=
  ofCoeffs (bytes.map Gf256.ofNat)

theorem codePoly_val (coeffs : List Gf256) : codePoly (coeffs.map Gf256.val) = ofCoeffs coeffs := by
  rw [codePoly, List.map_map]
  have hId : Gf256.ofNat ∘ Gf256.val = id := by
    funext a
    exact Gf256.ofNat_val a
  rw [hId, List.map_id]

theorem map_val_ofNat {bytes : List Nat} (h : ∀ b ∈ bytes, b < 256) :
    (bytes.map Gf256.ofNat).map Gf256.val = bytes := by
  rw [List.map_map]
  conv_rhs => rw [← List.map_id bytes]
  exact List.map_congr_left fun b hb => Gf256.val_ofNat (h b hb)

theorem lt_of_mem_map_val {coeffs : List Gf256} {c : Nat} (h : c ∈ coeffs.map Gf256.val) :
    c < 256 := by
  obtain ⟨a, -, rfl⟩ := List.mem_map.mp h
  exact a.lt

section bytes

variable {data : List Nat} {ecLen : Nat}

/-- The register of the encoder over the field, after all the data. -/
theorem rsEncode_bytes (hData : ∀ b ∈ data, b < 256) (hPos : 0 < ecLen) (hLe : ecLen ≤ 512) :
    ∃ gen, generator ecLen = 1 :: gen ∧ gen.length = ecLen ∧ rsEncode data ecLen =
      ((data.map Gf256.ofNat).foldl (divStep gen) (List.replicate gen.length 0)).map Gf256.val := by
  obtain ⟨gen, hGen, hLength⟩ := generator_cons ecLen
  have hEncode := rsEncode_eq hLe hPos hGen hLength (data.map Gf256.ofNat)
  rw [map_val_ofNat hData] at hEncode
  exact ⟨gen, hGen, hLength, hLength ▸ hEncode⟩

theorem rsEncode_lt (hData : ∀ b ∈ data, b < 256) (hPos : 0 < ecLen) (hLe : ecLen ≤ 512) :
    ∀ c ∈ rsEncode data ecLen, c < 256 := by
  obtain ⟨gen, -, -, hEncode⟩ := rsEncode_bytes hData hPos hLe
  rw [hEncode]
  exact fun c => lt_of_mem_map_val

theorem codePoly_rsGenerator (hLe : ecLen ≤ 512) :
    codePoly (rsGenerator ecLen) = ofCoeffs (generator ecLen) := by
  rw [rsGenerator_eq hLe, codePoly_val]

theorem codePoly_rsEncode (hData : ∀ b ∈ data, b < 256) (hPos : 0 < ecLen) (hLe : ecLen ≤ 512) :
    codePoly (rsEncode data ecLen) = codePoly data * X ^ ecLen %ₘ codePoly (rsGenerator ecLen) := by
  obtain ⟨gen, hGen, hLength, hEncode⟩ := rsEncode_bytes hData hPos hLe
  have hRemainder := @ofCoeffs_foldl_divStep Gf256 _ _ gen (by omega) (data.map Gf256.ofNat)
  rw [codePoly_rsGenerator hLe, hEncode, codePoly_val, hRemainder, hGen, hLength]
  rfl

/-- Data and codewords together are a multiple of the generator. -/
theorem codePoly_append_rsEncode (hData : ∀ b ∈ data, b < 256) (hPos : 0 < ecLen)
    (hLe : ecLen ≤ 512) : ∃ quotient,
      codePoly (data ++ rsEncode data ecLen) = ofCoeffs (generator ecLen) * quotient := by
  obtain ⟨gen, hGen, hLength, hEncode⟩ := rsEncode_bytes hData hPos hLe
  obtain ⟨-, quotient, hEq⟩ := foldl_divStep (by omega) (data.map Gf256.ofNat)
    (List.replicate gen.length 0) List.length_replicate
  rw [ofCoeffs_replicate_zero, zero_mul, zero_add, ← hGen] at hEq
  have hLast : (rsEncode data ecLen).length = gen.length :=
    (length_rsEncode data ecLen hPos).trans hLength.symm
  have hRest : ofCoeffs ((rsEncode data ecLen).map Gf256.ofNat) =
      ofCoeffs ((data.map Gf256.ofNat).foldl (divStep gen) (List.replicate gen.length 0)) := by
    rw [hEncode]
    exact codePoly_val _
  refine ⟨quotient, ?_⟩
  rw [codePoly, List.map_append, ofCoeffs_append, List.length_map, hLast, hEq, hRest,
    add_right_comm, CharTwo.add_self_eq_zero, zero_add]

end bytes

/-- The generator is the product of its linear factors, and the codewords are the
remainder: data and codewords together vanish at every root. -/
theorem rsEncode_valid (data : List Nat) (hData : ∀ b ∈ data, b < 256) (ecLen : Nat)
    (hPos : 1 ≤ ecLen) (hLe : ecLen ≤ 255) :
    ((∀ c ∈ rsGenerator ecLen, c < 256) ∧
      codePoly (rsGenerator ecLen) = ∏ i ∈ Finset.range ecLen, (X - C (Gf256.alpha ^ i))) ∧
    ((∀ c ∈ rsEncode data ecLen, c < 256) ∧
      codePoly (rsEncode data ecLen) =
        codePoly data * X ^ ecLen %ₘ codePoly (rsGenerator ecLen)) ∧
    ∀ i < ecLen, (codePoly (data ++ rsEncode data ecLen)).eval (Gf256.alpha ^ i) = 0 := by
  have hTable : ecLen ≤ 512 := by omega
  refine ⟨⟨?_, ?_⟩, ⟨rsEncode_lt hData hPos hTable, codePoly_rsEncode hData hPos hTable⟩, ?_⟩
  · rw [rsGenerator_eq hTable]
    exact fun c => lt_of_mem_map_val
  · rw [codePoly_rsGenerator hTable, ofCoeffs_generator]
  · intro i hi
    obtain ⟨quotient, hCode⟩ := codePoly_append_rsEncode hData hPos hTable
    have hFactor : (X - C (Gf256.alpha ^ i) : Gf256[X]).eval (Gf256.alpha ^ i) = 0 := by
      rw [eval_sub, eval_X, eval_C, sub_self]
    rw [hCode, eval_mul, ofCoeffs_generator, eval_prod,
      Finset.prod_eq_zero (Finset.mem_range.mpr hi) hFactor, zero_mul]

/-- The ten error correction codewords of two bytes. -/
theorem rsEncode_valid_pair :
    ((∀ c ∈ rsGenerator 10, c < 256) ∧
      codePoly (rsGenerator 10) = ∏ i ∈ Finset.range 10, (X - C (Gf256.alpha ^ i))) ∧
    ((∀ c ∈ rsEncode [64, 199] 10, c < 256) ∧
      codePoly (rsEncode [64, 199] 10) =
        codePoly [64, 199] * X ^ 10 %ₘ codePoly (rsGenerator 10)) ∧
    ∀ i < 10, (codePoly ([64, 199] ++ rsEncode [64, 199] 10)).eval (Gf256.alpha ^ i) = 0 :=
  rsEncode_valid [64, 199] (by decide) 10 (by decide) (by decide)

end VpnPayment.Qr
