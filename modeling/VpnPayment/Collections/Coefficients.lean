import Mathlib.Algebra.Polynomial.Div
import Mathlib.Tactic.Ring

/-! Polynomials as lists of coefficients, highest degree first, and long division
by a monic polynomial in a shift register. -/
namespace Collections

open Polynomial

variable {R : Type*} [CommRing R]

/-- The polynomial with the given coefficients. -/
noncomputable def ofCoeffs : List R → R[X]
  | [] => 0
  | c :: coeffs => C c * X ^ coeffs.length + ofCoeffs coeffs

@[simp] theorem ofCoeffs_nil : ofCoeffs ([] : List R) = 0 := rfl

theorem ofCoeffs_cons (c : R) (coeffs : List R) :
    ofCoeffs (c :: coeffs) = C c * X ^ coeffs.length + ofCoeffs coeffs := rfl

theorem ofCoeffs_append (left right : List R) :
    ofCoeffs (left ++ right) = ofCoeffs left * X ^ right.length + ofCoeffs right := by
  induction left with
  | nil => simp
  | cons c left ih =>
      rw [List.cons_append, ofCoeffs_cons, ih, ofCoeffs_cons, List.length_append]
      ring

theorem ofCoeffs_replicate_zero (n : ℕ) : ofCoeffs (List.replicate n (0 : R)) = 0 := by
  induction n with
  | zero => rfl
  | succ n ih => rw [List.replicate_succ, ofCoeffs_cons, ih, C_0, zero_mul, zero_add]

theorem ofCoeffs_map_mul (coeffs : List R) (c : R) :
    ofCoeffs (coeffs.map (· * c)) = ofCoeffs coeffs * C c := by
  induction coeffs with
  | nil => simp
  | cons d coeffs ih =>
      rw [List.map_cons, ofCoeffs_cons, ih, ofCoeffs_cons, List.length_map, C_mul]
      ring

theorem ofCoeffs_zipWith {left right : List R} (c : R) (h : left.length = right.length) :
    ofCoeffs (List.zipWith (fun a b => a + b * c) left right) =
      ofCoeffs left + ofCoeffs right * C c := by
  induction left generalizing right with
  | nil =>
      cases right with
      | nil => simp
      | cons b right => cases h
  | cons a left ih =>
      cases right with
      | nil => cases h
      | cons b right =>
          have hRest : left.length = right.length := Nat.succ.inj h
          have hZip : (List.zipWith (fun a b => a + b * c) left right).length = left.length := by
            rw [List.length_zipWith, hRest, Nat.min_self]
          rw [List.zipWith_cons_cons, ofCoeffs_cons, ih hRest, ofCoeffs_cons, ofCoeffs_cons, hZip,
            hRest, C_add, C_mul]
          ring

theorem degree_ofCoeffs_lt (coeffs : List R) : (ofCoeffs coeffs).degree < coeffs.length := by
  induction coeffs with
  | nil =>
      rw [ofCoeffs_nil, degree_zero]
      exact WithBot.bot_lt_coe _
  | cons c coeffs ih =>
      have hStep : (coeffs.length : WithBot ℕ) < (c :: coeffs).length := by
        rw [List.length_cons]
        exact_mod_cast Nat.lt_succ_self _
      apply lt_of_le_of_lt (degree_add_le _ _)
      apply max_lt
      · exact lt_of_le_of_lt (degree_C_mul_X_pow_le _ _) hStep
      · exact ih.trans hStep

theorem monic_ofCoeffs (coeffs : List R) : (ofCoeffs (1 :: coeffs)).Monic := by
  rw [ofCoeffs_cons, C_1, one_mul]
  exact monic_X_pow_add (degree_ofCoeffs_lt coeffs)

theorem degree_ofCoeffs_one [Nontrivial R] (coeffs : List R) :
    (ofCoeffs (1 :: coeffs)).degree = coeffs.length := by
  rw [ofCoeffs_cons, C_1, one_mul, degree_add_eq_left_of_degree_lt, degree_X_pow]
  rw [degree_X_pow]
  exact degree_ofCoeffs_lt coeffs

/-- Multiplication by `x + c`, as the sum of the list and its scaled copy, one place
further down. -/
theorem ofCoeffs_mul_root (coeffs : List R) (c : R) :
    ofCoeffs (List.zipWith (· + ·) (coeffs ++ [0]) (0 :: coeffs.map (· * c))) =
      ofCoeffs coeffs * (X + C c) := by
  have hLength : (coeffs ++ [0]).length = ((0 : R) :: coeffs.map (· * c)).length := by simp
  have hZip := ofCoeffs_zipWith 1 hLength
  simp only [mul_one, C_1] at hZip
  rw [hZip, ofCoeffs_append, ofCoeffs_cons, ofCoeffs_cons, ofCoeffs_map_mul]
  simp
  ring

/-- One step of the long division by `1 :: gen`: the next coefficient comes in, the
register is shifted, and what leaves it is taken off as a multiple of the divisor. -/
def divStep (gen register : List R) (c : R) : List R :=
  List.zipWith (fun a b => a + b * -(c + register.headD 0)) (register.tail ++ [0]) gen

theorem length_divStep {gen register : List R} {c : R} (hPos : 0 < gen.length)
    (h : register.length = gen.length) : (divStep gen register c).length = gen.length := by
  rw [divStep, List.length_zipWith, List.length_append, List.length_tail, h]
  simp only [List.length_singleton]
  omega

/-- A step that takes nothing off is a shift. -/
theorem divStep_of_eq_zero {gen register : List R} {c : R} (hZero : c + register.headD 0 = 0)
    (h : (register.tail ++ [0]).length = gen.length) :
    divStep gen register c = register.tail ++ [0] := by
  apply List.ext_getElem
  · rw [divStep, List.length_zipWith, h, Nat.min_self]
  · intro i hLeft hRight
    simp only [divStep, List.getElem_zipWith, hZero, neg_zero, mul_zero, add_zero]

theorem ofCoeffs_divStep {gen register : List R} {c : R} (hPos : 0 < gen.length)
    (h : register.length = gen.length) :
    ofCoeffs (divStep gen register c) = ofCoeffs register * X + C c * X ^ gen.length -
      C (c + register.headD 0) * ofCoeffs (1 :: gen) := by
  cases register with
  | nil =>
      rw [← h] at hPos
      cases hPos
  | cons top register =>
      have hShift : (register ++ [0]).length = gen.length := by
        rw [List.length_append, ← h]
        rfl
      rw [divStep, List.tail_cons, List.headD_cons, ofCoeffs_zipWith _ hShift, ofCoeffs_append,
        ofCoeffs_cons 0, ofCoeffs_cons top, ofCoeffs_cons 1, ← h, C_neg, C_1]
      simp only [List.length_cons, List.length_nil, C_0, ofCoeffs_nil, C_add]
      ring

/-- What the register has taken in is its content, up to a multiple of the divisor. -/
theorem foldl_divStep {gen : List R} (hPos : 0 < gen.length) (coeffs register : List R)
    (h : register.length = gen.length) :
    (coeffs.foldl (divStep gen) register).length = gen.length ∧
    ∃ quotient, ofCoeffs register * X ^ coeffs.length + ofCoeffs coeffs * X ^ gen.length =
      ofCoeffs (coeffs.foldl (divStep gen) register) + ofCoeffs (1 :: gen) * quotient := by
  induction coeffs generalizing register with
  | nil => exact ⟨h, 0, by simp⟩
  | cons c coeffs ih =>
      obtain ⟨hLength, quotient, hRest⟩ := ih (divStep gen register c) (length_divStep hPos h)
      refine ⟨hLength, quotient + C (c + register.headD 0) * X ^ coeffs.length, ?_⟩
      rw [ofCoeffs_divStep hPos h] at hRest
      have hSum : ofCoeffs register * X ^ (c :: coeffs).length +
          ofCoeffs (c :: coeffs) * X ^ gen.length =
          (ofCoeffs register * X + C c * X ^ gen.length -
            C (c + register.headD 0) * ofCoeffs (1 :: gen)) * X ^ coeffs.length +
            ofCoeffs coeffs * X ^ gen.length +
            ofCoeffs (1 :: gen) * (C (c + register.headD 0) * X ^ coeffs.length) := by
        rw [ofCoeffs_cons, List.length_cons]
        ring
      rw [hSum, hRest, List.foldl_cons]
      ring

/-- The register ends with the remainder of the shifted input. -/
theorem ofCoeffs_foldl_divStep [Nontrivial R] {gen : List R} (hPos : 0 < gen.length)
    (coeffs : List R) :
    ofCoeffs (coeffs.foldl (divStep gen) (List.replicate gen.length 0)) =
      ofCoeffs coeffs * X ^ gen.length %ₘ ofCoeffs (1 :: gen) := by
  obtain ⟨hLength, quotient, hEq⟩ := foldl_divStep hPos coeffs (List.replicate gen.length 0)
    (List.length_replicate ..)
  rw [ofCoeffs_replicate_zero, zero_mul, zero_add] at hEq
  have hDegree : (ofCoeffs (coeffs.foldl (divStep gen) (List.replicate gen.length 0))).degree <
      (ofCoeffs (1 :: gen)).degree := by
    rw [degree_ofCoeffs_one]
    refine lt_of_lt_of_le (degree_ofCoeffs_lt _) ?_
    rw [hLength]
  exact (div_modByMonic_unique quotient _ (monic_ofCoeffs gen) ⟨hEq.symm, hDegree⟩).2.symm

end Collections
