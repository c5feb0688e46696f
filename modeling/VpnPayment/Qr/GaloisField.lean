import VpnPayment.Qr.Encoder
import Mathlib.Algebra.Field.ZMod
import Mathlib.Data.List.Iterate
import Mathlib.Data.Nat.Bitwise
import Mathlib.FieldTheory.Finiteness
import Mathlib.RingTheory.AdjoinRoot

/-! The arithmetic of the tables is that of the field with 256 elements. -/
namespace VpnPayment.Qr

section doubling

/-- Multiplication by α: one step of the loop that fills the tables. -/
def gfDouble (x : Nat) : Nat :=
  let doubled := x <<< 1
  if doubled &&& 0x100 ≠ 0 then doubled ^^^ 0x11d else doubled

/-- Doubling stays inside the field. -/
theorem gfDouble_lt : ∀ x < 256, gfDouble x < 256 := by
  decide +kernel

/-- Doubling is not zero on nonzero bytes. -/
theorem gfDouble_ne_zero : ∀ x < 256, x ≠ 0 → gfDouble x ≠ 0 := by
  decide +kernel

/-- Doubling as a shift, reduced by the modulus when the top bit was set. -/
theorem gfDouble_eq (x : Nat) :
    gfDouble x = x <<< 1 ^^^ if x.testBit 7 then 0x11d else 0 := by
  have hBit : x <<< 1 &&& 0x100 = (x.testBit 7).toNat * 0x100 := by
    have hAnd := Nat.and_two_pow (x <<< 1) 8
    rwa [Nat.testBit_shiftLeft] at hAnd
  unfold gfDouble
  dsimp only
  rw [hBit]
  cases x.testBit 7 <;> simp

/-- Doubling is linear. -/
theorem gfDouble_xor (x y : Nat) : gfDouble (x ^^^ y) = gfDouble x ^^^ gfDouble y := by
  have hSwap (a b c d : Nat) : (a ^^^ b) ^^^ (c ^^^ d) = (a ^^^ c) ^^^ (b ^^^ d) := by
    rw [Nat.xor_assoc, Nat.xor_assoc, ← Nat.xor_assoc b, Nat.xor_comm b, Nat.xor_assoc c]
  rw [gfDouble_eq, gfDouble_eq x, gfDouble_eq y, hSwap, Nat.shiftLeft_xor_distrib, Nat.testBit_xor]
  cases x.testBit 7 <;> cases y.testBit 7 <;> simp

/-- Two bytes with one double are equal. -/
theorem gfDouble_inj {x y : Nat} (hx : x < 256) (hy : y < 256)
    (h : gfDouble x = gfDouble y) : x = y := by
  by_contra hNe
  have hZero : gfDouble (x ^^^ y) = 0 := by rw [gfDouble_xor, h, Nat.xor_self]
  have hByte : x ^^^ y < 2 ^ 8 := Nat.xor_lt_two_pow hx hy
  exact gfDouble_ne_zero _ hByte (fun h => hNe (Nat.xor_eq_zero_iff.mp h)) hZero

/-- Repeated doubling stays inside the field. -/
theorem iterate_gfDouble_lt {x : Nat} (h : x < 256) (k : Nat) : gfDouble^[k] x < 256 := by
  induction k with
  | zero => exact h
  | succ k ih =>
      rw [Function.iterate_succ_apply']
      exact gfDouble_lt _ ih

/-- Repeated doubling of a nonzero byte does not reach zero. -/
theorem iterate_gfDouble_ne_zero {x : Nat} (h : x < 256) (hNonzero : x ≠ 0) (k : Nat) :
    gfDouble^[k] x ≠ 0 := by
  induction k with
  | zero => exact hNonzero
  | succ k ih =>
      rw [Function.iterate_succ_apply']
      exact gfDouble_ne_zero _ (iterate_gfDouble_lt h k) ih

/-- Repeated doubling is additive. -/
theorem iterate_gfDouble_xor (k x y : Nat) :
    gfDouble^[k] (x ^^^ y) = gfDouble^[k] x ^^^ gfDouble^[k] y := by
  induction k generalizing x y with
  | zero => rfl
  | succ k ih => rw [Function.iterate_succ_apply, gfDouble_xor, ih]; rfl

theorem iterate_gfDouble_zero (k : Nat) : gfDouble^[k] 0 = 0 :=
  Function.iterate_fixed (by decide) k

/-- 255 doublings lead back to one. -/
theorem iterate_gfDouble_period : gfDouble^[255] 1 = 1 := by
  decide +kernel

/-- No fewer than 255 doublings do. -/
theorem one_notMem_powers : 1 ∉ List.iterate gfDouble 2 254 := by
  decide +kernel

/-- The powers of α below its order are distinct. -/
theorem powers_inj {i j : Nat} (hi : i < 255) (hj : j < 255)
    (h : gfDouble^[i] 1 = gfDouble^[j] 1) : i = j := by
  have hLess : ∀ i j, i < j → j < 255 → gfDouble^[i] 1 ≠ gfDouble^[j] 1 := by
    intro i
    induction i with
    | zero =>
        intro j hPos hj hOne
        obtain ⟨k, rfl⟩ := Nat.exists_eq_add_of_lt hPos
        apply one_notMem_powers
        rw [List.mem_iterate]
        refine ⟨k, by omega, ?_⟩
        rw [Nat.zero_add, Function.iterate_succ_apply] at hOne
        exact hOne
    | succ i ih =>
        intro j hLt hj hEq
        obtain ⟨k, rfl⟩ := Nat.exists_eq_add_of_lt hLt
        have hStep : i + 1 + k + 1 = (i + 1 + k) + 1 := rfl
        rw [hStep, Function.iterate_succ_apply', Function.iterate_succ_apply'] at hEq
        apply ih (i + 1 + k) (by omega) (by omega)
        apply gfDouble_inj _ _ hEq
        · exact iterate_gfDouble_lt (by decide) i
        · exact iterate_gfDouble_lt (by decide) _
  obtain hLt | hEq | hGt := Nat.lt_trichotomy i j
  · exact absurd h (hLess i j hLt hj)
  · exact hEq
  · exact absurd h.symm (hLess j i hGt hi)

end doubling

section tables

/-- What the first loop has written before it writes place `i`. -/
structure Filled (i : Nat) (tables : Array Nat × Array Nat × Nat) : Prop where
  sizeExp : tables.1.size = 512
  sizeLog : tables.2.1.size = 256
  exp : ∀ j < i, tables.1.getD j 0 = gfDouble^[j] 1
  log : ∀ j < i, tables.2.1.getD (gfDouble^[j] 1) 0 = j
  next : tables.2.2 = gfDouble^[i] 1

/-- One round of the loop of `gfTables` fills one more entry of both tables. -/
theorem Filled.step {i : Nat} {tables : Array Nat × Array Nat × Nat} (hFilled : Filled i tables)
    (hi : i < 255) : Filled (i + 1) (tables.1.setIfInBounds i tables.2.2,
      tables.2.1.setIfInBounds tables.2.2 i, gfDouble tables.2.2) := by
  have hByte := iterate_gfDouble_lt (x := 1) (by decide)
  constructor
  · simpa using hFilled.sizeExp
  · simpa using hFilled.sizeLog
  · intro j hj
    have hAt : j < tables.1.size := by
      rw [hFilled.sizeExp]
      omega
    by_cases hEq : i = j
    · subst hEq
      simp [Array.getD_eq_getD_getElem?, hAt, hFilled.next]
    · have hOld := hFilled.exp j (by omega)
      simpa [Array.getD_eq_getD_getElem?, Array.getElem?_setIfInBounds, hEq] using hOld
  · intro j hj
    dsimp only
    rw [hFilled.next]
    have hAt : gfDouble^[j] 1 < tables.2.1.size := by
      rw [hFilled.sizeLog]
      exact hByte j
    by_cases hEq : i = j
    · subst hEq
      simp [Array.getD_eq_getD_getElem?, hAt]
    · have hOld := hFilled.log j (by omega)
      have hOther : gfDouble^[i] 1 ≠ gfDouble^[j] 1 := fun h => hEq (powers_inj hi (by omega) h)
      simpa [Array.getD_eq_getD_getElem?, Array.getElem?_setIfInBounds, hOther] using hOld
  · dsimp only
    rw [hFilled.next, Function.iterate_succ_apply']

/-- The loop fills both tables, and the second loop repeats the exponentials. -/
theorem filled_tables : ∃ tables, Filled 255 tables ∧ gfTables =
    ((List.range' 255 257).foldl (fun exp i => exp.setIfInBounds i (exp.getD (i - 255) 0)) tables.1,
      tables.2.1) := by
  have hRun : ∀ n ≤ 255, Filled n ((List.range n).foldl
      (fun (tables : Array Nat × Array Nat × Nat) i => (tables.1.setIfInBounds i tables.2.2,
        tables.2.1.setIfInBounds tables.2.2 i, gfDouble tables.2.2))
      (Array.replicate 512 0, Array.replicate 256 0, 1)) := by
    intro n
    induction n with
    | zero => exact fun _ => ⟨by simp, by simp, by simp, by simp, rfl⟩
    | succ n ih =>
        intro hLe
        rw [List.range_succ, List.foldl_append]
        exact (ih (by omega)).step (by omega)
  refine ⟨_, hRun 255 (le_refl _), ?_⟩
  simp only [gfTables, gfDouble]

/-- The second loop repeats the powers, whose period is 255. -/
theorem repeat_powers {exp : Array Nat} (hSize : exp.size = 512)
    (hExp : ∀ j < 255, exp.getD j 0 = gfDouble^[j] 1) :
    ∀ k ≤ 257, ∀ j < 255 + k, ((List.range' 255 k).foldl
      (fun exp i => exp.setIfInBounds i (exp.getD (i - 255) 0)) exp).getD j 0 = gfDouble^[j] 1 := by
  have hSizes : ∀ k, ((List.range' 255 k).foldl
      (fun exp i => exp.setIfInBounds i (exp.getD (i - 255) 0)) exp).size = 512 := by
    intro k
    induction k with
    | zero => exact hSize
    | succ k ih => rw [List.range'_1_concat, List.foldl_append]; simpa using ih
  intro k
  induction k with
  | zero => exact fun _ => hExp
  | succ k ih =>
      intro hLe j hj
      have hOld := ih (by omega)
      have hAt := hSizes k
      rw [List.range'_1_concat, List.foldl_append]
      generalize (List.range' 255 k).foldl _ exp = done at hOld hAt ⊢
      simp only [List.foldl_cons, List.foldl_nil]
      by_cases hEq : 255 + k = j
      · subst hEq
        have hPeriod : gfDouble^[255 + k] 1 = gfDouble^[k] 1 := by
          rw [Nat.add_comm, Function.iterate_add_apply, iterate_gfDouble_period]
        rw [hPeriod, ← hOld k (by omega)]
        simp [Array.getD_eq_getD_getElem?, hAt, show 255 + k < 512 by omega]
      · rw [← hOld j (by omega)]
        simp [Array.getD_eq_getD_getElem?, hEq]

/-- The table of exponentials. -/
theorem gfExp_eq {i : Nat} (h : i < 512) : gfExp i = gfDouble^[i] 1 := by
  obtain ⟨tables, hFilled, hTables⟩ := filled_tables
  unfold gfExp
  rw [hTables]
  dsimp only
  exact repeat_powers hFilled.sizeExp hFilled.exp 257 (le_refl _) i (by omega)

/-- The logarithm table inverts the powers. -/
theorem gfLog_power {i : Nat} (h : i < 255) : gfLog (gfDouble^[i] 1) = i := by
  obtain ⟨tables, hFilled, hTables⟩ := filled_tables
  unfold gfLog
  rw [hTables]
  exact hFilled.log i h

/-- Every byte but zero is a power of α, and the table of logarithms holds its
exponent. -/
theorem power_gfLog {x : Nat} (hx : x < 256) (hNonzero : x ≠ 0) :
    gfLog x < 255 ∧ gfDouble^[gfLog x] 1 = x := by
  have hMem : x ∈ (Finset.range 255).image fun i => gfDouble^[i] 1 := by
    have hSub : (Finset.range 255).image (fun i => gfDouble^[i] 1) ⊆ Finset.Ico 1 256 := by
      intro y hy
      obtain ⟨i, -, rfl⟩ := Finset.mem_image.mp hy
      have hPos := iterate_gfDouble_ne_zero (x := 1) (by decide) (by decide) i
      have hLt := iterate_gfDouble_lt (x := 1) (by decide) i
      exact Finset.mem_Ico.mpr ⟨Nat.pos_of_ne_zero hPos, hLt⟩
    have hCard : ((Finset.range 255).image fun i => gfDouble^[i] 1).card = 255 := by
      rw [Finset.card_image_of_injOn, Finset.card_range]
      intro i hi j hj hEq
      exact powers_inj (Finset.mem_range.mp hi) (Finset.mem_range.mp hj) hEq
    rw [Finset.eq_of_subset_of_card_le hSub (by rw [hCard, Nat.card_Ico])]
    exact Finset.mem_Ico.mpr ⟨Nat.pos_of_ne_zero hNonzero, hx⟩
  obtain ⟨i, hi, rfl⟩ := Finset.mem_image.mp hMem
  have hLog := gfLog_power (Finset.mem_range.mp hi)
  rw [hLog]
  exact ⟨Finset.mem_range.mp hi, rfl⟩

/-- Multiplication by a byte is repeated doubling. -/
theorem gfMul_eq {a b : Nat} (ha : a < 256) (hNonzero : a ≠ 0) (hb : b < 256) :
    gfMul a b = gfDouble^[gfLog a] b := by
  unfold gfMul
  by_cases hZero : b = 0
  · rw [if_pos (.inr hZero), hZero, iterate_gfDouble_zero]
  · obtain ⟨hLogA, -⟩ := power_gfLog ha hNonzero
    obtain ⟨hLogB, hB⟩ := power_gfLog hb hZero
    rw [if_neg (by simp [hNonzero, hZero]), gfExp_eq (by omega), Function.iterate_add_apply, hB]

end tables

/-- A byte, as an element of the field. -/
@[ext] structure Gf256 where
  val : Nat
  lt : val < 256
deriving DecidableEq

namespace Gf256

def ofNat (n : Nat) : Gf256 :=
  ⟨n % 256, Nat.mod_lt _ (by decide)⟩

@[simp] theorem val_ofNat {n : Nat} (h : n < 256) : (ofNat n).val = n :=
  Nat.mod_eq_of_lt h

@[simp] theorem ofNat_val (a : Gf256) : ofNat a.val = a :=
  Gf256.ext (val_ofNat a.lt)

instance : Zero Gf256 := ⟨⟨0, by decide⟩⟩

instance : One Gf256 := ⟨⟨1, by decide⟩⟩

@[simp] theorem val_zero : (0 : Gf256).val = 0 := rfl

@[simp] theorem val_one : (1 : Gf256).val = 1 := rfl

/-- Only zero has the byte zero. -/
theorem val_ne_zero {a : Gf256} (h : a ≠ 0) : a.val ≠ 0 :=
  fun hVal => h (Gf256.ext hVal)

def add (a b : Gf256) : Gf256 :=
  ⟨a.val ^^^ b.val, Nat.xor_lt_two_pow (n := 8) a.lt b.lt⟩

/-- Products are bytes. -/
theorem gfMul_lt (a b : Gf256) : gfMul a.val b.val < 256 := by
  by_cases hZero : a.val = 0
  · rw [gfMul, if_pos (.inl hZero)]
    decide
  · rw [gfMul_eq a.lt hZero b.lt]
    exact iterate_gfDouble_lt b.lt _

def mul (a b : Gf256) : Gf256 :=
  ⟨gfMul a.val b.val, gfMul_lt a b⟩

/-- A product with a nonzero factor is a repeated doubling of the other one. -/
theorem val_mul_of_ne {a : Gf256} (h : a ≠ 0) (b : Gf256) :
    (a.mul b).val = gfDouble^[gfLog a.val] b.val :=
  gfMul_eq a.lt (val_ne_zero h) b.lt

theorem zero_mul' (a : Gf256) : mul 0 a = 0 := by
  apply Gf256.ext
  show gfMul 0 a.val = 0
  rw [gfMul, if_pos (.inl rfl)]

theorem mul_comm' (a b : Gf256) : mul a b = mul b a := by
  apply Gf256.ext
  simp only [mul, gfMul, Or.comm, Nat.add_comm]

theorem mul_zero' (a : Gf256) : mul a 0 = 0 := by
  rw [mul_comm', zero_mul']

/-- Both sides double the third factor by the sum of the two logarithms. -/
theorem mul_assoc' (a b c : Gf256) : mul (mul a b) c = mul a (mul b c) := by
  by_cases hA : a = 0
  · rw [hA, zero_mul', zero_mul', zero_mul']
  by_cases hC : c = 0
  · rw [hC, mul_zero', mul_zero', mul_zero']
  rw [mul_comm' (mul a b) c, mul_comm' b c]
  apply Gf256.ext
  rw [val_mul_of_ne hC, val_mul_of_ne hA, val_mul_of_ne hA, val_mul_of_ne hC]
  exact Function.Commute.iterate_iterate (Function.Commute.refl gfDouble) _ _ _

/-- Repeated doubling is additive. -/
theorem mul_add' (a b c : Gf256) : mul a (add b c) = add (mul a b) (mul a c) := by
  by_cases hA : a = 0
  · rw [hA, zero_mul', zero_mul', zero_mul']
    rfl
  · have hVal : (mul a (add b c)).val = (mul a b).val ^^^ (mul a c).val := by
      rw [val_mul_of_ne hA, val_mul_of_ne hA, val_mul_of_ne hA]
      exact iterate_gfDouble_xor _ _ _
    exact Gf256.ext hVal

theorem one_mul' (a : Gf256) : mul 1 a = a := by
  have hLog : gfLog 1 = 0 := gfLog_power (i := 0) (by decide)
  apply Gf256.ext
  rw [val_mul_of_ne (by decide), val_one, hLog]
  rfl

/-- Every element is its own negative. -/
instance : CommRing Gf256 where
  add := add
  mul := mul
  neg a := a
  add_assoc a b c := Gf256.ext (Nat.xor_assoc _ _ _)
  zero_add a := Gf256.ext (Nat.zero_xor _)
  add_zero a := Gf256.ext (Nat.xor_zero _)
  add_comm a b := Gf256.ext (Nat.xor_comm _ _)
  neg_add_cancel a := Gf256.ext (Nat.xor_self _)
  left_distrib := mul_add'
  right_distrib a b c := by
    show mul (add a b) c = add (mul a c) (mul b c)
    rw [mul_comm', mul_add', mul_comm' c, mul_comm' c]
  zero_mul := zero_mul'
  mul_zero := mul_zero'
  mul_assoc := mul_assoc'
  mul_comm := mul_comm'
  one_mul := one_mul'
  mul_one a := (mul_comm' a 1).trans (one_mul' a)
  nsmul := @nsmulRec _ _ ⟨add⟩
  zsmul := @zsmulRec _ _ ⟨add⟩ ⟨fun a => a⟩ (@nsmulRec _ _ ⟨add⟩)

@[simp] theorem val_add (a b : Gf256) : (a + b).val = a.val ^^^ b.val := rfl

@[simp] theorem val_mul (a b : Gf256) : (a * b).val = gfMul a.val b.val := rfl

/-- The field has characteristic two. -/
theorem neg_eq (a : Gf256) : -a = a := rfl

/-- The element whose powers fill the tables. -/
def alpha : Gf256 :=
  ⟨2, by decide⟩

/-- A product with the generator is a doubling. -/
theorem val_alpha_mul (a : Gf256) : (alpha * a).val = gfDouble a.val := by
  have hLog : gfLog 2 = 1 := gfLog_power (i := 1) (by decide)
  exact (val_mul_of_ne (by decide) a).trans (congrArg (fun k => gfDouble^[k] a.val) hLog)

/-- The powers of the generator are the repeated doublings of one. -/
theorem val_alpha_pow (i : Nat) : (alpha ^ i).val = gfDouble^[i] 1 := by
  induction i with
  | zero => rfl
  | succ i ih => rw [pow_succ', val_alpha_mul, ih, Function.iterate_succ_apply']

/-- Every nonzero element is a power of the generator. -/
theorem eq_alpha_pow {a : Gf256} (h : a ≠ 0) : a = alpha ^ gfLog a.val := by
  apply Gf256.ext
  rw [val_alpha_pow, (power_gfLog a.lt (val_ne_zero h)).2]

instance : Nontrivial Gf256 :=
  ⟨0, 1, by decide⟩

/-- A nonzero element has the inverse power of the generator as its inverse. -/
theorem isField : IsField Gf256 where
  exists_pair_ne := exists_pair_ne Gf256
  mul_comm := mul_comm
  mul_inv_cancel := by
    intro a ha
    have hLog := (power_gfLog a.lt (val_ne_zero ha)).1
    refine ⟨alpha ^ (255 - gfLog a.val), ?_⟩
    calc a * alpha ^ (255 - gfLog a.val)
        = alpha ^ gfLog a.val * alpha ^ (255 - gfLog a.val) := by rw [← eq_alpha_pow ha]
      _ = alpha ^ 255 := by rw [← pow_add, Nat.add_sub_cancel' (by omega)]
      _ = 1 := Gf256.ext ((val_alpha_pow 255).trans iterate_gfDouble_period)

section modulus

open Polynomial

instance : CharP Gf256 2 :=
  CharTwo.of_one_ne_zero_of_two_eq_zero (by decide) (by rw [← one_add_one_eq_two]; rfl)

/-- The primitive polynomial 0x11D. -/
noncomputable def modulus : (ZMod 2)[X] :=
  X ^ 8 + (X ^ 4 + X ^ 3 + X ^ 2 + 1)

theorem monic_modulus : modulus.Monic :=
  monic_X_pow_add (by compute_degree!)

theorem natDegree_modulus : modulus.natDegree = 8 := by
  unfold modulus
  compute_degree!

/-- The generator is a root of the modulus. -/
theorem alpha_root : alpha ^ 8 + (alpha ^ 4 + alpha ^ 3 + alpha ^ 2 + 1) = 0 := by
  have hPowers : gfDouble^[8] 1 ^^^ (gfDouble^[4] 1 ^^^ gfDouble^[3] 1 ^^^ gfDouble^[2] 1 ^^^ 1) =
      0 := by
    decide
  apply Gf256.ext
  rw [val_add, val_add, val_add, val_add, val_alpha_pow, val_alpha_pow, val_alpha_pow,
    val_alpha_pow, val_one, hPowers, val_zero]

/-- So the residues modulo the polynomial map into the field. -/
theorem eval_modulus : modulus.eval₂ (ZMod.castHom (dvd_refl 2) Gf256) alpha = 0 := by
  rw [modulus, eval₂_add, eval₂_add, eval₂_add, eval₂_add, eval₂_X_pow, eval₂_X_pow, eval₂_X_pow,
    eval₂_X_pow, eval₂_one, alpha_root]

/-- The residue of a polynomial is its value at α. -/
noncomputable def ofResidue : AdjoinRoot modulus →+* Gf256 :=
  AdjoinRoot.lift (ZMod.castHom (dvd_refl 2) Gf256) alpha eval_modulus

/-- Each power of the generator is the image of a power of the indeterminate. -/
theorem ofResidue_surjective : Function.Surjective ofResidue := by
  intro a
  by_cases h : a = 0
  · exact ⟨0, by rw [map_zero, h]⟩
  · exact ⟨AdjoinRoot.root modulus ^ gfLog a.val, by
      rw [map_pow, ofResidue, AdjoinRoot.lift_root, ← eq_alpha_pow h]⟩

/-- An element is its byte. -/
def equivFin : Gf256 ≃ Fin 256 where
  toFun a := ⟨a.val, a.lt⟩
  invFun i := ⟨i.val, i.isLt⟩

/-- There are as many residues as bytes. -/
theorem natCard_residues : Nat.card (AdjoinRoot modulus) = 256 := by
  have : Module.Finite (ZMod 2) (AdjoinRoot modulus) := monic_modulus.finite_adjoinRoot
  have hDim : Module.finrank (ZMod 2) (AdjoinRoot modulus) = 8 := by
    rw [(AdjoinRoot.powerBasis' monic_modulus).finrank]
    exact natDegree_modulus
  rw [Module.natCard_eq_pow_finrank (K := ZMod 2), hDim, Nat.card_zmod]
  rfl

/-- The field is the ring of polynomials over GF(2) modulo 0x11D. -/
noncomputable def residueEquiv : AdjoinRoot modulus ≃+* Gf256 :=
  have : Finite (AdjoinRoot modulus) := Nat.finite_of_card_ne_zero (by rw [natCard_residues]; decide)
  RingEquiv.ofBijective ofResidue (ofResidue_surjective.bijective_of_nat_card_le
    (by rw [natCard_residues, Nat.card_eq_of_equiv_fin equivFin]))

end modulus

end Gf256

end VpnPayment.Qr
