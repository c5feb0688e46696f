import VpnPayment.Qr.Placement

/-! How many modules of each version take bits. The reserved columns of a row are
counted as a set of bits, so that the count is a computation on small numbers. -/
namespace VpnPayment.Qr

open Collections

/-- `width` columns from `start` on, as a set of bits. -/
def span (start width : Nat) : Nat :=
  (2 ^ width - 1) <<< start

/-- The reserved columns of a row. -/
def rowMask (version : Version) (r : Nat) : Nat :=
  let size := symbolSize version
  (if r ≤ 7 then span 0 8 ||| span (size - 8) 8 else 0) |||
    (if size ≤ r + 8 then span 0 8 else 0) |||
    (if r = 6 then span 8 (size - 16) else 0) |||
    (if 8 ≤ r ∧ r + 8 < size then span 6 1 else 0) |||
    (encoderCentres version).foldr (fun p mask =>
      (if p.1 ≤ r + 2 ∧ r ≤ p.1 + 2 then span (p.2 - 2) 5 else 0) ||| mask) 0 |||
    (if r = 8 then span 0 9 ||| span (size - 8) 8 else 0) |||
    (if r ≤ 8 ∨ size ≤ r + 8 then span 8 1 else 0) |||
    if 7 ≤ versionNumber version then
      (if r < 6 then span (size - 11) 3 else 0) |||
        if size ≤ r + 11 ∧ r + 8 < size then span 0 6 else 0
    else 0

variable {version : Version} {r c : Nat}

theorem testBit_span (start width c : Nat) :
    (span start width).testBit c = true ↔ start ≤ c ∧ c < start + width := by
  simp only [span, Nat.testBit_shiftLeft, Nat.testBit_two_pow_sub_one, Bool.and_eq_true,
    decide_eq_true_eq]
  omega

theorem testBit_ite_zero (p : Prop) [Decidable p] (mask c : Nat) :
    (if p then mask else 0).testBit c = true ↔ p ∧ mask.testBit c = true := by
  split <;> simp [*]

theorem testBit_patterns (centres : List (Nat × Nat)) (hInside : ∀ p ∈ centres, 2 ≤ p.2) :
    (centres.foldr (fun p mask =>
      (if p.1 ≤ r + 2 ∧ r ≤ p.1 + 2 then span (p.2 - 2) 5 else 0) ||| mask) 0).testBit c = true ↔
      ∃ p ∈ centres, Near p r c := by
  induction centres with
  | nil => simp
  | cons p rest ih =>
      have hp := hInside p List.mem_cons_self
      rw [List.foldr_cons, Nat.testBit_or, Bool.or_eq_true,
        ih fun q hq => hInside q (List.mem_cons_of_mem _ hq), testBit_ite_zero, testBit_span]
      simp only [List.mem_cons, exists_eq_or_imp]
      refine or_congr_left ?_
      unfold Near
      omega

theorem testBit_rowMask (hr : r < symbolSize version) (hc : c < symbolSize version) :
    (rowMask version r).testBit c = true ↔
      FunctionModule version (encoderCentres version) r c := by
  have hSize := symbolSize_le version
  have hInside : ∀ p ∈ encoderCentres version, 2 ≤ p.2 := fun p hp =>
    (centrePairs_inside version p (List.mem_of_mem_filter hp)).2.2.1
  have hFinder : ((r ≤ 7 ∧ ((0 ≤ c ∧ c < 0 + 8) ∨ symbolSize version - 8 ≤ c ∧
      c < symbolSize version - 8 + 8)) ∨ symbolSize version ≤ r + 8 ∧ 0 ≤ c ∧ c < 0 + 8) ↔
      InFinder (symbolSize version) r c := by
    unfold InFinder
    omega
  have hTiming : ((r = 6 ∧ 8 ≤ c ∧ c < 8 + (symbolSize version - 16)) ∨
      (8 ≤ r ∧ r + 8 < symbolSize version) ∧ 6 ≤ c ∧ c < 6 + 1) ↔
      InTiming (symbolSize version) r c := by
    unfold InTiming
    omega
  have hFormat : ((r = 8 ∧ ((0 ≤ c ∧ c < 0 + 9) ∨ symbolSize version - 8 ≤ c ∧
      c < symbolSize version - 8 + 8)) ∨
      (r ≤ 8 ∨ symbolSize version ≤ r + 8) ∧ 8 ≤ c ∧ c < 8 + 1) ↔
      InFormat (symbolSize version) r c := by
    unfold InFormat
    omega
  have hVersion : ((r < 6 ∧ symbolSize version - 11 ≤ c ∧ c < symbolSize version - 11 + 3) ∨
      (symbolSize version ≤ r + 11 ∧ r + 8 < symbolSize version) ∧ 0 ≤ c ∧ c < 0 + 6) ↔
      InVersion (symbolSize version) r c := by
    unfold InVersion
    omega
  rw [FunctionModule, ← hFinder, ← hTiming, ← hFormat, ← hVersion]
  simp only [rowMask, Nat.testBit_or, Bool.or_eq_true, testBit_patterns _ hInside,
    testBit_ite_zero, testBit_span, or_assoc]

/-- How many of the first `width` bits are not set. -/
def clearBits : Nat → Nat → Nat
  | 0, _ => 0
  | width + 1, mask => (1 - mask % 2) + clearBits width (mask / 2)

theorem countP_range_testBit (width mask : Nat) :
    ((List.range width).countP fun c => !mask.testBit c) = clearBits width mask := by
  induction width generalizing mask with
  | zero => rfl
  | succ width ih =>
      have hShift : ((fun c => !mask.testBit c) ∘ Nat.succ) = fun c => !(mask / 2).testBit c := by
        funext c
        simp [Nat.testBit_succ]
      have hFirst : (if !mask.testBit 0 then 1 else 0) = 1 - mask % 2 := by
        rw [Nat.testBit_zero]
        rcases Nat.mod_two_eq_zero_or_one mask with hBit | hBit <;> simp [hBit]
      rw [List.range_succ_eq_map, List.countP_cons, List.countP_map, hShift, ih, hFirst, clearBits,
        Nat.add_comm]

/-- How many modules of each version take bits. -/
def dataModules (version : Version) : Nat :=
  [208, 359, 567, 807, 1079, 1383, 1608, 1976, 2376, 2808].getD version.val 0

theorem sum_rowMask : ∀ version : Version,
    ((List.range (symbolSize version)).map fun r =>
      (List.range (symbolSize version)).countP fun c => !(rowMask version r).testBit c).sum =
      dataModules version := by
  simp only [countP_range_testBit]
  decide +kernel

theorem length_dataCells (version : Version) : (dataCells version).length = dataModules version := by
  have hPerm : (dataCells version).Perm ((List.range (symbolSize version)).flatMap fun r =>
      ((List.range (symbolSize version)).filter fun c => !(rowMask version r).testBit c).map
        (Prod.mk r)) := by
    refine (List.perm_ext_iff_of_nodup (nodup_zigzag_symbolSize.filter _) ?_).mpr ?_
    · refine List.nodup_flatMap.mpr ⟨fun r _ => ?_, ?_⟩
      · exact (List.nodup_range.filter _).map fun x y h => (Prod.mk.inj h).2
      · refine List.nodup_range.pairwise_of_forall_ne fun r _ r' _ hne => ?_
        intro cell hCell hCell'
        obtain ⟨c, -, rfl⟩ := List.mem_map.mp hCell
        obtain ⟨c', -, hEq⟩ := List.mem_map.mp hCell'
        exact hne (Prod.mk.inj hEq).1.symm
    · rintro ⟨r, c⟩
      change (r, c) ∈ dataCells version ↔ _
      rw [mem_dataCells]
      simp only [List.mem_flatMap, List.mem_map, List.mem_filter, List.mem_range, Prod.mk.injEq]
      constructor
      · rintro ⟨hr, hc, hData⟩
        refine ⟨r, hr, c, ⟨hc, ?_⟩, rfl, rfl⟩
        rw [Bool.not_eq_true', Bool.eq_false_iff, Ne, testBit_rowMask hr hc, ← reserved_iff hr hc]
        simp [hData]
      · rintro ⟨r', hr, c', ⟨hc, hData⟩, rfl, rfl⟩
        refine ⟨hr, hc, ?_⟩
        rw [Bool.not_eq_true', Bool.eq_false_iff, Ne, testBit_rowMask hr hc,
          ← reserved_iff hr hc] at hData
        simpa using hData
  rw [hPerm.length_eq, List.length_flatMap, ← sum_rowMask]
  simp only [List.length_map, List.countP_eq_length_filter]

end VpnPayment.Qr
