import Mathlib.Data.List.Nodup
import VpnPayment.Qr.Encoder

/-! The order in which the modules of a symbol are filled: stripes of two columns
from right to left, alternately upwards and downwards, the right column first. -/
namespace VpnPayment.Qr

open Collections

/-- The stripe of a column, counted from the left. Column 6 has none. -/
def stripe (c : Nat) : Nat :=
  if c ≤ 5 then c / 2 else (c - 1) / 2

/-- The place of a module in the standard's order. -/
def rank (size : Nat) (cell : Nat × Nat) : Nat :=
  let fromRight := (size - 1) / 2 - 1 - stripe cell.2
  let down := if fromRight % 2 = 0 then size - 1 - cell.1 else cell.1
  let left := if cell.2 ≤ 5 then 1 - cell.2 % 2 else cell.2 % 2
  fromRight * (2 * size) + 2 * down + left

/-- The cells of one stripe in the order in which they are visited. -/
def stripeCells (size : Nat) (upward : Bool) (col : Nat) : List (Nat × Nat) :=
  (List.range size).flatMap fun i =>
    let row := if upward then size - 1 - i else i
    [(row, col), (row, col - 1)]

variable {size r c col : Nat} {upward : Bool}

theorem zigzagFrom_cons (size : Nat) (upward : Bool) (col : Nat) (cols : List Nat) :
    zigzagFrom size upward (col :: cols) =
      stripeCells size upward col ++ zigzagFrom size (!upward) cols := rfl

theorem mem_stripeCells (hCol : 0 < col) :
    (r, c) ∈ stripeCells size upward col ↔ r < size ∧ (c = col ∨ c + 1 = col) := by
  simp only [stripeCells, List.mem_flatMap, List.mem_range, List.mem_cons, Prod.mk.injEq,
    List.not_mem_nil, or_false]
  constructor
  · rintro ⟨i, hi, h⟩
    cases upward <;> simp only [Bool.false_eq_true, if_false, if_true] at h <;> omega
  · rintro ⟨hr, hc⟩
    cases upward with
    | false =>
        refine ⟨r, hr, ?_⟩
        rw [if_neg Bool.false_ne_true]
        omega
    | true =>
        refine ⟨size - 1 - r, by omega, ?_⟩
        rw [if_pos rfl]
        omega

theorem mem_zigzagFrom {cols : List Nat} (hCols : ∀ col ∈ cols, 0 < col) :
    (r, c) ∈ zigzagFrom size upward cols ↔ r < size ∧ ∃ col ∈ cols, c = col ∨ c + 1 = col := by
  induction cols generalizing upward with
  | nil => simp [zigzagFrom]
  | cons col rest ih =>
      rw [zigzagFrom_cons, List.mem_append, mem_stripeCells (hCols col List.mem_cons_self),
        ih fun x hx => hCols x (List.mem_cons_of_mem _ hx)]
      rw [← and_or_left]
      simp only [List.mem_cons, exists_eq_or_imp]

/-- The right columns of the stripes. -/
theorem mem_columns (m : Nat) (hm : 3 ≤ m) :
    col ∈ columns (2 * m) ↔ col = 1 ∨ col = 3 ∨ col = 5 ∨ (8 ≤ col ∧ col ≤ 2 * m ∧ col % 2 = 0) := by
  induction m, hm using Nat.le_induction with
  | base =>
      show col ∈ [5, 3, 1] ↔ _
      simp only [List.mem_cons, List.not_mem_nil, or_false]
      omega
  | succ m hm ih =>
      have hStep : columns (2 * (m + 1)) = (2 * m + 2) :: columns (2 * m) :=
        columns.eq_4 (2 * m) (by omega)
      rw [hStep, List.mem_cons, ih]
      omega

theorem mem_zigzag {half : Nat} (hHalf : 3 ≤ half) :
    (r, c) ∈ zigzag (2 * half + 1) ↔ r < 2 * half + 1 ∧ c < 2 * half + 1 ∧ c ≠ 6 := by
  have hMem : ∀ col, col ∈ columns (2 * half) ↔ _ := fun _ => mem_columns half hHalf
  have hPos : ∀ col ∈ columns (2 * half), 0 < col := by
    intro col hCol
    have := (hMem col).mp hCol
    omega
  unfold zigzag
  rw [Nat.add_sub_cancel, mem_zigzagFrom hPos]
  refine and_congr_right fun _ => ?_
  constructor
  · rintro ⟨col, hCol, h⟩
    have := (hMem col).mp hCol
    omega
  · rintro ⟨hc, h6⟩
    -- the right column of the stripe of `c`
    refine ⟨if c ≤ 5 then c / 2 * 2 + 1 else (c + 1) / 2 * 2, (hMem _).mpr ?_, ?_⟩ <;> split <;> omega

/-- The places of a stripe follow one another. -/
theorem map_rank_stripeCells {fromRight : Nat} (hSize : size % 2 = 1)
    (hStripe : stripe col + fromRight + 1 = (size - 1) / 2)
    (hCol : if col ≤ 5 then col % 2 = 1 else col % 2 = 0 ∧ 8 ≤ col) :
    (stripeCells size (fromRight % 2 = 0) col).map (rank size) =
      List.range' (fromRight * (2 * size)) (2 * size) := by
  have hSame : stripe (col - 1) = stripe col := by
    unfold stripe
    split at hCol <;> split <;> omega
  have hPlace : ∀ i < size, ([(if (decide (fromRight % 2 = 0)) then size - 1 - i else i, col),
      (if (decide (fromRight % 2 = 0)) then size - 1 - i else i, col - 1)]).map (rank size) =
      [fromRight * (2 * size) + 2 * i, fromRight * (2 * size) + 2 * i + 1] := by
    intro i hi
    have hRight : (size - 1) / 2 - 1 - stripe col = fromRight := by omega
    have hRow : (if fromRight % 2 = 0 then size - 1 -
        (if (decide (fromRight % 2 = 0)) then size - 1 - i else i) else
        (if (decide (fromRight % 2 = 0)) then size - 1 - i else i)) = i := by
      by_cases hUp : fromRight % 2 = 0
      · simp only [hUp, if_true, decide_true]
        omega
      · simp only [hUp, if_false, decide_false, Bool.false_eq_true]
    have hLeft : (if col ≤ 5 then 1 - col % 2 else col % 2) = 0 ∧
        (if col - 1 ≤ 5 then 1 - (col - 1) % 2 else (col - 1) % 2) = 1 := by
      constructor <;> split at hCol <;> split <;> omega
    simp only [List.map_cons, List.map_nil, rank, hSame, hRight, hRow, hLeft.1, hLeft.2,
      Nat.add_zero]
  have hRange : ∀ k ≤ size, ((List.range k).flatMap fun i =>
      [fromRight * (2 * size) + 2 * i, fromRight * (2 * size) + 2 * i + 1]) =
      List.range' (fromRight * (2 * size)) (2 * k) := by
    intro k hk
    induction k with
    | zero => rfl
    | succ k ih =>
        rw [List.range_succ, List.flatMap_append, ih (by omega), Nat.mul_succ,
          ← List.range'_append_1]
        rfl
  unfold stripeCells
  rw [List.map_flatMap, ← hRange size le_rfl]
  refine List.flatMap_congr fun i hi => ?_
  exact hPlace i (List.mem_range.mp hi)

/-- The places of the stripes from the right column `2 * m` on. -/
theorem map_rank_zigzagFrom (half m : Nat) (hm : 3 ≤ m) (hHalf : m ≤ half) :
    (zigzagFrom (2 * half + 1) ((half - m) % 2 = 0) (columns (2 * m))).map (rank (2 * half + 1)) =
      List.range' ((half - m) * (2 * (2 * half + 1))) (m * (2 * (2 * half + 1))) := by
  have hStripes : ∀ col fromRight, stripe col + fromRight + 1 = half →
      (if col ≤ 5 then col % 2 = 1 else col % 2 = 0 ∧ 8 ≤ col) → ∀ cols rest,
      (zigzagFrom (2 * half + 1) (!decide (fromRight % 2 = 0)) cols).map (rank (2 * half + 1)) =
        List.range' ((fromRight + 1) * (2 * (2 * half + 1))) rest →
      (zigzagFrom (2 * half + 1) (fromRight % 2 = 0) (col :: cols)).map (rank (2 * half + 1)) =
        List.range' (fromRight * (2 * (2 * half + 1))) (2 * (2 * half + 1) + rest) := by
    intro col fromRight hStripe hCol cols rest hRest
    rw [zigzagFrom_cons, List.map_append, hRest, map_rank_stripeCells (by omega) (by omega) hCol,
      Nat.add_mul fromRight, Nat.one_mul, List.range'_append_1]
  have hFlip : ∀ k, (!decide (k % 2 = 0)) = decide ((k + 1) % 2 = 0) := by
    intro k
    rcases Nat.mod_two_eq_zero_or_one k with h | h <;> simp [h, Nat.add_mod]
  induction m, hm using Nat.le_induction with
  | base =>
      have hEnd : ∀ up start, (zigzagFrom (2 * half + 1) up []).map (rank (2 * half + 1)) =
          List.range' start 0 := fun _ _ => rfl
      have h1 := hStripes 1 (half - 1) (by simp [stripe]; omega) (by simp) [] 0 (hEnd _ _)
      have h3 := hStripes 3 (half - 2) (by simp [stripe]; omega) (by simp) [1] _
        (by rw [hFlip, show half - 2 + 1 = half - 1 by omega]; exact h1)
      have h5 := hStripes 5 (half - 3) (by simp [stripe]; omega) (by simp) [3, 1] _
        (by rw [hFlip, show half - 3 + 1 = half - 2 by omega]; exact h3)
      rw [show 3 * (2 * (2 * half + 1)) = 2 * (2 * half + 1) + (2 * (2 * half + 1) +
        (2 * (2 * half + 1) + 0)) by omega]
      exact h5
  | succ m hm ih =>
      have hStep : columns (2 * (m + 1)) = (2 * m + 2) :: columns (2 * m) :=
        columns.eq_4 (2 * m) (by omega)
      have hRest := ih (by omega)
      rw [hStep]
      have hOne := hStripes (2 * m + 2) (half - (m + 1)) (by simp [stripe]; split <;> omega)
        (by rw [if_neg (by omega)]; omega) (columns (2 * m)) _
        (by rw [hFlip, show half - (m + 1) + 1 = half - m by omega]; exact hRest)
      rw [show (m + 1) * (2 * (2 * half + 1)) = 2 * (2 * half + 1) + m * (2 * (2 * half + 1)) by ring]
      exact hOne

/-- The cells are visited in the standard's order: each one has the next place. -/
theorem map_rank_zigzag {half : Nat} (hHalf : 3 ≤ half) :
    (zigzag (2 * half + 1)).map (rank (2 * half + 1)) =
      List.range (half * (2 * (2 * half + 1))) := by
  have hAll := map_rank_zigzagFrom half half hHalf le_rfl
  rw [Nat.sub_self, Nat.zero_mul, ← List.range_eq_range'] at hAll
  exact hAll

theorem nodup_zigzag {half : Nat} (hHalf : 3 ≤ half) : (zigzag (2 * half + 1)).Nodup := by
  refine List.Nodup.of_map (rank (2 * half + 1)) ?_
  rw [map_rank_zigzag hHalf]
  exact List.nodup_range

/-- Later in the list is later in the standard's order. -/
theorem pairwise_rank_zigzag {half : Nat} (hHalf : 3 ≤ half) :
    (zigzag (2 * half + 1)).Pairwise fun x y =>
      rank (2 * half + 1) x < rank (2 * half + 1) y := by
  rw [← List.pairwise_map, map_rank_zigzag hHalf]
  exact List.pairwise_lt_range

end VpnPayment.Qr
