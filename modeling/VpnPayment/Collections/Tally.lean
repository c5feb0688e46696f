import Mathlib.Algebra.Group.Prod
import VpnPayment.Collections.Table

/-! Rows that gather the items of a list by key, as a loop over a `Map` and a
`GROUP BY` do. -/
namespace Collections

variable {Item Row κ M : Type} {key : Row → κ} [AddCommMonoid M]

/-- The sum over the items of a kind. -/
def sumIf (xs : List Item) (p : Item → Bool) (f : Item → M) : M :=
  (xs.map fun x => if p x then f x else 0).sum

/-- What growing a row does to its key and to a weight of it. -/
structure Grows (key : Row → κ) (keyOf : Item → κ) (grow : Option Row → Item → Row)
    (weight : Row → M) (share : Item → M) : Prop where
  key_new : ∀ x, key (grow none x) = keyOf x
  key_old : ∀ row x, key row = keyOf x → key (grow (some row) x) = keyOf x
  weight_new : ∀ x, weight (grow none x) = share x
  weight_old : ∀ row x, key row = keyOf x → weight (grow (some row) x) = weight row + share x

variable {keyOf : Item → κ} {grow : Option Row → Item → Row} {weight : Row → M} {share : Item → M}

theorem sumIf_cons (x : Item) (xs : List Item) (p : Item → Bool) (f : Item → M) :
    sumIf (x :: xs) p f = (if p x then f x else 0) + sumIf xs p f := by
  simp [sumIf]

theorem sumIf_append (xs ys : List Item) (p : Item → Bool) (f : Item → M) :
    sumIf (xs ++ ys) p f = sumIf xs p f + sumIf ys p f := by
  simp [sumIf]

/-- A part of the weights adds up to that part of the sum. -/
theorem map_sumIf {N : Type} [AddCommMonoid N] (φ : M →+ N) (xs : List Item) (p : Item → Bool)
    (f : Item → M) : φ (sumIf xs p f) = sumIf xs p fun x => φ (f x) := by
  induction xs with
  | nil => exact map_zero φ
  | cons x xs ih =>
      rw [sumIf_cons, sumIf_cons, map_add, ih]
      split
      · rfl
      · rw [map_zero]

theorem sumIf_zero (xs : List Item) (p : Item → Bool) : sumIf xs p (fun _ => (0 : M)) = 0 := by
  simp [sumIf]

theorem sumIf_nonneg {xs : List Item} {p : Item → Bool} {f : Item → Int}
    (h : ∀ x ∈ xs, 0 ≤ f x) : 0 ≤ sumIf xs p f := by
  apply List.sum_nonneg
  intro n hn
  obtain ⟨x, hx, rfl⟩ := List.mem_map.mp hn
  split
  · exact h x hx
  · exact le_refl 0

variable [DecidableEq κ]

/-- Take an item up into the row of its key. -/
def gather (keyOf : Item → κ) (grow : Option Row → Item → Row) (t : Table Row key) (x : Item) :
    Table Row key :=
  t.put (grow (t.get? (keyOf x)) x)

def tally (key : Row → κ) (keyOf : Item → κ) (grow : Option Row → Item → Row) (xs : List Item) :
    Table Row key :=
  xs.foldl (gather keyOf grow) .empty

theorem sumIf_putRow {p : κ → Bool} {old row : Row} {more : M} (rows : List Row)
    (hOld : findRow key (key row) rows = some old) (hMore : weight row = weight old + more) :
    sumIf (putRow key row rows) (p ∘ key) weight =
      sumIf rows (p ∘ key) weight + if p (key row) then more else 0 := by
  induction rows with
  | nil => cases hOld
  | cons r rest ih =>
      by_cases hKey : key r = key row
      · rw [findRow, if_pos hKey] at hOld
        cases hOld
        rw [putRow, if_pos hKey, sumIf_cons, sumIf_cons, Function.comp_apply, Function.comp_apply,
          hKey, hMore]
        split
        · rw [add_right_comm]
        · rw [add_zero]
      · rw [findRow, if_neg hKey] at hOld
        rw [putRow, if_neg hKey, sumIf_cons, sumIf_cons, ih hOld, add_assoc]

theorem sumIf_gather (hGrows : Grows key keyOf grow weight share) (p : κ → Bool)
    (t : Table Row key) (x : Item) :
    sumIf (gather keyOf grow t x).rows (p ∘ key) weight =
      sumIf t.rows (p ∘ key) weight + if p (keyOf x) then share x else 0 := by
  rw [gather]
  cases hGet : t.get? (keyOf x) with
  | none =>
      have hNew : t.get? (key (grow none x)) = none := by
        rw [hGrows.key_new]
        exact hGet
      rw [Table.rows_put_of_get?_eq_none hNew, sumIf_append, sumIf_cons, Function.comp_apply,
        hGrows.key_new, hGrows.weight_new]
      simp [sumIf]
  | some row =>
      have hKey := hGrows.key_old row x (Table.key_of_get? hGet)
      have hPut := sumIf_putRow (p := p) t.rows (hKey ▸ hGet)
        (hGrows.weight_old row x (Table.key_of_get? hGet))
      rw [hKey] at hPut
      exact hPut

theorem sumIf_foldl_gather (hGrows : Grows key keyOf grow weight share) (p : κ → Bool)
    (xs : List Item) (t : Table Row key) :
    sumIf (xs.foldl (gather keyOf grow) t).rows (p ∘ key) weight =
      sumIf t.rows (p ∘ key) weight + sumIf xs (p ∘ keyOf) share := by
  induction xs generalizing t with
  | nil => simp [sumIf]
  | cons x xs ih =>
      rw [List.foldl_cons, ih, sumIf_gather hGrows, sumIf_cons, add_assoc]
      rfl

/-- The rows of some keys weigh what the items of these keys weigh. -/
theorem sumIf_tally (hGrows : Grows key keyOf grow weight share) (p : κ → Bool)
    (xs : List Item) :
    sumIf (tally key keyOf grow xs).rows (p ∘ key) weight = sumIf xs (p ∘ keyOf) share := by
  rw [tally, sumIf_foldl_gather hGrows]
  exact zero_add _

/-- Of the rows with one key there is one, if any. -/
theorem sumIf_key (t : Table Row key) (weight : Row → M) (k : κ) :
    sumIf t.rows (fun row => key row = k) weight = ((t.get? k).map weight).getD 0 := by
  suffices h : ∀ rows : List Row, (rows.map key).Nodup →
      sumIf rows (fun row => key row = k) weight = ((findRow key k rows).map weight).getD 0 from
    h t.rows t.nodup
  intro rows
  induction rows with
  | nil => exact fun _ => rfl
  | cons row rest ih =>
      intro hNodup
      rw [List.map_cons, List.nodup_cons] at hNodup
      rw [sumIf_cons, ih hNodup.2, findRow]
      by_cases hKey : key row = k
      · have hNone : findRow key k rest = none := by
          apply findRow_eq_none_iff.mpr
          intro other hOther hEq
          apply hNodup.1
          rw [hKey, ← hEq]
          exact List.mem_map_of_mem hOther
        rw [if_pos hKey, if_pos (decide_eq_true hKey), hNone]
        exact add_zero _
      · rw [if_neg hKey, if_neg (by simpa using hKey), zero_add]

/-- The weight of a row is the sum over its key. -/
theorem sumIf_of_mem {t : Table Row key} {row : Row} (h : row ∈ t.rows) (weight : Row → M) :
    sumIf t.rows (fun r => key r = key row) weight = weight row := by
  rw [sumIf_key, Table.get?_of_mem h]
  rfl

end Collections
