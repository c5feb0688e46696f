import Mathlib.Algebra.Order.BigOperators.Group.List
import Mathlib.Algebra.Order.Group.Int
import Mathlib.Data.List.Nodup

/-! Finite tables whose rows carry their own key. Rows keep the order in which
their keys were first written, as the entries of a JavaScript `Map` do. -/
namespace Collections

/-- Rows no two of which have the same key. -/
structure Table (Row : Type) {κ : Type} (key : Row → κ) where
  rows : List Row
  nodup : (rows.map key).Nodup

variable {Row κ : Type} {key : Row → κ}

/-- Rows of which no two differ are at most one. -/
theorem length_le_one_of_nodup {rows : List Row} (hNodup : rows.Nodup)
    (hEq : ∀ r ∈ rows, ∀ r' ∈ rows, r = r') : rows.length ≤ 1 := by
  cases rows with
  | nil => exact Nat.zero_le 1
  | cons r rest =>
      cases rest with
      | nil => exact Nat.le_refl 1
      | cons r' rest =>
          have hSame := hEq r (by simp) r' (by simp)
          simp [hSame] at hNodup

variable [DecidableEq κ]

/-- Write a row in the place of the row with its key, or at the end. -/
def putRow (key : Row → κ) (row : Row) : List Row → List Row
  | [] => [row]
  | r :: rest => if key r = key row then row :: rest else r :: putRow key row rest

def findRow (key : Row → κ) (k : κ) : List Row → Option Row
  | [] => none
  | r :: rest => if key r = k then some r else findRow key k rest

/-- A put keeps the order of the keys, a new one comes last. -/
theorem map_key_putRow (row : Row) (rows : List Row) :
    (putRow key row rows).map key =
      if key row ∈ rows.map key then rows.map key else rows.map key ++ [key row] := by
  induction rows with
  | nil => simp [putRow]
  | cons r rest ih =>
      by_cases hKey : key r = key row
      · simp [putRow, hKey]
      · have hKey' : key row ≠ key r := Ne.symm hKey
        simp only [putRow, hKey, if_false, List.map_cons, ih, List.mem_cons, hKey', false_or]
        split <;> rfl

/-- With different keys, a lookup answers the row of the key. -/
theorem findRow_eq_some_iff {rows : List Row} (hNodup : (rows.map key).Nodup) {k : κ} {row : Row} :
    findRow key k rows = some row ↔ row ∈ rows ∧ key row = k := by
  induction rows with
  | nil => simp [findRow]
  | cons r rest ih =>
      simp only [List.map_cons, List.nodup_cons, List.mem_map, not_exists, not_and] at hNodup
      by_cases hKey : key r = k
      · simp only [findRow, hKey, if_true, Option.some.injEq, List.mem_cons]
        constructor
        · rintro rfl
          exact ⟨.inl rfl, hKey⟩
        · rintro ⟨rfl | hMem, hEq⟩
          · rfl
          · exact absurd (hEq.trans hKey.symm) (hNodup.1 row hMem)
      · simp only [findRow, hKey, if_false, ih hNodup.2, List.mem_cons]
        constructor
        · exact fun h => ⟨.inr h.1, h.2⟩
        · rintro ⟨rfl | hMem, hEq⟩
          · exact absurd hEq hKey
          · exact ⟨hMem, hEq⟩

/-- A lookup answers nothing when no row has the key. -/
theorem findRow_eq_none_iff {rows : List Row} {k : κ} :
    findRow key k rows = none ↔ ∀ row ∈ rows, key row ≠ k := by
  induction rows with
  | nil => simp [findRow]
  | cons r rest ih =>
      by_cases hKey : key r = k <;> simp [findRow, hKey, ih]

/-- A put changes the row of its key only. -/
theorem findRow_putRow (row : Row) (rows : List Row) (k : κ) :
    findRow key k (putRow key row rows) =
      if key row = k then some row else findRow key k rows := by
  induction rows with
  | nil => simp [putRow, findRow]
  | cons r rest ih =>
      by_cases hKey : key r = key row
      · by_cases hk : key row = k <;> simp [putRow, findRow, hKey, hk]
      · by_cases hk : key row = k
        · subst hk
          simp [putRow, findRow, hKey, ih]
        · simp [putRow, findRow, hKey, ih, hk]

namespace Table

/-- The table without rows. -/
def empty : Table Row key := ⟨[], .nil⟩

def get? (t : Table Row key) (k : κ) : Option Row :=
  findRow key k t.rows

def has (t : Table Row key) (k : κ) : Bool :=
  (t.get? k).isSome

def put (t : Table Row key) (row : Row) : Table Row key where
  rows := putRow key row t.rows
  nodup := by
    rw [map_key_putRow]
    split
    · exact t.nodup
    · next hNot => exact List.nodup_append.mpr ⟨t.nodup, by simp, by simpa using hNot⟩

/-- Keep the rows that satisfy `p`. -/
def filter (t : Table Row key) (p : Row → Bool) : Table Row key where
  rows := t.rows.filter p
  nodup := t.nodup.sublist (List.filter_sublist.map key)

def delete (t : Table Row key) (k : κ) : Table Row key :=
  t.filter fun row => key row ≠ k

omit [DecidableEq κ] in
theorem ext_rows {t t' : Table Row key} (h : t.rows = t'.rows) : t = t' := by
  cases t
  cases h
  rfl

omit [DecidableEq κ] in
theorem filter_filter (t : Table Row key) (p q : Row → Bool) :
    (t.filter p).filter q = t.filter fun row => q row && p row :=
  ext_rows List.filter_filter

omit [DecidableEq κ] in
theorem filter_congr {t : Table Row key} {p q : Row → Bool} (h : ∀ row ∈ t.rows, p row = q row) :
    t.filter p = t.filter q :=
  ext_rows (List.filter_congr h)

@[simp] theorem get?_empty (k : κ) : (empty : Table Row key).get? k = none := rfl

@[simp] theorem get?_put (t : Table Row key) (row : Row) (k : κ) :
    (t.put row).get? k = if key row = k then some row else t.get? k :=
  findRow_putRow row t.rows k

theorem get?_eq_some_iff {t : Table Row key} {k : κ} {row : Row} :
    t.get? k = some row ↔ row ∈ t.rows ∧ key row = k :=
  findRow_eq_some_iff t.nodup

/-- What a lookup answers has the key. -/
theorem key_of_get? {t : Table Row key} {k : κ} {row : Row} (h : t.get? k = some row) :
    key row = k :=
  (get?_eq_some_iff.mp h).2

theorem mem_of_get? {t : Table Row key} {k : κ} {row : Row} (h : t.get? k = some row) :
    row ∈ t.rows :=
  (get?_eq_some_iff.mp h).1

/-- Every row is found under its key. -/
theorem get?_of_mem {t : Table Row key} {row : Row} (h : row ∈ t.rows) :
    t.get? (key row) = some row :=
  get?_eq_some_iff.mpr ⟨h, rfl⟩

theorem get?_eq_none_iff {t : Table Row key} {k : κ} :
    t.get? k = none ↔ ∀ row ∈ t.rows, key row ≠ k :=
  findRow_eq_none_iff

/-- A new row comes last. -/
theorem rows_put_of_get?_eq_none {t : Table Row key} {row : Row} (h : t.get? (key row) = none) :
    (t.put row).rows = t.rows ++ [row] := by
  have hNew := get?_eq_none_iff.mp h
  suffices hAll : ∀ rows : List Row, (∀ r ∈ rows, key r ≠ key row) →
      putRow key row rows = rows ++ [row] from hAll t.rows hNew
  intro rows hNe
  induction rows with
  | nil => rfl
  | cons r rest ih =>
      have hRest : ∀ r ∈ rest, key r ≠ key row := fun x hx => hNe x (List.mem_cons_of_mem _ hx)
      simp [putRow, hNe r List.mem_cons_self, ih hRest]

/-- Writing the row of an existing key replaces that row only. -/
theorem rows_put_of_get? {t : Table Row key} {row old : Row} (h : t.get? (key row) = some old) :
    (t.put row).rows = t.rows.map fun r => if key r = key row then row else r := by
  suffices hAll : ∀ rows : List Row, (rows.map key).Nodup →
      findRow key (key row) rows = some old →
      putRow key row rows = rows.map fun r => if key r = key row then row else r from
    hAll t.rows t.nodup h
  intro rows hNodup hFind
  induction rows with
  | nil => cases hFind
  | cons r rest ih =>
      simp only [List.map_cons, List.nodup_cons, List.mem_map, not_exists, not_and] at hNodup
      by_cases hKey : key r = key row
      · have hRest : rest.map (fun x => if key x = key row then row else x) = rest := by
          rw [List.map_congr_left (g := id), List.map_id]
          intro x hx
          have hNe : key x ≠ key row := fun hEq => hNodup.1 x hx (hEq.trans hKey.symm)
          simp [hNe]
        simp [putRow, hKey, hRest]
      · simp only [findRow, hKey, if_false] at hFind
        simp [putRow, hKey, ih hNodup.2 hFind]

/-- The rows after a put. -/
theorem mem_put_iff {t : Table Row key} {row r : Row} :
    r ∈ (t.put row).rows ↔ r = row ∨ (r ∈ t.rows ∧ key r ≠ key row) := by
  constructor
  · intro hMem
    have hGet := get?_of_mem hMem
    rw [get?_put] at hGet
    split at hGet
    · exact .inl (Option.some.inj hGet).symm
    · next hNe => exact .inr ⟨mem_of_get? hGet, Ne.symm hNe⟩
  · rintro (rfl | ⟨hMem, hNe⟩)
    · exact mem_of_get? (k := key r) (by simp)
    · exact mem_of_get? (k := key r) (by simp [Ne.symm hNe, get?_of_mem hMem])

omit [DecidableEq κ] in
@[simp] theorem mem_filter_iff {t : Table Row key} {p : Row → Bool} {r : Row} :
    r ∈ (t.filter p).rows ↔ r ∈ t.rows ∧ p r = true := by
  simp [filter]

@[simp] theorem get?_delete (t : Table Row key) (k k' : κ) :
    (t.delete k).get? k' = if k = k' then none else t.get? k' := by
  split
  · next hEq =>
      refine get?_eq_none_iff.mpr fun row hRow => ?_
      simpa [hEq] using (mem_filter_iff.mp hRow).2
  · next hNe =>
      cases hGet : t.get? k' with
      | none =>
          refine get?_eq_none_iff.mpr fun row hRow => ?_
          exact get?_eq_none_iff.mp hGet row (mem_filter_iff.mp hRow).1
      | some row =>
          have hKey := key_of_get? hGet
          refine get?_eq_some_iff.mpr ⟨mem_filter_iff.mpr ⟨mem_of_get? hGet, ?_⟩, hKey⟩
          simpa [hKey] using Ne.symm hNe

/-- Writing a row leaves the rows of a kind alone to which neither the row nor
the one it replaces belongs. -/
theorem filter_put {t : Table Row key} {p : Row → Bool} {row : Row} (hRow : p row = false)
    (hOld : ∀ old, t.get? (key row) = some old → p old = false) :
    (t.put row).rows.filter p = t.rows.filter p := by
  suffices h : ∀ rows : List Row, (∀ old, findRow key (key row) rows = some old → p old = false) →
      (putRow key row rows).filter p = rows.filter p from h t.rows hOld
  intro rows hOld
  induction rows with
  | nil => simp [putRow, hRow]
  | cons r rest ih =>
      by_cases hKey : key r = key row
      · simp [putRow, hKey, hRow, hOld r (by simp [findRow, hKey])]
      · simp only [findRow, hKey, if_false] at hOld
        simp [putRow, hKey, List.filter_cons, ih hOld]

end Table
end Collections
