import VpnPayment.Collections.Table

/-! A secondary index beside a table: a map from a column of the rows to their keys,
kept by hand. -/
namespace Collections

variable {Row ι κ : Type} [DecidableEq ι] [DecidableEq κ] {key : Row → ι} {column : Row → κ}

/-- The index points to a key exactly when a row with the key has the value. -/
def Indexes (t : Table Row key) (index : Table (κ × ι) Prod.fst) (column : Row → κ) : Prop :=
  ∀ k i, index.get? k = some (k, i) ↔ ∃ row, t.get? i = some row ∧ column row = k

variable {t : Table Row key} {index : Table (κ × ι) Prod.fst} {row old : Row} {k : κ}

theorem indexes_empty : Indexes (.empty : Table Row key) (.empty : Table (κ × ι) Prod.fst) column := by
  intro k i
  constructor
  · intro hEntry
    cases hEntry
  · intro hRow
    obtain ⟨row, hRow, -⟩ := hRow
    cases hRow

/-- No two rows have the same value. -/
theorem Indexes.unique (h : Indexes t index column) {other : Row} {i j : ι}
    (hRow : t.get? i = some row) (hOther : t.get? j = some other)
    (hSame : column row = column other) : i = j ∧ row = other := by
  have hFirst := (h (column row) i).mpr ⟨row, hRow, rfl⟩
  have hSecond := (h (column row) j).mpr ⟨other, hOther, hSame.symm⟩
  rw [hFirst] at hSecond
  cases hSecond
  rw [hRow] at hOther
  cases hOther
  exact ⟨rfl, rfl⟩

/-- What the index has no entry for is not the value of a row. -/
theorem Indexes.free_iff (h : Indexes t index column) :
    index.get? k = none ↔ ∀ i row, t.get? i = some row → column row ≠ k := by
  constructor
  · intro hFree i row hRow hColumn
    rw [(h k i).mpr ⟨row, hRow, hColumn⟩] at hFree
    cases hFree
  · intro hNone
    cases hEntry : index.get? k with
    | none => rfl
    | some entry =>
        obtain rfl : entry.1 = k := Table.key_of_get? hEntry
        obtain ⟨row, hRow, hColumn⟩ := (h entry.1 entry.2).mp hEntry
        exact absurd hColumn (hNone entry.2 row hRow)

/-- A lookup through the index finds the row with the value. -/
theorem Indexes.lookup (h : Indexes t index column) :
    (index.get? k).bind (fun entry => t.get? entry.2) = some row ↔
      ∃ i, t.get? i = some row ∧ column row = k := by
  constructor
  · intro hFind
    obtain ⟨entry, hEntry, hRow⟩ := Option.bind_eq_some_iff.mp hFind
    obtain rfl : entry.1 = k := Table.key_of_get? hEntry
    obtain ⟨row', hRow', hColumn⟩ := (h entry.1 entry.2).mp hEntry
    rw [hRow] at hRow'
    cases hRow'
    exact ⟨entry.2, hRow, hColumn⟩
  · intro hRow
    obtain ⟨i, hRow, hColumn⟩ := hRow
    rw [(h k i).mpr ⟨row, hRow, hColumn⟩]
    exact hRow

/-- A new row, with an entry for its value. -/
theorem Indexes.insert (h : Indexes t index column) (hNew : t.get? (key row) = none)
    (hFree : index.get? (column row) = none) :
    Indexes (t.put row) (index.put (column row, key row)) column := by
  intro k i
  rw [Table.get?_put, Table.get?_put]
  by_cases hColumn : column row = k
  · rw [if_pos hColumn]
    constructor
    · intro hEntry
      cases hEntry
      exact ⟨row, by rw [if_pos rfl], rfl⟩
    · intro hRow
      obtain ⟨row', hRow', hColumn'⟩ := hRow
      split at hRow'
      · next hKey => rw [hKey, hColumn]
      · subst hColumn
        exact absurd hColumn' (h.free_iff.mp hFree i row' hRow')
  · rw [if_neg hColumn, h k i]
    by_cases hKey : key row = i
    · subst hKey
      constructor
      · intro hRow
        obtain ⟨row', hRow', -⟩ := hRow
        rw [hNew] at hRow'
        cases hRow'
      · intro hRow
        obtain ⟨row', hRow', hColumn'⟩ := hRow
        rw [if_pos rfl] at hRow'
        cases hRow'
        exact absurd hColumn' hColumn
    · rw [if_neg hKey]

/-- A row is rewritten and keeps its value. -/
theorem Indexes.rewrite (h : Indexes t index column) (hOld : t.get? (key row) = some old)
    (hSame : column old = column row) : Indexes (t.put row) index column := by
  intro k i
  rw [h k i, Table.get?_put]
  by_cases hKey : key row = i
  · subst hKey
    rw [if_pos rfl, hOld]
    constructor
    · intro hRow
      obtain ⟨row', hRow', hColumn⟩ := hRow
      cases hRow'
      exact ⟨row, rfl, hSame ▸ hColumn⟩
    · intro hRow
      obtain ⟨row', hRow', hColumn⟩ := hRow
      cases hRow'
      exact ⟨old, rfl, hSame.trans hColumn⟩
  · rw [if_neg hKey]

/-- A row is rewritten with a value that is free. Its old entry goes. -/
theorem Indexes.move (h : Indexes t index column) (hOld : t.get? (key row) = some old)
    (hFree : index.get? (column row) = none) :
    Indexes (t.put row) ((index.delete (column old)).put (column row, key row)) column := by
  intro k i
  rw [Table.get?_put, Table.get?_put, Table.get?_delete]
  by_cases hColumn : column row = k
  · rw [if_pos hColumn]
    constructor
    · intro hEntry
      cases hEntry
      exact ⟨row, by rw [if_pos rfl], rfl⟩
    · intro hRow
      obtain ⟨row', hRow', hColumn'⟩ := hRow
      split at hRow'
      · next hKey => rw [hKey, hColumn]
      · subst hColumn
        exact absurd hColumn' (h.free_iff.mp hFree i row' hRow')
  · rw [if_neg hColumn]
    by_cases hKey : key row = i
    · subst hKey
      rw [if_pos rfl]
      -- the row had one value, and its entry is gone
      constructor
      · intro hEntry
        split at hEntry
        · cases hEntry
        · next hNe =>
            obtain ⟨row', hRow', hColumn'⟩ := (h k (key row)).mp hEntry
            rw [hOld] at hRow'
            cases hRow'
            exact absurd hColumn' hNe
      · intro hRow
        obtain ⟨row', hRow', hColumn'⟩ := hRow
        cases hRow'
        exact absurd hColumn' hColumn
    · rw [if_neg hKey]
      split
      · next hGone =>
          constructor
          · intro hEntry
            cases hEntry
          · intro hRow
            obtain ⟨row', hRow', hColumn'⟩ := hRow
            have hSame := (h.unique hOld hRow' (hGone.trans hColumn'.symm)).1
            exact absurd hSame hKey
      · exact h k i

end Collections
