import VpnPayment.Collections.Table

/-! An index beside a table on a value that not every row has, and tables whose rows are
the images of the rows of another one. -/
namespace Collections

variable {Row ι κ : Type} [DecidableEq ι] {key : Row → ι}

section index

variable [DecidableEq κ] {value : Row → Option κ}

/-- The index points to a key exactly when the row with the key has the value. -/
def PartIndexes (t : Table Row key) (index : Table (κ × ι) Prod.fst) (value : Row → Option κ) : Prop :=
  ∀ k i, index.get? k = some (k, i) ↔ ∃ row, t.get? i = some row ∧ value row = some k

variable {t : Table Row key} {index index' : Table (κ × ι) Prod.fst} {row other : Row} {k : κ}

theorem partIndexes_empty : PartIndexes (.empty : Table Row key) (.empty : Table (κ × ι) Prod.fst) value := by
  intro k i
  constructor
  · intro hEntry
    cases hEntry
  · intro hRow
    obtain ⟨row, hRow, -⟩ := hRow
    cases hRow

/-- No two rows have the same value. -/
theorem PartIndexes.unique (h : PartIndexes t index value) (hRow : row ∈ t.rows)
    (hOther : other ∈ t.rows) (hValue : value row = some k) (hSame : value other = some k) :
    row = other := by
  have hFirst := (h k (key row)).mpr ⟨row, Table.get?_of_mem hRow, hValue⟩
  have hSecond := (h k (key other)).mpr ⟨other, Table.get?_of_mem hOther, hSame⟩
  rw [hFirst] at hSecond
  have hKey : key row = key other := congrArg Prod.snd (Option.some.inj hSecond)
  have hGet := Table.get?_of_mem hRow
  rw [hKey, Table.get?_of_mem hOther] at hGet
  exact (Option.some.inj hGet).symm

/-- What the index has no entry for is not the value of a row. -/
theorem PartIndexes.has_iff (h : PartIndexes t index value) :
    index.has k = t.rows.any fun row => value row = some k := by
  apply Bool.eq_iff_iff.mpr
  rw [List.any_eq_true, Table.has, Option.isSome_iff_exists]
  constructor
  · intro hEntry
    obtain ⟨entry, hEntry⟩ := hEntry
    obtain rfl : entry.1 = k := Table.key_of_get? hEntry
    obtain ⟨row, hRow, hValue⟩ := (h entry.1 entry.2).mp hEntry
    exact ⟨row, Table.mem_of_get? hRow, decide_eq_true hValue⟩
  · intro hRow
    obtain ⟨row, hMem, hValue⟩ := hRow
    exact ⟨_, (h k (key row)).mpr ⟨row, Table.get?_of_mem hMem, of_decide_eq_true hValue⟩⟩

/-- A lookup through the index finds what a search of the rows finds. -/
theorem PartIndexes.lookup (h : PartIndexes t index value) :
    (index.get? k).bind (fun entry => t.get? entry.2) = t.rows.find? fun row => value row = some k := by
  cases hFind : t.rows.find? fun row => value row = some k with
  | none =>
      have hNone : index.has k = false := by
        rw [h.has_iff, List.any_eq_false]
        exact fun row hMem => List.find?_eq_none.mp hFind row hMem
      rw [Table.has, Option.isSome_eq_false_iff, Option.isNone_iff_eq_none] at hNone
      rw [hNone]
      rfl
  | some row =>
      have hRow := Table.get?_of_mem (List.mem_of_find?_eq_some hFind)
      have hValue : value row = some k := by simpa using List.find?_some hFind
      rw [(h k (key row)).mpr ⟨row, hRow, hValue⟩]
      exact hRow

/-- A row is written, and the index has the value of the new row for that of the old one. -/
theorem PartIndexes.put (h : PartIndexes t index value) (row : Row)
    (hIndex : ∀ k i, index'.get? k = some (k, i) ↔
      if i = key row then value row = some k else index.get? k = some (k, i)) :
    PartIndexes (t.put row) index' value := by
  intro k i
  rw [hIndex, Table.get?_put]
  by_cases hKey : key row = i
  · rw [if_pos hKey.symm, if_pos hKey]
    constructor
    · intro hValue
      exact ⟨row, rfl, hValue⟩
    · intro hRow
      obtain ⟨row', hRow', hValue⟩ := hRow
      cases hRow'
      exact hValue
  · rw [if_neg (Ne.symm hKey), if_neg hKey]
    exact h k i

/-- No entry points to a key without a row. -/
theorem PartIndexes.no_entry (h : PartIndexes t index value) {i : ι} (hNone : t.get? i = none) :
    index.get? k ≠ some (k, i) := by
  intro hEntry
  obtain ⟨row, hRow, -⟩ := (h k i).mp hEntry
  rw [hNone] at hRow
  cases hRow

/-- A new row whose value is free. -/
theorem PartIndexes.insert (h : PartIndexes t index value) (hNew : t.get? (key row) = none)
    (hValue : value row = some k) (hFree : index.get? k = none) :
    PartIndexes (t.put row) (index.put (k, key row)) value := by
  apply h.put
  intro k' i
  rw [Table.get?_put]
  by_cases hk : k = k'
  · subst hk
    rw [if_pos rfl, hFree, hValue]
    split
    · next hi => simp [hi]
    · next hi => simp [Ne.symm hi]
  · rw [if_neg hk, hValue]
    split
    · next hi =>
        subst hi
        simp [h.no_entry hNew, hk]
    · exact Iff.rfl

/-- A new row without a value. -/
theorem PartIndexes.insert_none (h : PartIndexes t index value) (hNew : t.get? (key row) = none)
    (hValue : value row = none) : PartIndexes (t.put row) index value := by
  apply h.put
  intro k i
  split
  · next hi =>
      subst hi
      simp [h.no_entry hNew, hValue]
  · exact Iff.rfl

/-- A row is rewritten and keeps its value. -/
theorem PartIndexes.rewrite (h : PartIndexes t index value) {old : Row}
    (hOld : t.get? (key row) = some old) (hSame : value row = value old) :
    PartIndexes (t.put row) index value := by
  apply h.put
  intro k i
  split
  · next hi =>
      subst hi
      rw [h k (key row), hOld, hSame]
      simp
  · exact Iff.rfl

end index

section images

variable {f : Row → Row} {t t' : Table Row key}

/-- The second table has the images of the rows of the first one. -/
def Images (f : Row → Row) (t t' : Table Row key) : Prop :=
  t'.rows = t.rows.map f

theorem findRow_map (hKey : ∀ row, key (f row) = key row) (rows : List Row) (i : ι) :
    findRow key i (rows.map f) = (findRow key i rows).map f := by
  induction rows with
  | nil => rfl
  | cons r rest ih =>
      simp only [List.map_cons, findRow, hKey]
      split
      · rfl
      · exact ih

theorem putRow_map (hKey : ∀ row, key (f row) = key row) (row : Row) (rows : List Row) :
    putRow key (f row) (rows.map f) = (putRow key row rows).map f := by
  induction rows with
  | nil => rfl
  | cons r rest ih =>
      simp only [List.map_cons, putRow, hKey]
      split
      · rfl
      · rw [ih, List.map_cons]

theorem Images.get? (h : Images f t t') (hKey : ∀ row, key (f row) = key row) (i : ι) :
    t'.get? i = (t.get? i).map f := by
  rw [Table.get?, h, findRow_map hKey]
  rfl

theorem Images.has (h : Images f t t') (hKey : ∀ row, key (f row) = key row) (i : ι) :
    t'.has i = t.has i := by
  rw [Table.has, h.get? hKey, Option.isSome_map, Table.has]

/-- A row is written to one table and its image to the other. -/
theorem Images.put (h : Images f t t') (hKey : ∀ row, key (f row) = key row) (row : Row) :
    Images f (t.put row) (t'.put (f row)) := by
  show putRow key (f row) t'.rows = (putRow key row t.rows).map f
  rw [h, putRow_map hKey]

end images

end Collections
