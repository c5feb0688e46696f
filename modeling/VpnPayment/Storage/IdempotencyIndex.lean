import VpnPayment.Storage.Repositories

/-! The lookup by idempotency key answers the stored order with the key, in either
backend, as long as no second order with the key is inserted. -/
namespace VpnPayment

open Collections

namespace OrderStore

/-- The lookup of `k` answers exactly the stored order with the key. -/
structure Keyed (b : Backend) (s : OrderStore) (k : String) : Prop where
  finds : ∀ o, s.findByIdempotencyKey b k = some o ↔
    s.byId.get? o.id = some o ∧ o.idempotencyKey = some k
  indexed : b = .memory → ∀ entry, s.byIdem.get? k = some entry →
    ∃ row, s.byId.get? entry.2 = some row

variable {b : Backend} {s s' : OrderStore} {k : String} {o x y row : Order}

/-- No two stored orders have the key. -/
theorem Keyed.unique (h : s.Keyed b k) (hx : s.byId.get? x.id = some x)
    (hxKey : x.idempotencyKey = some k) (hy : s.byId.get? y.id = some y)
    (hyKey : y.idempotencyKey = some k) : x = y :=
  Option.some.inj (((h.finds x).mpr ⟨hx, hxKey⟩).symm.trans ((h.finds y).mpr ⟨hy, hyKey⟩))

/-- In memory the lookup goes through the index to the row. -/
theorem get?_of_memory_find :
    s.findByIdempotencyKey .memory k = some x ↔
      ∃ id, truthy ((s.byIdem.get? k).map Prod.snd) = some id ∧ s.byId.get? id = some x :=
  Option.bind_eq_some_iff

/-- What the lookup finds is stored. -/
theorem get?_of_findByIdempotencyKey (hFind : s.findByIdempotencyKey b k = some o) :
    s.byId.get? o.id = some o := by
  cases b with
  | memory =>
      obtain ⟨id, -, hRow⟩ := get?_of_memory_find.mp hFind
      rwa [Table.key_of_get? hRow]
  | sql => exact Table.get?_of_mem (List.mem_of_find?_eq_some hFind)

/-- The SQL lookup reads the rows. -/
theorem keyed_sql (h : ∀ x y, s.byId.get? x.id = some x → x.idempotencyKey = some k →
    s.byId.get? y.id = some y → y.idempotencyKey = some k → x = y) : s.Keyed .sql k where
  finds o := by
    show s.byId.rows.find? (fun row => row.idempotencyKey = some k) = some o ↔ _
    constructor
    · intro hFind
      refine ⟨Table.get?_of_mem (List.mem_of_find?_eq_some hFind), ?_⟩
      simpa using List.find?_some hFind
    · rintro ⟨hRow, hKey⟩
      have hSome : (s.byId.rows.find? fun row => row.idempotencyKey = some k).isSome = true :=
        List.find?_isSome.mpr ⟨o, Table.mem_of_get? hRow, by simpa using hKey⟩
      obtain ⟨found, hFind⟩ := Option.isSome_iff_exists.mp hSome
      have hFound := Table.get?_of_mem (List.mem_of_find?_eq_some hFind)
      rw [hFind, h found o hFound (by simpa using List.find?_some hFind) hRow hKey]
  indexed hMemory := by cases hMemory

/-- Rewriting a stored order keeps its key. -/
theorem Keyed.update (h : s.Keyed b k) (hUpdate : s.update b o = .ok s')
    (hRow : s.byId.get? o.id = some row)
    (hSame : (written b row o).idempotencyKey = row.idempotencyKey) : s'.Keyed b k := by
  obtain ⟨row', hRow', rfl⟩ | ⟨hNone, rfl⟩ := update_cases hUpdate
  swap
  · exact h
  obtain rfl := Option.some.inj (hRow.symm.trans hRow')
  have hId : (written b row o).id = o.id := written_id (Table.key_of_get? hRow)
  have hRowId : row.id = o.id := Table.key_of_get? hRow
  -- the stored orders with the key, before and after
  have hBack : ∀ x, (s.byId.put (written b row o)).get? x.id = some x →
      x.idempotencyKey = some k →
      (x.id = o.id ∧ x = written b row o ∧ row.idempotencyKey = some k) ∨
      (x.id ≠ o.id ∧ s.byId.get? x.id = some x) := by
    intro x hx hKey
    rw [Table.get?_put, hId] at hx
    split at hx
    · next hEq =>
        cases hx
        exact .inl ⟨hId, rfl, hSame ▸ hKey⟩
    · next hNe => exact .inr ⟨Ne.symm hNe, hx⟩
  cases b with
  | sql =>
      refine keyed_sql fun x y hx hxKey hy hyKey => ?_
      rcases hBack x hx hxKey with ⟨-, rfl, hRowKey⟩ | ⟨hxNe, hxOld⟩ <;>
        rcases hBack y hy hyKey with ⟨-, rfl, hRowKey'⟩ | ⟨hyNe, hyOld⟩
      · rfl
      · have hEq := h.unique (hRowId ▸ hRow) hRowKey hyOld hyKey
        exact absurd (hEq ▸ hRowId) hyNe
      · have hEq := h.unique (hRowId ▸ hRow) hRowKey' hxOld hxKey
        exact absurd (hEq ▸ hRowId) hxNe
      · exact h.unique hxOld hxKey hyOld hyKey
  | memory =>
      refine ⟨fun x => ?_, fun _ entry hEntry => ?_⟩
      · rw [get?_of_memory_find]
        constructor
        · rintro ⟨id, hIndex, hx⟩
          have hxId : x.id = id := Table.key_of_get? hx
          refine ⟨hxId ▸ hx, ?_⟩
          rw [Table.get?_put, hId] at hx
          split at hx
          · next hEq =>
              cases hx
              have hFind := get?_of_memory_find (s := s).mpr ⟨id, hIndex, hEq ▸ hRow⟩
              exact hSame.trans ((h.finds row).mp hFind).2
          · exact ((h.finds x).mp (get?_of_memory_find.mpr ⟨id, hIndex, hx⟩)).2
        · rintro ⟨hx, hKey⟩
          rcases hBack x hx hKey with ⟨-, hxEq, hRowKey⟩ | ⟨hxNe, hxOld⟩
          · obtain ⟨id, hIndex, hGet⟩ :=
              get?_of_memory_find.mp ((h.finds row).mpr ⟨hRowId ▸ hRow, hRowKey⟩)
            obtain rfl : row.id = id := Table.key_of_get? hGet
            exact ⟨row.id, hIndex, by rw [Table.get?_put, hId, hRowId, if_pos rfl, hxEq]⟩
          · obtain ⟨id, hIndex, hGet⟩ := get?_of_memory_find.mp ((h.finds x).mpr ⟨hxOld, hKey⟩)
            obtain rfl : x.id = id := Table.key_of_get? hGet
            exact ⟨x.id, hIndex, by rw [Table.get?_put, hId, if_neg (Ne.symm hxNe), hGet]⟩
      · obtain ⟨row', hOld⟩ := h.indexed rfl entry hEntry
        show ∃ row', (s.byId.put (written .memory row o)).get? entry.2 = some row'
        rw [Table.get?_put]
        split
        · exact ⟨_, rfl⟩
        · exact ⟨row', hOld⟩

/-- Inserting an order, when no stored one has its key. -/
theorem Keyed.create (h : s.Keyed b k) (hCreate : s.create b o = .ok s') (hk : k ≠ "")
    (hId : o.id ≠ "") (hNew : s.byId.get? o.id = none)
    (hKey : o.idempotencyKey = some k →
      ∀ x, s.byId.get? x.id = some x → x.idempotencyKey ≠ some k) : s'.Keyed b k := by
  have hRows := create_ok hCreate
  have hStays : ∀ {id row}, s.byId.get? id = some row → s'.byId.get? id = some row := by
    intro id row hRow
    have hNe : o.id ≠ id := by
      rintro rfl
      rw [hNew] at hRow
      cases hRow
    rw [hRows, Table.get?_put, created_id, if_neg hNe, hRow]
  have hMine : s'.byId.get? o.id = some (created b o) := by
    rw [hRows, Table.get?_put, created_id, if_pos rfl]
  have hSame : (created b o).idempotencyKey = o.idempotencyKey := by cases b <;> rfl
  have hBack : ∀ x, s'.byId.get? x.id = some x → x.idempotencyKey = some k →
      (x = created b o ∧ o.idempotencyKey = some k) ∨ s.byId.get? x.id = some x := by
    intro x hx hxKey
    rw [hRows, Table.get?_put, created_id] at hx
    split at hx
    · cases hx
      exact .inl ⟨rfl, hSame ▸ hxKey⟩
    · exact .inr hx
  cases b with
  | sql =>
      refine keyed_sql fun x y hx hxKey hy hyKey => ?_
      rcases hBack x hx hxKey with ⟨rfl, hOKey⟩ | hxOld <;>
        rcases hBack y hy hyKey with ⟨rfl, hOKey'⟩ | hyOld
      · rfl
      · exact absurd hyKey (hKey hOKey y hyOld)
      · exact absurd hxKey (hKey hOKey' x hxOld)
      · exact h.unique hxOld hxKey hyOld hyKey
  | memory =>
      have hIndex : s'.byIdem.get? k =
          if o.idempotencyKey = some k then some (k, o.id) else s.byIdem.get? k := by
        simp only [OrderStore.create, MemoryOrderRepository.create] at hCreate
        split at hCreate
        · cases hCreate
        · cases hCreate
          dsimp only
          split
          · next k' hk' =>
              obtain ⟨hSome, hNonempty⟩ := Option.filter_eq_some_iff.mp hk'
              rw [Table.get?_put, hSome]
              by_cases hEq : k' = k <;> simp [hEq]
          · next hNone =>
              rw [if_neg]
              intro hEq
              simp [truthy, hEq, hk] at hNone
      by_cases hNewKey : o.idempotencyKey = some k
      · rw [if_pos hNewKey] at hIndex
        have hTruthy : truthy (some o.id) = some o.id := by simp [truthy, hId]
        refine ⟨fun x => ?_, fun _ entry hEntry => ?_⟩
        · rw [get?_of_memory_find, hIndex, Option.map_some, hTruthy]
          constructor
          · rintro ⟨id, hEq, hx⟩
            cases hEq
            rw [hMine] at hx
            cases hx
            exact ⟨hMine, hNewKey⟩
          · rintro ⟨hx, hxKey⟩
            rcases hBack x hx hxKey with ⟨hxEq, -⟩ | hxOld
            · exact ⟨o.id, rfl, hxEq ▸ hMine⟩
            · exact absurd hxKey (hKey hNewKey x hxOld)
        · rw [hIndex] at hEntry
          cases hEntry
          exact ⟨_, hMine⟩
      · rw [if_neg hNewKey] at hIndex
        refine ⟨fun x => ?_, fun _ entry hEntry => ?_⟩
        · rw [get?_of_memory_find, hIndex]
          constructor
          · rintro ⟨id, hTruthy, hx⟩
            -- the index points at a stored order, so not at the new one
            obtain ⟨hMap, -⟩ := Option.filter_eq_some_iff.mp hTruthy
            obtain ⟨entry, hEntry, rfl⟩ := Option.map_eq_some_iff.mp hMap
            obtain ⟨row, hRow⟩ := h.indexed rfl entry hEntry
            have hFind := (h.finds row).mp (get?_of_memory_find.mpr ⟨entry.2, hTruthy, hRow⟩)
            obtain rfl : row = x := Option.some.inj ((hStays hRow).symm.trans hx)
            exact ⟨hStays hFind.1, hFind.2⟩
          · rintro ⟨hx, hxKey⟩
            rcases hBack x hx hxKey with ⟨-, hOKey⟩ | hxOld
            · exact absurd hOKey hNewKey
            · obtain ⟨id, hTruthy, hGet⟩ := get?_of_memory_find.mp ((h.finds x).mpr ⟨hxOld, hxKey⟩)
              exact ⟨id, hTruthy, hStays hGet⟩
        · rw [hIndex] at hEntry
          obtain ⟨row, hRow⟩ := h.indexed rfl entry hEntry
          exact ⟨row, hStays hRow⟩

end OrderStore
end VpnPayment
