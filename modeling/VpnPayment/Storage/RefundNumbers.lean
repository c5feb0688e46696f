import VpnPayment.Storage.Repositories

/-! Refunds by their merchant refund number. A number that is taken is found, in
either backend, so an insertion collides with nothing that a lookup misses. -/
namespace VpnPayment

open Collections

namespace RefundStore

/-- Whether the repository takes the number for a duplicate. -/
def taken (b : Backend) (s : RefundStore) (outRefundNo : String) : Bool :=
  match b with
  | .memory => s.byOutRefundNo.has outRefundNo
  | .sql => s.byId.rows.any fun row => row.outRefundNo = outRefundNo

/-- A number that is taken is found. -/
def Indexed (b : Backend) (s : RefundStore) : Prop :=
  ∀ no, s.taken b no = true → (s.findByOutRefundNo b no).isSome = true

variable {b : Backend} {orders : OrderStore} {s s' : RefundStore} {r row : Refund} {no : String}

/-- The SQL lookup reads what the unique index is about. -/
theorem indexed_sql (s : RefundStore) : s.Indexed .sql := by
  intro no hTaken
  obtain ⟨row, hMem, hNo⟩ := List.any_eq_true.mp hTaken
  exact List.find?_isSome.mpr ⟨row, hMem, hNo⟩

theorem not_taken (h : s.Indexed b) (hNone : s.findByOutRefundNo b no = none) :
    s.taken b no = false := by
  by_contra hTaken
  have hSome := h no (by simpa using hTaken)
  rw [hNone] at hSome
  cases hSome

/-- An insertion fails for a number that is taken, for an identifier in use or, under
SQL, for want of its order. -/
theorem create_of_not_taken (hNo : s.taken b r.outRefundNo = false)
    (hNew : s.byId.get? r.id = none) (hOrder : orders.byId.has r.orderId = true) :
    ∃ s', s.create b orders r = .ok s' := by
  cases b with
  | memory =>
      have hFree : s.byOutRefundNo.has r.outRefundNo = false := hNo
      simp [create, MemoryRefundRepository.create, hFree]
  | sql =>
      have hFree : (s.byId.rows.any fun row => row.outRefundNo = r.outRefundNo) = false := hNo
      have hAbsent : s.byId.has r.id = false := by simp [Table.has, hNew]
      simp only [create, SqlRefundRepository.create, hAbsent, hFree, hOrder, Bool.false_eq_true,
        if_false, if_true]
      exact ⟨_, rfl⟩

/-- A new refund is found by its number. -/
theorem find_created (h : s.create b orders r = .ok s') (hId : r.id ≠ "")
    (hNew : s.byId.get? r.id = none) : s'.findByOutRefundNo b r.outRefundNo = some r := by
  have hById := create_ok h
  cases b with
  | memory =>
      simp only [create, MemoryRefundRepository.create] at h
      split at h
      · cases h
      · cases h
        simp [findByOutRefundNo, MemoryRefundRepository.findByOutRefundNo, truthy, Option.filter, hId]
  | sql =>
      simp only [create, SqlRefundRepository.create] at h
      split at h
      · cases h
      · split at h
        · cases h
        · next hFree =>
            have hRows : s'.byId.rows = s.byId.rows ++ [r] := by
              rw [hById]
              exact Table.rows_put_of_get?_eq_none hNew
            have hNone : s.byId.rows.find? (fun row => row.outRefundNo = r.outRefundNo) = none := by
              rw [List.find?_eq_none]
              simpa using hFree
            simp [findByOutRefundNo, SqlRefundRepository.findByOutRefundNo, hRows, hNone]

/-- It is found by no other number. -/
theorem find_create_other (hIndexed : s.Indexed b) (h : s.create b orders r = .ok s')
    (hNew : s.byId.get? r.id = none) (hNo : r.outRefundNo ≠ no)
    (hNone : s.findByOutRefundNo b no = none) : s'.findByOutRefundNo b no = none := by
  have hById := create_ok h
  cases b with
  | memory =>
      have hFree : s.byOutRefundNo.get? no = none := by
        have hNot : s.byOutRefundNo.has no = false := not_taken hIndexed hNone
        simpa [Table.has] using hNot
      simp only [create, MemoryRefundRepository.create] at h
      split at h
      · cases h
      · cases h
        simp [findByOutRefundNo, MemoryRefundRepository.findByOutRefundNo, hNo, hFree, truthy]
  | sql =>
      have hRows : s'.byId.rows = s.byId.rows ++ [r] := by
        rw [hById]
        exact Table.rows_put_of_get?_eq_none hNew
      have hOld : s.byId.rows.find? (fun row => row.outRefundNo = no) = none := hNone
      simp [findByOutRefundNo, SqlRefundRepository.findByOutRefundNo, hRows, hOld, hNo]

theorem Indexed.create (hIndexed : s.Indexed b) (h : s.create b orders r = .ok s') (hId : r.id ≠ "")
    (hNew : s.byId.get? r.id = none) : s'.Indexed b := by
  cases b with
  | sql => exact indexed_sql s'
  | memory =>
      intro no hTaken
      by_cases hSame : r.outRefundNo = no
      · subst hSame
        rw [find_created h hId hNew]
        rfl
      · have hOld : s.taken .memory no = true := by
          simp only [RefundStore.create, MemoryRefundRepository.create] at h
          split at h
          · cases h
          · cases h
            simpa [taken, Table.has, hSame] using hTaken
        obtain ⟨x, hFind⟩ := Option.isSome_iff_exists.mp (hIndexed no hOld)
        rw [find_create h hNew hFind]
        rfl

theorem Indexed.update (hIndexed : s.Indexed b) (hRow : s.byId.get? r.id = some row)
    (hNo : (written b row r).outRefundNo = row.outRefundNo) : (s.update b r).Indexed b := by
  cases b with
  | sql => exact indexed_sql _
  | memory =>
      intro no hTaken
      rw [find_update no hRow hNo, Option.isSome_map]
      exact hIndexed no hTaken

theorem indexed_empty (b : Backend) : Store.empty.refunds.Indexed b := by
  intro no hTaken
  cases b <;> cases hTaken

end RefundStore
end VpnPayment
