import VpnPayment.Settlement.RefundNotices

/-! What is known of the stored refunds and of the notifications of their results,
as long as nothing happens that loses a result. -/
namespace VpnPayment

open Async Collections

/-- The refund with a number is still PENDING. -/
def StillPending (b : Backend) (outRefundNo : String) (w : World) : Prop :=
  ∃ r, w.store.refunds.findByOutRefundNo b outRefundNo = some r ∧ r.status = .PENDING

/-- A refund keeps its terms, and does not become PENDING again. -/
def Refund.Follows (r r' : Refund) : Prop :=
  r'.terms = r.terms ∧ (r'.status = .PENDING → r.status = .PENDING)

theorem Refund.Follows.refl (r : Refund) : r.Follows r :=
  ⟨rfl, fun h => h⟩

theorem Refund.Follows.trans {r r' r'' : Refund} (h : r.Follows r') (h' : r'.Follows r'') :
    r.Follows r'' :=
  ⟨h'.1.trans h.1, fun hPending => h.2 (h'.2 hPending)⟩

namespace Refund

variable {r r' : Refund}

theorem id_eq_of_terms (h : r.terms = r'.terms) : r.id = r'.id :=
  congrArg Prod.fst h

theorem orderId_eq_of_terms (h : r.terms = r'.terms) : r.orderId = r'.orderId :=
  congrArg (fun terms => terms.2.1) h

theorem outRefundNo_eq_of_terms (h : r.terms = r'.terms) : r.outRefundNo = r'.outRefundNo :=
  congrArg (fun terms => terms.2.2) h

end Refund

namespace RefundStore

variable {b : Backend} {row r : Refund}

@[simp] theorem status_written : (written b row r).status = r.status := by
  cases b <;> rfl

/-- Neither backend changes the terms of a stored refund. -/
theorem terms_written (h : r.terms = row.terms) : (written b row r).terms = row.terms := by
  cases b with
  | memory => exact h
  | sql => rfl

end RefundStore

section calls

variable {b : Backend} {i : Nat} {c : Call} {reply : Reply} {w w' : World}
  {answer : Except AppError (Ans c)}

/-- A repository call other than the two that write refunds leaves them alone. -/
theorem storeEffect_refunds {effect : Store → Except AppError (Ans c × Store)} {a : Ans c}
    {clock : Int} {s s' : Store} (hEffect : storeEffect b clock c = some effect)
    (hCreate : ∀ r, c ≠ .refundsCreate r) (hUpdate : ∀ r, c ≠ .refundsUpdate r)
    (hOk : effect s = .ok (a, s')) : s'.refunds = s.refunds := by
  cases c <;> simp only [storeEffect, Option.some.injEq, reduceCtorEq] at hEffect <;>
    subst hEffect
  case refundsCreate r => exact absurd rfl (hCreate r)
  case refundsUpdate r => exact absurd rfl (hUpdate r)
  all_goals first
    | (cases hOk; rfl)
    | (obtain ⟨t, -, hEq⟩ := map_eq_ok_iff.mp hOk; cases hEq; rfl)

theorem noted_store (i : Nat) (w : World) (c : Call) (reply : Reply) :
    (noted i w c reply).store = w.store := by
  unfold noted
  split <;> rfl

/-- What a call does to the refunds. -/
theorem refunds_of_exec (hExec : exec b i c reply w = some (answer, w')) :
    (w'.store.refunds = w.store.refunds ∧
      ∀ r a, (⟨c, answer⟩ : Σ c : Call, Except AppError (Ans c)) ≠ ⟨.refundsUpdate r, .ok a⟩) ∨
    (∃ r, c = .refundsCreate r ∧ w.store.refunds.create b w.store.orders r = .ok w'.store.refunds) ∨
    ∃ r, c = .refundsUpdate r ∧ w'.store.refunds = w.store.refunds.update b r := by
  by_cases hCreate : ∃ r, c = .refundsCreate r
  · obtain ⟨r, rfl⟩ := hCreate
    obtain ⟨e, -, rfl, -⟩ | ⟨a, s, hOk, rfl, -⟩ := exec_store hExec rfl
    · exact .inl ⟨rfl, fun r a hEq => nomatch congrArg Sigma.fst hEq⟩
    · obtain ⟨t, ht, hEq⟩ := map_eq_ok_iff.mp hOk
      cases hEq
      exact .inr (.inl ⟨r, rfl, ht⟩)
  by_cases hUpdate : ∃ r, c = .refundsUpdate r
  · obtain ⟨r, rfl⟩ := hUpdate
    obtain ⟨e, rfl, rfl, -⟩ | ⟨a, s, hOk, rfl, -⟩ := exec_store hExec rfl
    · exact .inl ⟨rfl, fun r a hEq => by cases hEq⟩
    · cases hOk
      exact .inr (.inr ⟨r, rfl, rfl⟩)
  · refine .inl ⟨?_, fun r a hEq => hUpdate ⟨r, congrArg Sigma.fst hEq⟩⟩
    cases hEffect : storeEffect b w.clock c with
    | none =>
        obtain ⟨e, -, rfl, -⟩ | ⟨a, -, -, rfl⟩ := exec_outside hExec hEffect
        · rfl
        · exact congrArg Store.refunds (noted_store i w c reply)
    | some effect =>
        obtain ⟨e, -, rfl, -⟩ | ⟨a, s, hOk, rfl, -⟩ := exec_store hExec hEffect
        · rfl
        · exact storeEffect_refunds hEffect (fun r h => hCreate ⟨r, h⟩) (fun r h => hUpdate ⟨r, h⟩) hOk

/-- A call other than `markIfNew` records no event. -/
theorem storeEffect_processed {effect : Store → Except AppError (Ans c × Store)} {a : Ans c}
    {clock : Int} {s s' : Store} {key : String} (hEffect : storeEffect b clock c = some effect)
    (hMark : ∀ k, c ≠ .markIfNew k) (hOk : effect s = .ok (a, s'))
    (hHas : s'.processed.has key = true) : s.processed.has key = true := by
  cases c <;> simp only [storeEffect, Option.some.injEq, reduceCtorEq] at hEffect <;>
    subst hEffect
  case markIfNew k => exact absurd rfl (hMark k)
  case sweep olderThanMs =>
    cases hOk
    rw [EventStore.sweep_eq] at hHas
    obtain ⟨entry, hEntry⟩ := Option.isSome_iff_exists.mp hHas
    have hMem := (Table.mem_filter_iff.mp (Table.mem_of_get? hEntry)).1
    exact Option.isSome_iff_exists.mpr ⟨entry, Table.key_of_get? hEntry ▸ Table.get?_of_mem hMem⟩
  all_goals first
    | (cases hOk; exact hHas)
    | (obtain ⟨t, -, hEq⟩ := map_eq_ok_iff.mp hOk; cases hEq; exact hHas)

/-- An event that is recorded was recorded before, or has just been. -/
theorem processed_of_exec {key : String} (hExec : exec b i c reply w = some (answer, w'))
    (hHas : w'.store.processed.has key = true) : w.store.processed.has key = true ∨
      (c = .markIfNew key ∧ ∃ e, reply = .throws true e) ∨
      (⟨c, answer⟩ : Σ c : Call, Except AppError (Ans c)) = ⟨.markIfNew key, .ok true⟩ := by
  by_cases hMark : ∃ k, c = .markIfNew k
  · obtain ⟨k, rfl⟩ := hMark
    obtain ⟨e, -, rfl, -⟩ | ⟨a, s, hOk, rfl, hAnswer⟩ := exec_store hExec rfl
    · exact .inl hHas
    · cases hOk
      cases hKnown : w.store.processed.has k with
      | true =>
          simp only [World.store_log, EventStore.markIfNew_eq, hKnown] at hHas
          exact .inl hHas
      | false =>
          by_cases hSame : k = key
          · subst hSame
            rcases hAnswer with rfl | ⟨e, -, hReply⟩
            · exact .inr (.inr (by simp [EventStore.markIfNew_eq, hKnown]))
            · exact .inr (.inl ⟨rfl, e, hReply⟩)
          · simp only [World.store_log, EventStore.markIfNew_eq, hKnown, Bool.false_eq_true,
              if_false] at hHas
            simp only [Table.has, Table.get?_put, hSame, if_false] at hHas
            exact .inl hHas
  · refine .inl ?_
    cases hEffect : storeEffect b w.clock c with
    | none =>
        obtain ⟨e, -, rfl, -⟩ | ⟨a, -, -, rfl⟩ := exec_outside hExec hEffect
        · exact hHas
        · rwa [World.store_log, noted_store] at hHas
    | some effect =>
        obtain ⟨e, -, rfl, -⟩ | ⟨a, s, hOk, rfl, -⟩ := exec_store hExec hEffect
        · exact hHas
        · exact storeEffect_processed hEffect (fun k h => hMark ⟨k, h⟩) hOk hHas

/-- An event is answered as known only if it is recorded. -/
theorem has_of_repeated {key : String}
    (hExec : exec b i (.markIfNew key) reply w = some (.ok false, w')) :
    w.store.processed.has key = true := by
  obtain ⟨s, hOk⟩ := effect_of_answer hExec rfl
  simp only [EventStore.markIfNew_eq, Except.ok.injEq, Prod.mk.injEq] at hOk
  by_contra hNot
  simp [hNot] at hOk

end calls

namespace World

variable {b : Backend} {i : Nat} {c : Call} {reply : Reply} {w w' : World}
  {answer : Except AppError (Ans c)}

/-- A paid order is stored. -/
def Paid (w : World) (orderId : String) : Prop :=
  ∃ o, w.order orderId = some o ∧ o.wasPaid

/-- The stored refund with the number is one that `r` has become. -/
def Holds (b : Backend) (w : World) (no : String) (r : Refund) : Prop :=
  ∃ x, w.store.refunds.findByOutRefundNo b no = some x ∧ r.Follows x

/-- What is known of the refunds, and of the notifications of their results, where
no result gets lost. -/
structure Accounted (b : Backend) (w : World) : Prop where
  kept : ∀ i, Along Kept (w.past i)
  stored : ∀ method eventId, w.store.processed.has (refundKey method eventId) = true →
    ∃ i, ⟨.markIfNew (refundKey method eventId), .ok true⟩ ∈ w.past i
  marked : ∀ i key answer, ⟨.markIfNew key, answer⟩ ∈ w.past i → ∃ n ∈ notices (w.past i), n.1 = key
  repeated : ∀ i key, ⟨.markIfNew key, .ok false⟩ ∈ w.past i →
    ∃ j, ⟨.markIfNew key, .ok true⟩ ∈ w.past j
  found : ∀ i no r, ⟨.refundsFindByOutRefundNo no, .ok (some r)⟩ ∈ w.past i → w.Holds b no r
  noticed : ∀ i, recorded (w.past i) = true → ∀ n ∈ notices (w.past i), ∃ r, w.Holds b n.2.outRefundNo r
  updated : ∀ i r answer, ⟨.refundsUpdate r, .ok answer⟩ ∈ w.past i →
    ∃ x, w.refund r.id = some x ∧ x.status ≠ .PENDING
  absent : ∀ i id, ⟨.uuid, .ok id⟩ ∈ w.past i → (∀ h ∈ w.past i, ∀ r, h.1 ≠ .refundsCreate r) →
    w.refund id = none
  read : ∀ i id o, ⟨.ordersFindById id, .ok (some o)⟩ ∈ w.past i → o.wasPaid → w.Paid id
  paid : ∀ id r, w.refund id = some r → w.Paid r.orderId

/-- An entry of a task after a call is an old one, or the call. -/
theorem mem_past_of_exec (hExec : exec b i c reply w = some (answer, w')) {j : Nat}
    {h : Σ c : Call, Except AppError (Ans c)} (hMem : h ∈ w'.past j) :
    h ∈ w.past j ∨ i = j ∧ h = ⟨c, answer⟩ := by
  obtain ⟨applied, hTrace⟩ := trace_of_exec hExec
  rw [past_logged hTrace] at hMem
  split at hMem
  · next hSame => exact (List.mem_cons.mp hMem).symm.imp id fun hEq => ⟨hSame, hEq⟩
  · exact .inl hMem

/-- A call extends the past of its own task. -/
theorem past_of_exec (hExec : exec b i c reply w = some (answer, w')) (j : Nat) :
    w'.past j = if i = j then ⟨c, answer⟩ :: w.past j else w.past j := by
  obtain ⟨applied, hTrace⟩ := trace_of_exec hExec
  exact past_logged hTrace

theorem past_subset_of_exec (hExec : exec b i c reply w = some (answer, w')) {j : Nat}
    {h : Σ c : Call, Except AppError (Ans c)} (hMem : h ∈ w.past j) : h ∈ w'.past j := by
  rw [past_of_exec hExec]
  split
  · exact List.mem_cons_of_mem _ hMem
  · exact hMem

/-- Identifiers that a task has drawn and not used for a refund are those of no refund. -/
def RefundIdsFresh (w : World) : Prop :=
  ∀ i id, ⟨.uuid, .ok id⟩ ∈ w.past i → (∀ h ∈ w.past i, ∀ r, h.1 ≠ .refundsCreate r) →
    w.refund id = none

/-- An update of a refund keeps the terms of a stored one. -/
def UpdatesStored (w : World) (c : Call) : Prop :=
  ∀ r, c = .refundsUpdate r → ∃ row, w.refund r.id = some row ∧ r.terms = row.terms

/-- A refund that is found stays to be found, on the same terms. -/
theorem finds_of_exec (hNew : ∀ r, c = .refundsCreate r → w.refund r.id = none)
    (hUpdates : w.UpdatesStored c) (hExec : exec b i c reply w = some (answer, w')) {no : String}
    {x : Refund} (hFind : w.store.refunds.findByOutRefundNo b no = some x) :
    ∃ x', w'.store.refunds.findByOutRefundNo b no = some x' ∧ x'.terms = x.terms ∧
      (x'.status = x.status ∨ ∃ r, c = .refundsUpdate r ∧ x'.status = r.status) := by
  rcases refunds_of_exec hExec with ⟨hSame, -⟩ | ⟨r, rfl, hCreate⟩ | ⟨r, rfl, hUpdate⟩
  · exact ⟨x, by rw [hSame, hFind], rfl, .inl rfl⟩
  · exact ⟨x, RefundStore.find_create hCreate (hNew r rfl) hFind, rfl, .inl rfl⟩
  · obtain ⟨row, hRow, hTerms⟩ := hUpdates r rfl
    have hWritten := RefundStore.terms_written (b := b) hTerms
    have hAll := RefundStore.find_update no hRow (Refund.outRefundNo_eq_of_terms hWritten)
    rw [hFind, Option.map_some] at hAll
    refine ⟨_, by rw [hUpdate, hAll], ?_⟩
    split
    · next hId =>
        have hGet := RefundStore.get?_of_find hFind
        obtain rfl : row = x := Option.some.inj (hRow.symm.trans (hId ▸ hGet))
        exact ⟨hWritten, .inr ⟨r, rfl, RefundStore.status_written⟩⟩
    · exact ⟨rfl, .inl rfl⟩

/-- Where a stored refund comes from. -/
theorem refund_of_exec (hUpdates : w.UpdatesStored c)
    (hExec : exec b i c reply w = some (answer, w')) {id : String} {x' : Refund}
    (hx' : w'.refund id = some x') :
    (∃ x, w.refund id = some x ∧ x'.orderId = x.orderId) ∨ c = .refundsCreate x' := by
  rcases refunds_of_exec hExec with ⟨hSame, -⟩ | ⟨r, rfl, hCreate⟩ | ⟨r, rfl, hUpdate⟩
  · rw [World.refund, hSame] at hx'
    exact .inl ⟨x', hx', rfl⟩
  · rw [World.refund, RefundStore.create_ok hCreate, Table.get?_put] at hx'
    split at hx'
    · cases hx'
      exact .inr rfl
    · exact .inl ⟨x', hx', rfl⟩
  · obtain ⟨row, hRow, hTerms⟩ := hUpdates r rfl
    rw [World.refund, hUpdate, RefundStore.update_eq hRow, Table.get?_put,
      RefundStore.written_id (Table.key_of_get? hRow)] at hx'
    split at hx'
    · next hId =>
        cases hx'
        refine .inl ⟨row, hId ▸ hRow, ?_⟩
        exact Refund.orderId_eq_of_terms (RefundStore.terms_written hTerms)
    · exact .inl ⟨x', hx', rfl⟩

/-- Nobody but the task that has drawn an identifier uses it. -/
theorem RefundIdsFresh.exec (hFresh : w.RefundIdsFresh) (hLineage : w.Lineage)
    (hUpdates : w.UpdatesStored c) (hDrawn : ∀ r, c = .refundsCreate r → ⟨.uuid, .ok r.id⟩ ∈ w.past i)
    (hExec : exec b i c reply w = some (answer, w')) : w'.RefundIdsFresh := by
  intro j id hMem hFirst
  cases hRefund : w'.refund id with
  | none => rfl
  | some x' =>
      exfalso
      obtain hOld | ⟨rfl, hNew⟩ := mem_past_of_exec hExec hMem
      · have hNone := hFresh j id hOld fun h hh => hFirst h (past_subset_of_exec hExec hh)
        rcases refund_of_exec hUpdates hExec hRefund with ⟨x, hx, -⟩ | rfl
        · rw [hNone] at hx
          cases hx
        · -- the task that creates the refund has drawn its identifier, and nobody else has
          obtain rfl : x'.id = id := Table.key_of_get? hRefund
          obtain rfl : i = j := by
            have hEq := List.inj_on_of_nodup_map hLineage.issued
              (hLineage.drawn i x'.id (hDrawn x' rfl)) (hLineage.drawn j x'.id hOld) rfl
            exact congrArg Prod.fst hEq
          refine hFirst ⟨.refundsCreate x', answer⟩ ?_ x' rfl
          rw [past_of_exec hExec, if_pos rfl]
          exact List.mem_cons_self
      · cases hNew
        obtain ⟨-, hNot⟩ | ⟨id', hCall, hUnused, -⟩ := issued_of_exec hExec
        · exact hNot id rfl
        · cases hCall
          rcases refund_of_exec hUpdates hExec hRefund with ⟨x, hx, -⟩ | hCall
          · have hNone : w.refund id = none := hUnused.2.2.1
            rw [hNone] at hx
            cases hx
          · cases hCall

/-- Paid orders stay paid. -/
theorem Paid.exec {id : String} (hPaid : w.Paid id) (hFlows : Flows (w.past i) c)
    (hExec : exec b i c reply w = some (answer, w')) : w'.Paid id := by
  obtain ⟨o, ho, hWas⟩ := hPaid
  cases orderStep_of_exec hExec with
  | same c answer applied trace orders failed => exact ⟨o, (order_congr orders id).trans ho, hWas⟩
  | inserted new answer trace stored order => exact hFlows.elim
  | rewritten new row answer trace found stored order =>
      by_cases hId : new.id = id
      · obtain ⟨base, -, hBase, -, hStatus⟩ := hFlows
        refine ⟨_, by rw [order, if_pos hId], ?_⟩
        have hNew : new.wasPaid := by
          rcases hStatus with hSame | hRefunded
          · simpa [Order.wasPaid, Order.counted, hSame] using hBase
          · exact .inr hRefunded
        simpa [Order.wasPaid, Order.counted] using hNew
      · exact ⟨o, by rw [order, if_neg hId, ho], hWas⟩

/-- The row that an update of a refund is about. -/
theorem Accounted.updatedRow (hAccounted : w.Accounted b) {r : Refund}
    (hFlows : Flows (w.past i) (.refundsUpdate r)) :
    ∃ row, w.refund r.id = some row ∧ r.terms = row.terms := by
  obtain ⟨-, no, fresh, hMem, hTerms⟩ := hFlows
  obtain ⟨x, hFind, hSame, -⟩ := hAccounted.found i no fresh hMem
  have hEq : r.terms = x.terms := hTerms.trans hSame.symm
  exact ⟨x, Refund.id_eq_of_terms hEq ▸ RefundStore.get?_of_find hFind, hEq⟩

/-- What is about to be created is not there yet. -/
theorem Accounted.newRefund (hAccounted : w.Accounted b) {r : Refund}
    (hFlows : Flows (w.past i) (.refundsCreate r)) : w.refund r.id = none :=
  hAccounted.absent i r.id hFlows.2.2.1 hFlows.2.2.2

/-- What an admitted call updates is stored. -/
theorem Accounted.updatesStored (hAccounted : w.Accounted b) (hFlows : Flows (w.past i) c) :
    w.UpdatesStored c := by
  rintro r rfl
  exact hAccounted.updatedRow hFlows

/-- A refund that is found stays to be found. -/
theorem Accounted.finds (hAccounted : w.Accounted b) (hFlows : Flows (w.past i) c)
    (hExec : exec b i c reply w = some (answer, w')) {no : String} {x : Refund}
    (hFind : w.store.refunds.findByOutRefundNo b no = some x) : w'.Holds b no x := by
  have hNew : ∀ r, c = .refundsCreate r → w.refund r.id = none := by
    rintro r rfl
    exact hAccounted.newRefund hFlows
  obtain ⟨x', hFind', hTerms, hStatus⟩ :=
    finds_of_exec hNew (hAccounted.updatesStored hFlows) hExec hFind
  refine ⟨x', hFind', hTerms, fun hPending => ?_⟩
  rcases hStatus with hSame | ⟨r, rfl, hWritten⟩
  · exact hSame ▸ hPending
  · exact absurd (hWritten.symm.trans hPending) hFlows.1

/-- A refund that follows another one is held in its place. -/
theorem Holds.trans {no : String} {r x : Refund} (h : r.Follows x) (hHolds : w.Holds b no x) :
    w.Holds b no r := by
  obtain ⟨y, hFind, hFollows⟩ := hHolds
  exact ⟨y, hFind, h.trans hFollows⟩

/-- What is stored under a number stays stored under it. -/
theorem Accounted.holds (hAccounted : w.Accounted b) (hFlows : Flows (w.past i) c)
    (hExec : exec b i c reply w = some (answer, w')) {no : String} {r : Refund}
    (hHolds : w.Holds b no r) : w'.Holds b no r := by
  obtain ⟨x, hFind, hFollows⟩ := hHolds
  exact (hAccounted.finds hFlows hExec hFind).trans hFollows

/-- What becomes of a stored refund. -/
theorem Accounted.refund (hAccounted : w.Accounted b) (hFlows : Flows (w.past i) c)
    (hExec : exec b i c reply w = some (answer, w')) {id : String} {x : Refund}
    (hx : w.refund id = some x) : ∃ x', w'.refund id = some x' ∧ x.Follows x' := by
  rcases refunds_of_exec hExec with ⟨hSame, -⟩ | ⟨r, rfl, hCreate⟩ | ⟨r, rfl, hUpdate⟩
  · exact ⟨x, by rw [World.refund, hSame]; exact hx, .refl x⟩
  · have hNone := hAccounted.newRefund hFlows
    have hNe : r.id ≠ id := by
      rintro rfl
      rw [hNone] at hx
      cases hx
    refine ⟨x, ?_, .refl x⟩
    rw [World.refund, RefundStore.create_ok hCreate, Table.get?_put, if_neg hNe]
    exact hx
  · obtain ⟨row, hRow, hTerms⟩ := hAccounted.updatedRow hFlows
    rw [World.refund, hUpdate, RefundStore.update_eq hRow, Table.get?_put,
      RefundStore.written_id (Table.key_of_get? hRow)]
    split
    · next hId =>
        obtain rfl : row = x := Option.some.inj (hRow.symm.trans (hId ▸ hx))
        refine ⟨_, rfl, RefundStore.terms_written hTerms, fun hPending => ?_⟩
        exact absurd (RefundStore.status_written.symm.trans hPending) hFlows.1
    · exact ⟨x, hx, .refl x⟩

/-- What is asked of a call so that no result gets lost: a notification is recorded
only once its refund is stored, that call takes no effect if it fails, and
nothing fails afterwards. -/
structure Spared (b : Backend) (i : Nat) (c : Call) (reply : Reply) (w : World) : Prop where
  goesOn : recorded (w.past i) = true → reply.fails = false
  recording : ∀ key, c = .markIfNew key → (∀ e, reply ≠ .throws true e) ∧
    ∀ n ∈ notices (w.past i), ∃ r, w.store.refunds.findByOutRefundNo b n.2.outRefundNo = some r

/-- Nothing but the environment makes a call fail once a notification is recorded. -/
theorem Accounted.answers (hAccounted : w.Accounted b) (hFlows : Flows (w.past i) c)
    (hSpared : Spared b i c reply w) (hRecorded : recorded (w.past i) = true)
    (hExec : exec b i c reply w = some (answer, w')) : ∃ a, answer = .ok a := by
  cases answer with
  | ok a => exact ⟨a, rfl⟩
  | error e =>
      obtain ⟨-, ⟨applied, rfl⟩ | ⟨effect, hEffect, hError⟩⟩ := exec_error hExec
      · cases hSpared.goesOn hRecorded
      · exfalso
        cases c <;> simp only [storeEffect, Option.some.injEq, reduceCtorEq] at hEffect <;>
          subst hEffect <;> try cases hError
        case ordersCreate o => exact hFlows
        case subscriptionsCreate sub => exact hFlows
        case subscriptionsUpdate sub => exact hFlows
        case refundsCreate r =>
          rw [hFlows.1] at hRecorded
          cases hRecorded
        case ordersUpdate o =>
          obtain ⟨base, hRead, hPaid, hId, -⟩ := hFlows
          obtain ⟨row, hRow, -⟩ := hAccounted.read i base.id base hRead hPaid
          have hStored : w.store.orders.byId.get? o.id = some row := hId ▸ hRow
          cases b <;>
            simp [OrderStore.update, MemoryOrderRepository.update, SqlOrderRepository.update,
              Table.has, hStored, Except.map] at hError

/-- The call keeps the account of its own task. -/
theorem Accounted.keptCall (hAccounted : w.Accounted b) (hFlows : Flows (w.past i) c)
    (hSpared : Spared b i c reply w) (hExec : exec b i c reply w = some (answer, w')) :
    Kept (w.past i) ⟨c, answer⟩ where
  goesOn hRecorded := hAccounted.answers hFlows hSpared hRecorded hExec
  found := by
    rintro no hEq hRecorded n hn rfl
    cases hEq
    obtain ⟨r, x, hFind, -⟩ := hAccounted.noticed i hRecorded n hn
    obtain ⟨x', hFind', -⟩ := hAccounted.finds hFlows hExec hFind
    have hNone : none = w'.store.refunds.findByOutRefundNo b n.2.outRefundNo := exec_answers hExec
    rw [hFind'] at hNone
    cases hNone
  paid := by
    rintro id o hEq
    cases hEq
    refine ⟨possible_of_exec hExec o rfl, ?_⟩
    rintro ⟨no, r, hMem, rfl⟩
    obtain ⟨x, hFind, hFollows⟩ := hAccounted.found i no r hMem
    have hPaid := hAccounted.paid x.id x (RefundStore.get?_of_find hFind)
    rw [Refund.orderId_eq_of_terms hFollows.1] at hPaid
    obtain ⟨o', ho', hWas⟩ := hPaid.exec hFlows hExec
    have hFound : some o = w'.order r.orderId := exec_answers hExec
    rw [ho'] at hFound
    cases hFound
    exact hWas

/-- A notice names its method and its event. -/
theorem refundKey_of_notice {n : String × RefundCallbackResult} {past : Past}
    (hn : n ∈ notices past) : ∃ method eventId, n.1 = refundKey method eventId := by
  obtain ⟨⟨c, answer⟩, -, hNotice⟩ := List.mem_filterMap.mp hn
  unfold noticeOf at hNotice
  split at hNotice
  · cases hNotice
    exact ⟨_, _, rfl⟩
  · cases hNotice

/-- Only a verified notice is one. -/
theorem noticeOf_eq_none {h : Σ c : Call, Except AppError (Ans c)}
    (hNot : ∀ method raw, h.1 ≠ .verifyRefundCallback method raw) : noticeOf h = none := by
  unfold noticeOf
  split
  · exact absurd rfl (hNot _ _)
  · rfl

/-- A task that has recorded a notification reads no other. -/
theorem Accounted.noticed_cons (hAccounted : w.Accounted b) (hFlows : Flows (w.past i) c)
    (hSpared : Spared b i c reply w) (hExec : exec b i c reply w = some (answer, w'))
    (hRecorded : recorded (⟨c, answer⟩ :: w.past i) = true) :
    ∀ n ∈ notices (⟨c, answer⟩ :: w.past i), ∃ r, w'.Holds b n.2.outRefundNo r := by
  intro n hn
  by_cases hVerify : ∃ method raw, c = .verifyRefundCallback method raw
  · obtain ⟨method, raw, rfl⟩ := hVerify
    have hNone : w.past i = [] := hFlows
    rw [hNone] at hRecorded
    cases hRecorded
  · have hNotice : noticeOf ⟨c, answer⟩ = none :=
      noticeOf_eq_none fun method raw hEq => hVerify ⟨method, raw, hEq⟩
    have hOld : n ∈ notices (w.past i) := by simpa [notices, hNotice] using hn
    by_cases hBefore : recorded (w.past i) = true
    · obtain ⟨r, hHolds⟩ := hAccounted.noticed i hBefore n hOld
      exact ⟨r, hAccounted.holds hFlows hExec hHolds⟩
    · have hEither : (records ⟨c, answer⟩ || recorded (w.past i)) = true := hRecorded
      have hNow := ((Bool.or_eq_true _ _).mp hEither).resolve_right hBefore
      have hMark : ∃ key, c = .markIfNew key := by
        unfold records at hNow
        split at hNow
        · exact ⟨_, congrArg Sigma.fst ‹_›⟩
        · cases hNow
      obtain ⟨key, rfl⟩ := hMark
      obtain ⟨r, hFind⟩ := (hSpared.recording key rfl).2 n hOld
      exact ⟨r, hAccounted.finds hFlows hExec hFind⟩

/-- A call accounts for what it answers. -/
theorem Accounted.step (hAccounted : w.Accounted b) (hLineage : w.Lineage)
    (hFlows : Flows (w.past i) c) (hSpared : Spared b i c reply w)
    (hExec : exec b i c reply w = some (answer, w')) : w'.Accounted b := by
  refine ⟨fun j => ?_, fun method eventId hHas => ?_, fun j key mark hMem => ?_,
    fun j key hMem => ?_, fun j no r hMem => ?_,
    fun j hRecorded n hn => ?_, fun j r a hMem => ?_, fun j id hMem hFirst => ?_,
    fun j id o hMem hWas => ?_, fun id x' hx' => ?_⟩
  · -- kept
    rw [past_of_exec hExec]
    split
    · next hSame => exact hSame ▸ ⟨hAccounted.keptCall hFlows hSpared hExec, hAccounted.kept i⟩
    · exact hAccounted.kept j
  · -- stored
    rcases processed_of_exec hExec hHas with hOld | ⟨rfl, e, hReply⟩ | hNew
    · obtain ⟨j, hMem⟩ := hAccounted.stored method eventId hOld
      exact ⟨j, past_subset_of_exec hExec hMem⟩
    · exact absurd hReply ((hSpared.recording _ rfl).1 e)
    · refine ⟨i, ?_⟩
      rw [past_of_exec hExec, if_pos rfl, hNew]
      exact List.mem_cons_self
  · -- marked
    obtain hOld | ⟨rfl, hNew⟩ := mem_past_of_exec hExec hMem
    · obtain ⟨n, hn, hKey⟩ := hAccounted.marked j key mark hOld
      obtain ⟨h, hh, hNotice⟩ := List.mem_filterMap.mp hn
      exact ⟨n, List.mem_filterMap.mpr ⟨h, past_subset_of_exec hExec hh, hNotice⟩, hKey⟩
    · cases hNew
      obtain ⟨n, hn, hKey⟩ := hFlows
      obtain ⟨h, hh, hNotice⟩ := List.mem_filterMap.mp hn
      exact ⟨n, List.mem_filterMap.mpr ⟨h, past_subset_of_exec hExec hh, hNotice⟩, hKey⟩
  · -- repeated
    obtain hOld | ⟨rfl, hNew⟩ := mem_past_of_exec hExec hMem
    · obtain ⟨k, hMarked⟩ := hAccounted.repeated j key hOld
      exact ⟨k, past_subset_of_exec hExec hMarked⟩
    · cases hNew
      obtain ⟨n, hn, rfl⟩ := hFlows
      obtain ⟨method, eventId, hKey⟩ := refundKey_of_notice hn
      obtain ⟨k, hMarked⟩ := hAccounted.stored method eventId (hKey ▸ has_of_repeated hExec)
      exact ⟨k, past_subset_of_exec hExec (hKey ▸ hMarked)⟩
  · -- found
    obtain hOld | ⟨rfl, hNew⟩ := mem_past_of_exec hExec hMem
    · exact hAccounted.holds hFlows hExec (hAccounted.found j no r hOld)
    · cases hNew
      have hFound : some r = w'.store.refunds.findByOutRefundNo b no := exec_answers hExec
      exact ⟨r, hFound.symm, .refl r⟩
  · -- noticed
    rw [past_of_exec hExec] at hRecorded hn
    split at hRecorded
    · next hSame =>
        subst hSame
        exact hAccounted.noticed_cons hFlows hSpared hExec hRecorded n (by simpa using hn)
    · next hNe =>
        obtain ⟨r, hHolds⟩ := hAccounted.noticed j hRecorded n (by simpa [hNe] using hn)
        exact ⟨r, hAccounted.holds hFlows hExec hHolds⟩
  · -- updated
    obtain hOld | ⟨rfl, hNew⟩ := mem_past_of_exec hExec hMem
    · obtain ⟨x, hx, hStatus⟩ := hAccounted.updated j r a hOld
      obtain ⟨x', hx', hFollows⟩ := hAccounted.refund hFlows hExec hx
      exact ⟨x', hx', fun hPending => hStatus (hFollows.2 hPending)⟩
    · cases hNew
      obtain ⟨row, hRow, hTerms⟩ := hAccounted.updatedRow hFlows
      rcases refunds_of_exec hExec with ⟨-, hNot⟩ | ⟨r', hCall, -⟩ | ⟨r', hCall, hUpdate⟩
      · exact absurd rfl (hNot r a)
      · cases hCall
      · cases hCall
        refine ⟨RefundStore.written b row r, ?_, ?_⟩
        · rw [World.refund, hUpdate, RefundStore.update_eq hRow, Table.get?_put,
            RefundStore.written_id (Table.key_of_get? hRow), if_pos rfl]
        · rw [RefundStore.status_written]
          exact hFlows.1
  · -- absent
    have hFresh : w.RefundIdsFresh := hAccounted.absent
    refine hFresh.exec hLineage (hAccounted.updatesStored hFlows) ?_ hExec j id hMem hFirst
    rintro r rfl
    exact hFlows.2.2.1
  · -- read
    obtain hOld | ⟨rfl, hNew⟩ := mem_past_of_exec hExec hMem
    · exact (hAccounted.read j id o hOld hWas).exec hFlows hExec
    · cases hNew
      have hFound : some o = w'.order id := exec_answers hExec
      exact ⟨o, hFound.symm, hWas⟩
  · -- paid
    rcases refund_of_exec (hAccounted.updatesStored hFlows) hExec hx' with ⟨x, hx, hOrder⟩ | rfl
    · exact hOrder ▸ (hAccounted.paid id x hx).exec hFlows hExec
    · obtain ⟨o, hRead, hWas⟩ := hFlows.2.1
      exact (hAccounted.read i _ o hRead hWas).exec hFlows hExec

/-- What a task has found and updated is not PENDING. -/
theorem Accounted.not_pending (hAccounted : w.Accounted b) {no : String}
    (hEffect : TookEffect (w.past i) no) : ¬StillPending b no w := by
  rintro ⟨x, hFind, hPending⟩
  obtain ⟨r, hFound, hUpdated⟩ := hEffect
  obtain ⟨y, hFind', hFollows⟩ := hAccounted.found i no r hFound
  obtain rfl := Option.some.inj (hFind.symm.trans hFind')
  obtain ⟨z, answer, hUpdate, hId⟩ := hUpdated (hFollows.2 hPending)
  obtain ⟨row, hRow, hStatus⟩ := hAccounted.updated i z answer hUpdate
  have hGet := RefundStore.get?_of_find hFind
  have hSame : z.id = x.id := hId.trans (Refund.id_eq_of_terms hFollows.1).symm
  rw [World.refund, hSame, hGet] at hRow
  cases hRow
  exact hStatus hPending

end World

end VpnPayment
