import VpnPayment.Settlement.OrderRules

/-! The rules for the calls that write orders, refunds and granted time. -/
namespace VpnPayment

open Async Collections
open Prog (perform)

namespace World

variable {b : Backend} {scope : Scope} {i : Nat} {id : String} {c : Call} {reply : Reply}
  {w w' : World}

/-- A step that stores one order. -/
structure OrderStored (i : Nat) (c : Call) (row : Order) (w w' : World) : Prop where
  order : ∀ k, w'.order k = if row.id = k then some row else w.order k
  refunds : w'.store.refunds = w.store.refunds
  grants : ∀ k, w'.grants k = w.grants k
  lastWrite : ∀ j, w'.lastWrite j = if i = j then some c else w.lastWrite j
  issued : w'.issued = w.issued

theorem orderStored_log {row : Order} {store : Store} {answer : Except AppError (Ans c)}
    (hOrders : store.orders.byId = w.store.orders.byId.put row)
    (hRefunds : store.refunds = w.store.refunds) (hWrites : c.writesLedger = true)
    (hGrantee : c.grantee = none) :
    OrderStored i c row w ({ w with store := store }.log ⟨i, c, answer, true⟩) where
  order k := by simp [World.order, hOrders]
  refunds := hRefunds
  grants k := by
    rw [grants_log]
    simp [Event.grants, hGrantee, World.grants]
  lastWrite j := by
    rw [lastWrite_log]
    simp [hWrites, World.lastWrite]
  issued := rfl

namespace OrderStored

variable {row old : Order}

theorem refund (hStep : OrderStored i c row w w') (k : String) : w'.refund k = w.refund k := by
  simp [World.refund, hStep.refunds]

theorem refundsOf (hStep : OrderStored i c row w w') (k : String) :
    w'.refundsOf k = w.refundsOf k := by
  simp [World.refundsOf, hStep.refunds]

theorem touches (hStep : OrderStored i c row w w') (hOld : w.order row.id = some old)
    (hWrite : Order.Write (scope = .creating) old row) : Touches b scope i row.id w w' where
  orders k hk := by simp [hStep.order, Ne.symm hk]
  refundsOf k _ := hStep.refundsOf k
  grants k _ := hStep.grants k
  row o ho := by
    rw [hOld, Option.some.injEq] at ho
    exact ⟨row, by simp [hStep.order], ho ▸ hWrite⟩
  missing hNone := by simp [hOld] at hNone
  refunds no r hr := ⟨r, by rw [hStep.refunds, hr], rfl, rfl⟩
  newRefund r hNone hSome := absurd (hStep.refund r ▸ hNone) hSome
  issued := hStep.issued
  lastWrite j hj := by simp [hStep.lastWrite, Ne.symm hj]

theorem known {n : Nat} {refunds : List Refund} {core? : Option Order}
    (hStep : OrderStored i c row w w') (hKnown : Known scope row.id core? refunds n w) :
    Known scope row.id (some row.core) refunds n w' where
  refunds := (hStep.refundsOf row.id).trans hKnown.refunds
  grants := (hStep.grants row.id).trans hKnown.grants
  order _ := by simp [core, hStep.order]

end OrderStored

/-- A step that stores one refund. -/
structure RefundStored (b : Backend) (i : Nat) (c : Call) (r : Refund) (refunds : List Refund)
    (w w' : World) : Prop where
  refund : ∀ k, w'.refund k = if r.id = k then some r else w.refund k
  refundsOf : w'.refundsOf r.orderId = refunds
  others : ∀ k, k ≠ r.orderId → w'.refundsOf k = w.refundsOf k
  stay : RefundsStay b w w'
  orders : w'.store.orders = w.store.orders
  grants : ∀ k, w'.grants k = w.grants k
  lastWrite : ∀ j, w'.lastWrite j = if i = j then some c else w.lastWrite j
  issued : w'.issued = w.issued

namespace RefundStored

variable {r : Refund} {refunds : List Refund}

theorem order (hStep : RefundStored b i c r refunds w w') (k : String) :
    w'.order k = w.order k := by
  simp [World.order, hStep.orders]

theorem touches (hStep : RefundStored b i c r refunds w w')
    (hOld : w.refund r.id = none → (i, r.id) ∈ w.issued) : Touches b scope i r.orderId w w' where
  orders k _ := hStep.order k
  refundsOf := hStep.others
  grants k _ := hStep.grants k
  row o ho := ⟨o, (hStep.order _).trans ho, .refl o⟩
  missing hNone := (hStep.order _).trans hNone
  refunds := hStep.stay
  newRefund k hNone hSome := by
    rw [hStep.refund] at hSome
    split at hSome
    · next hEq => exact hEq ▸ hOld (hEq ▸ hNone)
    · exact absurd hNone hSome
  issued := hStep.issued
  lastWrite j hj := by simp [hStep.lastWrite, Ne.symm hj]

theorem known {n : Nat} {before : List Refund} {core? : Option Order}
    (hStep : RefundStored b i c r refunds w w') (hKnown : Known scope r.orderId core? before n w) :
    Known scope r.orderId core? refunds n w' where
  refunds := hStep.refundsOf
  grants := (hStep.grants _).trans hKnown.grants
  order hOrder := by
    simp only [core, hStep.order]
    exact hKnown.order hOrder

end RefundStored

/-- A step that grants an order's time. -/
structure Granted (i : Nat) (id : String) (w w' : World) : Prop where
  orders : w'.store.orders = w.store.orders
  refunds : w'.store.refunds = w.store.refunds
  grants : ∀ k, w'.grants k = w.grants k + if k = id then 1 else 0
  lastWrite : ∀ j, w'.lastWrite j = w.lastWrite j
  issued : w'.issued = w.issued

namespace Granted

theorem order (hStep : Granted i id w w') (k : String) : w'.order k = w.order k := by
  simp [World.order, hStep.orders]

theorem refundsOf (hStep : Granted i id w w') (k : String) : w'.refundsOf k = w.refundsOf k := by
  simp [World.refundsOf, hStep.refunds]

theorem touches (hStep : Granted i id w w') : Touches b scope i id w w' where
  orders k _ := hStep.order k
  refundsOf k _ := hStep.refundsOf k
  grants k hk := by simp [hStep.grants, hk]
  row o ho := ⟨o, (hStep.order _).trans ho, .refl o⟩
  missing hNone := (hStep.order _).trans hNone
  refunds no r hr := ⟨r, by rw [hStep.refunds, hr], rfl, rfl⟩
  newRefund k hNone hSome := by
    simp only [World.refund, hStep.refunds] at hSome
    exact absurd hNone hSome
  issued := hStep.issued
  lastWrite j _ := hStep.lastWrite j

theorem known {n : Nat} {refunds : List Refund} {core? : Option Order}
    (hStep : Granted i id w w') (hKnown : Known scope id core? refunds n w) :
    Known scope id core? refunds (n + 1) w' where
  refunds := (hStep.refundsOf id).trans hKnown.refunds
  grants := by simp [hStep.grants, hKnown.grants]
  order hOrder := by
    simp only [core, hStep.order]
    exact hKnown.order hOrder

end Granted
end World

section calls

variable {b : Backend} {i : Nat} {reply : Reply} {w w' : World}

/-- An update of a stored order rewrites its row or, when it throws, may leave it. -/
theorem exec_ordersUpdate {o row : Order} {answer : Except AppError Order}
    (hRow : w.order o.id = some row)
    (hExec : exec b i (.ordersUpdate o) reply w = some (answer, w')) :
    (∃ e, answer = .error e ∧ reply = .throws false e ∧ World.Untouched i w w') ∨
    (World.OrderStored i (.ordersUpdate o) (OrderStore.written b row o) w w' ∧
      (answer = .ok o ∨ ∃ e, answer = .error e ∧ reply = .throws true e)) := by
  have hUpdate : ∀ t, w.store.orders.update b o = .ok t →
      t.byId = w.store.orders.byId.put (OrderStore.written b row o) := by
    intro t ht
    obtain ⟨row', hRow', rfl⟩ | ⟨hNone, -⟩ := OrderStore.update_cases ht
    · rw [show row' = row from Option.some.inj (hRow'.symm.trans hRow)]
    · simp [World.order, hNone] at hRow
  obtain ⟨e, rfl, rfl, hFails | hReply⟩ | ⟨a, s, hOk, rfl, hAnswer⟩ := exec_store hExec rfl
  · exfalso
    cases b <;> simp [OrderStore.update, MemoryOrderRepository.update, Table.has,
      SqlOrderRepository.update, show w.store.orders.byId.get? o.id = some row from hRow,
      Except.map] at hFails
  · exact .inl ⟨e, rfl, hReply, World.untouched_log (.inl rfl)⟩
  · obtain ⟨t, ht, hEq⟩ := map_eq_ok_iff.mp hOk
    cases hEq
    exact .inr ⟨World.orderStored_log (hUpdate t ht) rfl rfl rfl, hAnswer⟩

/-- A create of an unused identifier adds a row or, when it throws, may not. -/
theorem exec_ordersCreate {o : Order} {answer : Except AppError Order}
    (hExec : exec b i (.ordersCreate o) reply w = some (answer, w')) :
    (∃ e, answer = .error e ∧ World.Untouched i w w') ∨
    (World.OrderStored i (.ordersCreate o) (OrderStore.created b o) w w' ∧
      (answer = .ok o ∨ ∃ e, answer = .error e)) := by
  obtain ⟨e, rfl, rfl, -⟩ | ⟨a, s, hOk, rfl, hAnswer⟩ := exec_store hExec rfl
  · exact .inl ⟨e, rfl, World.untouched_log (.inl rfl)⟩
  · obtain ⟨t, ht, hEq⟩ := map_eq_ok_iff.mp hOk
    cases hEq
    refine .inr ⟨World.orderStored_log (OrderStore.create_ok ht) rfl rfl rfl, ?_⟩
    exact hAnswer.imp (fun h => h) fun ⟨e, hEq, _⟩ => ⟨e, hEq⟩

theorem refundStored_log {c : Call} {answer : Except AppError (Ans c)} {r : Refund}
    {refunds : List Refund} {store : Store}
    (hById : store.refunds.byId = w.store.refunds.byId.put r)
    (hRefunds : store.refunds.byId.rows.filter (fun x => x.orderId = r.orderId) = refunds)
    (hOld : ∀ old, w.refund r.id = some old → old.orderId = r.orderId)
    (hStay : World.RefundsStay b w { w with store := store })
    (hOrders : store.orders = w.store.orders) (hWrites : c.writesLedger = true)
    (hGrantee : c.grantee = none) :
    World.RefundStored b i c r refunds w ({ w with store := store }.log ⟨i, c, answer, true⟩) where
  refund k := by simp [World.refund, hById]
  refundsOf := hRefunds
  others k hk := by
    simp only [World.refundsOf, World.store_log, hById]
    refine Table.filter_put (by simp [Ne.symm hk]) fun old hGet => ?_
    simp [hOld old hGet, Ne.symm hk]
  stay := hStay
  orders := hOrders
  grants k := by
    rw [World.grants_log]
    simp [Event.grants, hGrantee, World.grants]
  lastWrite j := by
    rw [World.lastWrite_log]
    simp [hWrites, World.lastWrite]
  issued := rfl

/-- A create of a refund with an unused identifier adds it at the end or leaves
the refunds alone. -/
theorem exec_refundsCreate {r : Refund} {answer : Except AppError Refund}
    (hNew : w.refund r.id = none)
    (hExec : exec b i (.refundsCreate r) reply w = some (answer, w')) :
    (∃ e, answer = .error e ∧ World.Untouched i w w') ∨
    (World.RefundStored b i (.refundsCreate r) r (w.refundsOf r.orderId ++ [r]) w w' ∧
      (answer = .ok r ∨ ∃ e, answer = .error e ∧ reply = .throws true e)) := by
  obtain ⟨e, rfl, rfl, -⟩ | ⟨a, s, hOk, rfl, hAnswer⟩ := exec_store hExec rfl
  · exact .inl ⟨e, rfl, World.untouched_log (.inl rfl)⟩
  · obtain ⟨t, ht, hEq⟩ := map_eq_ok_iff.mp hOk
    cases hEq
    refine .inr ⟨refundStored_log (RefundStore.create_ok ht) ?_ ?_ ?_ rfl rfl rfl, hAnswer⟩
    · simp only [RefundStore.create_ok ht, Table.rows_put_of_get?_eq_none hNew]
      simp [World.refundsOf]
    · simp [hNew]
    · exact fun no x hx => ⟨x, RefundStore.find_create ht hNew hx, rfl, rfl⟩

/-- An update of a stored refund, of the same order and number, rewrites it. -/
theorem exec_refundsUpdate {r row : Refund} {answer : Except AppError Refund}
    (hRow : w.refund r.id = some row) (hWritten : RefundStore.written b row r = r)
    (hOrder : r.orderId = row.orderId) (hNo : r.outRefundNo = row.outRefundNo)
    (hExec : exec b i (.refundsUpdate r) reply w = some (answer, w')) :
    (∃ e, answer = .error e ∧ reply = .throws false e ∧ World.Untouched i w w') ∨
    (World.RefundStored b i (.refundsUpdate r) r (rewrite r (w.refundsOf r.orderId)) w w' ∧
      (answer = .ok r ∨ ∃ e, answer = .error e ∧ reply = .throws true e)) := by
  have hEq := RefundStore.update_eq (b := b) hRow
  rw [hWritten] at hEq
  obtain ⟨e, rfl, rfl, hFails | hReply⟩ | ⟨a, s, hOk, rfl, hAnswer⟩ := exec_store hExec rfl
  · cases hFails
  · exact .inl ⟨e, rfl, hReply, World.untouched_log (.inl rfl)⟩
  · cases hOk
    refine .inr ⟨refundStored_log (by rw [hEq]) ?_ ?_ ?_ rfl rfl rfl, hAnswer⟩
    · rw [hEq, Table.rows_put_of_get? hRow, List.filter_map]
      refine congrArg (List.map _) (List.filter_congr fun x hx => ?_)
      by_cases hId : x.id = r.id
      · have hx := Table.get?_of_mem hx
        rw [hId, show w.store.refunds.byId.get? r.id = some row from hRow, Option.some.injEq] at hx
        simp [hId, hOrder, hx]
      · simp [hId]
    · rw [hRow]
      rintro old ⟨⟩
      exact hOrder.symm
    · intro no x hx
      refine ⟨if x.id = r.id then r else x, ?_, ?_, ?_⟩
      · have hFind := RefundStore.find_update (b := b) no hRow (by rw [hWritten, hNo])
        simp only [hFind, hx, hWritten, Option.map_some]
      · split
        · next hId => exact hId.symm
        · rfl
      · split
        · next hId =>
            have hGet := RefundStore.get?_of_find hx
            rw [hId, show w.store.refunds.byId.get? r.id = some row from hRow,
              Option.some.injEq] at hGet
            rw [hOrder, hGet]
        · rfl

/-- A subscription write that grants an order's time does so, fails, or throws
after it did. -/
theorem exec_grant {c : Call} {id : String} {answer : Except AppError (Ans c)}
    (hGrantee : c.grantee = some id) (hExec : exec b i c reply w = some (answer, w')) :
    (∃ e, answer = .error e ∧ World.Untouched i w w') ∨ World.Granted i id w w' := by
  have hLog : ∀ s : Store, s.orders = w.store.orders → s.refunds = w.store.refunds →
      c.writesLedger = false → World.Granted i id w ({ w with store := s }.log ⟨i, c, answer, true⟩) := by
    intro s hOrders hRefunds hWrites
    refine ⟨hOrders, hRefunds, fun k => ?_, fun j => ?_, rfl⟩
    · rw [World.grants_log]
      simp [Event.grants, hGrantee, World.grants, eq_comm]
    · rw [World.lastWrite_log]
      simp [hWrites, World.lastWrite]
  cases c with
  | subscriptionsCreate sub =>
      obtain ⟨e, rfl, rfl, -⟩ | ⟨a, s, hOk, rfl, -⟩ := exec_store hExec rfl
      · exact .inl ⟨e, rfl, World.untouched_log (.inl rfl)⟩
      · obtain ⟨t, -, hEq⟩ := map_eq_ok_iff.mp hOk
        cases hEq
        exact .inr (hLog _ rfl rfl rfl)
  | subscriptionsUpdate sub =>
      obtain ⟨e, rfl, rfl, -⟩ | ⟨a, s, hOk, rfl, -⟩ := exec_store hExec rfl
      · exact .inl ⟨e, rfl, World.untouched_log (.inl rfl)⟩
      · obtain ⟨t, -, hEq⟩ := map_eq_ok_iff.mp hOk
        cases hEq
        exact .inr (hLog _ rfl rfl rfl)
  | _ => cases hGrantee

end calls

section rules

variable {Instance Key : Type} {scope : Scope} {orderOf : Key → String}
  {locker : Instance → String → Key} {deps : Deps} {α : Type} {i : Nat} {id : String} {w : World}
  {core? : Option Order} {refunds : List Refund} {n : Nat}
  {Q : Option String → Except AppError α → World → Prop}

/-- Writing back the order whose lock is held. `row` is the order as it was read. -/
theorem safe_updateHeld {row o : Order} {f : Order → Action Key α}
    (hKnown : World.Known scope id (some row.core) refunds n w) (hId : row.id = id)
    (hIdentity : o.identity = row.identity) (hStatus : Edge row.status o.status)
    (hKeeps : Order.Keeps row (OrderStore.written deps.backend o o))
    (hPending : scope = .creating → o.status = .PENDING →
      (OrderStore.written deps.backend o o).core = row.core)
    (hRefunded : scope = .settled → o.status = .REFUNDED → row.status ≠ .REFUNDED →
      FullyRefunded o refunds)
    (hOk : ∀ w', World.Known scope id (some (OrderStore.written deps.backend o o).core) refunds n w' →
      World.Sound scope w' → Safe scope orderOf locker deps i (some id) (f o) Q w')
    (hError : ∀ e w' core', ¬scope.keepsLedger → World.Known scope id (some core') refunds n w' →
      World.Sound scope w' → Safe scope orderOf locker deps i (some id) (.ret (.error e)) Q w') :
    Safe scope orderOf locker deps i (some id) (perform (Call.ordersUpdate o) >>= f) Q w := by
  intro w₁ hRely₁ hSound free hFree reply hCond answer w₂ hExec
  have hKnown₁ := hKnown.rely hRely₁
  obtain ⟨row₁, hRow₁, hCore₁⟩ := hKnown₁.exists_row
  have hIdentity₁ : o.identity = row₁.identity :=
    hIdentity.trans (Order.identity_eq_of_core hCore₁.symm)
  have hStatus₁ : row₁.status = row.status := Order.status_eq_of_core hCore₁
  have hoId : o.id = id := (Order.eq_of_identity Order.id (fun _ => rfl) hIdentity).trans hId
  subst hoId
  have hWrites : ∀ applied e, reply = .throws applied e → ¬scope.keepsLedger :=
    fun applied e hReply hScope => hCond.writes hScope rfl applied e hReply
  obtain ⟨e, rfl, hReply, hStep⟩ | ⟨hStep, hAnswer⟩ := exec_ordersUpdate hRow₁ hExec
  · exact ⟨hStep.sound hSound, hStep.guar, hError e w₂ row.core (hWrites false e hReply)
      (hKnown₁.untouched hStep) (hStep.sound hSound)⟩
  have hNewCore := OrderStore.core_written (b := deps.backend) hIdentity₁
  have hNewId : (OrderStore.written deps.backend row₁ o).id = o.id :=
    OrderStore.written_id (World.id_of_order hRow₁)
  have hNewAmount : (OrderStore.written deps.backend row₁ o).amount = row₁.amount :=
    Order.eq_of_identity Order.amount (fun _ => rfl) (OrderStore.identity_written hIdentity₁)
  have hWrite : Order.Write (scope = .creating) row₁ (OrderStore.written deps.backend row₁ o) := by
    refine ⟨OrderStore.identity_written hIdentity₁, ?_, ?_, fun hScope hNew => ?_⟩
    · rw [OrderStore.status_written, hStatus₁]
      exact hStatus
    · exact ((Order.keeps_of_core hCore₁).trans hKeeps).trans (Order.keeps_of_core hNewCore.symm)
    · rw [OrderStore.status_written] at hNew
      rw [hNewCore, hPending hScope hNew, hCore₁]
  have hTouches : World.Touches deps.backend scope i _ w₁ w₂ :=
    hStep.touches (hNewId.symm ▸ hRow₁) hWrite
  have hOrder : w₂.order o.id = some (OrderStore.written deps.backend row₁ o) := by
    simp [hStep.order, hNewId]
  rw [hNewId] at hTouches
  have hSound₂ : World.Sound scope w₂ := by
    refine hTouches.sound hSound (fun hPos => ?_) (fun hScope o' ho' => ?_)
      (fun hScope o' ho' hNew => ?_) fun hScope hRefunds => ?_
    · rw [hStep.grants] at hPos ⊢
      obtain ⟨hOne, o', ho', hNot⟩ := hSound.granted o.id hPos
      rw [hRow₁, Option.some.injEq] at ho'
      refine ⟨hOne, _, hOrder, fun hNew => hNot ?_⟩
      rw [OrderStore.status_written] at hNew
      rw [← ho', hStatus₁]
      exact edge_to_pending (hNew ▸ hStatus)
    · rw [hOrder, Option.some.injEq] at ho'
      rw [← ho', hNewAmount, hStep.refundsOf]
      exact hSound.bounded hScope _ _ hRow₁
    · rw [hOrder, Option.some.injEq] at ho'
      subst ho'
      rw [OrderStore.status_written] at hNew
      rw [hStep.refundsOf]
      by_cases hOld : row₁.status = .REFUNDED
      · obtain ⟨hNone, hCovered⟩ := hSound.refunded hScope _ _ hRow₁ hOld
        exact ⟨hNone, hNewAmount ▸ hCovered⟩
      · obtain ⟨hNone, hCovered⟩ := hRefunded hScope hNew (hStatus₁ ▸ hOld)
        have hAmount : o.amount = row₁.amount :=
          Order.eq_of_identity Order.amount (fun _ => rfl) hIdentity₁
        rw [hKnown₁.refunds]
        exact ⟨hNone, hNewAmount ▸ hAmount ▸ hCovered⟩
    · rw [hStep.refundsOf] at hRefunds
      obtain ⟨o', ho', hNot⟩ := hSound.refundsPaid hScope o.id hRefunds
      rw [hRow₁, Option.some.injEq] at ho'
      refine ⟨_, hOrder, fun hNew => hNot ?_⟩
      rw [OrderStore.status_written] at hNew
      rw [← ho', hStatus₁]
      exact edge_to_pending (hNew ▸ hStatus)
  have hKnown₂ : World.Known scope o.id (some (OrderStore.written deps.backend o o).core) refunds n w₂ := by
    have := hStep.known (hNewId.symm ▸ hKnown₁)
    rwa [hNewId, hNewCore] at this
  refine ⟨hSound₂, hTouches.guar, ?_⟩
  obtain rfl | ⟨e, rfl, hReply⟩ := hAnswer
  · exact hOk w₂ hKnown₂ hSound₂
  · exact hError e w₂ _ (hWrites true e hReply) hKnown₂ hSound₂

/-- Granting the time of the order whose lock is held. -/
theorem safe_grant {c : Call} {f : Ans c → Action Key α} {core : Order}
    (hGrantee : c.grantee = some id) (hKnown : World.Known scope id (some core) refunds 0 w)
    (hStatus : core.status ≠ .PENDING)
    (hOk : ∀ a w', World.Known scope id (some core) refunds 1 w' → World.Sound scope w' →
      Safe scope orderOf locker deps i (some id) (f a) Q w')
    (hError : ∀ e w' n', World.Known scope id (some core) refunds n' w' → World.Sound scope w' →
      Safe scope orderOf locker deps i (some id) (.ret (.error e)) Q w') :
    Safe scope orderOf locker deps i (some id) (perform c >>= f) Q w := by
  intro w₁ hRely₁ hSound free hFree reply hCond answer w₂ hExec
  have hKnown₁ := hKnown.rely hRely₁
  obtain ⟨row, hRow, rfl⟩ := hKnown₁.exists_row
  obtain ⟨e, rfl, hStep⟩ | hStep := exec_grant hGrantee hExec
  · exact ⟨hStep.sound hSound, hStep.guar, hError e w₂ 0 (hKnown₁.untouched hStep)
      (hStep.sound hSound)⟩
  have hTouches : World.Touches deps.backend scope i id w₁ w₂ := hStep.touches
  have hKnown₂ := hStep.known hKnown₁
  have hSound₂ : World.Sound scope w₂ := by
    refine hTouches.sound hSound (fun _ => ⟨hKnown₂.grants, row, ?_, hStatus⟩)
      (fun hScope o ho => ?_) (fun hScope o ho hNew => ?_) fun _ _ => ⟨row, ?_, hStatus⟩
    · rw [hStep.order, hRow]
    · rw [hStep.order] at ho
      rw [hStep.refundsOf]
      exact hSound.bounded hScope _ o ho
    · rw [hStep.order] at ho
      rw [hStep.refundsOf]
      exact hSound.refunded hScope _ o ho hNew
    · rw [hStep.order, hRow]
  refine ⟨hSound₂, hTouches.guar, ?_⟩
  cases answer with
  | ok a => exact hOk a w₂ hKnown₂ hSound₂
  | error e => exact hError e w₂ 1 hKnown₂ hSound₂

/-- Recording a new refund of the order whose lock is held. -/
theorem safe_refundsCreate {r : Refund} {f : Refund → Action Key α} {core : Order}
    (hKnown : World.Known scope id (some core) refunds n w) (hOrder : r.orderId = id)
    (hStatus : core.status = .PAID ∨ core.status = .FULFILLED) (hDrawn : (i, r.id) ∈ w.issued)
    (hNew : w.refund r.id = none)
    (hBounded : scope.keepsLedger → reserved (refunds ++ [r]) ≤ core.amount)
    (hOk : ∀ w', World.Known scope id (some core) (refunds ++ [r]) n w' → World.Sound scope w' →
      (scope = .settled → isSettled r.status = true → core.amount ≤ reserved refunds + r.amount →
        ∀ x ∈ refunds, x.status ≠ .PENDING) →
      Safe scope orderOf locker deps i (some id) (f r) Q w')
    (hError : ∀ e w' refunds', (scope.keepsLedger → refunds' = refunds) →
      World.Known scope id (some core) refunds' n w' → World.Sound scope w' →
      Safe scope orderOf locker deps i (some id) (.ret (.error e)) Q w') :
    Safe scope orderOf locker deps i (some id) (perform (Call.refundsCreate r) >>= f) Q w := by
  intro w₁ hRely₁ hSound free hFree reply hCond answer w₂ hExec
  have hKnown₁ := hKnown.rely hRely₁
  subst hOrder
  obtain ⟨row, hRow, rfl⟩ := hKnown₁.exists_row
  have hDrawn₁ := hRely₁.issued r.id hDrawn
  obtain ⟨e, rfl, hStep⟩ | ⟨hStep, hAnswer⟩ :=
    exec_refundsCreate (hRely₁.newRefund r.id hDrawn hNew) hExec
  · exact ⟨hStep.sound hSound, hStep.guar, hError e w₂ refunds (fun _ => rfl)
      (hKnown₁.untouched hStep) (hStep.sound hSound)⟩
  have hTouches : World.Touches deps.backend scope i r.orderId w₁ w₂ :=
    hStep.touches fun _ => hDrawn₁
  have hKnown₂ := hStep.known hKnown₁
  rw [hKnown₁.refunds] at hKnown₂
  have hSound₂ : World.Sound scope w₂ := by
    refine hTouches.sound hSound (fun hPos => ?_) (fun hScope o ho => ?_)
      (fun hScope o ho hNew => ?_) fun _ _ => ⟨row, ?_, ?_⟩
    · rw [hStep.grants] at hPos ⊢
      rw [hStep.order]
      exact hSound.granted _ hPos
    · rw [hStep.order, hRow, Option.some.injEq] at ho
      rw [hKnown₂.refunds, ← ho]
      exact hBounded hScope
    · rw [hStep.order, hRow, Option.some.injEq] at ho
      rw [← ho] at hNew
      rcases hStatus with h | h <;> cases hNew.symm.trans h
    · rw [hStep.order, hRow]
    · intro hNew
      rcases hStatus with h | h <;> cases hNew.symm.trans h
  refine ⟨hSound₂, hTouches.guar, ?_⟩
  obtain rfl | ⟨e, rfl, hReply⟩ := hAnswer
  · refine hOk w₂ hKnown₂ hSound₂ fun hScope hSettled hCovered x hx => ?_
    have hOthers : ∀ y ∈ refunds, y.id ≠ r.id := by
      rintro y hy hEq
      have hStored := (World.mem_refundsOf.mp (hKnown₁.refunds.symm ▸ hy)).1
      rw [hEq, hRely₁.newRefund r.id hDrawn hNew] at hStored
      cases hStored
    have hFilter : refunds.filter (fun y => y.id ≠ r.id) = refunds :=
      List.filter_eq_self.mpr fun y hy => by simpa using hOthers y hy
    exact noPending_of_overtakes (hCond.settled hScope r (.inl rfl)) hKnown₁.refunds hSettled hRow
      (by rw [hFilter]; exact hCovered) hx (hOthers x hx)
  · exact hError e w₂ _ (fun hScope => absurd hReply (hCond.writes hScope rfl true e)) hKnown₂ hSound₂

/-- Settling a pending refund of the order whose lock is held. -/
theorem safe_refundsUpdate {r old : Refund} {f : Refund → Action Key α}
    (hKnown : World.Known scope id core? refunds n w) (hMem : old ∈ refunds) (hId : r.id = old.id)
    (hOrder : r.orderId = id) (hNo : r.outRefundNo = old.outRefundNo)
    (hWritten : RefundStore.written deps.backend old r = r) (hPending : old.status = .PENDING)
    (hLess : scope.keepsLedger → ∀ core, core? = some core →
      reserved (rewrite r refunds) ≤ reserved refunds)
    (hOk : ∀ w', World.Known scope id core? (rewrite r refunds) n w' → World.Sound scope w' →
      w'.lastWrite i = some (.refundsUpdate r) →
      (scope = .settled → isSettled r.status = true → ∀ core, core? = some core →
        core.amount ≤ reserved (refunds.filter fun x => x.id ≠ r.id) + r.amount →
        ∀ x ∈ rewrite r refunds, x.status ≠ .PENDING) →
      Safe scope orderOf locker deps i (some id) (f r) Q w')
    (hError : ∀ e w' refunds', ¬scope.keepsLedger →
      World.Known scope id core? refunds' n w' → World.Sound scope w' →
      Safe scope orderOf locker deps i (some id) (.ret (.error e)) Q w') :
    Safe scope orderOf locker deps i (some id) (perform (Call.refundsUpdate r) >>= f) Q w := by
  intro w₁ hRely₁ hSound free hFree reply hCond answer w₂ hExec
  have hKnown₁ := hKnown.rely hRely₁
  subst hOrder
  have hMem₁ := hMem
  rw [← hKnown₁.refunds] at hMem₁
  obtain ⟨hOld, hOldOrder⟩ := World.mem_refundsOf.mp hMem₁
  have hWrites : ∀ applied e, reply = .throws applied e → ¬scope.keepsLedger :=
    fun applied e hReply hScope => hCond.writes hScope rfl applied e hReply
  obtain ⟨e, rfl, hReply, hStep⟩ | ⟨hStep, hAnswer⟩ :=
    exec_refundsUpdate (hId.symm ▸ hOld) hWritten hOldOrder.symm hNo hExec
  · exact ⟨hStep.sound hSound, hStep.guar, hError e w₂ refunds (hWrites false e hReply)
      (hKnown₁.untouched hStep) (hStep.sound hSound)⟩
  have hTouches : World.Touches deps.backend scope i r.orderId w₁ w₂ :=
    hStep.touches fun hNone => by simp [hId, hOld] at hNone
  have hKnown₂ := hStep.known hKnown₁
  rw [hKnown₁.refunds] at hKnown₂
  have hSound₂ : World.Sound scope w₂ := by
    refine hTouches.sound hSound (fun hPos => ?_) (fun hScope o ho => ?_)
      (fun hScope o ho hNew => ?_) fun hScope _ => ?_
    · rw [hStep.grants] at hPos ⊢
      rw [hStep.order]
      exact hSound.granted _ hPos
    · rw [hStep.order] at ho
      have hCore := hKnown₁.order fun h => absurd h (not_creating hScope)
      rw [World.core_eq_some ho] at hCore
      rw [hKnown₂.refunds]
      refine (hLess hScope _ hCore.symm).trans ?_
      exact hKnown₁.refunds ▸ hSound.bounded hScope _ o ho
    · -- an order whose refund is still pending is not marked REFUNDED
      rw [hStep.order] at ho
      exact absurd hPending ((hSound.refunded hScope _ o ho hNew).noPending old hMem₁)
    · rw [hStep.order]
      exact hSound.refundsPaid hScope _ (List.ne_nil_of_mem hMem₁)
  refine ⟨hSound₂, hTouches.guar, ?_⟩
  obtain rfl | ⟨e, rfl, hReply⟩ := hAnswer
  · refine hOk w₂ hKnown₂ hSound₂ (by simp [hStep.lastWrite]) ?_
    intro hScope hSettled core hCore hCovered x hx
    have hRow := (hKnown₁.order fun h => absurd h (by simp [hScope])).trans hCore
    obtain ⟨row, hStored, rfl⟩ := Option.map_eq_some_iff.mp hRow
    obtain ⟨y, hy, rfl⟩ := List.mem_map.mp hx
    split
    · intro hNew
      simp [isSettled, hNew] at hSettled
    · next hNe =>
        exact noPending_of_overtakes (hCond.settled hScope r (.inr rfl)) hKnown₁.refunds hSettled
          hStored hCovered hy hNe
  · exact hError e w₂ _ (hWrites true e hReply) hKnown₂ hSound₂

end rules
end VpnPayment
