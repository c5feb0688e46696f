import VpnPayment.Async.Sequential
import VpnPayment.Settlement.ExactlyOnce
import VpnPayment.Settlement.RefundAccounts

/-! Results of refunds get lost only where a notification is recorded before its
refund is stored, or where something fails after that. -/
namespace VpnPayment

open Async Collections

section redelivery

open Prog

variable {Key : Type} {deps : Deps} {b : Backend} {i : Nat} {result : RefundCallbackResult}
  {w : World}

/-- How the environment replies while a notification is delivered once more: the
notification is authentic, and nothing fails. -/
def redelivered (result : RefundCallbackResult) : Call → Reply
  | .verifyRefundCallback _ _ => .refundCallback result
  | _ => .normal

def redelivering (b : Backend) (i : Nat) (result : RefundCallbackResult) :
    Executor Call Ans AppError World Reply := fun c _ w => exec b i c (redelivered result c) w

/-- What the result of a refund makes of its order. -/
def RefundOutcome.Marks (outcome : RefundOutcome) (amount : Int) (o o' : Order) : Prop :=
  match outcome with
  | .SUCCESS => o'.refundedAmount.getD 0 = o.refundedAmount.getD 0 ∧
      (o.amount ≤ o.refundedAmount.getD 0 → o'.status = .REFUNDED)
  | .FAILED => o'.refundedAmount.getD 0 = max 0 (o.refundedAmount.getD 0 - amount)

/-- A repository call takes its effect. -/
theorem redelivers {c : Call} {effect : Store → Except AppError (Ans c × Store)} {a : Ans c}
    {s : Store} (hReply : redelivered result c = .normal)
    (hEffect : storeEffect b w.clock c = some effect) (hOk : effect w.store = .ok (a, s)) :
    (perform c : Action Key (Ans c)).RunsTo (redelivering b i result) w (.ok a)
      ({ w with store := s }.log ⟨i, c, .ok a, true⟩) := by
  refine runsTo_perform.mpr ⟨.normal, ?_⟩
  simp only [redelivering, exec, hReply, hEffect, hOk]

theorem redelivers_now :
    (perform Call.now : Action Key Int).RunsTo (redelivering b i result) w (.ok w.clock)
      (w.log ⟨i, .now, .ok w.clock, false⟩) :=
  runsTo_perform.mpr ⟨.normal, rfl⟩

/-- An order that is stored is written back. -/
theorem redelivers_ordersUpdate {o row : Order} (hRow : w.order o.id = some row) :
    ∃ w', (perform (Call.ordersUpdate o) : Action Key Order).RunsTo (redelivering b i result) w
        (.ok o) w' ∧ w'.store.refunds = w.store.refunds ∧
      w'.order o.id = some (OrderStore.written b row o) := by
  have hStored : w.store.orders.byId.get? o.id = some row := hRow
  have hId := OrderStore.written_id (b := b) (Table.key_of_get? hRow)
  have hUpdate : w.store.orders.update b o =
      .ok { w.store.orders with byId := w.store.orders.byId.put (OrderStore.written b row o) } := by
    cases b <;>
      simp [OrderStore.update, MemoryOrderRepository.update, SqlOrderRepository.update, Table.has,
        hStored, OrderStore.written]
  refine ⟨_, redelivers rfl rfl (congrArg (Except.map _) hUpdate), rfl, ?_⟩
  simp [World.order, World.log, hId]

theorem redelivers_reserveRefund {order : Order} (total : Int)
    (hOrder : w.order order.id = some order) (hPaid : order.wasPaid) :
    ∃ w' o', (RefundService.reserveRefund order total true : Action Key Unit).RunsTo
        (redelivering b i result) w (.ok ()) w' ∧ w'.store.refunds = w.store.refunds ∧
      w'.order order.id = some o' ∧ o'.refundedAmount.getD 0 = total ∧
      (order.amount ≤ total → o'.status = .REFUNDED) := by
  have hWrite : ∀ status : OrderStatus, (order.amount ≤ total → status = .REFUNDED) →
      ∃ w' o', (perform (Call.ordersUpdate
          { order with refundedAmount := some total, updatedAt := w.clock, status := status })
          >>= fun _ => pure () : Action Key Unit).RunsTo (redelivering b i result)
          (w.log ⟨i, .now, .ok w.clock, false⟩) (.ok ()) w' ∧ w'.store.refunds = w.store.refunds ∧
        w'.order order.id = some o' ∧ o'.refundedAmount.getD 0 = total ∧
        (order.amount ≤ total → o'.status = .REFUNDED) := by
    intro status hStatus
    obtain ⟨w', hRun, hRefunds, hRow⟩ := @redelivers_ordersUpdate Key b i result
      (w.log ⟨i, .now, .ok w.clock, false⟩)
      { order with refundedAmount := some total, updatedAt := w.clock, status := status } order hOrder
    refine ⟨w', _, runsTo_ok_bind hRun ⟨rfl, rfl⟩, hRefunds, hRow, ?_, ?_⟩
    · exact OrderStore.refundedAmount_written_getD
    · intro hFull
      rw [OrderStore.status_written]
      exact hStatus hFull
  by_cases hFull : order.amount ≤ total ∧ order.status ≠ .REFUNDED
  · obtain ⟨w', o', hRun, hRest⟩ := hWrite .REFUNDED fun _ => rfl
    refine ⟨w', o', runsTo_ok_bind redelivers_now ?_, hRest⟩
    simp only [hFull, ne_eq, not_false_eq_true, and_self, if_true,
      Order.assertTransition_of_wasPaid hPaid]
    exact hRun
  · obtain ⟨w', o', hRun, hRest⟩ := hWrite order.status fun hLe => by
      by_contra hNot
      exact hFull ⟨hLe, hNot⟩
    refine ⟨w', o', runsTo_ok_bind redelivers_now ?_, hRest⟩
    simp only [true_and, hFull, if_false]
    exact hRun

theorem redelivers_applyOutcome {order : Order} (outcome : RefundOutcome) (amount now : Int)
    (hOrder : w.order order.id = some order) (hPaid : order.wasPaid) :
    ∃ w' o', (RefundService.applyOutcome order outcome amount now : Action Key Unit).RunsTo
        (redelivering b i result) w (.ok ()) w' ∧ w'.store.refunds = w.store.refunds ∧
      w'.order order.id = some o' ∧ outcome.Marks amount order o' := by
  cases outcome with
  | SUCCESS =>
      obtain ⟨w', o', hRun, hRefunds, hRow, hTotal, hFull⟩ :=
        @redelivers_reserveRefund Key b i result w order (order.refundedAmount.getD 0) hOrder hPaid
      exact ⟨w', o', hRun, hRefunds, hRow, hTotal, hFull⟩
  | FAILED =>
      obtain ⟨w', hRun, hRefunds, hRow⟩ := @redelivers_ordersUpdate Key b i result w
        (RefundService.releasedOrder order amount now) order hOrder
      refine ⟨w', _, runsTo_ok_bind hRun ⟨rfl, rfl⟩, hRefunds, hRow, ?_⟩
      exact OrderStore.refundedAmount_written_getD

/-- A notification is applied: its refund has the reported status, and what was
reserved for it is settled or released. -/
def Applied (b : Backend) (result : RefundCallbackResult) (w w' : World) : Prop :=
  ∃ x y o o', w.store.refunds.findByOutRefundNo b result.outRefundNo = some x ∧
    w.order x.orderId = some o ∧
    w'.store.refunds.findByOutRefundNo b result.outRefundNo = some y ∧
    y.status = result.status.status ∧ w'.order x.orderId = some o' ∧
    result.status.Marks x.amount o o'

theorem redelivers_settleRefund {x : Refund}
    (hFind : w.store.refunds.findByOutRefundNo b result.outRefundNo = some x)
    (hPaid : w.Paid x.orderId) :
    ∃ w', (RefundService.settleRefund x result : Action Key Unit).RunsTo
      (redelivering b i result) w (.ok ()) w' ∧ Applied b result w w' := by
  obtain ⟨o, ho, hWas⟩ := hPaid
  have hId : o.id = x.orderId := Table.key_of_get? ho
  have hGet := RefundStore.get?_of_find hFind
  -- the world after the update
  let settled := RefundService.settledRefund x result w.clock
  let refunds := w.store.refunds.update b settled
  let w₁ := w.log ⟨i, .now, .ok w.clock, false⟩
  let w₂ := { w₁ with store := { w.store with refunds := refunds } }.log
    ⟨i, .refundsUpdate settled, .ok settled, true⟩
  let w₃ := w₂.log ⟨i, .ordersFindById x.orderId, .ok (some o), true⟩
  obtain ⟨w', o', hRun, hRefunds, hRow, hMarks⟩ := @redelivers_applyOutcome Key b i result w₃ o
    result.status x.amount w.clock (hId.symm ▸ ho) hWas
  have hAll : refunds.findByOutRefundNo b result.outRefundNo =
      some (RefundStore.written b x settled) := by
    have hRow : w.store.refunds.byId.get? settled.id = some x := hGet
    rw [RefundStore.find_update _ hRow (by cases b <;> rfl), hFind, Option.map_some,
      if_pos (show x.id = settled.id from rfl)]
  refine ⟨w', ?_, x, RefundStore.written b x settled, o, o', hFind, ho, ?_, ?_, hId ▸ hRow, hMarks⟩
  · refine runsTo_ok_bind redelivers_now (runsTo_ok_bind (redelivers rfl rfl rfl) ?_)
    refine runsTo_ok_bind (a := some o) ?_ hRun
    have hRead : w.store.orders.findById b x.orderId = some o := (OrderStore.findById_eq ..).trans ho
    exact redelivers rfl rfl (congrArg (fun found => Except.ok (found, w₂.store)) hRead)
  · rw [hRefunds]
    exact hAll
  · exact RefundStore.status_written

/-- Delivered once more, a notification that is not recorded is applied. -/
theorem redelivers_handleRefundCallback {locker : String → Key} {method : PaymentMethod}
    {raw : RawCallback} {provider : PaymentProvider}
    (hProvider : (deps.providers method).filter (fun p => p.hasVerifyRefundCallback) = some provider)
    (hNew : w.store.processed.has (refundKey method result.eventId) = false)
    (hPending : StillPending b result.outRefundNo w) (hPaid : ∀ id r, w.refund id = some r → w.Paid r.orderId) :
    ∃ w', (RefundService.handleRefundCallback locker deps method raw).RunsTo
      (redelivering b i result) w (.ok (provider.callbackAck true)) w' ∧ Applied b result w w' := by
  obtain ⟨x, hFind, hStatus⟩ := hPending
  -- the worlds up to the locked read of the refund
  let key := refundKey method result.eventId
  let w₁ := w.log ⟨i, .verifyRefundCallback method raw, .ok result, false⟩
  let w₂ := { w₁ with store := { w.store with processed := (w.store.processed.markIfNew b key w.clock).2 } }.log
    ⟨i, .markIfNew key, .ok true, true⟩
  let lookup : Event := ⟨i, .refundsFindByOutRefundNo result.outRefundNo, .ok (some x), true⟩
  have hVerify : (perform (Call.verifyRefundCallback method raw) : Action Key _).RunsTo
      (redelivering b i result) w (.ok result) w₁ := runsTo_perform.mpr ⟨.normal, rfl⟩
  have hMark : (perform (Call.markIfNew key) : Action Key Bool).RunsTo
      (redelivering b i result) w₁ (.ok true) w₂ := by
    refine redelivers rfl rfl ?_
    have hTrue : (w.store.processed.markIfNew b key w.clock).1 = true := by
      simp [EventStore.markIfNew_eq, key, hNew]
    exact congrArg (fun isNew => Except.ok (isNew, w₂.store)) hTrue
  have hLookup : ∀ w₃ : World, w₃.store.refunds = w.store.refunds →
      (perform (Call.refundsFindByOutRefundNo result.outRefundNo) : Action Key _).RunsTo
        (redelivering b i result) w₃ (.ok (some x)) (w₃.log lookup) := by
    intro w₃ hSame
    have hFind₃ := hSame ▸ hFind
    exact redelivers rfl rfl (congrArg (fun found => Except.ok (found, w₃.store)) hFind₃)
  obtain ⟨w', hRun, hApplied⟩ := @redelivers_settleRefund Key b i result ((w₂.log lookup).log lookup) x
    hFind (hPaid x.id x (RefundStore.get?_of_find hFind))
  refine ⟨w', ?_, hApplied⟩
  unfold RefundService.handleRefundCallback
  rw [hProvider]
  refine runsTo_ok_bind hVerify (runsTo_ok_bind hMark (runsTo_ok_bind (hLookup w₂ rfl) ?_))
  refine runsTo_ok_bind (a := ()) (runsTo_withLock.mpr ?_) ⟨rfl, rfl⟩
  refine runsTo_ok_bind (hLookup (w₂.log lookup) rfl) ?_
  have hFilter : (some x).filter (fun r => r.status = .PENDING) = some x := by
    simp [Option.filter, hStatus]
  simp only [hFilter]
  exact hRun

end redelivery
section runs

variable {Instance Key : Type} {locker : Instance → String → Key} {deps : Deps}
  {store : Store} {clock : Int} {m m' : Deployment Key} {label : Label Reply (Instance × Request)}

/-- A notification is recorded only once its refund is stored, that call takes no
effect if it fails, and nothing that the task calls fails afterwards. -/
def recordsSafely (b : Backend) (m : Deployment Key) : Label Reply (Instance × Request) → Bool
  | .spawn _ => true
  | .step i reply => (!recorded (m.world.past i) || !reply.fails) &&
      match m.nextCall i with
      | some (.markIfNew _) =>
          (match reply with
            | .throws applied _ => !applied
            | _ => true) &&
          (notices (m.world.past i)).all fun n =>
            (m.world.store.refunds.findByOutRefundNo b n.2.outRefundNo).isSome
      | _ => true

/-- The provider uses the id of a notification for the result of one refund. -/
def genuineNotices (m : Deployment Key) : Label Reply (Instance × Request) → Bool
  | .step i (.refundCallback result) => match m.nextCall i with
      | some (.verifyRefundCallback method _) =>
          m.world.trace.all fun e => (noticeOf ⟨e.call, e.answer⟩).all fun n =>
            n.1 ≠ refundKey method result.eventId || n.2.outRefundNo = result.outRefundNo
      | _ => true
  | _ => true

def refundFlow (deps : Deps) (m : Deployment Key) (label : Label Reply (Instance × Request)) : Bool :=
  onlySpawns Request.ofRefunds label && genuineNotices m label && recordsSafely deps.backend m label

/-- The notifications with one key are about one refund. -/
def World.Genuine (w : World) : Prop :=
  ∀ e ∈ w.trace, ∀ e' ∈ w.trace, ∀ n n', noticeOf ⟨e.call, e.answer⟩ = some n →
    noticeOf ⟨e'.call, e'.answer⟩ = some n' → n.1 = n'.1 → n.2.outRefundNo = n'.2.outRefundNo

/-- In the store of a deployment refunds are of orders that were paid. -/
def Store.RefundsOfPaid (store : Store) : Prop :=
  ∀ id r, store.refunds.byId.get? id = some r →
    ∃ o, store.orders.byId.get? r.orderId = some o ∧ o.wasPaid

/-- No notification of a refund result is recorded in the store of a deployment. -/
def Store.NoneRecorded (store : Store) : Prop :=
  ∀ method eventId, store.processed.has (refundKey method eventId) = false

/-- What is known in every state of a run. -/
structure Accountable (locker : Instance → String → Key) (deps : Deps) (m : Deployment Key) :
    Prop where
  tracked : Tracked locker deps m
  following : Following (recording locker deps) (fun _ _ => True)
    (fun past c => Along Kept past → Flows past c)
    (fun result past => Along Kept past → Handled result past) m
  accounted : m.world.Accounted deps.backend
  genuine : m.world.Genuine

theorem accountable_start (hPaid : store.RefundsOfPaid) (hNone : store.NoneRecorded) :
    Accountable locker deps (Deployment.start store clock) where
  tracked := tracked_start
  following := following_start fun _ => rfl
  accounted := by
    refine ⟨fun _ => trivial, fun method eventId hHas => ?_, ?_, ?_, ?_, ?_, ?_, ?_, ?_, hPaid⟩
    · have hNot : store.processed.has (refundKey method eventId) = true := hHas
      rw [hNone method eventId] at hNot
      cases hNot
    · exact fun _ _ _ hMem => by cases hMem
    · exact fun _ _ hMem => by cases hMem
    · exact fun _ _ _ hMem => by cases hMem
    · exact fun _ hRecorded => by cases hRecorded
    · exact fun _ _ _ hMem => by cases hMem
    · exact fun _ _ hMem => by cases hMem
    · exact fun _ _ _ hMem => by cases hMem
  genuine := fun e hMem => by cases hMem

theorem spared_of_refundFlow {i : Nat} {reply : Reply} {c : Call}
    (hFlow : refundFlow deps m (.step i reply : Label Reply (Instance × Request)) = true)
    (hCall : m.nextCall i = some c) : World.Spared deps.backend i c reply m.world := by
  simp only [refundFlow, recordsSafely, hCall, Bool.and_eq_true] at hFlow
  obtain ⟨-, hGoesOn, hRecording⟩ := hFlow
  refine ⟨fun hRecorded => by simpa [hRecorded] using hGoesOn, ?_⟩
  rintro key rfl
  simp only [Bool.and_eq_true, List.all_eq_true] at hRecording
  refine ⟨?_, fun n hn => Option.isSome_iff_exists.mp (hRecording.2 n hn)⟩
  rintro e rfl
  cases hRecording.1

theorem World.Genuine.step {i : Nat} {reply : Reply} {c : Call} {answer : Except AppError (Ans c)}
    {w' : World} (hGenuine : m.world.Genuine)
    (hFlow : refundFlow deps m (.step i reply : Label Reply (Instance × Request)) = true)
    (hCall : m.nextCall i = some c)
    (hExec : exec deps.backend i c reply m.world = some (answer, w')) : w'.Genuine := by
  obtain ⟨applied, hTrace⟩ := trace_of_exec hExec
  -- the newest notification against the older ones
  have hNew : ∀ n, noticeOf ⟨c, answer⟩ = some n → ∀ e ∈ m.world.trace, ∀ n',
      noticeOf ⟨e.call, e.answer⟩ = some n' → n'.1 = n.1 → n'.2.outRefundNo = n.2.outRefundNo := by
    intro n hn e he n' hn' hKey
    unfold noticeOf at hn
    split at hn
    · next method raw result hEq =>
        cases hEq
        cases hn
        obtain ⟨e', hEq, -⟩ | ⟨a, hAnswer, hEq, -⟩ := exec_outside hExec rfl
        · cases hEq
        · cases hEq
          cases reply <;> simp only [outsideAnswer, reduceCtorEq, Option.some.injEq] at hAnswer
          subst hAnswer
          simp only [refundFlow, genuineNotices, hCall, Bool.and_eq_true, List.all_eq_true] at hFlow
          have hOne := hFlow.1.2 e he
          rw [hn'] at hOne
          simpa [hKey] using hOne
    · cases hn
  intro e he e' he' n n' hn hn' hKey
  rw [hTrace] at he he'
  rcases List.mem_cons.mp he with rfl | he <;> rcases List.mem_cons.mp he' with rfl | he'
  · cases hn.symm.trans hn'
    rfl
  · exact (hNew n hn e' he' n' hn' hKey.symm).symm
  · exact hNew n' hn' e he n hn hKey
  · exact hGenuine e he e' he' n n' hn hn' hKey

/-- A task has recorded the notification and is not done with it. -/
def InHand (m : Deployment Key) (key : String) : Prop :=
  ∃ j, m.returned j = false ∧ ⟨.markIfNew key, .ok true⟩ ∈ m.world.past j

/-- What became of a notification that a task has recorded. -/
theorem Accountable.recorded_notice (hAccountable : Accountable locker deps m) {i j : Nat}
    {n : String × RefundCallbackResult} (hTold : n ∈ notices (m.world.past i))
    (hMarked : ⟨.markIfNew n.1, .ok true⟩ ∈ m.world.past j) :
    InHand m n.1 ∨ ¬StillPending deps.backend n.2.outRefundNo m.world := by
  cases hReturned : m.returned j with
  | false => exact .inl ⟨j, hReturned, hMarked⟩
  | true =>
      refine .inr ?_
      obtain ⟨t, result, ht, hProg⟩ := Machine.returned_iff.mp hReturned
      have hAccounted := hAccountable.accounted
      have hHandled := hAccountable.following.returned ht hProg (hAccounted.kept j)
      obtain ⟨n', hn', hKey⟩ := hAccounted.marked j n.1 _ hMarked
      have hRecorded : recorded (m.world.past j) = true := List.any_eq_true.mpr ⟨_, hMarked, rfl⟩
      have hEffect := ((hHandled n' hn').2 hRecorded).2
      -- both notifications are about the same refund
      obtain ⟨h', hMem', hNotice'⟩ := List.mem_filterMap.mp hn'
      obtain ⟨h, hMem, hNotice⟩ := List.mem_filterMap.mp hTold
      obtain ⟨e', he', rfl⟩ := World.exists_of_mem_past hMem'
      obtain ⟨e, he, rfl⟩ := World.exists_of_mem_past hMem
      have hSame := hAccountable.genuine e' he' e he n' n hNotice' hNotice hKey
      rw [← hSame]
      exact hAccounted.not_pending hEffect

theorem Accountable.not_inHand (hAccountable : Accountable locker deps m) (hIdle : m.settled = true)
    {key : String} : ¬InHand m key := by
  rintro ⟨j, hOpen, hMarked⟩
  cases ht : m.tasks[j]? with
  | none =>
      have hPast : m.world.past j = [] :=
        hAccountable.following.unused j (List.getElem?_eq_none_iff.mp ht)
      rw [hPast] at hMarked
      cases hMarked
  | some t =>
      obtain ⟨result, hProg⟩ := Machine.ret_of_settled hIdle (List.mem_of_getElem? ht)
      rw [Machine.returned_iff.mpr ⟨t, result, ht, hProg⟩] at hOpen
      cases hOpen

variable [DecidableEq Key]

theorem Accountable.step (hAccountable : Accountable locker deps m)
    (hFlow : refundFlow deps m label = true)
    (hStep : (system locker deps).step m label = some m') : Accountable locker deps m' := by
  have hFlows : ∀ {i c}, m.nextCall i = some c → Flows (m.world.past i) c := fun hCall =>
    hAccountable.following.nextCall hCall (hAccountable.accounted.kept _)
  refine ⟨hAccountable.tracked.step hStep, ?_, ?_, ?_⟩
  · refine hAccountable.following.step ?_ (fun _ _ _ _ _ _ _ _ => trivial) hStep
    rintro request rfl
    simp only [refundFlow, onlySpawns, Bool.and_eq_true] at hFlow
    exact kept_serve (locker request.1) hFlow.1.1
  · obtain hSame | ⟨i, reply, c, answer, rfl, hCall, hExec⟩ := System.world_of_step hStep
    · rw [hSame]
      exact hAccountable.accounted
    · exact hAccountable.accounted.step hAccountable.tracked.lineage (hFlows hCall)
        (spared_of_refundFlow hFlow hCall) hExec
  · obtain hSame | ⟨i, reply, c, answer, rfl, hCall, hExec⟩ := System.world_of_step hStep
    · rw [hSame]
      exact hAccountable.genuine
    · exact hAccountable.genuine.step hFlow hCall hExec

theorem accountable_of_reaches (hPaid : store.RefundsOfPaid) (hNone : store.NoneRecorded)
    (hRun : (system locker deps).Reaches (fun m label => refundFlow deps m label = true)
      (Deployment.start store clock) m) : Accountable locker deps m :=
  hRun.invariant (fun _ _ _ hFlow hStep hAccountable => hAccountable.step hFlow hStep)
    (accountable_start hPaid hNone)

/-- No refund result is lost. A notification that a task has read is applied or in
hand when the task returns. A task that throws has recorded nothing. And once
every task is done, a refund that is still PENDING is settled by any further
delivery of the notification. -/
theorem no_refund_result_lost (hPaid : store.RefundsOfPaid) (hNone : store.NoneRecorded)
    (hRun : (system locker deps).Reaches (fun m label => refundFlow deps m label = true)
      (Deployment.start store clock) m) {i : Nat} {t : Task Key Call Ans AppError Outcome}
    {key : String} {result : RefundCallbackResult} (ht : m.tasks[i]? = some t)
    (hTold : (key, result) ∈ notices (m.world.past i)) :
    (∀ outcome, t.prog = .ret (.ok outcome) →
      InHand m key ∨ ¬StillPending deps.backend result.outRefundNo m.world) ∧
    (∀ e, t.prog = .ret (.error e) → recorded (m.world.past i) = false) ∧
    (m.settled = true → StillPending deps.backend result.outRefundNo m.world →
      ∀ (Lock : Type) (keyOf : String → Lock) method raw provider j,
        key = refundKey method result.eventId →
        (deps.providers method).filter (fun p => p.hasVerifyRefundCallback) = some provider →
        ∃ w', (∀ outcome w'', (RefundService.handleRefundCallback keyOf deps method raw).RunsTo
              (redelivering deps.backend j result) m.world outcome w'' ↔
            outcome = .ok (provider.callbackAck true) ∧ w'' = w') ∧
          Applied deps.backend result m.world w') := by
  have hAccountable := accountable_of_reaches hPaid hNone hRun
  have hAccounted := hAccountable.accounted
  have hReturned : ∀ {settled}, t.prog = .ret settled → Handled settled (m.world.past i) :=
    fun hProg => hAccountable.following.returned ht hProg (hAccounted.kept i)
  refine ⟨fun outcome hProg => ?_, fun e hProg => ?_, ?_⟩
  · obtain ⟨isNew, hMark⟩ := (hReturned hProg _ hTold).1 outcome rfl
    cases isNew with
    | true => exact hAccountable.recorded_notice hTold hMark
    | false =>
        obtain ⟨j, hMarked⟩ := hAccounted.repeated i key hMark
        exact hAccountable.recorded_notice hTold hMarked
  · cases hRecorded : recorded (m.world.past i) with
    | false => rfl
    | true =>
        obtain ⟨⟨a, hEq⟩, -⟩ := (hReturned hProg _ hTold).2 hRecorded
        cases hEq
  · rintro hIdle hPending Lock keyOf method raw provider j rfl hProvider
    have hNew : m.world.store.processed.has (refundKey method result.eventId) = false := by
      by_contra hHas
      obtain ⟨k, hMarked⟩ := hAccounted.stored method result.eventId (by simpa using hHas)
      rcases hAccountable.recorded_notice hTold hMarked with hInHand | hNot
      · exact hAccountable.not_inHand hIdle hInHand
      · exact hNot hPending
    obtain ⟨w', hDelivered, hApplied⟩ := @redelivers_handleRefundCallback Lock deps deps.backend j
      result m.world keyOf method raw provider hProvider hNew hPending hAccounted.paid
    refine ⟨w', fun outcome w'' => ⟨fun hOther => ?_, ?_⟩, hApplied⟩
    · exact Prog.runsTo_unique (fun _ _ _ _ => rfl) hOther hDelivered
    · rintro ⟨rfl, rfl⟩
      exact hDelivered

end runs

namespace Sample

def wechatOrder : Order :=
  { fulfilled with method := .wechat }

/-- The request to refund the order. -/
def refundRequest : Unit × Request :=
  ((), .refundOrder "o1" ⟨none, none, none⟩)

/-- A refund up to the answer of the provider, which is still working on it. -/
def refundAsked {Instance : Type} (task : Nat) : List (Label Reply (Instance × Request)) :=
  steps task 2 ++ [.step task (.text "RF1"), .step task .normal,
    .step task (.refunded ⟨some "p1", .PENDING, "PROCESSING"⟩)]

/-- The refund is stored, and its amount reserved. -/
def refundStored {Instance : Type} (task : Nat) : List (Label Reply (Instance × Request)) :=
  .step task (.text "r1") :: steps task 4

/-- The notification that the refund went through. -/
def refundNotified : RefundCallbackResult :=
  ⟨"RF1", "VPN1", "p1", .SUCCESS, "ev1", "SUCCESS"⟩

def notice : Unit × Request :=
  ((), .handleRefundCallback .wechat ⟨"", []⟩)

theorem refundsOfPaid_storeOf (o : Order) : (storeOf o).RefundsOfPaid := fun _ _ h => by cases h

theorem noneRecorded_storeOf (o : Order) : (storeOf o).NoneRecorded := fun _ _ => rfl

end Sample

/-- What a settled task has answered a notification with. -/
def acknowledged {Key : Type} (m : Deployment Key) (i : Nat) : Option Ack :=
  m.tasks[i]?.bind fun t => match t.prog with
    | .ret (.ok (.ack ack)) => some ack
    | _ => none

/-- A notification that could not be recorded, and is delivered again. -/
theorem refund_result_sample : ∃ m : Deployment String,
    (singleInstance (Sample.deps .memory)).Reaches
      (fun m label => refundFlow (Sample.deps .memory) m label = true)
      (Deployment.start (Sample.storeOf Sample.wechatOrder) 0) m ∧
    ∃ w', (∀ outcome w'', (RefundService.handleRefundCallback (fun orderId => orderId)
          (Sample.deps .memory) .wechat ⟨"", []⟩).RunsTo
          (redelivering .memory 2 Sample.refundNotified) m.world outcome w'' ↔
        outcome = .ok (Sample.provider.callbackAck true) ∧ w'' = w') ∧
      Applied .memory Sample.refundNotified m.world w' := by
  obtain ⟨m, hRun, hCheck⟩ := System.exists_reaches (singleInstance (Sample.deps .memory))
    (fun m label => refundFlow (Sample.deps .memory) m label)
    (Deployment.start (Sample.storeOf Sample.wechatOrder) 0)
    (.spawn Sample.refundRequest :: Sample.refundAsked 0 ++ Sample.refundStored 0 ++
      [.spawn Sample.notice, .step 1 (.refundCallback Sample.refundNotified),
        .step 1 (.throws false (plainError "connection terminated"))])
    (fun m => m.settled && m.tasks[1]?.isSome &&
      decide ((refundKey .wechat "ev1", Sample.refundNotified) ∈ notices (m.world.past 1)) &&
      (m.world.store.refunds.findByOutRefundNo .memory "RF1").any fun r => r.status = .PENDING)
    (by decide +kernel)
  simp only [Bool.and_eq_true, decide_eq_true_eq, Option.any_eq_true, Option.isSome_iff_exists] at hCheck
  obtain ⟨⟨⟨hIdle, t, ht⟩, hTold⟩, hPending⟩ := hCheck
  refine ⟨m, hRun, ?_⟩
  exact (no_refund_result_lost (Sample.refundsOfPaid_storeOf _) (Sample.noneRecorded_storeOf _) hRun
    ht hTold).2.2 hIdle hPending String (fun orderId => orderId) .wechat ⟨"", []⟩ Sample.provider 2 rfl rfl

/-- The result arrives before the refund is stored. It is answered with failure, but
stays recorded: delivered again it is answered with success, and the refund is
PENDING for good. -/
theorem refund_result_lost : ∃ m : Deployment String,
    (singleInstance (Sample.deps .memory)).Reaches
      (fun m label => (onlySpawns Request.ofRefunds label && genuineNotices m label) = true)
      (Deployment.start (Sample.storeOf Sample.wechatOrder) 0) m ∧
    m.settled = true ∧ acknowledged m 1 = some (Sample.provider.callbackAck false) ∧
    acknowledged m 2 = some (Sample.provider.callbackAck true) ∧
    notices (m.world.past 1) = [(refundKey .wechat "ev1", Sample.refundNotified)] ∧
    notices (m.world.past 2) = [(refundKey .wechat "ev1", Sample.refundNotified)] ∧
    StillPending .memory "RF1" m.world := by
  obtain ⟨m, hRun, hCheck⟩ := System.exists_reaches (singleInstance (Sample.deps .memory))
    (fun m label => onlySpawns Request.ofRefunds label && genuineNotices m label)
    (Deployment.start (Sample.storeOf Sample.wechatOrder) 0)
    (.spawn Sample.refundRequest :: Sample.refundAsked 0 ++
      [.spawn Sample.notice, .step 1 (.refundCallback Sample.refundNotified)] ++ Sample.steps 1 2 ++
      Sample.refundStored 0 ++
      [.spawn Sample.notice, .step 2 (.refundCallback Sample.refundNotified)] ++ Sample.steps 2 1)
    (fun m => m.settled && decide (acknowledged m 1 = some (Sample.provider.callbackAck false)) &&
      decide (acknowledged m 2 = some (Sample.provider.callbackAck true)) &&
      decide (notices (m.world.past 1) = [(refundKey .wechat "ev1", Sample.refundNotified)]) &&
      decide (notices (m.world.past 2) = [(refundKey .wechat "ev1", Sample.refundNotified)]) &&
      (m.world.store.refunds.findByOutRefundNo .memory "RF1").any fun r => r.status = .PENDING)
    (by decide +kernel)
  simp only [Bool.and_eq_true, decide_eq_true_eq, Option.any_eq_true] at hCheck
  obtain ⟨⟨⟨⟨⟨hIdle, hFirst⟩, hSecond⟩, hTold⟩, hTold'⟩, hPending⟩ := hCheck
  exact ⟨m, hRun, hIdle, hFirst, hSecond, hTold, hTold', hPending⟩

end VpnPayment
