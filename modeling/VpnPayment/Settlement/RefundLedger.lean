import VpnPayment.Async.Sequential
import VpnPayment.Settlement.ExactlyOnce

/-! The refund ledger of one instance: what an order says was refunded is what
its refunds add up to, and an order is marked REFUNDED when the money has left. -/
namespace VpnPayment

open Async Collections

section report

variable {b : Backend} {i : Nat} {w w' : World} {heal : Bool} {report : ReconciliationReport}

/-- The report of a reconciliation that runs alone. -/
theorem discrepancies_of_run
    (hRun : (ReconciliationService.run (fun orderId => orderId) heal).RunsTo (exec b i) w
      (.ok report) w') :
    ∃ now, report.discrepancies = (w.store.orders.all b).flatMap fun o =>
      ReconciliationService.checkOrder o
        (ReconciliationService.reservedByOrder (w.store.refunds.all b) o.id) now := by
  obtain ⟨now, w₁, hNow, hRun⟩ | ⟨e, -, hEq⟩ := Prog.runsTo_bind.mp hRun
  swap
  · cases hEq
  obtain ⟨orders, w₂, hOrders, hRun⟩ | ⟨e, -, hEq⟩ := Prog.runsTo_bind.mp hRun
  swap
  · cases hEq
  obtain ⟨refunds, w₃, hRefunds, hRun⟩ | ⟨e, -, hEq⟩ := Prog.runsTo_bind.mp hRun
  swap
  · cases hEq
  obtain ⟨reply, hNow⟩ := Prog.runsTo_perform.mp hNow
  obtain ⟨reply, hOrders⟩ := Prog.runsTo_perform.mp hOrders
  obtain ⟨reply, hRefunds⟩ := Prog.runsTo_perform.mp hRefunds
  have hUntouched := exec_untouched rfl hNow
  obtain ⟨rfl, hStore⟩ := exec_read rfl (fun _ => rfl) hOrders
  obtain ⟨rfl, -⟩ := exec_read rfl (fun _ => rfl) hRefunds
  rw [hStore, hUntouched.orders, hUntouched.refunds] at hRun
  refine ⟨now, ?_⟩
  cases heal with
  | true =>
      obtain ⟨count, w₄, -, hRet⟩ | ⟨e, -, hEq⟩ := Prog.runsTo_bind.mp hRun
      · cases hRet.1
        rfl
      · cases hEq
  | false =>
      cases hRun.1
      rfl

theorem reservedByOrder_eq (b : Backend) (w : World) (orderId : String) :
    ReconciliationService.reservedByOrder (w.store.refunds.all b) orderId =
      reserved (w.refundsOf orderId) := by
  simp only [ReconciliationService.reservedByOrder, reserved, World.refundsOf, RefundStore.all_eq,
    List.filter_filter]
  congr 3
  funext r
  simp [Bool.and_comm]

/-- The ledger checks find nothing wrong with an order whose ledger holds. -/
theorem checkOrder_of_ledger {o : Order} {now : Int} {refunds : List Refund} {d : Discrepancy}
    (hLedger : LedgerHolds o refunds)
    (hMem : d ∈ ReconciliationService.checkOrder o (reserved refunds) now) :
    d.type ≠ .over_refunded ∧ d.type ≠ .refund_ledger_mismatch := by
  have hBalanced := hLedger.balanced
  have hBounded := hLedger.bounded
  have hNotOver : ¬reserved refunds > o.amount := by omega
  simp only [ReconciliationService.checkOrder, hBalanced, hNotOver, ne_eq, not_true_eq_false,
    if_false, List.append_nil, List.mem_append] at hMem
  rcases hMem with (hMem | hMem) | hMem <;> split at hMem <;> simp_all

end report

section ledger

variable {deps : Deps} {store : Store} {clock : Int} {m : Deployment String}

/-- The write of a refund that the provider turned down. -/
def marksFailed : Call → Bool
  | .refundsUpdate r => r.status = .FAILED
  | _ => false

def looksUpOrder : Call → Bool
  | .ordersFindById _ => true
  | _ => false

/-- A task that has just marked a refund FAILED reads the order without failing. -/
def releaseGoesOn (m : Deployment String) : Label Reply (Unit × Request) → Bool
  | .spawn _ => true
  | .step i reply =>
      !(m.world.lastWrite i).any marksFailed || !reply.fails || !(m.nextCall i).any looksUpOrder

/-- Requests on existing orders while the writes of orders and refunds do not fail. -/
def writesSucceed (m : Deployment String) (label : Label Reply (Unit × Request)) : Bool :=
  onlySpawns Request.afterCreation label && noFailure Call.writesLedger m label

theorem condition_ledger {i : Nat} {reply : Reply} {h : Option String} {free : String → Prop}
    {c : Call} (hCall : m.nextCall i = some c)
    (hWrites : noFailure Call.writesLedger m (.step i reply : Label Reply (Unit × Request)) = true)
    (hRelease : releaseGoesOn m (.step i reply) = true) :
    Condition .ledger i h free c reply m.world where
  writes _ hWrite := by
    rintro applied e rfl
    simp [noFailure, hCall, hWrite, Reply.fails] at hWrites
  release _ hReleasing := by
    rintro id rfl applied e rfl
    obtain ⟨r, hLast, hFailed⟩ := hReleasing
    simp [releaseGoesOn, hCall, hLast, marksFailed, hFailed, Reply.fails, looksUpOrder] at hRelease
  settled := nofun
  creating := nofun

theorem disciplined_writes {m m' : Deployment String}
    (hRun : (singleInstance deps).Reaches
      (fun m label => (writesSucceed m label && releaseGoesOn m label) = true) m m') :
    (singleInstance deps).Reaches (Disciplined .ledger id (fun _ orderId => orderId) deps) m m' := by
  refine hRun.mono fun m label m' hTraffic hStep => ?_
  obtain ⟨hWrites, hRelease⟩ := Bool.and_eq_true_iff.mp hTraffic
  obtain ⟨hSpawns, hWrites⟩ := Bool.and_eq_true_iff.mp hWrites
  refine disciplined_of (fun _ => admitted_of_afterCreation) hSpawns ?_ ?_
  · rintro i reply t c rfl - hCall
    exact condition_ledger hCall hWrites hRelease
  · rintro i reply key rfl hLock
    exact orderFree_of_step hLock hStep

theorem free_of_unlocked {scope : Scope} {orderId : String} (hFree : m.Unlocked orderId) :
    (orderDiscipline scope id (fun (_ : Unit) orderId => orderId) deps).Free m orderId := by
  intro t ht
  show t.held.map id ≠ some orderId
  rw [Option.map_id]
  exact hFree t ht

/-- Between critical sections an order's refunded amount is the sum of its
refunds that have not failed, and at most its amount. A reconciliation of a
store nobody works on finds no fault with the refunds. -/
theorem ledger_holds_between_sections (hLedger : store.Ledgered)
    (hRun : (singleInstance deps).Reaches
      (fun m label => (writesSucceed m label && releaseGoesOn m label) = true)
      (Deployment.start store clock) m) :
    (∀ orderId o, m.Unlocked orderId → m.world.order orderId = some o →
      o.refundedAmount.getD 0 = reserved (m.world.refundsOf orderId) ∧
        0 ≤ o.refundedAmount.getD 0 ∧ o.refundedAmount.getD 0 ≤ o.amount) ∧
    ((∀ t ∈ m.tasks, t.held = none) → ∀ heal i report w',
      (ReconciliationService.run (fun orderId => orderId) heal).RunsTo (exec deps.backend i)
        m.world (.ok report) w' →
      ∀ d ∈ report.discrepancies, d.type ≠ .over_refunded ∧ d.type ≠ .refund_ledger_mismatch) := by
  have hSound : World.Sound .ledger (World.start store clock) :=
    World.sound_start (fun _ => hLedger) nofun nofun
  have hOwned : ∀ id, World.Owned .ledger id (World.start store clock) :=
    World.owned_start fun _ => hLedger
  have hCoh := coherent_of_reaches (fun _ _ => rfl) hSound hOwned (disciplined_writes hRun)
  have hHolds : ∀ orderId o, m.Unlocked orderId → m.world.order orderId = some o →
      LedgerHolds o (m.world.refundsOf orderId) := fun orderId o hFree ho =>
    hCoh.own orderId (free_of_unlocked hFree) (.inl rfl) o ho
  refine ⟨fun orderId o hFree ho => ?_, fun hIdle heal i report w' hReport d hd => ?_⟩
  · obtain ⟨hBalanced, hBounded, hPositive, -⟩ := hHolds orderId o hFree ho
    rw [hBalanced]
    exact ⟨rfl, reserved_nonneg hPositive, hBounded⟩
  · obtain ⟨now, hEq⟩ := discrepancies_of_run hReport
    rw [hEq] at hd
    obtain ⟨o, ho, hMem⟩ := List.mem_flatMap.mp hd
    rw [reservedByOrder_eq] at hMem
    rw [OrderStore.all_eq] at ho
    refine checkOrder_of_ledger (hHolds o.id o ?_ (Table.get?_of_mem ho)) hMem
    intro t ht
    simp [hIdle t ht]

end ledger

namespace Sample

/-- A task refunds part of an order, and the provider answers. -/
def refunds {Instance : Type} (task : Nat) (outRefundNo refundId : String) (status : RefundStatus) :
    List (Label Reply (Instance × Request)) :=
  steps task 2 ++ [.step task (.text outRefundNo), .step task .normal,
    .step task (.refunded ⟨some "p1", status, ""⟩), .step task (.text refundId)] ++ steps task 4

/-- The request to refund an amount of the order. -/
def refundOf (amount : Int) : Unit × Request :=
  ((), .refundOrder "o1" ⟨some (.ofInt amount), none, none⟩)

/-- A task receives the provider's word on a refund, up to the lookup of the order. -/
def refundNotice {Instance : Type} (task : Nat) (outRefundNo : String) (status : RefundOutcome) :
    List (Label Reply (Instance × Request)) :=
  .step task (.refundCallback ⟨outRefundNo, "VPN1", "p1", status, "ev2", ""⟩) :: steps task 6

end Sample

/-- A refund of a part that the provider is still working on. -/
theorem ledger_holds_sample : ∃ m : Deployment String,
    (singleInstance (Sample.deps .sql)).Reaches
      (fun m label => (writesSucceed m label && releaseGoesOn m label) = true)
      (Deployment.start (Sample.storeOf Sample.fulfilled) 0) m ∧
    m.Unlocked "o1" ∧ reserved (m.world.refundsOf "o1") = 500 ∧
    ∀ o, m.world.order "o1" = some o →
      o.refundedAmount.getD 0 = reserved (m.world.refundsOf "o1") := by
  obtain ⟨m, hRun, hCheck⟩ := System.exists_reaches (singleInstance (Sample.deps .sql))
    (fun m label => writesSucceed m label && releaseGoesOn m label)
    (Deployment.start (Sample.storeOf Sample.fulfilled) 0)
    (.spawn (Sample.refundOf 500) :: Sample.refunds 0 "RF1" "r1" .PENDING)
    (fun m => m.Unlocked "o1" ∧ reserved (m.world.refundsOf "o1") = 500) (by decide +kernel)
  obtain ⟨hFree, hReserved⟩ := of_decide_eq_true hCheck
  refine ⟨m, hRun, hFree, hReserved, fun o ho => ?_⟩
  have hLedger := Sample.ledgered_storeOf (o := Sample.fulfilled) rfl (by decide)
  exact ((ledger_holds_between_sections hLedger hRun).1 "o1" o hFree ho).1

/-- The lookup between marking a refund FAILED and releasing its amount fails. No
write does, but the amount stays reserved for good. -/
theorem ledger_drifts_after_failed_lookup : ∃ m : Deployment String,
    (singleInstance (Sample.deps .sql)).Reaches (fun m label => writesSucceed m label = true)
      (Deployment.start (Sample.storeOf Sample.fulfilled) 0) m ∧
    m.Unlocked "o1" ∧ (m.world.order "o1").map Order.refundedAmount = some (some 500) ∧
    reserved (m.world.refundsOf "o1") = 0 := by
  obtain ⟨m, hRun, hCheck⟩ := System.exists_reaches (singleInstance (Sample.deps .sql))
    writesSucceed (Deployment.start (Sample.storeOf Sample.fulfilled) 0)
    (.spawn (Sample.refundOf 500) :: Sample.refunds 0 "RF1" "r1" .PENDING ++
      .spawn ((), .handleRefundCallback .alipay ⟨"", []⟩) :: Sample.refundNotice 1 "RF1" .FAILED ++
      [.step 1 (.throws false (plainError "connection terminated")), .step 1 .normal])
    (fun m => m.Unlocked "o1" ∧ (m.world.order "o1").map Order.refundedAmount = some (some 500) ∧
      reserved (m.world.refundsOf "o1") = 0) (by decide +kernel)
  exact ⟨m, hRun, of_decide_eq_true hCheck⟩

section settled

variable {deps : Deps} {store : Store} {clock : Int} {m : Deployment String}

/-- The sum of the refunds that have settled. -/
def settledTotal (refunds : List Refund) : Int :=
  ((refunds.filter fun r => isSettled r.status).map Refund.amount).sum

/-- Without pending refunds, what is reserved has settled. -/
theorem settledTotal_eq_reserved {refunds : List Refund} (h : ∀ r ∈ refunds, r.status ≠ .PENDING) :
    settledTotal refunds = reserved refunds := by
  unfold settledTotal reserved
  refine congrArg (fun rs : List Refund => (rs.map Refund.amount).sum) (List.filter_congr fun r hr => ?_)
  have hNot := h r hr
  cases hStatus : r.status <;> simp_all [isSettled]

/-- In the store of a deployment the money of every REFUNDED order has left. -/
def Store.RefundedInFull (store : Store) : Prop :=
  ∀ id o, store.orders.byId.get? id = some o → o.status = .REFUNDED →
    FullyRefunded o (store.refunds.byId.rows.filter fun r => r.orderId = id)

theorem Sample.refundedInFull_storeOf {o : Order} (hStatus : o.status ≠ .REFUNDED) :
    (Sample.storeOf o).RefundedInFull := by
  intro id o' ho' hRefunded
  obtain rfl := Sample.eq_of_storeOf ho'
  exact absurd hRefunded hStatus

/-- No refund that completes an order is recorded as settled while another refund
of the order is pending. -/
def noneOvertakes (m : Deployment String) : Label Reply (Unit × Request) → Bool
  | .spawn _ => true
  | .step i _ => match m.nextCall i with
      | some (.refundsCreate r) => !overtakes m.world r
      | some (.refundsUpdate r) => !overtakes m.world r
      | _ => true

/-- Requests on existing orders while no statement of a repository fails. -/
def refundTraffic (m : Deployment String) (label : Label Reply (Unit × Request)) : Bool :=
  onlySpawns Request.afterCreation label && noFailure Call.reachesStore m label

theorem disciplined_refunds {m m' : Deployment String}
    (hRun : (singleInstance deps).Reaches
      (fun m label => (refundTraffic m label && noneOvertakes m label) = true) m m') :
    (singleInstance deps).Reaches (Disciplined .settled id (fun _ orderId => orderId) deps) m m' := by
  refine hRun.mono fun m label m' hTraffic hStep => ?_
  obtain ⟨hTraffic, hNone⟩ := Bool.and_eq_true_iff.mp hTraffic
  obtain ⟨hSpawns, hNoFailure⟩ := Bool.and_eq_true_iff.mp hTraffic
  refine disciplined_of (fun _ => admitted_of_afterCreation) hSpawns ?_ ?_
  · rintro i reply t c rfl - hCall
    have hReply : c.reachesStore = true → ∀ applied e, reply ≠ .throws applied e := by
      rintro hReaches applied e rfl
      simp [noFailure, hCall, hReaches, Reply.fails] at hNoFailure
    refine ⟨fun _ hWrites => hReply (reachesStore_of_writesLedger hWrites),
      fun _ _ id hc => hReply (hc ▸ rfl), fun _ r hc => ?_, (by intros; contradiction)⟩
    rcases hc with rfl | rfl <;> simpa [noneOvertakes, hCall] using hNone
  · rintro i reply key rfl hLock
    exact orderFree_of_step hLock hStep

/-- A refund of the amount passes every check of `refundFresh`. -/
theorem refundFresh_eq_issueRefund {Key : Type} {order : Order} {amount : Int} {input : RefundInput}
    {provider : PaymentProvider} (hStatus : order.status = .PAID ∨ order.status = .FULFILLED)
    (hPositive : 0 < amount) (hRemaining : amount ≤ order.amount - order.refundedAmount.getD 0)
    (hInput : input.amount = some (.ofInt amount)) (hProvider : deps.providers order.method = some provider) :
    (RefundService.refundFresh deps order input : Action Key Refund) =
      RefundService.issueRefund deps order (order.refundedAmount.getD 0) amount provider input := by
  have hNot : ¬(order.status ≠ .PAID ∧ order.status ≠ .FULFILLED) := by
    rintro ⟨hPaid, hFulfilled⟩
    rcases hStatus with h | h
    · exact hPaid h
    · exact hFulfilled h
  have hLe : ¬amount > order.amount - order.refundedAmount.getD 0 := by omega
  simp [RefundService.refundFresh, hNot, hInput, Option.filter, hPositive, hLe, hProvider]

/-- REFUNDED means that the money has left, as long as no refund that completes an
order overtakes one that is pending. And once a pending refund fails, the
released amount can be refunded again. -/
theorem refunded_only_when_settled (hLedger : store.Ledgered) (hRefunded : store.RefundedInFull)
    (hRun : (singleInstance deps).Reaches
      (fun m label => (refundTraffic m label && noneOvertakes m label) = true)
      (Deployment.start store clock) m) (orderId : String) (o : Order)
    (ho : m.world.order orderId = some o) :
    (o.status = .REFUNDED → o.amount ≤ settledTotal (m.world.refundsOf orderId)) ∧
    (m.Unlocked orderId → ∀ r ∈ m.world.refundsOf orderId, r.status = .PENDING →
      ∀ now provider input, deps.providers o.method = some provider →
        input.amount = some (.ofInt r.amount) →
        (RefundService.refundFresh deps (RefundService.releasedOrder o r.amount now) input :
          Action String Refund) =
          RefundService.issueRefund deps (RefundService.releasedOrder o r.amount now)
            (reserved (m.world.refundsOf orderId) - r.amount) r.amount provider input) := by
  have hSound : World.Sound .settled (World.start store clock) :=
    World.sound_start (fun _ => hLedger) (fun _ => hRefunded) nofun
  have hOwned : ∀ id, World.Owned .settled id (World.start store clock) :=
    World.owned_start fun _ => hLedger
  have hCoh := coherent_of_reaches (fun _ _ => rfl) hSound hOwned (disciplined_refunds hRun)
  have hFull := hCoh.inv.refunded rfl orderId o ho
  refine ⟨fun hStatus => ?_, fun hFree r hr hPending now provider input hProvider hInput => ?_⟩
  · rw [settledTotal_eq_reserved (hFull hStatus).noPending]
    exact (hFull hStatus).covered
  · obtain ⟨hBalanced, hBounded, hPositive, hPaid⟩ :=
      hCoh.own orderId (free_of_unlocked hFree) (.inr rfl) o ho
    have hStatus : o.status = .PAID ∨ o.status = .FULFILLED := by
      rcases hPaid (List.ne_nil_of_mem hr) with h | h | h
      · exact .inl h
      · exact .inr h
      · exact absurd hPending ((hFull h).noPending r hr)
    have hPart : r.amount ≤ reserved (m.world.refundsOf orderId) := by
      have hReserves : r.reserves = r.amount := by simp [Refund.reserves, hPending]
      exact hReserves ▸ reserves_le_reserved hPositive hr
    have hReleased : (RefundService.releasedOrder o r.amount now).refundedAmount.getD 0 =
        reserved (m.world.refundsOf orderId) - r.amount := by
      simp only [RefundService.releasedOrder, Option.getD_some, hBalanced]
      omega
    rw [← hReleased]
    refine refundFresh_eq_issueRefund hStatus (hPositive r hr) ?_ hInput hProvider
    rw [hReleased]
    simp only [RefundService.releasedOrder]
    omega

/-- A refund of the whole amount that the provider settles at once. -/
theorem refunded_sample : ∃ m : Deployment String,
    (singleInstance (Sample.deps .memory)).Reaches
      (fun m label => (refundTraffic m label && noneOvertakes m label) = true)
      (Deployment.start (Sample.storeOf Sample.fulfilled) 0) m ∧
    ∃ o, m.world.order "o1" = some o ∧ o.status = .REFUNDED ∧
      o.amount ≤ settledTotal (m.world.refundsOf "o1") := by
  obtain ⟨m, hRun, hCheck⟩ := System.exists_reaches (singleInstance (Sample.deps .memory))
    (fun m label => refundTraffic m label && noneOvertakes m label)
    (Deployment.start (Sample.storeOf Sample.fulfilled) 0)
    (.spawn (Sample.refundOf 1500) :: Sample.refunds 0 "RF1" "r1" .SUCCESS)
    (fun m => (m.world.order "o1").any fun o => o.status = .REFUNDED) (by decide +kernel)
  obtain ⟨o, ho, hStatus⟩ := (Option.any_eq_true _ _).mp hCheck
  have hStatus := of_decide_eq_true hStatus
  have hLedger := Sample.ledgered_storeOf (o := Sample.fulfilled) rfl (by decide)
  have hRefunded := Sample.refundedInFull_storeOf (o := Sample.fulfilled) (by decide)
  exact ⟨m, hRun, o, ho, hStatus, (refunded_only_when_settled hLedger hRefunded hRun "o1" o ho).1 hStatus⟩

/-- A part the provider is still working on, and the rest settled at once: the
order is REFUNDED although two thirds of the money have not left. When the
pending part fails, nothing can be refunded any more. -/
theorem refunded_before_settled : ∃ m : Deployment String,
    (singleInstance (Sample.deps .memory)).Reaches (fun m label => refundTraffic m label = true)
      (Deployment.start (Sample.storeOf Sample.fulfilled) 0) m ∧
    (m.world.order "o1").map (fun o => (o.status, o.amount)) = some (.REFUNDED, 1500) ∧
    settledTotal (m.world.refundsOf "o1") = 500 := by
  obtain ⟨m, hRun, hCheck⟩ := System.exists_reaches (singleInstance (Sample.deps .memory))
    refundTraffic (Deployment.start (Sample.storeOf Sample.fulfilled) 0)
    (.spawn (Sample.refundOf 1000) :: Sample.refunds 0 "RF1" "r1" .PENDING ++
      .spawn (Sample.refundOf 500) :: Sample.refunds 1 "RF2" "r2" .SUCCESS ++
      .spawn ((), .handleRefundCallback .alipay ⟨"", []⟩) :: Sample.refundNotice 2 "RF1" .FAILED ++
      Sample.steps 2 3)
    (fun m => (m.world.order "o1").map (fun o => (o.status, o.amount)) = some (.REFUNDED, 1500) ∧
      settledTotal (m.world.refundsOf "o1") = 500) (by decide +kernel)
  exact ⟨m, hRun, of_decide_eq_true hCheck⟩

end settled
end VpnPayment
