import VpnPayment.Services.Payment

/-! `RefundService` and `ReconciliationService`. -/
namespace VpnPayment

open Async
open Prog (perform withLock)

structure RefundInput where
  amount : Option JsNumber
  reason : Option String
  outRefundNo : Option String
deriving DecidableEq

/-- A refund whose funds have actually left. -/
def isSettled (status : RefundStatus) : Bool :=
  status = .SUCCESS || status = .MANUAL

namespace RefundService

variable {Key : Type} (locker : String → Key) (deps : Deps)

/-- Record the reserved total on the order, and mark the order REFUNDED when it
is reserved in full by a settled refund. -/
def reserveRefund (order : Order) (newRefundedTotal : Int) (settled : Bool) :
    Action Key Unit := do
  let now ← perform Call.now
  let status ←
    if settled ∧ order.amount ≤ newRefundedTotal ∧ order.status ≠ .REFUNDED then
      Prog.ofExcept (assertTransition order.status .REFUNDED)
    else pure order.status
  let _ ← perform (Call.ordersUpdate
    { order with refundedAmount := some newRefundedTotal, updatedAt := now, status := status })
  pure ()

/-- The provider's answer, or a manual refund where it has no refund channel. -/
def requestRefund (provider : PaymentProvider) (order : Order) (request : RefundRequest) :
    Action Key RefundResult :=
  if provider.hasRefund then perform (Call.refund order request)
  else pure ⟨none, .MANUAL, "MANUAL_REQUIRED"⟩

/-- The merchant refund number: the caller's, or a new one. -/
def refundNumber (input : RefundInput) : Action Key String :=
  match input.outRefundNo with
  | some outRefundNo => pure outRefundNo
  | none => perform (Call.newOutTradeNo "RF")

def newRefund (id : String) (order : Order) (outRefundNo : String) (amount : Int)
    (reason : Option String) (result : RefundResult) (now : Int) : Refund where
  id := id
  orderId := order.id
  outRefundNo := outRefundNo
  amount := amount
  currency := order.currency
  reason := reason
  status := result.status
  providerRefundId := result.providerRefundId
  rawStatus := result.rawStatus
  createdAt := now
  updatedAt := now

/-- A refund the provider rejected leaves the order untouched. -/
def reserveUnlessFailed (order : Order) (newRefundedTotal : Int) (status : RefundStatus) :
    Action Key Unit :=
  if status ≠ .FAILED then reserveRefund order newRefundedTotal (isSettled status) else pure ()

/-- The audit record and the event of a refund that was issued. -/
def announceRefund (order : Order) (refund : Refund) : Action Key Unit := do
  whenPresent deps.audit (perform (Call.auditRecord {
    action := "refund.issued"
    actor := some order.userId
    subjectId := some order.id
    metadata := [("refundId", .text refund.id), ("amount", .number (.ofInt refund.amount)),
      ("status", .text refund.status.name)] }))
  whenPresent deps.outbound (perform (Call.emit .refundUpdated [
    ("orderId", .text order.id), ("refundId", .text refund.id),
    ("outRefundNo", .text refund.outRefundNo), ("amount", .number (.ofInt refund.amount)),
    ("currency", .text refund.currency.name), ("status", .text refund.status.name)]))

/-- Issue a refund of a valid amount. -/
def issueRefund (order : Order) (alreadyRefunded amount : Int) (provider : PaymentProvider)
    (input : RefundInput) : Action Key Refund := do
  let outRefundNo ← refundNumber input
  let now ← perform Call.now
  let result ← requestRefund provider order
    ⟨outRefundNo, amount, order.amount, order.currency, input.reason⟩
  let id ← perform Call.uuid
  let refund ← perform (Call.refundsCreate
    (newRefund id order outRefundNo amount input.reason result now))
  reserveUnlessFailed order (alreadyRefunded + amount) result.status
  announceRefund deps order refund
  pure refund

/-- The locked body of `refundOrder`, once the order was read. -/
def refundFresh (order : Order) (input : RefundInput) : Action Key Refund :=
  if order.status ≠ .PAID ∧ order.status ≠ .FULFILLED then
    throw ⟨.invalidState,
      s!"order {order.id} is {order.status.name}; only paid orders can be refunded"⟩
  else
    let alreadyRefunded := order.refundedAmount.getD 0
    let remaining := order.amount - alreadyRefunded
    let requested := input.amount.getD (.ofInt remaining)
    match requested.toInt?.filter fun amount => 0 < amount with
    | none => throw ⟨.validation, s!"invalid refund amount: {requested.text}"⟩
    | some amount =>
        if amount > remaining then
          throw ⟨.validation,
            s!"refund amount {requested.text} exceeds remaining refundable {remaining}"⟩
        else
          match deps.providers order.method with
          | none => throw ⟨.validation, s!"payment method not enabled: {order.method.name}"⟩
          | some provider => issueRefund deps order alreadyRefunded amount provider input

/-- `refundOrder` for a request that does not repeat an `outRefundNo`. -/
def refundLocked (orderId : String) (input : RefundInput) : Action Key Refund :=
  withLock (locker orderId) do
    let order ← perform (Call.ordersFindById orderId)
    match order with
    | none => throw ⟨.notFound, s!"order not found: {orderId}"⟩
    | some order => refundFresh deps order input

def refundOrder (orderId : String) (input : RefundInput) : Action Key Refund :=
  match truthy input.outRefundNo with
  | some outRefundNo => do
      let existing ← perform (Call.refundsFindByOutRefundNo outRefundNo)
      match existing with
      | some existing => pure existing
      | none => refundLocked locker deps orderId input
  | none => refundLocked locker deps orderId input

/-- The refund with the result of its notification. -/
def settledRefund (fresh : Refund) (result : RefundCallbackResult) (now : Int) : Refund :=
  { fresh with
    status := result.status.status
    providerRefundId := (truthy (some result.providerRefundId)).orElse
      fun _ => fresh.providerRefundId
    rawStatus := result.rawStatus
    updatedAt := now }

/-- The order with the amount of a failed refund released. -/
def releasedOrder (order : Order) (amount now : Int) : Order :=
  { order with
    refundedAmount := some (max 0 (order.refundedAmount.getD 0 - amount))
    updatedAt := now }

/-- What the result of a refund means for its order. The reservation already
counts a successful refund, and a failed one is released. -/
def applyOutcome (order : Order) (outcome : RefundOutcome) (amount now : Int) :
    Action Key Unit :=
  match outcome with
  | .SUCCESS => reserveRefund order (order.refundedAmount.getD 0) true
  | .FAILED => do
      let _ ← perform (Call.ordersUpdate (releasedOrder order amount now))
      pure ()

/-- Record the result of a refund that was still PENDING. -/
def settleRefund (fresh : Refund) (result : RefundCallbackResult) : Action Key Unit := do
  let now ← perform Call.now
  let _ ← perform (Call.refundsUpdate (settledRefund fresh result now))
  let order ← perform (Call.ordersFindById fresh.orderId)
  match order with
  | none => pure ()
  | some order => applyOutcome order result.status fresh.amount now

/-- The locked body of `handleRefundCallback`. -/
def applyRefundResult (result : RefundCallbackResult) (orderId : String) : Action Key Unit :=
  withLock (locker orderId) do
    let fresh ← perform (Call.refundsFindByOutRefundNo result.outRefundNo)
    match fresh.filter fun r => r.status = .PENDING with
    | none => pure ()
    | some fresh => settleRefund fresh result

/-- Verify and apply an asynchronous refund notification. -/
def handleRefundCallback (method : PaymentMethod) (raw : RawCallback) : Action Key Ack :=
  match (deps.providers method).filter fun p => p.hasVerifyRefundCallback with
  | none => throw ⟨.validation, s!"refund callbacks not supported for method: {method.name}"⟩
  | some provider => do
      let result ← perform (Call.verifyRefundCallback method raw)
      let isNew ← perform (Call.markIfNew s!"rfcb:{method.name}:{result.eventId}")
      if ¬isNew then pure (provider.callbackAck true)
      else do
        let refund ← perform (Call.refundsFindByOutRefundNo result.outRefundNo)
        match refund with
        | none => pure (provider.callbackAck false)
        | some refund => do
            applyRefundResult locker result refund.orderId
            pure (provider.callbackAck true)

end RefundService

inductive DiscrepancyType
  | paid_unfulfilled
  | fulfilled_without_payment
  | stale_pending
  | over_refunded
  | refund_ledger_mismatch
deriving DecidableEq

/-- A single detected inconsistency. -/
structure Discrepancy where
  type : DiscrepancyType
  orderId : String
  detail : String
deriving DecidableEq

structure ReconciliationReport where
  ranAt : Int
  checkedOrders : Nat
  checkedRefunds : Nat
  discrepancies : List Discrepancy
  healedStaleOrders : Nat
deriving DecidableEq

namespace ReconciliationService

variable {Key : Type} (locker : String → Key)

/-- The sum of the reserved, that is non-FAILED, refunds of one order. -/
def reservedByOrder (refunds : List Refund) (orderId : String) : Int :=
  ((refunds.filter fun r => r.orderId = orderId && r.status ≠ .FAILED).map Refund.amount).sum

def checkOrder (o : Order) (reserved now : Int) : List Discrepancy :=
  let refunded := o.refundedAmount.getD 0
  (if o.status = .PAID ∧ o.paidAt.isSome then
    [⟨.paid_unfulfilled, o.id, "order is PAID but was never fulfilled"⟩] else []) ++
  (if (o.status = .FULFILLED ∨ o.status = .REFUNDED) ∧ o.paidAt = none then
    [⟨.fulfilled_without_payment, o.id, s!"status {o.status.name} but paidAt is unset"⟩] else []) ++
  (if o.status = .PENDING ∧ o.expiresAt ≤ now then
    [⟨.stale_pending, o.id, s!"pending past expiry by {now - o.expiresAt}ms"⟩] else []) ++
  (if refunded > o.amount then
    [⟨.over_refunded, o.id, s!"refunded {refunded} exceeds amount {o.amount}"⟩] else []) ++
  (if refunded ≠ reserved then
    [⟨.refund_ledger_mismatch, o.id,
      s!"order.refundedAmount {refunded} != sum of non-failed refunds {reserved}"⟩] else [])

/-- Cross-check orders against their refunds, then heal stale orders if asked. -/
def run (heal : Bool) : Action Key ReconciliationReport := do
  let now ← perform Call.now
  let allOrders ← perform Call.ordersAll
  let allRefunds ← perform Call.refundsAll
  let discrepancies :=
    allOrders.flatMap fun o => checkOrder o (reservedByOrder allRefunds o.id) now
  let healedStaleOrders ← if heal then PaymentService.expireStaleOrders locker else pure 0
  pure ⟨now, allOrders.length, allRefunds.length, discrepancies, healedStaleOrders⟩

end ReconciliationService
end VpnPayment
