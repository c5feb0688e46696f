import VpnPayment.Services.Subscription

/-! `PaymentService`. The same settlement routine serves webhooks and polling. -/
namespace VpnPayment

open Async
open Prog (perform withLock)

structure CreateOrderInput where
  userId : String
  planId : String
  method : PaymentMethod
  idempotencyKey : Option String
  merchantId : Option String
deriving DecidableEq

structure CreateOrderOutput where
  order : Order
  payInfo : CreatePaymentResult
deriving DecidableEq

/-- What a provider reports as paid. -/
structure PaidReport where
  providerTxnId : String
  paidAmount : JsNumber
  currency : Currency
deriving DecidableEq

/-- The first amount from the base price upwards that no pending order uses. -/
def allocateUniqueAmount (basePriceMicro : Int) (takenAmountsMicro : List Int) (maxDelta : Int) :
    Except AppError Int :=
  match ((List.range (maxDelta + 1).toNat).map fun (delta : Nat) => basePriceMicro + delta).find?
      fun candidate => !takenAmountsMicro.contains candidate with
  | some candidate => .ok candidate
  | none => .error ⟨.provider, "no unique USDT amount available; try again later"⟩

namespace PaymentService

variable {Key : Type} (locker : String → Key) (deps : Deps)

def provider (method : PaymentMethod) : Except AppError PaymentProvider :=
  match deps.providers method with
  | some p => .ok p
  | none => .error ⟨.validation, s!"payment method not enabled: {method.name}"⟩

/-- Compute the amount due, allocating a unique USDT amount when needed. -/
def resolveAmount (method : PaymentMethod) (priceCnyFen priceUsdtMicro : Int) : Action Key Int :=
  if method ≠ .usdt then pure priceCnyFen
  else if deps.usdtAddressMode = some .perOrder then pure priceUsdtMicro
  else do
    let pending ← perform (Call.ordersFindPendingByMethod .usdt)
    Prog.ofExcept (allocateUniqueAmount priceUsdtMicro (pending.map Order.amount) deps.usdtUniqueDeltaMax)

/-- In per-order USDT mode the order gets a deposit address of its own. -/
def withDepositAddress (order : Order) : Action Key Order :=
  if order.method = .usdt ∧ deps.usdtAddressMode = some .perOrder then
    if deps.addressAllocator then do
      let allocated ← perform (Call.allocate order.id)
      pure { order with
        metadata := { order.metadata with
          depositAddress := some allocated.address
          depositIndex := some (toString allocated.index) } }
    else throw ⟨.provider,
      "per-order USDT mode is enabled but no address allocator is configured"⟩
  else pure order

/-- A provider that refuses leaves the order FAILED. -/
def markFailed (order : Order) (err : AppError) : Action Key CreatePaymentResult := do
  let status ← Prog.ofExcept (assertTransition order.status .FAILED)
  let now ← perform Call.now
  let _ ← perform (Call.ordersUpdate { order with status := status, updatedAt := now })
  throw err

/-- What follows the insertion of a new order. -/
def requestPayment (order : Order) : Action Key CreateOrderOutput := do
  let payInfo ← tryCatch (perform (Call.createPayment order)) (markFailed order)
  let now ← perform Call.now
  let saved ← perform (Call.ordersUpdate
    { order with metadata := { order.metadata with payInfo := some payInfo }, updatedAt := now })
  whenPresent deps.audit (perform (Call.auditRecord {
    action := "order.created"
    actor := some saved.userId
    subjectId := some saved.id
    metadata := [("method", .text saved.method.name), ("amount", .number (.ofInt saved.amount)),
      ("currency", .text saved.currency.name)] }))
  pure ⟨saved, payInfo⟩

/-- `createOrder` for a request whose idempotency key, if any, is new. -/
def createNewOrder (input : CreateOrderInput) : Action Key CreateOrderOutput :=
  match PlanCatalog.getPlan deps.plans input.planId with
  | none => throw ⟨.notFound, s!"plan not found: {input.planId}"⟩
  | some plan => do
      let _ ← Prog.ofExcept (provider deps input.method)
      let amount ← resolveAmount deps input.method plan.priceCnyFen plan.priceUsdtMicro
      let now ← perform Call.now
      let id ← perform Call.uuid
      let outTradeNo ← perform (Call.newOutTradeNo "VPN")
      let order ← withDepositAddress deps {
        id := id
        merchantId := some (input.merchantId.getD DEFAULT_MERCHANT_ID)
        outTradeNo := outTradeNo
        userId := input.userId
        planId := plan.id
        method := input.method
        currency := if input.method = .usdt then .USDT else .CNY
        amount := amount
        status := .PENDING
        providerTxnId := none
        idempotencyKey := input.idempotencyKey
        createdAt := now
        updatedAt := now
        expiresAt := now + deps.orderTtlMinutes * 60000
        paidAt := none
        refundedAmount := none
        metadata := .empty }
      let _ ← perform (Call.ordersCreate order)
      requestPayment deps order

/-- The output for an order found by its idempotency key. -/
def replayOrder (existing : Order) : Action Key CreateOrderOutput :=
  match existing.metadata.payInfo with
  | some payInfo => pure ⟨existing, payInfo⟩
  | none => do
      let _ ← Prog.ofExcept (provider deps existing.method)
      let payInfo ← perform (Call.createPayment existing)
      pure ⟨existing, payInfo⟩

/-- Create an order and a provider payment intent. -/
def createOrder (input : CreateOrderInput) : Action Key CreateOrderOutput :=
  match truthy input.idempotencyKey with
  | some key => do
      let existing ← perform (Call.ordersFindByIdempotencyKey key)
      match existing with
      | some existing => replayOrder deps existing
      | none => createNewOrder deps input
  | none => createNewOrder deps input

/-- The order with its payment recorded. -/
def paidOrder (order : Order) (paid : PaidReport) (status : OrderStatus) (now : Int) : Order :=
  { order with
    status := status
    providerTxnId := some paid.providerTxnId
    paidAt := some now
    updatedAt := now }

/-- Mark an order PAID, grant its time and mark it FULFILLED. -/
def settle (order : Order) (paid : PaidReport) : Action Key Order := do
  let now ← perform Call.now
  let status ← Prog.ofExcept (assertTransition order.status .PAID)
  let _ ← perform (Call.ordersUpdate (paidOrder order paid status now))
  let fulfilled ← SubscriptionService.fulfillOrder deps (paidOrder order paid status now)
  let finalOrder ← perform (Call.ordersUpdate fulfilled.1)
  whenPresent deps.audit (perform (Call.auditRecord {
    action := "order.fulfilled"
    actor := some finalOrder.userId
    subjectId := some finalOrder.id
    metadata := [("providerTxnId", .text paid.providerTxnId), ("amount", .number paid.paidAmount),
      ("currency", .text paid.currency.name)] }))
  whenPresent deps.outbound (perform (Call.emit .orderFulfilled [
    ("orderId", .text finalOrder.id), ("outTradeNo", .text finalOrder.outTradeNo),
    ("userId", .text finalOrder.userId), ("planId", .text finalOrder.planId),
    ("amount", .number (.ofInt finalOrder.amount)), ("currency", .text finalOrder.currency.name),
    ("providerTxnId", (finalOrder.providerTxnId.map Scalar.text).getD .undefined)]))
  whenPresent (finalOrder.method = .usdt && deps.onUsdtSettled &&
      (truthy finalOrder.metadata.depositAddress).isSome)
    (tryCatch (perform (Call.onUsdtSettled finalOrder)) fun _ => pure ())
  pure finalOrder

/-- The locked body of `applyPayment`, once the order was read again. -/
def settleFresh (order : Order) (paid : PaidReport) : Action Key Order :=
  if order.status = .PAID ∨ order.status = .FULFILLED then pure order
  else if isTerminal order.status then
    throw ⟨.provider, s!"order {order.id} is {order.status.name}; cannot accept payment"⟩
  else if paid.currency ≠ order.currency then
    throw ⟨.amountMismatch,
      s!"currency mismatch: paid {paid.currency.name}, expected {order.currency.name}"⟩
  else if paid.paidAmount.ltInt order.amount then
    throw ⟨.amountMismatch, s!"underpayment: paid {paid.paidAmount.text}, expected {order.amount}"⟩
  else settle deps order paid

/-- Core settlement routine, under a per-order lock. -/
def applyPayment (orderId : String) (paid : PaidReport) : Action Key Order :=
  withLock (locker orderId) do
    let order ← perform (Call.ordersFindById orderId)
    match order with
    | none => throw ⟨.notFound, s!"order not found: {orderId}"⟩
    | some order => settleFresh deps order paid

/-- Handle an inbound provider webhook. -/
def handleCallback (method : PaymentMethod) (raw : RawCallback) : Action Key Ack := do
  let provider ← Prog.ofExcept (provider deps method)
  let result ← perform (Call.verifyCallback method raw)
  if ¬result.paid then pure (provider.callbackAck true)
  else do
    let isNew ← perform (Call.markIfNew s!"cb:{method.name}:{result.eventId}")
    if ¬isNew then pure (provider.callbackAck true)
    else do
      let order ← perform (Call.ordersFindByOutTradeNo result.outTradeNo)
      match order with
      | none => pure (provider.callbackAck false)
      | some order =>
          tryCatch
            (do
              let _ ← applyPayment locker deps order.id
                ⟨result.providerTxnId, result.paidAmount, result.currency⟩
              pure (provider.callbackAck true))
            fun err => pure (provider.callbackAck (err.kind = .amountMismatch))

/-- Query the provider about a pending order and apply the payment if settled. -/
def syncOrder (orderId : String) : Action Key Order := do
  let order ← perform (Call.ordersFindById orderId)
  match order with
  | none => throw ⟨.notFound, s!"order not found: {orderId}"⟩
  | some order =>
      if order.status ≠ .PENDING then pure order
      else do
        let _ ← Prog.ofExcept (provider deps order.method)
        let q ← perform (Call.queryPayment order)
        match q.paid, truthy q.providerTxnId with
        | true, some providerTxnId => do
            let isNew ← perform (Call.markIfNew s!"txn:{order.method.name}:{providerTxnId}")
            if ¬isNew then do
              let latest ← perform (Call.ordersFindById orderId)
              pure (latest.getD order)
            else
              applyPayment locker deps order.id
                ⟨providerTxnId, q.paidAmount.getD (.ofInt order.amount), order.currency⟩
        | _, _ => pure order

/-- The locked body of `expireStaleOrders`, with the number of orders expired. -/
def expireOrder (orderId : String) : Action Key Nat :=
  withLock (locker orderId) do
    let fresh ← perform (Call.ordersFindById orderId)
    match fresh.filter fun o => o.status = .PENDING with
    | none => pure 0
    | some fresh => do
        let status ← Prog.ofExcept (assertTransition fresh.status .EXPIRED)
        let now ← perform Call.now
        let _ ← perform (Call.ordersUpdate { fresh with status := status, updatedAt := now })
        pure 1

/-- The loop of `expireStaleOrders`. -/
def expireEach (now : Int) : List Order → Nat → Action Key Nat
  | [], count => pure count
  | o :: rest, count =>
      if o.status = .PENDING ∧ o.expiresAt ≤ now then do
        let expired ← expireOrder locker o.id
        expireEach now rest (count + expired)
      else expireEach now rest count

/-- Expire pending orders whose payment window has elapsed. -/
def expireStaleOrders : Action Key Nat := do
  let now ← perform Call.now
  let all ← perform Call.ordersAll
  expireEach locker now all 0

end PaymentService
end VpnPayment
