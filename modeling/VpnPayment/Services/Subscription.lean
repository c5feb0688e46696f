import VpnPayment.Services.World

/-! `SubscriptionService` and `ExpiryService`. -/
namespace VpnPayment

open Async

/-- What the services ask of a payment provider: which optional methods it has
and how it acknowledges a callback. -/
structure PaymentProvider where
  hasRefund : Bool
  hasVerifyRefundCallback : Bool
  callbackAck : Bool → Ack

inductive UsdtAddressMode
  | shared
  | perOrder
deriving DecidableEq

/-- The dependencies the container wires into the services. Optional ones are
marked by whether they are present. -/
structure Deps where
  backend : Backend
  providers : PaymentMethod → Option PaymentProvider
  plans : List Plan
  orderTtlMinutes : Int
  usdtUniqueDeltaMax : Int
  usdtAddressMode : Option UsdtAddressMode
  addressAllocator : Bool
  onUsdtSettled : Bool
  audit : Bool
  outbound : Bool
  reminderWindowMs : Int

variable {Key : Type}

/-- An asynchronous method of a service. -/
abbrev Action (Key : Type) (α : Type) := Prog Key Call Ans AppError α

open Prog (perform withLock)

/-- Await an optional dependency. -/
def whenPresent (present : Bool) (action : Action Key Unit) : Action Key Unit :=
  if present then action else pure ()

theorem only_whenPresent {C : Call → Prop} {present : Bool} {p : Action Key Unit}
    (h : p.Only C fun _ => True) : (whenPresent present p).Only C fun _ => True := by
  unfold whenPresent
  split
  · exact h
  · exact trivial

namespace PlanCatalog

def getPlan (plans : List Plan) (id : String) : Option Plan :=
  plans.find? fun p => p.id = id && p.enabled

end PlanCatalog

namespace SubscriptionService

/-- The plan's duration in milliseconds. -/
def addMs (plan : Plan) : Int :=
  plan.durationDays * 24 * 60 * 60 * 1000

/-- The running subscription, extended from its current expiry. -/
def extended (existing : Subscription) (plan : Plan) (order : Order) (now : Int) : Subscription :=
  { existing with
    planId := plan.id
    expiresAt := existing.expiresAt + addMs plan
    trafficGb := plan.trafficGb
    deviceLimit := plan.deviceLimit
    orderIds := existing.orderIds ++ [order.id]
    active := true
    expiryNotifiedAt := none
    updatedAt := now }

/-- A subscription that starts now. -/
def started (id : String) (plan : Plan) (order : Order) (now : Int) : Subscription where
  id := id
  userId := order.userId
  planId := plan.id
  startsAt := now
  expiresAt := now + addMs plan
  trafficGb := plan.trafficGb
  deviceLimit := plan.deviceLimit
  active := true
  orderIds := [order.id]
  expiryNotifiedAt := none
  createdAt := now
  updatedAt := now

/-- The branch on whether a running subscription was found, with the write. -/
def writeSubscription (plan : Plan) (order : Order) (now : Int) (existing : Option Subscription) :
    Action Key Subscription :=
  match existing.filter fun e => e.expiresAt > now with
  | some running => do
      let subscription := extended running plan order now
      let _ ← perform (Call.subscriptionsUpdate subscription)
      pure subscription
  | none => do
      let id ← perform Call.uuid
      let subscription := started id plan order now
      let _ ← perform (Call.subscriptionsCreate subscription)
      pure subscription

/-- What `fulfillOrder` does for an order that was not found fulfilled with an
active subscription. -/
def grant (deps : Deps) (order : Order) : Action Key (Order × Subscription) :=
  match PlanCatalog.getPlan deps.plans order.planId with
  | none => throw ⟨.notFound, s!"plan not found: {order.planId}"⟩
  | some plan => do
      let now ← perform Call.now
      let existing ← perform (Call.subscriptionsFindActiveByUser order.userId)
      let subscription ← writeSubscription plan order now existing
      let status ← Prog.ofExcept (assertTransition order.status .FULFILLED)
      pure ({ order with status := status, updatedAt := now }, subscription)

def fulfillOrder (deps : Deps) (order : Order) : Action Key (Order × Subscription) :=
  if order.status = .FULFILLED then do
    let existing ← perform (Call.subscriptionsFindActiveByUser order.userId)
    match existing with
    | some existing => pure (order, existing)
    | none => grant deps order
  else grant deps order

end SubscriptionService

namespace ExpiryService

def dueForReminder (deps : Deps) (now : Int) (sub : Subscription) : Bool :=
  sub.expiresAt > now && sub.expiresAt ≤ now + deps.reminderWindowMs && sub.expiryNotifiedAt = none

def expiryEvent (type : NotificationType) (sub : Subscription) (now : Int) : NotificationEvent :=
  ⟨type, sub.userId, sub.id, sub.planId, sub.expiresAt, now⟩

/-- The loop of `sendExpiryReminders`. -/
def remindEach (deps : Deps) (now : Int) : List Subscription → Nat → Action Key Nat
  | [], sent => pure sent
  | sub :: rest, sent =>
      if dueForReminder deps now sub then do
        let _ ← perform (Call.notify (expiryEvent .subscription_expiring sub now))
        let _ ← perform (Call.subscriptionsUpdate { sub with expiryNotifiedAt := some now })
        remindEach deps now rest (sent + 1)
      else remindEach deps now rest sent

def sendExpiryReminders (deps : Deps) : Action Key Nat := do
  let now ← perform Call.now
  let active ← perform Call.subscriptionsListActive
  remindEach deps now active 0

/-- The loop of `deactivateExpired`. -/
def deactivateEach (now : Int) : List Subscription → Nat → Action Key Nat
  | [], deactivated => pure deactivated
  | sub :: rest, deactivated =>
      if sub.expiresAt > now then deactivateEach now rest deactivated
      else do
        let _ ← perform (Call.subscriptionsUpdate { sub with active := false, updatedAt := now })
        let _ ← perform (Call.notify (expiryEvent .subscription_expired sub now))
        deactivateEach now rest (deactivated + 1)

def deactivateExpired : Action Key Nat := do
  let now ← perform Call.now
  let active ← perform Call.subscriptionsListActive
  deactivateEach now active 0

end ExpiryService
end VpnPayment
