import VpnPayment.Services.Refund

/-! The running system: instances of the application that share one store. Each
instance has a lock of its own for every order. -/
namespace VpnPayment

open Async

/-- What an instance is asked to do. `tick` is time passing and `sweep` the
periodic removal of old processed-event records. -/
inductive Request
  | createOrder (input : CreateOrderInput)
  | handleCallback (method : PaymentMethod) (raw : RawCallback)
  | syncOrder (orderId : String)
  | expireStaleOrders
  | refundOrder (orderId : String) (input : RefundInput)
  | handleRefundCallback (method : PaymentMethod) (raw : RawCallback)
  | fulfillOrder (order : Order)
  | sendExpiryReminders
  | deactivateExpired
  | reconcile (heal : Bool)
  | sweep (olderThanMs : Int)
  | tick

/-- Requests that neither create orders nor grant time on their own. -/
def Request.afterCreation : Request → Bool
  | .createOrder _ | .fulfillOrder _ => false
  | _ => true

inductive Outcome
  | created (output : CreateOrderOutput)
  | ack (response : Ack)
  | order (order : Order)
  | refund (refund : Refund)
  | fulfilled (order : Order) (subscription : Subscription)
  | report (report : ReconciliationReport)
  | count (n : Nat)
  | done

/-- The program that serves a request on an instance with the given lock keys. -/
def serve {Key : Type} (locker : String → Key) (deps : Deps) : Request → Action Key Outcome
  | .createOrder input => do
      let output ← PaymentService.createOrder deps input
      pure (.created output)
  | .handleCallback method raw => do
      let ack ← PaymentService.handleCallback locker deps method raw
      pure (.ack ack)
  | .syncOrder orderId => do
      let order ← PaymentService.syncOrder locker deps orderId
      pure (.order order)
  | .expireStaleOrders => do
      let count ← PaymentService.expireStaleOrders locker
      pure (.count count)
  | .refundOrder orderId input => do
      let refund ← RefundService.refundOrder locker deps orderId input
      pure (.refund refund)
  | .handleRefundCallback method raw => do
      let ack ← RefundService.handleRefundCallback locker deps method raw
      pure (.ack ack)
  | .fulfillOrder order => do
      let fulfilled ← SubscriptionService.fulfillOrder deps order
      pure (.fulfilled fulfilled.1 fulfilled.2)
  | .sendExpiryReminders => do
      let count ← ExpiryService.sendExpiryReminders deps
      pure (.count count)
  | .deactivateExpired => do
      let count ← ExpiryService.deactivateExpired
      pure (.count count)
  | .reconcile heal => do
      let report ← ReconciliationService.run locker heal
      pure (.report report)
  | .sweep olderThanMs => do
      let removed ← Prog.perform (Call.sweep olderThanMs)
      pure (.count removed)
  | .tick => do
      let _ ← Prog.perform Call.tick
      pure .done

/-- Instances that share the store of `deps`. `locker n` is the locker of
instance `n`. -/
def system {Instance Key : Type} (locker : Instance → String → Key) (deps : Deps) :
    System Key Call Ans AppError Outcome World Reply (Instance × Request) where
  exec := exec deps.backend
  entry request := serve (locker request.1) deps request.2

/-- The states of a system of instances. -/
abbrev Deployment (Key : Type) := Machine Key Call Ans AppError Outcome World

/-- The deployment has just been started on the contents of its store. -/
abbrev Deployment.start {Key : Type} (store : Store) (clock : Int) : Deployment Key :=
  Machine.start (World.start store clock)

/-- Only requests of a kind are made. -/
def onlySpawns {Instance : Type} (kind : Request → Bool) : Label Reply (Instance × Request) → Bool
  | .spawn request => kind request.2
  | .step _ _ => true

/-- If the label settles a call of a kind, the call does not fail. -/
def noFailure {Instance Key : Type} (kind : Call → Bool) (m : Deployment Key) :
    Label Reply (Instance × Request) → Bool
  | .spawn _ => true
  | .step i reply => !reply.fails || (m.nextCall i).all fun c => !kind c

/-- One instance. -/
abbrev singleInstance (deps : Deps) :
    System String Call Ans AppError Outcome World Reply (Unit × Request) :=
  system (fun _ orderId => orderId) deps

/-- Any number of instances, each with an in-process locker. -/
abbrev replicated (deps : Deps) :
    System (Nat × String) Call Ans AppError Outcome World Reply (Nat × Request) :=
  system Prod.mk deps

end VpnPayment
