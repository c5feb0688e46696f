import VpnPayment.Async.Machine
import VpnPayment.Storage.Repositories

/-! What the services await, and how it acts on the shared world. Repository
calls act on the store of one of the two backends. What lies outside the
repository (a provider, the audit log, a notifier) is answered by the
environment, and every dependency may throw. A repository call that throws may
or may not have taken effect. -/
namespace VpnPayment

open Async

inductive OutboundEventType
  | orderFulfilled
  | orderRefunded
  | refundUpdated
  | reconciliationAlert
deriving DecidableEq

def OutboundEventType.name : OutboundEventType → String
  | orderFulfilled => "order.fulfilled"
  | orderRefunded => "order.refunded"
  | refundUpdated => "refund.updated"
  | reconciliationAlert => "reconciliation.alert"

abbrev Payload := List (String × Scalar)

structure AuditInput where
  action : String
  actor : Option String
  subjectId : Option String
  metadata : Payload
deriving DecidableEq

inductive NotificationType
  | subscription_expiring
  | subscription_expired
deriving DecidableEq

structure NotificationEvent where
  type : NotificationType
  userId : String
  subscriptionId : String
  planId : String
  expiresAt : Int
  at_ : Int
deriving DecidableEq

structure DepositAddress where
  index : Nat
  address : String
deriving DecidableEq

/-- Everything the services call and await, plus the sources of time and of
identifiers. `tick` is time passing. -/
inductive Call
  | ordersCreate (order : Order)
  | ordersFindById (id : String)
  | ordersFindByOutTradeNo (outTradeNo : String)
  | ordersFindByIdempotencyKey (key : String)
  | ordersFindPendingByMethod (method : PaymentMethod)
  | ordersUpdate (order : Order)
  | ordersAll
  | refundsCreate (refund : Refund)
  | refundsFindByOutRefundNo (outRefundNo : String)
  | refundsFindByOrder (orderId : String)
  | refundsUpdate (refund : Refund)
  | refundsAll
  | subscriptionsFindActiveByUser (userId : String)
  | subscriptionsCreate (sub : Subscription)
  | subscriptionsUpdate (sub : Subscription)
  | subscriptionsListActive
  | markIfNew (eventId : String)
  | sweep (olderThanMs : Int)
  | createPayment (order : Order)
  | verifyCallback (method : PaymentMethod) (raw : RawCallback)
  | queryPayment (order : Order)
  | refund (order : Order) (request : RefundRequest)
  | verifyRefundCallback (method : PaymentMethod) (raw : RawCallback)
  | allocate (orderId : String)
  | auditRecord (input : AuditInput)
  | emit (type : OutboundEventType) (payload : Payload)
  | notify (event : NotificationEvent)
  | onUsdtSettled (order : Order)
  | now
  | uuid
  | newOutTradeNo (lead : String)
  | tick
deriving DecidableEq

abbrev Ans : Call → Type
  | .ordersCreate _ => Order
  | .ordersFindById _ => Option Order
  | .ordersFindByOutTradeNo _ => Option Order
  | .ordersFindByIdempotencyKey _ => Option Order
  | .ordersFindPendingByMethod _ => List Order
  | .ordersUpdate _ => Order
  | .ordersAll => List Order
  | .refundsCreate _ => Refund
  | .refundsFindByOutRefundNo _ => Option Refund
  | .refundsFindByOrder _ => List Refund
  | .refundsUpdate _ => Refund
  | .refundsAll => List Refund
  | .subscriptionsFindActiveByUser _ => Option Subscription
  | .subscriptionsCreate _ => Subscription
  | .subscriptionsUpdate _ => Subscription
  | .subscriptionsListActive => List Subscription
  | .markIfNew _ => Bool
  | .sweep _ => Nat
  | .createPayment _ => CreatePaymentResult
  | .verifyCallback _ _ => CallbackResult
  | .queryPayment _ => QueryResult
  | .refund _ _ => RefundResult
  | .verifyRefundCallback _ _ => RefundCallbackResult
  | .allocate _ => DepositAddress
  | .now => Int
  | .uuid => String
  | .newOutTradeNo _ => String
  | _ => Unit

/-- What the environment decides about one call: that it settles as the code
behind it does, what code outside the model answers, or that it throws. -/
inductive Reply
  | normal
  | throws (applied : Bool) (e : AppError)
  | payment (result : CreatePaymentResult)
  | callback (result : CallbackResult)
  | query (result : QueryResult)
  | refunded (result : RefundResult)
  | refundCallback (result : RefundCallbackResult)
  | address (deposit : DepositAddress)
  | text (s : String)
  | time (t : Int)

def Reply.fails : Reply → Bool
  | .throws _ _ => true
  | _ => false

/-- One settled call. -/
structure Event where
  task : Nat
  call : Call
  answer : Except AppError (Ans call)
  /-- Whether the call took effect on the store. -/
  applied : Bool

/-- The store and the clock shared by all tasks, the identifiers handed out so
far, each with the task that drew it, and the calls settled so far, newest
first. -/
structure World where
  store : Store
  clock : Int
  issued : List (Nat × String)
  trace : List Event

namespace World

def start (store : Store) (clock : Int) : World :=
  ⟨store, clock, [], []⟩

def log (w : World) (event : Event) : World :=
  { w with trace := event :: w.trace }

/-- `randomUUID` never answers an identifier that is in use or was drawn before,
and never the empty string. -/
def Unused (w : World) (id : String) : Prop :=
  (∀ entry ∈ w.issued, entry.2 ≠ id) ∧ w.store.orders.byId.get? id = none ∧
    w.store.refunds.byId.get? id = none ∧ w.store.subscriptions.byId.get? id = none ∧ id ≠ ""

instance (w : World) (id : String) : Decidable (w.Unused id) :=
  inferInstanceAs (Decidable (_ ∧ _ ∧ _ ∧ _ ∧ _))

end World

/-- The effect of a repository call on the store. Calls that do not reach the
store have none. -/
def storeEffect (b : Backend) (clock : Int) :
    (c : Call) → Option (Store → Except AppError (Ans c × Store))
  | .ordersCreate o => some fun s => (s.orders.create b o).map fun t => (o, { s with orders := t })
  | .ordersFindById id => some fun s => .ok (s.orders.findById b id, s)
  | .ordersFindByOutTradeNo no => some fun s => .ok (s.orders.findByOutTradeNo b no, s)
  | .ordersFindByIdempotencyKey k => some fun s => .ok (s.orders.findByIdempotencyKey b k, s)
  | .ordersFindPendingByMethod m => some fun s => .ok (s.orders.findPendingByMethod b m, s)
  | .ordersUpdate o => some fun s => (s.orders.update b o).map fun t => (o, { s with orders := t })
  | .ordersAll => some fun s => .ok (s.orders.all b, s)
  | .refundsCreate r => some fun s =>
      (s.refunds.create b s.orders r).map fun t => (r, { s with refunds := t })
  | .refundsFindByOutRefundNo no => some fun s => .ok (s.refunds.findByOutRefundNo b no, s)
  | .refundsFindByOrder id => some fun s => .ok (s.refunds.findByOrder b id, s)
  | .refundsUpdate r => some fun s => .ok (r, { s with refunds := s.refunds.update b r })
  | .refundsAll => some fun s => .ok (s.refunds.all b, s)
  | .subscriptionsFindActiveByUser u => some fun s =>
      .ok (s.subscriptions.findActiveByUser b u, s)
  | .subscriptionsCreate sub => some fun s =>
      (s.subscriptions.create b sub).map fun t => (sub, { s with subscriptions := t })
  | .subscriptionsUpdate sub => some fun s =>
      (s.subscriptions.update b sub).map fun t => (sub, { s with subscriptions := t })
  | .subscriptionsListActive => some fun s => .ok (s.subscriptions.listActive b, s)
  | .markIfNew e => some fun s =>
      .ok ((s.processed.markIfNew b e clock).1,
        { s with processed := (s.processed.markIfNew b e clock).2 })
  | .sweep olderThanMs => some fun s =>
      .ok ((s.processed.sweep b olderThanMs clock).1,
        { s with processed := (s.processed.sweep b olderThanMs clock).2 })
  | _ => none

/-- What a call that does not reach the store answers, if the reply fits it. -/
def outsideAnswer (w : World) : (c : Call) → Reply → Option (Ans c)
  | .createPayment _, .payment result => some result
  | .verifyCallback _ _, .callback result => some result
  | .queryPayment _, .query result => some result
  | .refund _ _, .refunded result => some result
  | .verifyRefundCallback _ _, .refundCallback result => some result
  | .allocate _, .address deposit => some deposit
  | .auditRecord _, .normal => some ()
  | .emit _ _, .normal => some ()
  | .notify _, .normal => some ()
  | .onUsdtSettled _, .normal => some ()
  | .now, .normal => some w.clock
  | .uuid, .text s => if w.Unused s then some s else none
  | .newOutTradeNo _, .text s => some s
  | .tick, .time _ => some ()
  | _, _ => none

/-- The call is a statement of a repository. -/
def Call.reachesStore (c : Call) : Bool :=
  (storeEffect .memory 0 c).isSome

/-- Reading the clock and drawing identifiers cannot fail. -/
def mayThrow : Call → Bool
  | .now | .uuid | .newOutTradeNo _ | .tick => false
  | _ => true

/-- The bookkeeping of the clock and of the identifiers in use. -/
def noted (i : Nat) (w : World) : Call → Reply → World
  | .uuid, .text s => { w with issued := (i, s) :: w.issued }
  | .tick, .time t => { w with clock := t }
  | _, _ => w

/-- Settle one call of task `i`. -/
def exec (b : Backend) (i : Nat) (c : Call) (reply : Reply) (w : World) :
    Option (Except AppError (Ans c) × World) :=
  match storeEffect b w.clock c with
  | some effect =>
      match reply with
      | .normal => match effect w.store with
          | .ok (a, s) => some (.ok a, { w with store := s }.log ⟨i, c, .ok a, true⟩)
          | .error e => some (.error e, w.log ⟨i, c, .error e, false⟩)
      | .throws false e => some (.error e, w.log ⟨i, c, .error e, false⟩)
      | .throws true e => match effect w.store with
          | .ok (_, s) => some (.error e, { w with store := s }.log ⟨i, c, .error e, true⟩)
          | .error _ => none
      | _ => none
  | none =>
      match reply with
      | .throws _ e =>
          if mayThrow c then some (.error e, w.log ⟨i, c, .error e, false⟩) else none
      | _ => (outsideAnswer w c reply).map fun a =>
          (.ok a, (noted i w c reply).log ⟨i, c, .ok a, false⟩)

theorem map_eq_ok_iff {ε α β : Type} {x : Except ε α} {f : α → β} {y : β} :
    x.map f = .ok y ↔ ∃ a, x = .ok a ∧ f a = y := by
  cases x <;> simp [Except.map]

variable {b : Backend} {i : Nat} {c : Call} {reply : Reply} {w w' : World}
  {answer : Except AppError (Ans c)}

/-- A repository call takes its effect or leaves the store alone, and it answers
what the repository does or throws. -/
theorem exec_store {effect : Store → Except AppError (Ans c × Store)}
    (h : exec b i c reply w = some (answer, w')) (hEffect : storeEffect b w.clock c = some effect) :
    (∃ e, answer = .error e ∧ w' = w.log ⟨i, c, .error e, false⟩ ∧
      (effect w.store = .error e ∨ reply = .throws false e)) ∨
    (∃ a s, effect w.store = .ok (a, s) ∧
      w' = { w with store := s }.log ⟨i, c, answer, true⟩ ∧
      (answer = .ok a ∨ ∃ e, answer = .error e ∧ reply = .throws true e)) := by
  simp only [exec, hEffect] at h
  split at h
  · split at h
    · next a s hOk =>
        cases h
        exact .inr ⟨a, s, hOk, rfl, .inl rfl⟩
    · next e hError =>
        cases h
        exact .inl ⟨e, rfl, rfl, .inl hError⟩
  · cases h
    exact .inl ⟨_, rfl, rfl, .inr rfl⟩
  · split at h
    · next a s hOk =>
        cases h
        exact .inr ⟨a, s, hOk, rfl, .inr ⟨_, rfl, rfl⟩⟩
    · cases h
  · cases h

/-- A repository call that succeeds answers what its effect says. -/
theorem effect_of_answer {effect : Store → Except AppError (Ans c × Store)} {a : Ans c}
    (h : exec b i c reply w = some (.ok a, w')) (hEffect : storeEffect b w.clock c = some effect) :
    ∃ s, effect w.store = .ok (a, s) := by
  obtain ⟨_, hEq, -⟩ | ⟨a', s, hOk, -, hEq | ⟨_, hEq, -⟩⟩ := exec_store h hEffect
  · cases hEq
  · cases hEq
    exact ⟨s, hOk⟩
  · cases hEq

/-- A read of a repository that settles answers from the store and leaves it alone. -/
theorem exec_read {effect : Store → Except AppError (Ans c × Store)} {read : Store → Ans c} {a : Ans c}
    (hEffect : storeEffect b w.clock c = some effect) (hRead : ∀ s, effect s = .ok (read s, s))
    (hExec : exec b i c reply w = some (.ok a, w')) : a = read w.store ∧ w'.store = w.store := by
  obtain ⟨e, hEq, -⟩ | ⟨a', s, hOk, rfl, hEq | ⟨e, hEq, -⟩⟩ := exec_store hExec hEffect
  · cases hEq
  · rw [hRead] at hOk
    cases hOk
    cases hEq
    exact ⟨rfl, rfl⟩
  · cases hEq

/-- A call outside the repositories leaves the store alone. -/
theorem exec_outside (h : exec b i c reply w = some (answer, w'))
    (hEffect : storeEffect b w.clock c = none) :
    (∃ e, answer = .error e ∧ w' = w.log ⟨i, c, .error e, false⟩ ∧ mayThrow c = true ∧
      ∃ applied, reply = .throws applied e) ∨
    (∃ a, outsideAnswer w c reply = some a ∧ answer = .ok a ∧
      w' = (noted i w c reply).log ⟨i, c, .ok a, false⟩) := by
  simp only [exec, hEffect] at h
  split at h
  · split at h
    · next hMay =>
        cases h
        exact .inl ⟨_, rfl, rfl, hMay, _, rfl⟩
    · cases h
  · obtain ⟨a, hAnswer, hEq⟩ := Option.map_eq_some_iff.mp h
    cases hEq
    exact .inr ⟨a, hAnswer, rfl, rfl⟩

end VpnPayment
