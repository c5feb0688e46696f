import VpnPayment.Services.System

/-! Which calls serve which request. -/
namespace VpnPayment

open Async
open Prog (Calls perform withLock)

namespace Call

/-- The calls of `fulfillOrder`. -/
def ofFulfilment : Call → Bool
  | .now | .uuid | .subscriptionsFindActiveByUser _ | .subscriptionsCreate _
  | .subscriptionsUpdate _ => true
  | _ => false

/-- The calls of `applyPayment`. -/
def ofSettlement : Call → Bool
  | .ordersFindById _ | .ordersUpdate _ | .emit _ _ | .onUsdtSettled _ => true
  | .auditRecord input => input.action = "order.fulfilled"
  | c => c.ofFulfilment

/-- The calls of `createOrder`. -/
def ofCreation : Call → Bool
  | .ordersFindByIdempotencyKey _ | .ordersFindPendingByMethod _ | .now | .uuid
  | .newOutTradeNo _ | .allocate _ | .ordersCreate _ | .createPayment _ | .ordersUpdate _ => true
  | .auditRecord input => input.action = "order.created"
  | _ => false

/-- The calls of `expireStaleOrders`. -/
def ofExpiry : Call → Bool
  | .now | .ordersAll | .ordersFindById _ | .ordersUpdate _ => true
  | _ => false

/-- The calls that issue a refund or record its result. -/
def ofRefund : Call → Bool
  | .refundsFindByOutRefundNo _ | .ordersFindById _ | .newOutTradeNo _ | .now | .uuid
  | .refund _ _ | .refundsCreate _ | .refundsUpdate _ | .ordersUpdate _ | .emit _ _
  | .verifyRefundCallback _ _ | .markIfNew _ => true
  | .auditRecord input => input.action = "refund.issued"
  | _ => false

/-- The calls of the two passes of `ExpiryService`. -/
def ofExpiryService : Call → Bool
  | .now | .subscriptionsListActive | .subscriptionsUpdate _ | .notify _ => true
  | _ => false

end Call

/-- What a request of this kind may call. -/
def Request.mayCall : Request → Call → Bool
  | .createOrder _, c => c.ofCreation
  | .handleCallback _ _, .verifyCallback _ _ => true
  | .handleCallback _ _, .markIfNew _ => true
  | .handleCallback _ _, .ordersFindByOutTradeNo _ => true
  | .handleCallback _ _, c => c.ofSettlement
  | .syncOrder _, .queryPayment _ => true
  | .syncOrder _, .markIfNew _ => true
  | .syncOrder _, c => c.ofSettlement
  | .expireStaleOrders, c => c.ofExpiry
  | .refundOrder _ _, c => c.ofRefund
  | .handleRefundCallback _ _, c => c.ofRefund
  | .fulfillOrder _, c => c.ofFulfilment
  | .sendExpiryReminders, c => c.ofExpiryService
  | .deactivateExpired, c => c.ofExpiryService
  | .reconcile _, .refundsAll => true
  | .reconcile _, c => c.ofExpiry
  | .sweep _, .sweep _ => true
  | .tick, .tick => true
  | _, _ => false

variable {Key : Type} {deps : Deps} {α β : Type} {C : Call → Prop}

theorem calls_whenPresent {present : Bool} {p : Action Key Unit} (h : p.Calls C) :
    (whenPresent present p).Calls C := by
  unfold whenPresent
  split
  · exact h
  · trivial

/-- A call followed by the rest of the program. -/
theorem calls_then {c : Call} {f : Ans c → Action Key α} (hCall : C c)
    (hThen : ∀ a, (f a).Calls C) : (perform c >>= f).Calls C :=
  Prog.calls_bind (Prog.calls_perform hCall) hThen

section payment

theorem calls_grant (order : Order) :
    (SubscriptionService.grant deps order : Action Key (Order × Subscription)).Calls
      fun c => c.ofFulfilment = true := by
  unfold SubscriptionService.grant
  split
  · trivial
  · refine calls_then rfl fun now => ?_
    refine calls_then rfl fun existing => ?_
    refine Prog.calls_bind ?_ fun sub => Prog.calls_ofExcept fun _ => trivial
    unfold SubscriptionService.writeSubscription
    split
    · exact calls_then rfl fun _ => trivial
    · exact calls_then rfl fun _ => calls_then rfl fun _ => trivial

theorem calls_fulfillOrder (order : Order) :
    (SubscriptionService.fulfillOrder deps order : Action Key (Order × Subscription)).Calls
      fun c => c.ofFulfilment = true := by
  unfold SubscriptionService.fulfillOrder
  split
  · refine calls_then rfl fun existing => ?_
    cases existing with
    | none => exact calls_grant order
    | some existing => trivial
  · exact calls_grant order

/-- Settling an order makes the calls of a settlement. -/
theorem calls_settle (order : Order) (paid : PaidReport) :
    (PaymentService.settle deps order paid : Action Key Order).Calls
      fun c => c.ofSettlement = true := by
  refine calls_then rfl fun now => ?_
  apply Prog.calls_ofExcept
  intro status
  refine calls_then rfl fun _ => ?_
  refine Prog.calls_bind (Prog.calls_mono ?_ (calls_fulfillOrder _)) fun fulfilled => ?_
  · intro c hCall
    cases c <;> first | exact hCall | rfl | cases hCall
  refine calls_then rfl fun final => ?_
  refine Prog.calls_bind (calls_whenPresent (Prog.calls_perform (by simp [Call.ofSettlement]))) fun _ => ?_
  refine Prog.calls_bind (calls_whenPresent (Prog.calls_perform rfl)) fun _ => ?_
  refine Prog.calls_bind (calls_whenPresent ?_) fun _ => trivial
  exact Prog.calls_tryCatch (Prog.calls_perform rfl) fun _ => trivial

theorem calls_applyPayment (locker : String → Key) (orderId : String) (paid : PaidReport) :
    (PaymentService.applyPayment locker deps orderId paid).Calls
      fun c => c.ofSettlement = true := by
  apply Prog.calls_withLock
  refine calls_then rfl fun order => ?_
  cases order with
  | none => trivial
  | some order =>
      show (PaymentService.settleFresh deps order paid : Action Key Order).Calls _
      unfold PaymentService.settleFresh
      split_ifs
      · trivial
      · trivial
      · trivial
      · trivial
      · exact calls_settle order paid

/-- A callback is verified, deduplicated and settled. -/
theorem calls_handleCallback (locker : String → Key) (method : PaymentMethod) (raw : RawCallback) :
    (PaymentService.handleCallback locker deps method raw).Calls
      fun c => (Request.handleCallback method raw).mayCall c = true := by
  apply Prog.calls_ofExcept
  intro provider
  refine calls_then rfl fun result => ?_
  split
  · trivial
  refine calls_then rfl fun isNew => ?_
  split
  · trivial
  refine calls_then rfl fun order => ?_
  cases order with
  | none => trivial
  | some order =>
      refine Prog.calls_tryCatch (Prog.calls_bind ?_ fun _ => trivial) fun _ => trivial
      refine Prog.calls_mono (fun c hCall => ?_) (calls_applyPayment locker order.id _)
      cases c <;> first | exact hCall | rfl

/-- A query of the provider, and a settlement if it was paid. -/
theorem calls_syncOrder (locker : String → Key) (orderId : String) :
    (PaymentService.syncOrder locker deps orderId).Calls
      fun c => (Request.syncOrder orderId).mayCall c = true := by
  refine calls_then rfl fun order => ?_
  cases order with
  | none => trivial
  | some order =>
      show Calls _ (if order.status ≠ .PENDING then _ else _)
      split
      · trivial
      apply Prog.calls_ofExcept
      intro _
      refine calls_then rfl fun q => ?_
      split
      · refine calls_then rfl fun isNew => ?_
        split
        · exact calls_then rfl fun _ => trivial
        · refine Prog.calls_mono (fun c hCall => ?_) (calls_applyPayment locker order.id _)
          cases c <;> first | exact hCall | rfl
      · trivial

/-- The program makes the calls of `createOrder`, and takes no locks. -/
abbrev Creates (p : Action Key α) : Prop :=
  p.Only (fun c => c.ofCreation = true) fun _ => True

theorem creates_resolveAmount (method : PaymentMethod) (priceCnyFen priceUsdtMicro : Int) :
    Creates (PaymentService.resolveAmount deps method priceCnyFen priceUsdtMicro : Action Key Int) := by
  unfold PaymentService.resolveAmount
  split
  · trivial
  split
  · trivial
  · exact Prog.only_then rfl fun _ => trivial

theorem creates_withDepositAddress (order : Order) :
    Creates (PaymentService.withDepositAddress deps order : Action Key Order) := by
  unfold PaymentService.withDepositAddress
  split
  · split
    · exact Prog.only_then rfl fun _ => trivial
    · trivial
  · trivial

theorem creates_requestPayment (order : Order) :
    Creates (PaymentService.requestPayment deps order : Action Key CreateOrderOutput) := by
  refine Prog.only_bind (Prog.only_tryCatch ⟨rfl, fun _ => trivial⟩ fun err => ?_) fun payInfo => ?_
  · exact Prog.only_ofExcept fun _ => Prog.only_then rfl fun _ => Prog.only_then rfl fun _ => trivial
  · refine Prog.only_then rfl fun now => Prog.only_then rfl fun saved => ?_
    refine Prog.only_bind (only_whenPresent ⟨?_, fun _ => trivial⟩) fun _ => trivial
    simp [Call.ofCreation]

/-- A new order makes the calls of a creation. -/
theorem creates_createNewOrder (input : CreateOrderInput) :
    Creates (PaymentService.createNewOrder deps input : Action Key CreateOrderOutput) := by
  unfold PaymentService.createNewOrder
  split
  · trivial
  apply Prog.only_ofExcept
  intro _
  refine Prog.only_bind (creates_resolveAmount _ _ _) fun amount => ?_
  refine Prog.only_then rfl fun now => Prog.only_then rfl fun id => Prog.only_then rfl fun no => ?_
  refine Prog.only_bind (creates_withDepositAddress _) fun order => Prog.only_then rfl fun _ => ?_
  exact creates_requestPayment order

theorem creates_createOrder (input : CreateOrderInput) :
    Creates (PaymentService.createOrder deps input : Action Key CreateOrderOutput) := by
  unfold PaymentService.createOrder
  split
  · refine Prog.only_then rfl fun existing => ?_
    cases existing with
    | none => exact creates_createNewOrder input
    | some existing =>
        show Creates (PaymentService.replayOrder deps existing)
        unfold PaymentService.replayOrder
        split
        · trivial
        · exact Prog.only_ofExcept fun _ => Prog.only_then rfl fun _ => trivial
  · exact creates_createNewOrder input

/-- By induction on the orders the pass has yet to visit. -/
theorem calls_expireEach (locker : String → Key) (now : Int) (orders : List Order) (count : Nat) :
    (PaymentService.expireEach locker now orders count).Calls fun c => c.ofExpiry = true := by
  induction orders generalizing count with
  | nil => trivial
  | cons o rest ih =>
      unfold PaymentService.expireEach
      split
      · refine Prog.calls_bind (Prog.calls_withLock ?_) fun _ => ih _
        refine calls_then rfl fun fresh => ?_
        split
        · trivial
        · exact Prog.calls_ofExcept fun _ => calls_then rfl fun _ => calls_then rfl fun _ => trivial
      · exact ih _

theorem calls_expireStaleOrders (locker : String → Key) :
    (PaymentService.expireStaleOrders locker).Calls fun c => c.ofExpiry = true :=
  calls_then rfl fun now => calls_then rfl fun orders => calls_expireEach locker now orders 0

end payment

section refunds

/-- Reserving a refund reads the clock and writes the order. -/
theorem calls_reserveRefund (hNow : C .now) (hUpdate : ∀ o, C (.ordersUpdate o)) (order : Order)
    (total : Int) (settled : Bool) :
    (RefundService.reserveRefund order total settled : Action Key Unit).Calls C := by
  refine calls_then hNow fun now => ?_
  split
  · exact Prog.calls_ofExcept fun _ => calls_then (hUpdate _) fun _ => trivial
  · exact calls_then (hUpdate _) fun _ => trivial

/-- The outcome of a refund is written in the same way. -/
theorem calls_applyOutcome (hNow : C .now) (hUpdate : ∀ o, C (.ordersUpdate o)) (order : Order)
    (outcome : RefundOutcome) (amount now : Int) :
    (RefundService.applyOutcome order outcome amount now : Action Key Unit).Calls C := by
  unfold RefundService.applyOutcome
  split
  · exact calls_reserveRefund hNow hUpdate order _ _
  · exact calls_then (hUpdate _) fun _ => trivial

/-- A refund makes the calls of a refund only. -/
theorem calls_issueRefund (order : Order) (alreadyRefunded amount : Int) (provider : PaymentProvider)
    (input : RefundInput) :
    (RefundService.issueRefund deps order alreadyRefunded amount provider input :
      Action Key Refund).Calls fun c => c.ofRefund = true := by
  refine Prog.calls_bind ?_ fun outRefundNo => calls_then rfl fun now => ?_
  · unfold RefundService.refundNumber
    split
    · trivial
    · exact Prog.calls_perform rfl
  refine Prog.calls_bind ?_ fun result => calls_then rfl fun id => calls_then rfl fun refund => ?_
  · unfold RefundService.requestRefund
    split
    · exact Prog.calls_perform rfl
    · trivial
  refine Prog.calls_bind ?_ fun _ => Prog.calls_bind ?_ fun _ => trivial
  · unfold RefundService.reserveUnlessFailed
    split
    · exact calls_reserveRefund (C := fun c => c.ofRefund = true) rfl (fun _ => rfl) order _ _
    · trivial
  · refine Prog.calls_bind (calls_whenPresent (Prog.calls_perform (by simp [Call.ofRefund]))) fun _ => ?_
    exact calls_whenPresent (Prog.calls_perform rfl)

theorem calls_refundLocked (locker : String → Key) (orderId : String) (input : RefundInput) :
    (RefundService.refundLocked locker deps orderId input).Calls fun c => c.ofRefund = true := by
  apply Prog.calls_withLock
  refine calls_then rfl fun order => ?_
  cases order with
  | none => trivial
  | some order =>
      show (RefundService.refundFresh deps order input : Action Key Refund).Calls _
      unfold RefundService.refundFresh
      split
      · trivial
      dsimp only
      split
      · trivial
      split
      · trivial
      split
      · trivial
      · exact calls_issueRefund order _ _ _ input

theorem calls_refundOrder (locker : String → Key) (orderId : String) (input : RefundInput) :
    (RefundService.refundOrder locker deps orderId input).Calls fun c => c.ofRefund = true := by
  unfold RefundService.refundOrder
  split
  · refine calls_then rfl fun existing => ?_
    cases existing with
    | none => exact calls_refundLocked locker orderId input
    | some existing => trivial
  · exact calls_refundLocked locker orderId input

theorem calls_settleRefund (fresh : Refund) (result : RefundCallbackResult) :
    (RefundService.settleRefund fresh result : Action Key Unit).Calls
      fun c => c.ofRefund = true := by
  refine calls_then rfl fun now => calls_then rfl fun _ => calls_then rfl fun order => ?_
  cases order with
  | none => trivial
  | some order =>
      exact calls_applyOutcome (C := fun c => c.ofRefund = true) rfl (fun _ => rfl) order _ _ _

theorem calls_handleRefundCallback (locker : String → Key) (method : PaymentMethod)
    (raw : RawCallback) :
    (RefundService.handleRefundCallback locker deps method raw).Calls
      fun c => c.ofRefund = true := by
  unfold RefundService.handleRefundCallback
  split
  · trivial
  refine calls_then rfl fun result => calls_then rfl fun isNew => ?_
  split
  · trivial
  refine calls_then rfl fun refund => ?_
  cases refund with
  | none => trivial
  | some refund =>
      refine Prog.calls_bind (Prog.calls_withLock ?_) fun _ => trivial
      refine calls_then rfl fun fresh => ?_
      split
      · trivial
      · exact calls_settleRefund _ result

end refunds

section passes

/-- By induction on the subscriptions the reminder pass has yet to visit. -/
theorem calls_remindEach (now : Int) (subs : List Subscription) (sent : Nat) :
    (ExpiryService.remindEach deps now subs sent : Action Key Nat).Calls
      fun c => c.ofExpiryService = true := by
  induction subs generalizing sent with
  | nil => trivial
  | cons sub rest ih =>
      unfold ExpiryService.remindEach
      split
      · exact calls_then rfl fun _ => calls_then rfl fun _ => ih _
      · exact ih _

/-- By induction on the subscriptions the deactivation pass has yet to visit. -/
theorem calls_deactivateEach (now : Int) (subs : List Subscription) (count : Nat) :
    (ExpiryService.deactivateEach now subs count : Action Key Nat).Calls
      fun c => c.ofExpiryService = true := by
  induction subs generalizing count with
  | nil => trivial
  | cons sub rest ih =>
      unfold ExpiryService.deactivateEach
      split
      · exact ih _
      · exact calls_then rfl fun _ => calls_then rfl fun _ => ih _

/-- A reconciliation pass reads orders and refunds, and heals by expiring orders. -/
theorem calls_reconcile (locker : String → Key) (heal : Bool) :
    (ReconciliationService.run locker heal).Calls
      fun c => (Request.reconcile heal).mayCall c = true := by
  refine calls_then rfl fun now => calls_then rfl fun orders => calls_then rfl fun refunds => ?_
  cases heal with
  | false => trivial
  | true =>
      refine Prog.calls_bind (Prog.calls_mono (fun c hCall => ?_) (calls_expireStaleOrders locker))
        fun _ => trivial
      cases c <;> first | exact hCall | rfl

end passes

/-- A request makes the calls of its kind. -/
theorem calls_serve (locker : String → Key) (request : Request) :
    (serve locker deps request).Calls fun c => request.mayCall c = true := by
  cases request with
  | createOrder input =>
      exact Prog.calls_bind (Prog.calls_of_only (creates_createOrder input)) fun _ => trivial
  | handleCallback method raw =>
      exact Prog.calls_bind (calls_handleCallback locker method raw) fun _ => trivial
  | syncOrder orderId => exact Prog.calls_bind (calls_syncOrder locker orderId) fun _ => trivial
  | expireStaleOrders => exact Prog.calls_bind (calls_expireStaleOrders locker) fun _ => trivial
  | refundOrder orderId input =>
      exact Prog.calls_bind (calls_refundOrder locker orderId input) fun _ => trivial
  | handleRefundCallback method raw =>
      exact Prog.calls_bind (calls_handleRefundCallback locker method raw) fun _ => trivial
  | fulfillOrder order => exact Prog.calls_bind (calls_fulfillOrder order) fun _ => trivial
  | sendExpiryReminders =>
      refine Prog.calls_bind (calls_then rfl fun now => calls_then rfl fun subs => ?_) fun _ => trivial
      exact calls_remindEach now subs 0
  | deactivateExpired =>
      refine Prog.calls_bind (calls_then rfl fun now => calls_then rfl fun subs => ?_) fun _ => trivial
      exact calls_deactivateEach now subs 0
  | reconcile heal => exact Prog.calls_bind (calls_reconcile locker heal) fun _ => trivial
  | sweep olderThanMs => exact calls_then rfl fun _ => trivial
  | tick => exact calls_then rfl fun _ => trivial

end VpnPayment
