import VpnPayment.Services.Calls
import VpnPayment.Settlement.OneOrderPerKey

/-! `createOrder` asks the provider for a payment right after it has inserted an order
or has found one by its idempotency key, without a look at what became of the order. -/
namespace VpnPayment

open Async Collections
open Prog (perform withLock)

/-- The order that a call goes on to offer for payment: `createOrder` asks for its
payment, or it records that the order was created. -/
def Call.offers : Call → Option String
  | .createPayment o => some o.id
  | .auditRecord input => if input.action = "order.created" then input.subjectId else none
  | _ => none

def Call.createsPayment : Call → Bool
  | .createPayment _ => true
  | _ => false

/-- The newest call of the task has left an order to be paid. -/
inductive Open (deps : Deps) : Past → String → Prop
  | inserted (o : Order) (answer : Order) (before : Past) (pending : o.status = .PENDING) :
      Open deps (⟨.ordersCreate o, .ok answer⟩ :: before) o.id
  | written (o : Order) (answer : Order) (before : Past) (pending : o.status = .PENDING) :
      Open deps (⟨.ordersUpdate o, .ok answer⟩ :: before) o.id
  | found (k : String) (o : Order) (before : Past) (noPayInfo : o.metadata.payInfo = none)
      (enabled : (deps.providers o.method).isSome) :
      Open deps (⟨.ordersFindByIdempotencyKey k, .ok (some o)⟩ :: before) o.id

/-- What a task has called just before it offers an order for payment. -/
def OffersOpen (deps : Deps) (past : Past) (c : Call) : Prop :=
  ∀ id, c.offers = some id → Open deps past id

/-- A payment that is returned with an order was there when the order was found, or
the order was offered for payment by the newest call, or left to be paid by it. -/
def ReturnsOpen (deps : Deps) (result : Except AppError Outcome) (past : Past) : Prop :=
  ∀ output, result = .ok (.created output) → (∀ h ∈ past, h.1.createsPayment = false) ∨
    Open deps past output.order.id ∨
    ∃ c answer before, past = ⟨c, answer⟩ :: before ∧ c.offers = some output.order.id

variable {Key : Type} {deps : Deps} {past : Past} {α β : Type}

abbrev OffersTo (deps : Deps) (p : Action Key α) (Q : Except AppError α → Past → Prop)
    (past : Past) : Prop :=
  p.Follows Possible (OffersOpen deps) Q past

/-- A call that offers no order. -/
theorem offers_then {c : Call} {f : Ans c → Action Key α} {Q : Except AppError α → Past → Prop}
    (hCall : c.offers = none) (hOk : ∀ a, OffersTo deps (f a) Q (⟨c, .ok a⟩ :: past))
    (hError : ∀ e past', Q (.error e) past') : OffersTo deps (perform c >>= f) Q past :=
  Prog.follows_perform (fun _ hOffers => nomatch hCall.symm.trans hOffers) (fun a _ => hOk a)
    fun e _ => hError e _

theorem createsPayment_of_offers {c : Call} (h : c.offers = none) : c.createsPayment = false := by
  cases c <;> first | rfl | cases h

theorem offers_of_calls {p : Action Key α} (hCalls : p.Calls fun c => c.offers = none) :
    OffersTo deps p (fun _ past' => (∀ h ∈ past, h.1.createsPayment = false) →
      ∀ h ∈ past', h.1.createsPayment = false) past := by
  refine Prog.follows_mono (fun _ _ hCall => hCall) (fun _ _ hThen => hThen.2)
    (Prog.follows_calls (I := fun past' => (∀ h ∈ past, h.1.createsPayment = false) →
      ∀ h ∈ past', h.1.createsPayment = false) ?_ ?_ hCalls id)
  · intro past' c _ hCall id hOffers
    cases hCall.symm.trans hOffers
  · intro past' c answer hKeep hCall hNone
    exact List.forall_mem_cons.mpr ⟨createsPayment_of_offers hCall, hKeep hNone⟩

section creation

/-- What `createOrder` returns. -/
def OutputOpen (deps : Deps) (result : Except AppError CreateOrderOutput) (past : Past) : Prop :=
  ∀ output, result = .ok output → (∀ h ∈ past, h.1.createsPayment = false) ∨
    Open deps past output.order.id ∨
    ∃ c answer before, past = ⟨c, answer⟩ :: before ∧ c.offers = some output.order.id

theorem outputOpen_error (e : AppError) (past : Past) : OutputOpen deps (.error e) past := by
  intro output hEq
  cases hEq

theorem offers_resolveAmount (method : PaymentMethod) (priceCnyFen priceUsdtMicro : Int) :
    (PaymentService.resolveAmount deps method priceCnyFen priceUsdtMicro : Action Key Int).Calls
      fun c => c.offers = none := by
  unfold PaymentService.resolveAmount
  split
  · trivial
  split
  · trivial
  · exact calls_then rfl fun _ => trivial

theorem offers_withDepositAddress {order : Order} (hPending : order.status = .PENDING) :
    OffersTo deps (PaymentService.withDepositAddress deps order : Action Key Order)
      (fun result _ => ∀ o, result = .ok o → o.status = .PENDING) past := by
  unfold PaymentService.withDepositAddress
  split
  · split
    · apply offers_then rfl
      · rintro allocated _ ⟨⟩
        exact hPending
      · intro e past' o hEq
        cases hEq
    · intro o hEq
      cases hEq
  · rintro _ ⟨⟩
    exact hPending

theorem offers_requestPayment {order answer : Order} (hPending : order.status = .PENDING) :
    OffersTo deps (PaymentService.requestPayment deps order : Action Key CreateOrderOutput)
      (OutputOpen deps) (⟨.ordersCreate order, .ok answer⟩ :: past) := by
  have hOpen : OffersOpen deps (⟨.ordersCreate order, .ok answer⟩ :: past) (.createPayment order) := by
    rintro id hOffers
    cases hOffers
    exact .inserted order answer past hPending
  refine ⟨hOpen, fun result _ => ?_⟩
  cases result with
  | error e =>
      -- the order is marked FAILED
      refine Prog.follows_onReturn (Prog.follows_mono (fun _ _ hCall => hCall) ?_
        (show OffersTo deps (PaymentService.markFailed order e : Action Key CreatePaymentResult)
          (fun result _ => ∃ e, result = .error e) _ from ?_))
      · rintro _ past' ⟨e, rfl⟩
        exact outputOpen_error e past'
      · refine Prog.follows_ofExcept (fun status _ => ?_) fun e => ⟨e, rfl⟩
        refine offers_then rfl (fun now => ?_) fun e _ => ⟨e, rfl⟩
        exact offers_then rfl (fun _ => ⟨e, rfl⟩) fun e _ => ⟨e, rfl⟩
  | ok payInfo =>
      refine offers_then rfl (fun now => ?_) outputOpen_error
      refine Prog.follows_perform (fun _ hOffers => nomatch hOffers) (fun saved hSaved => ?_)
        fun e _ => outputOpen_error e _
      obtain rfl := hSaved saved rfl
      -- the order is written back as it was
      let paid := { order with
        metadata := { order.metadata with payInfo := some payInfo }, updatedAt := now }
      have hWritten : ∀ before : Past, Open deps (⟨.ordersUpdate paid, .ok paid⟩ :: before) order.id :=
        fun before => .written paid paid before hPending
      unfold whenPresent
      cases deps.audit with
      | false =>
          rintro output ⟨⟩
          exact .inr (.inl (hWritten _))
      | true =>
          refine ⟨fun id hOffers => ?_, fun recorded _ => ?_⟩
          · obtain rfl : order.id = id := by simpa [Call.offers] using hOffers
            exact hWritten _
          · cases recorded with
            | error e => exact outputOpen_error e _
            | ok _ =>
                rintro output ⟨⟩
                exact .inr (.inr ⟨_, _, _, rfl, by simp [Call.offers]⟩)

theorem offers_createNewOrder (input : CreateOrderInput) :
    OffersTo deps (PaymentService.createNewOrder deps input : Action Key CreateOrderOutput)
      (OutputOpen deps) past := by
  unfold PaymentService.createNewOrder
  split
  · exact outputOpen_error _ _
  next plan _ =>
    refine Prog.follows_ofExcept (fun _ _ => ?_) fun e => outputOpen_error e _
    refine Prog.follows_bind (Prog.follows_mono (fun _ _ hCall => hCall) ?_
      (offers_of_calls (offers_resolveAmount _ _ _)))
    rintro (e | amount) past₁ -
    · exact outputOpen_error e _
    refine offers_then rfl (fun now => ?_) outputOpen_error
    refine offers_then rfl (fun id => ?_) outputOpen_error
    refine offers_then rfl (fun outTradeNo => ?_) outputOpen_error
    refine Prog.follows_bind (Prog.follows_mono (fun _ _ hCall => hCall) ?_
      (offers_withDepositAddress rfl))
    rintro (e | order) past₂ hOrder
    · exact outputOpen_error e _
    · exact offers_then rfl (fun _ => offers_requestPayment (hOrder order rfl)) outputOpen_error

theorem offers_createOrder (input : CreateOrderInput) :
    OffersTo deps (PaymentService.createOrder deps input : Action Key CreateOrderOutput)
      (OutputOpen deps) [] := by
  unfold PaymentService.createOrder
  split
  · next k _ =>
      refine offers_then rfl (fun existing => ?_) outputOpen_error
      cases existing with
      | none => exact offers_createNewOrder input
      | some existing =>
          show OffersTo deps (PaymentService.replayOrder deps existing) _ _
          unfold PaymentService.replayOrder
          split
          · rintro output ⟨⟩
            refine .inl fun h hMem => ?_
            cases List.mem_singleton.mp hMem
            rfl
          · next hNone =>
              refine Prog.follows_ofExcept (fun provider hProvider => ?_) fun e => outputOpen_error e _
              have hEnabled : (deps.providers existing.method).isSome := by
                unfold PaymentService.provider at hProvider
                split at hProvider
                · next hSome => simp [hSome]
                · cases hProvider
              refine ⟨fun id hOffers => ?_, fun answer _ => ?_⟩
              · cases hOffers
                exact .found k existing [] hNone hEnabled
              · cases answer with
                | error e => exact outputOpen_error e _
                | ok payInfo =>
                    rintro output ⟨⟩
                    exact .inr (.inr ⟨_, _, _, rfl, rfl⟩)
  · exact offers_createNewOrder input

end creation

/-- Requests other than `createOrder` offer nothing. -/
theorem offers_of_mayCall {request : Request} {c : Call} (hNot : ∀ input, request ≠ .createOrder input)
    (hCall : request.mayCall c = true) : c.offers = none := by
  cases c with
  | createPayment o =>
      cases request with
      | createOrder input => exact absurd rfl (hNot input)
      | _ => cases hCall
  | auditRecord input =>
      have hAction : input.action ≠ "order.created" := by
        intro hEq
        cases request with
        | createOrder input => exact hNot input rfl
        | handleCallback method raw =>
            simp [Request.mayCall, Call.ofSettlement, hEq] at hCall
        | syncOrder orderId => simp [Request.mayCall, Call.ofSettlement, hEq] at hCall
        | refundOrder orderId input => simp [Request.mayCall, Call.ofRefund, hEq] at hCall
        | handleRefundCallback method raw => simp [Request.mayCall, Call.ofRefund, hEq] at hCall
        | _ => cases hCall
      exact if_neg hAction
  | _ => rfl

/-- What is known of a task that may offer orders for payment. Only tasks without locks
do so. -/
structure Offering (deps : Deps) (p : Action Key Outcome) (past : Past) : Prop where
  follows : OffersTo deps p (ReturnsOpen deps) past
  lockFree : p.Only (fun _ => True) (fun _ => True) ∨
    p.Calls (fun c => c.offers = none) ∧ ∀ h ∈ past, h.1.createsPayment = false

theorem offering_serve (locker : String → Key) (request : Request) :
    Offering deps (serve locker deps request) [] := by
  by_cases hCreate : ∃ input, request = .createOrder input
  · obtain ⟨input, rfl⟩ := hCreate
    constructor
    · refine Prog.follows_bind (Prog.follows_mono (fun _ _ hCall => hCall) ?_ (offers_createOrder input))
      rintro (e | output) past hOutput
      · intro output hEq
        cases hEq
      · rintro _ ⟨⟩
        exact hOutput output rfl
    · refine .inl (Prog.only_bind (Prog.only_mono (fun _ _ => trivial) (fun _ _ => trivial)
        (creates_createOrder input)) fun _ => trivial)
  · have hNot : ∀ input, request ≠ .createOrder input := fun input hEq => hCreate ⟨input, hEq⟩
    have hCalls : (serve locker deps request).Calls fun c => c.offers = none :=
      Prog.calls_mono (fun _ hCall => offers_of_mayCall hNot hCall) (calls_serve locker request)
    refine ⟨Prog.follows_mono (fun _ _ hCall => hCall) ?_ (offers_of_calls hCalls),
      .inr ⟨hCalls, List.forall_mem_nil _⟩⟩
    intro _ past hNone output _
    exact .inl (hNone (List.forall_mem_nil _))

end VpnPayment
