import VpnPayment.Api.Routes
import VpnPayment.Async.Sequential
import VpnPayment.Providers.WechatPay
import VpnPayment.Settlement.ExactlyOnce
import VpnPayment.Settlement.RefundAccounts

/-! Where the notifications of the providers are posted, and which service gets
them. -/
namespace VpnPayment.Api

open Async WechatPayProvider

/-- The pattern of the route that a path is matched with, whatever the handlers do. -/
def matchedPattern (method path : String) : Option String :=
  match (buildRouter ⟨none, none, fun _ _ _ => .resolve⟩).matchRoute method path with
  | .ok (some found) => some found.1.pattern
  | _ => none

/-- What the handlers of the notify routes ask a service to do. An alias shares its
handler with the route. -/
def notifyRequest (pattern : String) (raw : RawCallback) : Option Request :=
  if pattern = "/api/notify/wechat" ∨ pattern = "/api/v1/notify/wechat" then
    some (.handleCallback .wechat raw)
  else if pattern = "/api/notify/alipay" ∨ pattern = "/api/v1/notify/alipay" then
    some (.handleCallback .alipay raw)
  else if pattern = "/api/notify/wechat/refund" ∨ pattern = "/api/v1/notify/wechat/refund" then
    some (.handleRefundCallback .wechat raw)
  else none

/-- What a notification posted to a path asks for. -/
def notified (path : String) (raw : RawCallback) : Option Request :=
  (matchedPattern "POST" path).bind fun pattern => notifyRequest pattern raw

theorem matchedPattern_notify : matchedPattern "POST" "/api/notify/wechat" = some "/api/notify/wechat" := by
  decide +kernel

theorem notified_wechat (raw : RawCallback) :
    notified "/api/notify/wechat" raw = some (.handleCallback .wechat raw) := by
  rw [notified, matchedPattern_notify]
  rfl

/-- How a parser's result settles a call. -/
def settles {α : Type} (answer : α → Reply) : Except AppError α → Reply
  | .ok result => answer result
  | .error e => .throws false e

/-- How calls settle while an authentic notification is handled: the parsers read
the resource that the notification carries. -/
def delivering (b : Backend) (i : Nat) (raw : RawCallback) (eventId : String) (d : Resource) :
    Executor Call Ans AppError World Reply := fun c reply w =>
  match c with
  | .verifyCallback .wechat body =>
      exec b i (.verifyCallback .wechat body)
        (if body = raw then settles .callback (readPayment eventId d) else reply) w
  | .verifyRefundCallback .wechat body =>
      exec b i (.verifyRefundCallback .wechat body)
        (if body = raw then .refundCallback (readRefund eventId d) else reply) w
  | c => exec b i c reply w

/-- A run of the request that a notification posted to a path asks for. -/
def Posted (deps : Deps) (i : Nat) (path : String) (raw : RawCallback) (eventId : String)
    (d : Resource) (w : World) (result : Except AppError Outcome) (w' : World) : Prop :=
  ∃ request, notified path raw = some request ∧
    (serve (fun (orderId : String) => orderId) deps request).RunsTo
      (delivering deps.backend i raw eventId d) w result w'

/-- Posting the result of a refund moves it out of PENDING. -/
def Applies (deps : Deps) (i : Nat) (path : String) (raw : RawCallback) (eventId : String)
    (d : RefundNotification) (w : World) : Prop :=
  ∀ result w', Posted deps i path raw eventId d.resource w result w' →
    ¬StillPending deps.backend d.out_refund_no w'

variable {deps : Deps} {i : Nat} {raw : RawCallback} {eventId : String} {d : RefundNotification}
  {w w' : World}

/-- The call that reads a notification settles as its parser does, and leaves the
store alone. -/
theorem delivering_verifyCallback : ∃ w₁, w₁.store = w.store ∧ ∀ reply,
    delivering deps.backend i raw eventId d.resource (.verifyCallback .wechat raw) reply w =
      some (readPayment eventId d.resource, w₁) := by
  simp only [delivering, if_true]
  cases readPayment eventId d.resource with
  | error e => exact ⟨w.log ⟨i, .verifyCallback .wechat raw, .error e, false⟩, rfl, fun _ => rfl⟩
  | ok result => exact ⟨w.log ⟨i, .verifyCallback .wechat raw, .ok result, false⟩, rfl, fun _ => rfl⟩

/-- The answer of the payment handler to a refund notification. -/
def answerToRefund (deps : Deps) (eventId : String) (d : RefundNotification) : Except AppError Ack :=
  match deps.providers .wechat with
  | none => .error ⟨.validation, "payment method not enabled: wechat"⟩
  | some provider => (readPayment eventId d.resource).map fun _ => provider.callbackAck true

/-- The payment handler answers a refund notification and does nothing else. -/
theorem handleCallback_refund : ∃ w', w'.store = w.store ∧ ∀ result w'',
    (PaymentService.handleCallback (fun (orderId : String) => orderId) deps .wechat raw).RunsTo
        (delivering deps.backend i raw eventId d.resource) w result w'' ↔
      result = answerToRefund deps eventId d ∧ w'' = w' := by
  unfold PaymentService.handleCallback PaymentService.provider answerToRefund
  cases hProvider : deps.providers .wechat with
  | none => exact ⟨w, rfl, fun result w'' => Iff.rfl⟩
  | some provider =>
      obtain ⟨w₁, hStore, hCall⟩ := @delivering_verifyCallback deps i raw eventId d w
      refine ⟨w₁, hStore, fun result w'' => ?_⟩
      simp only [Prog.ofExcept_ok_bind]
      show (∃ reply answer s₁, delivering deps.backend i raw eventId d.resource
        (.verifyCallback .wechat raw) reply w = some (answer, s₁) ∧ _) ↔ _
      have hReply : Nonempty Reply := ⟨.normal⟩
      simp only [hCall, Option.some.injEq, Prod.mk.injEq, exists_const]
      obtain ⟨e, hRead⟩ | ⟨payment, hRead, hUnpaid⟩ := readPayment_refund eventId d
      · simp [hRead, Prog.onReturn, Prog.afterOk, Except.map]
      · simp [hRead, Prog.onReturn, Prog.afterOk, Except.map, hUnpaid]

/-- Posting a refund notification to the payment route answers it and leaves the
store alone. -/
theorem posted_payment_route : ∃ w', w'.store = w.store ∧ ∀ result w'',
    Posted deps i "/api/notify/wechat" raw eventId d.resource w result w'' ↔
      result = (answerToRefund deps eventId d).map Outcome.ack ∧ w'' = w' := by
  obtain ⟨w', hStore, hRuns⟩ := @handleCallback_refund deps i raw eventId d w
  refine ⟨w', hStore, fun result w'' => ?_⟩
  simp only [Posted, notified_wechat, Option.some.injEq, exists_eq_left', serve, Prog.runsTo_bind,
    hRuns, Prog.runsTo_pure]
  cases answerToRefund deps eventId d with
  | ok ack =>
      constructor
      · rintro (⟨a, s₁, ⟨hAck, rfl⟩, rfl, rfl⟩ | ⟨e, ⟨hError, -⟩, -⟩)
        · cases hAck
          exact ⟨rfl, rfl⟩
        · cases hError
      · rintro ⟨rfl, rfl⟩
        exact .inl ⟨ack, w'', ⟨rfl, rfl⟩, rfl, rfl⟩
  | error e =>
      constructor
      · rintro (⟨a, s₁, ⟨hAck, -⟩, -⟩ | ⟨e', ⟨hError, rfl⟩, rfl⟩)
        · cases hAck
        · cases hError
          exact ⟨rfl, rfl⟩
      · rintro ⟨rfl, rfl⟩
        exact .inr ⟨e, ⟨rfl, rfl⟩, rfl⟩

/-- Posted to the payment route, the result of a PENDING refund is not applied. -/
theorem not_applies_of_pending (hPending : StillPending deps.backend d.out_refund_no w) :
    ¬Applies deps i "/api/notify/wechat" raw eventId d w := by
  intro hApplies
  obtain ⟨w', hStore, hRuns⟩ := @posted_payment_route deps i raw eventId d w
  refine hApplies _ _ ((hRuns _ _).mpr ⟨rfl, rfl⟩) ?_
  unfold StillPending
  rw [hStore]
  exact hPending

/-- A refund result posted to the URL that the refund was registered with is never
applied: the refund is PENDING afterwards as it was before, and a notification that
can be read is acknowledged with success. -/
theorem refund_result_never_applied (cfg : WechatConfig) (deps : Deps) (i : Nat) (order : Order)
    (req : RefundRequest) (raw : RawCallback) (eventId : String) (d : RefundNotification) (w : World)
    (hUrl : cfg.notifyUrl.path = "/api/notify/wechat")
    (hPending : StillPending deps.backend d.out_refund_no w) :
    ¬Applies deps i (refundBody cfg order req).notify_url.path raw eventId d w ∧
      ∀ ack w', Posted deps i (refundBody cfg order req).notify_url.path raw eventId d.resource w
        (.ok (.ack ack)) w' →
        ∃ provider, deps.providers .wechat = some provider ∧ ack = provider.callbackAck true := by
  have hPath : (refundBody cfg order req).notify_url.path = "/api/notify/wechat" := hUrl
  rw [hPath]
  refine ⟨not_applies_of_pending hPending, fun ack w' hPosted => ?_⟩
  obtain ⟨w'', -, hRuns⟩ := @posted_payment_route deps i raw eventId d w
  have hAnswer := ((hRuns _ _).mp hPosted).1
  cases hProvider : deps.providers .wechat with
  | none => simp [answerToRefund, hProvider, Except.map] at hAnswer
  | some provider =>
      refine ⟨provider, rfl, ?_⟩
      cases hRead : readPayment eventId d.resource with
      | error e => simp [answerToRefund, hProvider, hRead, Except.map] at hAnswer
      | ok result => simpa [answerToRefund, hProvider, hRead, Except.map] using hAnswer

namespace Sample

def wechatConfig : WechatConfig where
  notifyUrl := ⟨"https://vpn.example", "/api/notify/wechat"⟩

def refundRequest : RefundRequest :=
  ⟨"RF1", 1500, 1500, .CNY, none⟩

/-- The refund of alice's order, as WeChat answered it. -/
def pendingRefund : Refund where
  id := "r1"
  orderId := "o1"
  outRefundNo := "RF1"
  amount := 1500
  currency := .CNY
  reason := none
  status := .PENDING
  providerRefundId := some "p1"
  rawStatus := "PROCESSING"
  createdAt := 0
  updatedAt := 0

def world : World :=
  .start { VpnPayment.Sample.storeOf VpnPayment.Sample.fulfilled with
    refunds := ⟨Collections.Table.empty.put pendingRefund,
      Collections.Table.empty.put ("RF1", "r1")⟩ } 0

/-- WeChat's notification that the refund went through. -/
def refunded : RefundNotification :=
  ⟨"VPN1", "txn1", "RF1", "p1", "SUCCESS", some ⟨.value (.ofInt 1500), .value (.ofInt 1500)⟩⟩

theorem stillPending : StillPending .memory refunded.out_refund_no world :=
  ⟨pendingRefund, by decide +kernel, rfl⟩

end Sample

theorem refund_sample_never_applied :
    ¬Applies (VpnPayment.Sample.deps .memory) 0
      (refundBody Sample.wechatConfig VpnPayment.Sample.fulfilled Sample.refundRequest).notify_url.path
      ⟨"", []⟩ "ev1" Sample.refunded Sample.world :=
  (refund_result_never_applied Sample.wechatConfig (VpnPayment.Sample.deps .memory) 0
    VpnPayment.Sample.fulfilled Sample.refundRequest ⟨"", []⟩ "ev1" Sample.refunded Sample.world rfl
    Sample.stillPending).1

/-- The result of a successful refund, posted where the refund asked for it, is not
applied. -/
theorem successful_refund_unapplied :
    ¬∀ (cfg : WechatConfig) (deps : Deps) (i : Nat) (order : Order) (req : RefundRequest)
      (raw : RawCallback) (eventId : String) (d : RefundNotification) (w : World),
      cfg.notifyUrl.path = "/api/notify/wechat" → StillPending deps.backend d.out_refund_no w →
        Applies deps i (refundBody cfg order req).notify_url.path raw eventId d w := by
  intro hAll
  exact not_applies_of_pending Sample.stillPending
    (hAll Sample.wechatConfig (VpnPayment.Sample.deps .memory) 0 VpnPayment.Sample.fulfilled
      Sample.refundRequest ⟨"", []⟩ "ev1" Sample.refunded Sample.world rfl Sample.stillPending)

end VpnPayment.Api
