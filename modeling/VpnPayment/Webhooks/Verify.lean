import Mathlib.Tactic.Linarith
import Mathlib.Tactic.NormNum
import Mathlib.Tactic.Ring
import VpnPayment.Webhooks.Numeric
import VpnPayment.Webhooks.Outbound

/-! The merchant's side of the webhooks, and how it fits the dispatcher. The
dispatcher stamps a request with its clock in milliseconds; the verifier reads
the stamp as seconds. -/
namespace VpnPayment.Webhooks

open Numeric

def safeEqual (a b : String) : Bool :=
  let ab := a.toUTF8
  let bb := b.toUTF8
  if ab.size ≠ bb.size then false else ab.data == bb.data

theorem safeEqual_iff (a b : String) : safeEqual a b = true ↔ a = b := by
  simp only [safeEqual, ne_eq, ite_not]
  constructor
  · intro h
    split at h
    · exact String.toByteArray_inj.mp (ByteArray.ext (eq_of_beq h))
    · cases h
  · rintro rfl
    simp

/-- `now` is what the clock shows, in milliseconds. -/
structure VerifyOptions where
  toleranceSec : Option Rat := none
  now : Int

def verifyWebhookSignature (hmac : String → String → String)
    (secret timestamp body signatureHeader : String) (opts : VerifyOptions) : Bool :=
  let toleranceSec := opts.toleranceSec.getD 300
  match number timestamp with
  | none => false
  | some ts =>
      if toleranceSec < |(opts.now : Rat) / 1000 - ts| then false
      else safeEqual (signPayload hmac secret timestamp body) signatureHeader

/-- The check of a merchant who follows the documentation of the verifier, on a
request that arrives at `u`. -/
def accepts (hmac : String → String → String) (secret : String) (request : HttpRequest)
    (u : Int) : Bool :=
  verifyWebhookSignature hmac secret (request.header "X-Webhook-Timestamp") request.body
    (request.header "X-Webhook-Signature") { now := u }

/-- The verifier accepts a text exactly when it is signed and its timestamp,
read as seconds, is fresh. -/
theorem verifyWebhookSignature_iff (hmac : String → String → String)
    (secret timestamp body signatureHeader : String) (opts : VerifyOptions) :
    verifyWebhookSignature hmac secret timestamp body signatureHeader opts = true ↔
      (∃ ts, number timestamp = some ts ∧
        |(opts.now : Rat) / 1000 - ts| ≤ opts.toleranceSec.getD 300) ∧
      signPayload hmac secret timestamp body = signatureHeader := by
  unfold verifyWebhookSignature
  cases hn : number timestamp with
  | none => simp
  | some ts => simp [safeEqual_iff]

theorem tolerance_iff (t u : Int) : |(u : Rat) / 1000 - t| ≤ 300 ↔ |u - 1000 * t| ≤ 300000 := by
  have hScale : (|u - 1000 * t| ≤ 300000) ↔ |(u : Rat) - 1000 * t| ≤ 300000 := by
    exact_mod_cast Iff.rfl
  rw [hScale, abs_le, abs_le]
  constructor
  · rintro ⟨hl, hr⟩
    constructor <;> linarith
  · rintro ⟨hl, hr⟩
    constructor <;> linarith

variable {Data : Type}

/-- What the verifier makes of a delivery attempt. -/
theorem accepts_deliveryRequest (hmac : String → String → String)
    (stringify : Envelope Data → String) (cfg : WebhookConfig) (delivery : WebhookDelivery Data)
    (t u : Int) :
    accepts hmac cfg.secret (deliveryRequest hmac stringify cfg delivery t) u = true ↔
      |u - 1000 * t| ≤ 300000 := by
  have ht : (deliveryRequest hmac stringify cfg delivery t).header "X-Webhook-Timestamp" =
      toString t := rfl
  rw [accepts, verifyWebhookSignature_iff, ht, number_toString]
  constructor
  · rintro ⟨⟨ts, hts, hFresh⟩, -⟩
    cases hts
    exact (tolerance_iff t u).mp hFresh
  · intro h
    exact ⟨⟨t, rfl, (tolerance_iff t u).mpr h⟩, rfl⟩

/-- The signer and the verifier agree about a request, signed at `t` and
received at `u`, exactly when it does not matter whether the stamp `t` is read
as milliseconds or as seconds. -/
theorem signer_agrees_with_verifier (hmac : String → String → String)
    (stringify : Envelope Data → String) (cfg : WebhookConfig) (backoff : Nat → Int)
    (delivery : WebhookDelivery Data) (t u : Int) :
    ∃ request, sentAt t (deliver hmac stringify cfg backoff delivery) = some request ∧
      ((accepts hmac cfg.secret request u = true ↔ |u - t| ≤ 300000) ↔
        (|u - t| ≤ 300000 ↔ |u - 1000 * t| ≤ 300000)) := by
  refine ⟨_, sentAt_deliver hmac stringify cfg backoff delivery t, ?_⟩
  rw [accepts_deliveryRequest]
  exact iff_comm

def sampleConfig : WebhookConfig where
  url := "https://merchant.example/hooks"
  secret := "whsec"
  maxAttempts := 8

def sampleDelivery : WebhookDelivery Unit where
  id := "d1"
  event := { id := "e1", type := .orderFulfilled, payload := (), createdAt := 1750000000000 }
  url := sampleConfig.url
  status := .pending
  attempts := 0
  nextAttemptAt := 1750000000000
  lastError := none
  lastStatus := none
  createdAt := 1750000000000
  updatedAt := 1750000000000
  deliveredAt := none

/-- The serialised envelope of an event with an empty payload. -/
def sampleText (e : Envelope Unit) : String :=
  "\x7b\"id\":\"" ++ e.id ++ "\",\"type\":\"" ++ e.type ++ "\",\"createdAt\":" ++
    toString e.createdAt ++ ",\"data\":\x7b\x7d\x7d"

/-- A request that arrives in the millisecond it was sent is rejected. -/
theorem fresh_delivery_rejected :
    ¬ ∀ (hmac : String → String → String) (request : HttpRequest) (u : Int),
      sentAt 1750000000000 (deliver hmac sampleText sampleConfig defaultBackoff sampleDelivery) =
        some request →
      (accepts hmac sampleConfig.secret request u = true ↔ |u - 1750000000000| ≤ 300000) := by
  intro h
  have hr := h (fun _ message => message) _ 1750000000000 (sentAt_deliver ..)
  have hAccepted := hr.mpr (by decide)
  rw [accepts_deliveryRequest] at hAccepted
  revert hAccepted
  decide

end VpnPayment.Webhooks
