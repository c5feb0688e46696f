import VpnPayment.Services.World

/-! The outbound dispatcher. What `JSON.stringify` and HMAC-SHA256 compute is
left open: `stringify` and `hmac` are any functions, so every result here holds
for each of them. `hmac` gives the hexadecimal digest. -/
namespace VpnPayment.Webhooks

open Async

structure WebhookConfig where
  url : String
  secret : String
  maxAttempts : Nat

structure OutboundEvent (Data : Type) where
  id : String
  type : OutboundEventType
  payload : Data
  createdAt : Int

inductive DeliveryStatus
  | pending
  | delivered
  | dead
deriving DecidableEq

structure WebhookDelivery (Data : Type) where
  id : String
  event : OutboundEvent Data
  url : String
  status : DeliveryStatus
  attempts : Nat
  nextAttemptAt : Int
  lastError : Option String
  lastStatus : Option Nat
  createdAt : Int
  updatedAt : Int
  deliveredAt : Option Int

structure HttpRequest where
  method : String
  url : String
  headers : List (String × String)
  body : String
deriving DecidableEq

/-- A header as the receiver reads it, the empty text where it is missing. -/
def HttpRequest.header (request : HttpRequest) (name : String) : String :=
  (request.headers.lookup name).getD ""

/-- The object that is serialised to become the body. -/
structure Envelope (Data : Type) where
  id : String
  type : String
  createdAt : Int
  data : Data

inductive WebhookCall (Data : Type)
  | now
  | uuid
  | request (req : HttpRequest)
  | create (d : WebhookDelivery Data)
  | update (d : WebhookDelivery Data)

/-- A response is its status code; the dispatcher reads nothing else of it. -/
abbrev WebhookAns {Data : Type} : WebhookCall Data → Type
  | .now => Int
  | .uuid => String
  | .request _ => Nat
  | .create _ => WebhookDelivery Data
  | .update _ => WebhookDelivery Data

/-- What the dispatcher does. It takes no locks, and an error is its message. -/
abbrev Dispatch (Data α : Type) := Prog Unit (WebhookCall Data) WebhookAns String α

/-- The signature header of a payload. -/
def signPayload (hmac : String → String → String) (secret timestamp body : String) : String :=
  "sha256=" ++ hmac secret (timestamp ++ "." ++ body)

def defaultBackoff (attempts : Nat) : Int :=
  min 3600000 (30000 * 2 ^ (attempts - 1))

variable {Data : Type}

def enqueue (cfg : WebhookConfig) (type : OutboundEventType) (payload : Data) :
    Dispatch Data (WebhookDelivery Data) := do
  let now ← Prog.perform WebhookCall.now
  let id ← Prog.perform WebhookCall.uuid
  let eventId ← Prog.perform WebhookCall.uuid
  Prog.perform <| WebhookCall.create {
    id, event := { id := eventId, type, payload, createdAt := now }, url := cfg.url,
    status := .pending, attempts := 0, nextAttemptAt := now, lastError := none,
    lastStatus := none, createdAt := now, updatedAt := now, deliveredAt := none }

def fail (cfg : WebhookConfig) (backoff : Nat → Int) (delivery : WebhookDelivery Data)
    (attempts : Nat) (now : Int) (error : String) (lastStatus : Option Nat) :
    Dispatch Data (WebhookDelivery Data) :=
  let dead := cfg.maxAttempts ≤ attempts
  Prog.perform <| WebhookCall.update { delivery with
    status := if dead then .dead else .pending
    attempts, lastError := some error, lastStatus
    nextAttemptAt := if dead then delivery.nextAttemptAt else now + backoff attempts
    updatedAt := now }

/-- The request of one delivery attempt, made at `now`. -/
def deliveryRequest (hmac : String → String → String) (stringify : Envelope Data → String)
    (cfg : WebhookConfig) (delivery : WebhookDelivery Data) (now : Int) : HttpRequest :=
  let body := stringify {
    id := delivery.event.id, type := delivery.event.type.name,
    createdAt := delivery.event.createdAt, data := delivery.event.payload }
  let timestamp := toString now
  { method := "POST", url := delivery.url
    headers := [
      ("Content-Type", "application/json"),
      ("X-Webhook-Id", delivery.event.id),
      ("X-Webhook-Event", delivery.event.type.name),
      ("X-Webhook-Timestamp", timestamp),
      ("X-Webhook-Signature", signPayload hmac cfg.secret timestamp body)]
    body }

/-- Attempt a single delivery. Only a failed request is caught: a rejected
`update` leaves the method. -/
def deliver (hmac : String → String → String) (stringify : Envelope Data → String)
    (cfg : WebhookConfig) (backoff : Nat → Int) (delivery : WebhookDelivery Data) :
    Dispatch Data (WebhookDelivery Data) := do
  let now ← Prog.perform WebhookCall.now
  let attempts := delivery.attempts + 1
  Prog.call (WebhookCall.request (deliveryRequest hmac stringify cfg delivery now)) fun
    | .ok status =>
        if 200 ≤ status ∧ status < 300 then
          Prog.perform <| WebhookCall.update { delivery with
            status := .delivered, attempts, lastStatus := some status, deliveredAt := some now
            updatedAt := now, lastError := none }
        else
          fail cfg backoff delivery attempts now s!"HTTP {status}" (some status)
    | .error message => fail cfg backoff delivery attempts now message none

/-- The first request a program sends when its clock shows `t`. -/
def sentAt {α : Type} (t : Int) : Dispatch Data α → Option HttpRequest
  | .call .now next => sentAt t (next (.ok t))
  | .call (.request req) _ => some req
  | _ => none

theorem sentAt_deliver (hmac : String → String → String) (stringify : Envelope Data → String)
    (cfg : WebhookConfig) (backoff : Nat → Int) (delivery : WebhookDelivery Data) (t : Int) :
    sentAt t (deliver hmac stringify cfg backoff delivery) =
      some (deliveryRequest hmac stringify cfg delivery t) := by
  rfl

end VpnPayment.Webhooks
