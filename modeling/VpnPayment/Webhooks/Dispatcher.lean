import Mathlib.Data.List.Sort
import VpnPayment.Collections.Table
import VpnPayment.Webhooks.Outbound

/-! `WebhookDispatcher` with the deliveries it keeps in memory. Any number of passes
may be under way, started by the watcher's timer or over HTTP. -/
namespace VpnPayment.Webhooks

open Async Collections

variable {Data : Type}

abbrev DeliveryTable (Data : Type) := Table (WebhookDelivery Data) WebhookDelivery.id

namespace MemoryWebhookRepository

/-- The pending deliveries whose time has come, the longest due first. -/
def findDue (t : DeliveryTable Data) (now : Int) (limit : Nat) : List (WebhookDelivery Data) :=
  ((t.rows.filter fun d => d.status = .pending && d.nextAttemptAt ≤ now).insertionSort
    fun x y => x.nextAttemptAt ≤ y.nextAttemptAt).take limit

theorem mem_findDue {t : DeliveryTable Data} {now : Int} {limit : Nat} {d : WebhookDelivery Data}
    (h : d ∈ findDue t now limit) : t.get? d.id = some d ∧ d.status = .pending := by
  have hSorted := (List.perm_insertionSort _ _).mem_iff.mp (List.mem_of_mem_take h)
  simp only [List.mem_filter, Bool.and_eq_true, decide_eq_true_eq] at hSorted
  exact ⟨Table.get?_of_mem hSorted.1, hSorted.2.1⟩

end MemoryWebhookRepository

/-- What the dispatcher awaits: the calls of `enqueue`, those of the attempt at a
delivery, and its own. -/
inductive DispatcherCall (Data : Type)
  | enqueue (c : WebhookCall Data)
  | deliver (forDelivery : String) (c : WebhookCall Data)
  | now
  | findDue (now : Int) (limit : Nat)
  | findById (id : String)
  | retry (d : WebhookDelivery Data)

abbrev DispatcherAns : DispatcherCall Data → Type
  | .enqueue c => WebhookAns c
  | .deliver _ c => WebhookAns c
  | .now => Int
  | .findDue _ _ => List (WebhookDelivery Data)
  | .findById _ => Option (WebhookDelivery Data)
  | .retry _ => WebhookDelivery Data

/-- What the environment decides about one call. A merchant's endpoint answers a
status, or the request fails. -/
inductive WebhookReply
  | normal
  | time (t : Int)
  | text (s : String)
  | status (n : Nat)
  | fails (message : String)

/-- One settled call. -/
structure DispatcherEvent (Data : Type) where
  task : Nat
  call : DispatcherCall Data
  answer : Except String (DispatcherAns call)

/-- The identifier a settled call drew. -/
def WebhookCall.drew : (c : WebhookCall Data) → Except String (WebhookAns c) → Option String
  | .uuid, .ok s => some s
  | _, _ => none

def DispatcherEvent.drew (e : DispatcherEvent Data) : Option String :=
  match e with
  | ⟨_, .enqueue c, answer⟩ => c.drew answer
  | ⟨_, .deliver _ c, answer⟩ => c.drew answer
  | _ => none

/-- The stored deliveries and the calls settled so far, newest first. -/
structure DispatcherWorld (Data : Type) where
  deliveries : DeliveryTable Data
  trace : List (DispatcherEvent Data)

namespace DispatcherWorld

def empty : DispatcherWorld Data := ⟨.empty, []⟩

def delivery (w : DispatcherWorld Data) (id : String) : Option (WebhookDelivery Data) :=
  w.deliveries.get? id

/-- The identifiers drawn so far, each with the task that drew it. -/
def drawn (w : DispatcherWorld Data) : List (Nat × String) :=
  w.trace.filterMap fun e => e.drew.map fun s => (e.task, s)

end DispatcherWorld

def updateDelivery (t : DeliveryTable Data) (d : WebhookDelivery Data) :
    Except String (WebhookDelivery Data) × DeliveryTable Data :=
  if t.has d.id then (.ok d, t.put d) else (.error s!"unknown delivery: {d.id}", t)

/-- Settle a call that `enqueue` or an attempt makes. An identifier is drawn once. -/
def WebhookCall.settle (w : DispatcherWorld Data) : (c : WebhookCall Data) → WebhookReply →
    Option (Except String (WebhookAns c) × DeliveryTable Data)
  | .now, .time t => some (.ok t, w.deliveries)
  | .uuid, .text s => if s ∈ w.drawn.map Prod.snd then none else some (.ok s, w.deliveries)
  | .request _, .status n => some (.ok n, w.deliveries)
  | .request _, .fails message => some (.error message, w.deliveries)
  | .create d, .normal => some (.ok d, w.deliveries.put d)
  | .update d, .normal => some (updateDelivery w.deliveries d)
  | _, _ => none

def DispatcherCall.settle (w : DispatcherWorld Data) : (c : DispatcherCall Data) → WebhookReply →
    Option (Except String (DispatcherAns c) × DeliveryTable Data)
  | .enqueue c, reply => c.settle w reply
  | .deliver _ c, reply => c.settle w reply
  | .now, .time t => some (.ok t, w.deliveries)
  | .findDue t limit, .normal =>
      some (.ok (MemoryWebhookRepository.findDue w.deliveries t limit), w.deliveries)
  | .findById id, .normal => some (.ok (w.deliveries.get? id), w.deliveries)
  | .retry d, .normal => some (updateDelivery w.deliveries d)
  | _, _ => none

/-- Settle one call of task `i`. -/
def dispatcherExec (i : Nat) (c : DispatcherCall Data) (reply : WebhookReply)
    (w : DispatcherWorld Data) : Option (Except String (DispatcherAns c) × DispatcherWorld Data) :=
  (c.settle w reply).map fun settled => (settled.1, ⟨settled.2, ⟨i, c, settled.1⟩ :: w.trace⟩)

abbrev DispatcherAction (Data α : Type) :=
  Prog Unit (DispatcherCall Data) DispatcherAns String α

/-- What a dispatcher is made of. -/
structure Dispatcher (Data : Type) where
  hmac : String → String → String
  stringify : Envelope Data → String
  cfg : WebhookConfig
  backoff : Nat → Int

structure ProcessCounts where
  delivered : Nat
  retried : Nat
  dead : Nat
deriving DecidableEq

def ProcessCounts.count (counts : ProcessCounts) : DeliveryStatus → ProcessCounts
  | .delivered => { counts with delivered := counts.delivered + 1 }
  | .dead => { counts with dead := counts.dead + 1 }
  | .pending => { counts with retried := counts.retried + 1 }

namespace Dispatcher

open Prog (perform)

variable (dispatcher : Dispatcher Data)

/-- The attempt at one delivery, as part of a pass. -/
def attempt (d : WebhookDelivery Data) : DispatcherAction Data (WebhookDelivery Data) :=
  (deliver dispatcher.hmac dispatcher.stringify dispatcher.cfg dispatcher.backoff d).embed
    (.deliver d.id) fun _ answer => answer

/-- The loop of `processDue`. -/
def deliverEach : List (WebhookDelivery Data) → ProcessCounts → DispatcherAction Data ProcessCounts
  | [], counts => pure counts
  | d :: rest, counts => do
      let r ← dispatcher.attempt d
      deliverEach rest (counts.count r.status)

/-- Drain the deliveries that are due. -/
def processDue (limit : Nat) : DispatcherAction Data ProcessCounts := do
  let now ← perform DispatcherCall.now
  let due ← perform (DispatcherCall.findDue now limit)
  dispatcher.deliverEach due ⟨0, 0, 0⟩

/-- Requeue a delivery for immediate retry. -/
def retry (id : String) : DispatcherAction Data (WebhookDelivery Data) := do
  let found ← perform (DispatcherCall.findById id)
  match found with
  | none => throw s!"unknown delivery: {id}"
  | some d => do
      let now ← perform DispatcherCall.now
      perform (DispatcherCall.retry { d with status := .pending, nextAttemptAt := now, updatedAt := now })

/-- Publish an event. -/
def emit (type : OutboundEventType) (payload : Data) :
    DispatcherAction Data (WebhookDelivery Data) :=
  (enqueue dispatcher.cfg type payload).embed .enqueue fun _ answer => answer

end Dispatcher

inductive DispatcherRequest (Data : Type)
  | emit (type : OutboundEventType) (payload : Data)
  | processDue (limit : Nat)
  | retry (id : String)

def dispatcherSystem (dispatcher : Dispatcher Data) :
    System Unit (DispatcherCall Data) DispatcherAns String Unit (DispatcherWorld Data) WebhookReply
      (DispatcherRequest Data) where
  exec := dispatcherExec
  entry
    | .emit type payload => do
        let _ ← dispatcher.emit type payload
        pure ()
    | .processDue limit => do
        let _ ← dispatcher.processDue limit
        pure ()
    | .retry id => do
        let _ ← Dispatcher.retry id
        pure ()

abbrev Dispatching (Data : Type) :=
  Machine Unit (DispatcherCall Data) DispatcherAns String Unit (DispatcherWorld Data)

end VpnPayment.Webhooks
