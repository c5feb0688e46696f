import VpnPayment.Async.Sequential
import VpnPayment.Webhooks.Overlap

/-! The retry budget of a delivery, when requests are served one after the other and
the clock does not go back. -/
namespace VpnPayment.Webhooks

open Async Collections

variable {Data : Type}

namespace DispatcherEvent

/-- What the clock showed, where the call read it. -/
def reading (e : DispatcherEvent Data) : Option Int :=
  match e with
  | ⟨_, .now, .ok t⟩ => some t
  | ⟨_, .enqueue .now, .ok t⟩ => some t
  | ⟨_, .deliver _ .now, .ok t⟩ => some t
  | _ => none

/-- An attempt at the delivery was not answered with a 2xx status. -/
def failed (e : DispatcherEvent Data) (id : String) : Bool :=
  match e with
  | ⟨_, .deliver forDelivery (.request _), .ok status⟩ =>
      forDelivery = id && !(200 ≤ (status : Nat) && (status : Nat) < 300)
  | ⟨_, .deliver forDelivery (.request _), .error _⟩ => forDelivery = id
  | _ => false

/-- The delivery was enqueued, or requeued by `retry`. -/
def queued (e : DispatcherEvent Data) (id : String) : Bool :=
  match e with
  | ⟨_, .enqueue (.create d), .ok _⟩ => d.id = id
  | ⟨_, .retry d, .ok _⟩ => d.id = id
  | _ => false

end DispatcherEvent

/-- The latest reading of the clock. -/
def latestReading (trace : List (DispatcherEvent Data)) : Option Int :=
  trace.findSome? DispatcherEvent.reading

/-- How often the delivery has failed since it was enqueued or last requeued. -/
def failures (id : String) : List (DispatcherEvent Data) → Nat
  | [] => 0
  | e :: older =>
      if e.queued id then 0
      else if e.failed id then failures id older + 1
      else failures id older

/-- What the clock showed at the latest of these failures. -/
def lastFailure (id : String) : List (DispatcherEvent Data) → Option Int
  | [] => none
  | e :: older =>
      if e.queued id then none
      else if e.failed id then latestReading older
      else lastFailure id older

namespace DispatcherWorld

def clock (w : DispatcherWorld Data) : Option Int :=
  latestReading w.trace

/-- An attempt at the delivery has its response, and has yet to store it. -/
def Recording (w : DispatcherWorld Data) (id : String) : Prop :=
  ∃ e older, w.trace = e :: older ∧ e.posts id = true

end DispatcherWorld

/-- Requests are served one after the other, and the clock does not go back. -/
def steadily (m : Dispatching Data) : Label WebhookReply (DispatcherRequest Data) → Bool
  | .spawn _ => m.settled
  | .step _ (.time t) => m.world.clock.all fun t' => t' ≤ t
  | .step _ _ => true

/-- `retry` is asked only for deliveries of which no attempt was made. -/
def requeuesFresh (m : Dispatching Data) : Label WebhookReply (DispatcherRequest Data) → Bool
  | .spawn (.retry id) => (m.world.delivery id).all fun d => d.attempts = 0
  | _ => true

/-- What the budget says of a stored delivery whose latest attempt is accounted for. -/
structure WithinBudget (dispatcher : Dispatcher Data) (w : DispatcherWorld Data) (id : String)
    (d : WebhookDelivery Data) : Prop where
  attempts_le : d.attempts ≤ dispatcher.cfg.maxAttempts
  dead : d.status = .dead → failures id w.trace = dispatcher.cfg.maxAttempts
  delivered : d.status = .delivered → failures id w.trace < dispatcher.cfg.maxAttempts
  pending : d.status = .pending → d.attempts < dispatcher.cfg.maxAttempts ∧
    failures id w.trace = d.attempts ∧ (0 < d.attempts →
      ∃ t, lastFailure id w.trace = some t ∧ t + dispatcher.backoff d.attempts ≤ d.nextAttemptAt)

/-- No attempt is under way, and every stored delivery is within its budget. -/
structure Budgeted (dispatcher : Dispatcher Data) (w : DispatcherWorld Data) : Prop where
  stored : ∀ id d, w.delivery id = some d → WithinBudget dispatcher w id d
  quiet : ∀ id, ¬ w.Recording id

/-- The same in the middle of a request. -/
def Budgeting (dispatcher : Dispatcher Data) (w : DispatcherWorld Data) : Prop :=
  ∀ id d, w.delivery id = some d → (¬ w.Recording id → WithinBudget dispatcher w id d) ∧
    (w.Recording id → d.status = .pending ∧ d.attempts < dispatcher.cfg.maxAttempts)

/-- A POST is sent no sooner than the backoff says after the latest failure. -/
def Patient (dispatcher : Dispatcher Data) : DispatcherCall Data → DispatcherWorld Data → Prop
  | .deliver id (.request _), w => 0 < failures id w.trace →
      ∃ t₀ t, lastFailure id w.trace = some t₀ ∧ w.clock = some t ∧
        t₀ + dispatcher.backoff (failures id w.trace) ≤ t
  | _, _ => True

/-- How calls settle while the clock does not go back. -/
def steadyExec (i : Nat) : Executor (DispatcherCall Data) DispatcherAns String
    (DispatcherWorld Data) WebhookReply
  | c, .time t, w => if w.clock.all fun t' => t' ≤ t then dispatcherExec i c (.time t) w else none
  | c, reply, w => dispatcherExec i c reply w

section budgets

variable {dispatcher : Dispatcher Data} {i : Nat} {c : DispatcherCall Data} {reply : WebhookReply}
  {w w' : DispatcherWorld Data} {answer : Except String (DispatcherAns c)}
  {e : DispatcherEvent Data} {id : String} {d : WebhookDelivery Data}

/-- A steady clock is one of the clocks that the dispatcher may read. -/
theorem dispatcherExec_of_steadyExec (h : steadyExec i c reply w = some (answer, w')) :
    dispatcherExec i c reply w = some (answer, w') ∧
      ∀ t, reply = .time t → ∀ t', w.clock = some t' → t' ≤ t := by
  cases reply with
  | time t =>
      simp only [steadyExec, Option.ite_none_right_eq_some, Option.all_eq_true,
        decide_eq_true_eq] at h
      refine ⟨h.2, fun t₁ hReply => ?_⟩
      cases hReply
      exact h.1
  | normal => exact ⟨h, fun _ hReply => by cases hReply⟩
  | text s => exact ⟨h, fun _ hReply => by cases hReply⟩
  | status n => exact ⟨h, fun _ hReply => by cases hReply⟩
  | fails message => exact ⟨h, fun _ hReply => by cases hReply⟩

/-- Other events add no failure. -/
theorem failures_cons (hQueued : e.queued id = false) (hFailed : e.failed id = false)
    (older : List (DispatcherEvent Data)) : failures id (e :: older) = failures id older := by
  simp [failures, hQueued, hFailed]

/-- Other events leave the newest failure. -/
theorem lastFailure_cons (hQueued : e.queued id = false) (hFailed : e.failed id = false)
    (older : List (DispatcherEvent Data)) : lastFailure id (e :: older) = lastFailure id older := by
  simp [lastFailure, hQueued, hFailed]

/-- The budget of a delivery is about what happened to it only. -/
theorem WithinBudget.cons (h : WithinBudget dispatcher w id d) (hTrace : w'.trace = e :: w.trace)
    (hQueued : e.queued id = false) (hFailed : e.failed id = false) :
    WithinBudget dispatcher w' id d := by
  have hCount : failures id w'.trace = failures id w.trace := by
    rw [hTrace, failures_cons hQueued hFailed]
  have hLast : lastFailure id w'.trace = lastFailure id w.trace := by
    rw [hTrace, lastFailure_cons hQueued hFailed]
  constructor
  · exact h.attempts_le
  · rw [hCount]
    exact h.dead
  · rw [hCount]
    exact h.delivered
  · rw [hCount, hLast]
    exact h.pending

/-- Only a request opens an attempt that is still to be recorded. -/
theorem not_recording_cons (hTrace : w'.trace = e :: w.trace) (hPosts : e.posts id = false) :
    ¬ w'.Recording id := by
  rintro ⟨e', older, hEq, hTrue⟩
  rw [hTrace, List.cons.injEq] at hEq
  rw [← hEq.1, hPosts] at hTrue
  cases hTrue

/-- Between two passes no attempt is open. -/
theorem Budgeted.budgeting (h : Budgeted dispatcher w) : Budgeting dispatcher w :=
  fun id d hRow => ⟨fun _ => h.stored id d hRow, fun hRecording => absurd hRecording (h.quiet id)⟩

/-- A call that concerns no attempt and queues nothing. -/
theorem Budgeted.cons (h : Budgeted dispatcher w) (hTrace : w'.trace = e :: w.trace)
    (hSame : w'.deliveries = w.deliveries) (hQueued : ∀ id, e.queued id = false)
    (hFailed : ∀ id, e.failed id = false) (hPosts : ∀ id, e.posts id = false) :
    Budgeted dispatcher w' where
  stored id d hRow := by
    have hOld : w.delivery id = some d := by rwa [DispatcherWorld.delivery, ← hSame]
    exact (h.stored id d hOld).cons hTrace (hQueued id) (hFailed id)
  quiet id := not_recording_cons hTrace (hPosts id)

/-- A delivery that is enqueued or requeued with no attempt made. -/
theorem Budgeted.put (h : Budgeted dispatcher w) (hMax : 1 ≤ dispatcher.cfg.maxAttempts)
    (hTrace : w'.trace = e :: w.trace) (hPut : w'.deliveries = w.deliveries.put d)
    (hQueued : ∀ id, e.queued id = decide (d.id = id)) (hFailed : ∀ id, e.failed id = false)
    (hPosts : ∀ id, e.posts id = false) (hPending : d.status = .pending) (hFresh : d.attempts = 0) :
    Budgeted dispatcher w' where
  stored id d' hRow := by
    rw [DispatcherWorld.delivery, hPut, Table.get?_put] at hRow
    split at hRow
    · next hId =>
        cases hRow
        have hCount : failures id w'.trace = 0 := by
          simp [hTrace, failures, hQueued, hId]
        constructor
        · omega
        · rw [hPending]
          exact fun hDead => by cases hDead
        · rw [hPending]
          exact fun hDelivered => by cases hDelivered
        · intro _
          exact ⟨by omega, by rw [hCount, hFresh], fun hPos => by omega⟩
    · next hId =>
        exact (h.stored id d' hRow).cons hTrace (by simp [hQueued, hId]) (hFailed id)
  quiet id := not_recording_cons hTrace (hPosts id)

end budgets

section calls

variable {w : DispatcherWorld Data} {reply : WebhookReply} {stored : DeliveryTable Data}

/-- The clock tells a time and stores nothing. -/
theorem settle_now {answer : Except String Int}
    (h : WebhookCall.now.settle w reply = some (answer, stored)) :
    ∃ t, reply = .time t ∧ answer = .ok t ∧ stored = w.deliveries := by
  cases reply <;> cases h
  exact ⟨_, rfl, rfl, rfl⟩

theorem settle_clock {answer : Except String Int}
    (h : DispatcherCall.now.settle w reply = some (answer, stored)) :
    ∃ t, reply = .time t ∧ answer = .ok t ∧ stored = w.deliveries := by
  cases reply <;> cases h
  exact ⟨_, rfl, rfl, rfl⟩

theorem settle_uuid {answer : Except String String}
    (h : WebhookCall.uuid.settle w reply = some (answer, stored)) :
    (∃ s, answer = .ok s) ∧ stored = w.deliveries := by
  cases reply <;> try cases h
  rw [WebhookCall.settle, Option.ite_none_left_eq_some] at h
  cases h.2
  exact ⟨⟨_, rfl⟩, rfl⟩

/-- A request stores nothing. -/
theorem settle_request {req : HttpRequest} {answer : Except String Nat}
    (h : (WebhookCall.request req).settle w reply = some (answer, stored)) :
    stored = w.deliveries := by
  cases reply <;> cases h <;> rfl

/-- A new delivery is stored as it was sent. -/
theorem settle_create {d : WebhookDelivery Data} {answer : Except String (WebhookDelivery Data)}
    (h : (WebhookCall.create d).settle w reply = some (answer, stored)) :
    answer = .ok d ∧ stored = w.deliveries.put d := by
  cases reply <;> cases h
  exact ⟨rfl, rfl⟩

/-- Storing a delivery that is there. -/
theorem updateDelivery_of_row {d old : WebhookDelivery Data} (hRow : w.delivery d.id = some old) :
    updateDelivery w.deliveries d = (.ok d, w.deliveries.put d) := by
  have hHas : w.deliveries.has d.id = true := by
    rw [Table.has, ← DispatcherWorld.delivery, hRow]
    rfl
  rw [updateDelivery, if_pos hHas]

/-- An update stores what it was given over an old row. -/
theorem settle_update {d old : WebhookDelivery Data}
    {answer : Except String (WebhookDelivery Data)} (hRow : w.delivery d.id = some old)
    (h : (WebhookCall.update d).settle w reply = some (answer, stored)) :
    answer = .ok d ∧ stored = w.deliveries.put d := by
  cases reply <;> try cases h
  have hPair := Option.some.inj h
  rw [updateDelivery_of_row hRow] at hPair
  cases hPair
  exact ⟨rfl, rfl⟩

/-- A retry puts the delivery back to its start. -/
theorem settle_retry {d old : WebhookDelivery Data} {answer : Except String (WebhookDelivery Data)}
    (h : (DispatcherCall.retry d).settle w reply = some (answer, stored))
    (hRow : w.delivery d.id = some old) :
    answer = .ok d ∧ stored = w.deliveries.put d := by
  cases reply <;> try cases h
  have hPair := Option.some.inj h
  rw [updateDelivery_of_row hRow] at hPair
  cases hPair
  exact ⟨rfl, rfl⟩

end calls

section attempts

open Prog (perform)

variable {dispatcher : Dispatcher Data} {i : Nat} {w w₁ w₂ : DispatcherWorld Data}
  {d : WebhookDelivery Data}

/-- The latest reading is no earlier than in the state before. -/
def ClockKept (w w' : DispatcherWorld Data) : Prop :=
  ∀ t, w.clock = some t → ∃ t', w'.clock = some t' ∧ t ≤ t'

/-- An attempt leaves the other deliveries alone. -/
structure AttemptDone (dispatcher : Dispatcher Data) (w : DispatcherWorld Data) (id : String)
    (w' : DispatcherWorld Data) : Prop where
  budgeted : Budgeted dispatcher w'
  others : ∀ id', id' ≠ id → w'.delivery id' = w.delivery id'
  clock : ClockKept w w'

/-- What an attempt stores: the delivery as it was handed out, with the outcome of the
POST and, where there is to be another attempt, its time. -/
def Recorded (dispatcher : Dispatcher Data) (w : DispatcherWorld Data) (d : WebhookDelivery Data)
    (e : DispatcherEvent Data) (row : WebhookDelivery Data) : Prop :=
  row.attempts = d.attempts + 1 ∧
    ((e.failed d.id = true ∧ row.status = .dead ∧ dispatcher.cfg.maxAttempts ≤ d.attempts + 1) ∨
      (e.failed d.id = true ∧ row.status = .pending ∧
        d.attempts + 1 < dispatcher.cfg.maxAttempts ∧
        ∀ t, w.clock = some t → row.nextAttemptAt = t + dispatcher.backoff (d.attempts + 1)) ∨
      (e.failed d.id = false ∧ row.status = .delivered))

/-- The budget when the outcome of an attempt is stored. -/
theorem budgeted_of_update {e e' : DispatcherEvent Data} {row : WebhookDelivery Data}
    (h : Budgeted dispatcher w) (hRow : w.delivery d.id = some d) (hPending : d.status = .pending)
    (hClock : ∃ t, w.clock = some t) (hTrace : w₁.trace = e :: w.trace)
    (hTrace' : w₂.trace = e' :: w₁.trace) (hId : row.id = d.id)
    (hPut : w₂.deliveries = w.deliveries.put row) (hQueued : ∀ id, e.queued id = false)
    (hOther : ∀ id, id ≠ d.id → e.failed id = false)
    (hStored : ∀ id, e'.queued id = false ∧ e'.failed id = false ∧ e'.posts id = false)
    (hRecord : Recorded dispatcher w d e row) :
    Budgeted dispatcher w₂ where
  stored id d' hRow' := by
    rw [DispatcherWorld.delivery, hPut, Table.get?_put, hId] at hRow'
    split at hRow'
    · next hEq =>
        cases hRow'
        subst hEq
        obtain ⟨hLt, hCount, -⟩ := (h.stored _ d hRow).pending hPending
        have hCount₂ : failures d.id w₂.trace = failures d.id w₁.trace := by
          rw [hTrace', failures_cons (hStored d.id).1 (hStored d.id).2.1]
        have hLast₂ : lastFailure d.id w₂.trace = lastFailure d.id w₁.trace := by
          rw [hTrace', lastFailure_cons (hStored d.id).1 (hStored d.id).2.1]
        have hCount₁ : e.failed d.id = true → failures d.id w₁.trace = d.attempts + 1 := by
          intro hFailed
          simp [hTrace, failures, hQueued, hFailed, hCount]
        obtain ⟨hAttempts, ⟨hFailed, hDead, hLimit⟩ | ⟨hFailed, hAgain, hLimit, hNext⟩ |
          ⟨hFailed, hStatus⟩⟩ := hRecord
        · constructor
          · omega
          · intro _
            rw [hCount₂, hCount₁ hFailed]
            omega
          · rw [hDead]
            exact fun hDelivered => by cases hDelivered
          · rw [hDead]
            exact fun hOpen => by cases hOpen
        · constructor
          · omega
          · rw [hAgain]
            exact fun hDead => by cases hDead
          · rw [hAgain]
            exact fun hDelivered => by cases hDelivered
          · intro _
            obtain ⟨t, ht⟩ := hClock
            refine ⟨by omega, by rw [hCount₂, hCount₁ hFailed, hAttempts], fun _ => ⟨t, ?_, ?_⟩⟩
            · rw [hLast₂, hTrace]
              simp [lastFailure, hQueued, hFailed, ← ht, DispatcherWorld.clock]
            · rw [hNext t ht, hAttempts]
        · have hCount₁ : failures d.id w₁.trace = d.attempts := by
            rw [hTrace, failures_cons (hQueued d.id) hFailed, hCount]
          constructor
          · omega
          · rw [hStatus]
            exact fun hDead => by cases hDead
          · intro _
            rw [hCount₂, hCount₁]
            exact hLt
          · rw [hStatus]
            exact fun hOpen => by cases hOpen
    · next hNe =>
        have hFirst := (h.stored id d' hRow').cons hTrace (hQueued id) (hOther id (Ne.symm hNe))
        exact hFirst.cons hTrace' (hStored id).1 (hStored id).2.1
  quiet id := not_recording_cons hTrace' (hStored id).2.2

/-- The response of an attempt is in, and the record is about to be stored. -/
theorem budgeting_of_response {e : DispatcherEvent Data} (h : Budgeted dispatcher w)
    (hRow : w.delivery d.id = some d) (hPending : d.status = .pending)
    (hTrace : w₁.trace = e :: w.trace) (hSame : w₁.deliveries = w.deliveries)
    (hQueued : ∀ id, e.queued id = false) (hFailed : ∀ id, id ≠ d.id → e.failed id = false)
    (hPosts : ∀ id, e.posts id = decide (d.id = id)) : Budgeting dispatcher w₁ := by
  intro id d' hRow'
  have hOld : w.delivery id = some d' := by rwa [DispatcherWorld.delivery, ← hSame]
  by_cases hId : d.id = id
  · subst hId
    obtain rfl := Option.some.inj (hRow.symm.trans hOld)
    refine ⟨fun hQuiet => absurd ⟨e, _, hTrace, by simp [hPosts]⟩ hQuiet, fun _ => ?_⟩
    exact ⟨hPending, ((h.stored _ d hRow).pending hPending).1⟩
  · refine ⟨fun _ => (h.stored id d' hOld).cons hTrace (hQueued id) (hFailed id (Ne.symm hId)),
      fun hRecording => absurd hRecording (not_recording_cons hTrace (by simp [hPosts, hId]))⟩

theorem clock_cons {e : DispatcherEvent Data} (hTrace : w₁.trace = e :: w.trace) :
    w₁.clock = e.reading.or w.clock := by
  rw [DispatcherWorld.clock, hTrace, latestReading, List.findSome?_cons]
  cases e.reading <;> rfl

/-- Storing the record of an attempt completes it. -/
theorem always_store {e : DispatcherEvent Data} {row : WebhookDelivery Data}
    (h : Budgeted dispatcher w) (hRow : w.delivery d.id = some d) (hPending : d.status = .pending)
    (hClock : ∃ t, w.clock = some t) (hTrace : w₁.trace = e :: w.trace)
    (hSame : w₁.deliveries = w.deliveries) (hId : row.id = d.id)
    (hQueued : ∀ id, e.queued id = false) (hOther : ∀ id, id ≠ d.id → e.failed id = false)
    (hReading : e.reading = none) (hRecord : Recorded dispatcher w d e row) :
    ((perform (WebhookCall.update row)).embed (.deliver d.id) fun _ answer => answer :
        DispatcherAction Data (WebhookDelivery Data)).Always (steadyExec i) (Budgeting dispatcher)
      (Patient dispatcher) (fun _ s => AttemptDone dispatcher w d.id s) w₁ := by
  have hOld : w₁.delivery row.id = some d := by rwa [DispatcherWorld.delivery, hSame, hId]
  have hClock₁ : w₁.clock = w.clock := by rw [clock_cons hTrace, hReading, Option.none_or]
  apply Prog.always_embed trivial
  · intro reply stored w₂ hExec
    obtain ⟨hTrace', hSettle⟩ := trace_of_exec (dispatcherExec_of_steadyExec hExec).1
    obtain ⟨-, hPut⟩ := settle_update hOld hSettle
    rw [hSame] at hPut
    have h₂ : Budgeted dispatcher w₂ := budgeted_of_update h hRow hPending hClock hTrace hTrace' hId
      hPut hQueued hOther (fun _ => ⟨rfl, rfl, rfl⟩) hRecord
    refine ⟨h₂.budgeting, h₂, fun id hNe => ?_, fun t ht => ⟨t, ?_, Int.le_refl t⟩⟩
    · rw [DispatcherWorld.delivery, hPut, Table.get?_put, hId, if_neg (Ne.symm hNe)]
      rfl
    · rw [clock_cons hTrace', hClock₁, ht]
      rfl
  · intro reply e w₂ hExec
    obtain ⟨-, hSettle⟩ := trace_of_exec (dispatcherExec_of_steadyExec hExec).1
    cases (settle_update hOld hSettle).1

/-- An attempt is at one delivery. -/
theorem failed_other {forDelivery id : String} {req : HttpRequest} {answer : Except String Nat}
    (hNe : id ≠ forDelivery) : DispatcherEvent.failed
      (⟨i, .deliver forDelivery (.request req), answer⟩ : DispatcherEvent Data) id = false := by
  cases answer with
  | ok status => simp [DispatcherEvent.failed, Ne.symm hNe]
  | error message => simp [DispatcherEvent.failed, Ne.symm hNe]

/-- What `fail` stores. -/
theorem recorded_fail {e : DispatcherEvent Data} {t : Int} (hClock : w.clock = some t)
    (hFailed : e.failed d.id = true) (error : String) (lastStatus : Option Nat) :
    Recorded dispatcher w d e { d with
      status := if dispatcher.cfg.maxAttempts ≤ d.attempts + 1 then .dead else .pending
      attempts := d.attempts + 1
      lastError := some error
      lastStatus
      nextAttemptAt := if dispatcher.cfg.maxAttempts ≤ d.attempts + 1 then d.nextAttemptAt
        else t + dispatcher.backoff (d.attempts + 1)
      updatedAt := t } := by
  refine ⟨rfl, ?_⟩
  by_cases hDead : dispatcher.cfg.maxAttempts ≤ d.attempts + 1
  · exact .inl ⟨hFailed, if_pos hDead, hDead⟩
  · refine .inr (.inl ⟨hFailed, if_neg hDead, by omega, fun t' ht' => ?_⟩)
    obtain rfl := Option.some.inj (hClock.symm.trans ht')
    exact if_neg hDead

/-- An attempt of a due delivery keeps the budget. -/
theorem always_attempt (h : Budgeted dispatcher w) (hRow : w.delivery d.id = some d)
    (hPending : d.status = .pending) (hDue : ∃ t, w.clock = some t ∧ d.nextAttemptAt ≤ t) :
    (dispatcher.attempt d).Always (steadyExec i) (Budgeting dispatcher) (Patient dispatcher)
      (fun _ s => AttemptDone dispatcher w d.id s) w := by
  apply Prog.always_embed trivial
  · intro reply t w₀ hExec
    obtain ⟨hExec, hSteady⟩ := dispatcherExec_of_steadyExec hExec
    obtain ⟨hTrace₀, hSettle⟩ := trace_of_exec hExec
    obtain ⟨_, hReply, hEq, hSame₀⟩ := settle_now hSettle
    cases hEq
    have h₀ : Budgeted dispatcher w₀ :=
      h.cons hTrace₀ hSame₀ (fun _ => rfl) (fun _ => rfl) fun _ => rfl
    have hRow₀ : w₀.delivery d.id = some d := by rwa [DispatcherWorld.delivery, hSame₀]
    have hClock₀ : w₀.clock = some t := clock_cons hTrace₀
    have hKept : ∀ w', AttemptDone dispatcher w₀ d.id w' → AttemptDone dispatcher w d.id w' := by
      intro w' hDone
      refine ⟨hDone.budgeted, fun id hNe => (hDone.others id hNe).trans ?_, fun t' ht' => ?_⟩
      · rw [DispatcherWorld.delivery, hSame₀]
        rfl
      · obtain ⟨t'', hLater, hLe⟩ := hDone.clock t hClock₀
        exact ⟨t'', hLater, (hSteady t hReply t' ht').trans hLe⟩
    refine ⟨h₀.budgeting, Prog.always_mono (fun _ => hKept) ?_⟩
    apply Prog.always_embed
    · -- the delivery was due when the pass began, and the clock has not gone back
      intro hPos
      obtain ⟨-, hCount, hBackoff⟩ := (h₀.stored d.id d hRow₀).pending hPending
      obtain ⟨t₀, hLast, hNext⟩ := hBackoff (hCount ▸ hPos)
      obtain ⟨t₁, hClock, hTime⟩ := hDue
      have hLe := hSteady t hReply t₁ hClock
      refine ⟨t₀, t, hLast, hClock₀, ?_⟩
      rw [hCount]
      omega
    · intro reply status w₁ hExec
      obtain ⟨hTrace₁, hSettle⟩ := trace_of_exec (dispatcherExec_of_steadyExec hExec).1
      have hSame₁ := settle_request hSettle
      refine ⟨budgeting_of_response h₀ hRow₀ hPending hTrace₁ hSame₁ (fun _ => rfl)
        (fun _ => failed_other) fun _ => rfl, ?_⟩
      dsimp only
      split
      · next hOk =>
          refine always_store h₀ hRow₀ hPending ⟨t, hClock₀⟩ hTrace₁ hSame₁ rfl (fun _ => rfl)
            (fun _ => failed_other) rfl ⟨rfl, .inr (.inr ⟨?_, rfl⟩)⟩
          simp [DispatcherEvent.failed, hOk.1, hOk.2]
      · next hBad =>
          refine always_store h₀ hRow₀ hPending ⟨t, hClock₀⟩ hTrace₁ hSame₁ rfl (fun _ => rfl)
            (fun _ => failed_other) rfl (recorded_fail hClock₀ ?_ _ _)
          simp only [DispatcherEvent.failed, decide_true, Bool.true_and, Bool.not_eq_true',
            Bool.and_eq_false_iff, decide_eq_false_iff_not]
          exact not_and_or.mp hBad
    · intro reply message w₁ hExec
      obtain ⟨hTrace₁, hSettle⟩ := trace_of_exec (dispatcherExec_of_steadyExec hExec).1
      have hSame₁ := settle_request hSettle
      refine ⟨budgeting_of_response h₀ hRow₀ hPending hTrace₁ hSame₁ (fun _ => rfl)
        (fun _ => failed_other) fun _ => rfl, ?_⟩
      refine always_store h₀ hRow₀ hPending ⟨t, hClock₀⟩ hTrace₁ hSame₁ rfl (fun _ => rfl)
        (fun _ => failed_other) rfl (recorded_fail hClock₀ ?_ _ _)
      simp [DispatcherEvent.failed]
  · intro reply e w₀ hExec
    obtain ⟨-, hSettle⟩ := trace_of_exec (dispatcherExec_of_steadyExec hExec).1
    obtain ⟨_, -, hEq, -⟩ := settle_now hSettle
    cases hEq

end attempts

namespace MemoryWebhookRepository

variable {t : DeliveryTable Data} {now : Int} {limit : Nat} {d : WebhookDelivery Data}

/-- Every due delivery is due. -/
theorem nextAttemptAt_le_of_mem_findDue (h : d ∈ findDue t now limit) : d.nextAttemptAt ≤ now := by
  have hSorted := (List.perm_insertionSort _ _).mem_iff.mp (List.mem_of_mem_take h)
  simp only [List.mem_filter, Bool.and_eq_true, decide_eq_true_eq] at hSorted
  exact hSorted.2.2

/-- No delivery is due twice in one pass. -/
theorem nodup_findDue (t : DeliveryTable Data) (now : Int) (limit : Nat) :
    ((findDue t now limit).map WebhookDelivery.id).Nodup := by
  have hFiltered := t.nodup.sublist
    ((t.rows.filter_sublist (p := fun d => d.status = .pending && d.nextAttemptAt ≤ now)).map
      WebhookDelivery.id)
  have hSorted := ((List.perm_insertionSort (fun x y : WebhookDelivery Data =>
    x.nextAttemptAt ≤ y.nextAttemptAt) (t.rows.filter fun d =>
      d.status = .pending && d.nextAttemptAt ≤ now)).map WebhookDelivery.id).nodup_iff.mpr hFiltered
  exact hSorted.sublist ((List.take_sublist _ _).map _)

end MemoryWebhookRepository

section requests

open Prog (perform always_bind always_onReturn always_mono)

variable {dispatcher : Dispatcher Data} {i : Nat} {w : DispatcherWorld Data}

/-- By induction on the deliveries still to come, which nobody else has touched. -/
theorem always_deliverEach {due : List (WebhookDelivery Data)} {counts : ProcessCounts}
    (h : Budgeted dispatcher w) (hDue : ∀ d ∈ due, w.delivery d.id = some d ∧
      d.status = .pending ∧ ∃ t, w.clock = some t ∧ d.nextAttemptAt ≤ t)
    (hNodup : (due.map WebhookDelivery.id).Nodup) :
    (dispatcher.deliverEach due counts).Always (steadyExec i) (Budgeting dispatcher)
      (Patient dispatcher) (fun _ s => Budgeted dispatcher s) w := by
  induction due generalizing w counts with
  | nil => exact h
  | cons d rest ih =>
      obtain ⟨hRow, hPending, hTime⟩ := hDue d List.mem_cons_self
      rw [List.map_cons, List.nodup_cons] at hNodup
      apply always_onReturn
      apply always_mono _ (always_attempt h hRow hPending hTime)
      intro result s hDone
      cases result with
      | error e => exact hDone.budgeted
      | ok r =>
          refine ih hDone.budgeted (fun x hx => ?_) hNodup.2
          obtain ⟨hRowx, hPendingx, t, hClock, hLe⟩ := hDue x (List.mem_cons_of_mem _ hx)
          have hNe : x.id ≠ d.id := fun hEq => hNodup.1 (hEq ▸ List.mem_map_of_mem hx)
          obtain ⟨t', hClock', hLe'⟩ := hDone.clock t hClock
          exact ⟨(hDone.others x.id hNe).trans hRowx, hPendingx, t', hClock', hLe.trans hLe'⟩

/-- A pass keeps the budget of every delivery. -/
theorem always_processDue (limit : Nat) (h : Budgeted dispatcher w) :
    (dispatcher.processDue limit).Always (steadyExec i) (Budgeting dispatcher)
      (Patient dispatcher) (fun _ s => Budgeted dispatcher s) w := by
  refine ⟨trivial, fun reply answer w₀ hExec => ?_⟩
  obtain ⟨hTrace₀, hSettle⟩ := trace_of_exec (dispatcherExec_of_steadyExec hExec).1
  obtain ⟨now, -, rfl, hSame₀⟩ := settle_clock hSettle
  have h₀ : Budgeted dispatcher w₀ :=
    h.cons hTrace₀ hSame₀ (fun _ => rfl) (fun _ => rfl) fun _ => rfl
  have hClock₀ : w₀.clock = some now := clock_cons hTrace₀
  refine ⟨h₀.budgeting, trivial, fun reply answer w₁ hExec => ?_⟩
  obtain ⟨hTrace₁, hSettle⟩ := trace_of_exec (dispatcherExec_of_steadyExec hExec).1
  obtain ⟨hEq, hSame₁⟩ : answer = .ok (MemoryWebhookRepository.findDue w₀.deliveries now limit) ∧
      w₁.deliveries = w₀.deliveries := by
    cases reply <;> try cases hSettle
    have hPair := Option.some.inj hSettle
    exact ⟨(Prod.mk.inj hPair).1.symm, (Prod.mk.inj hPair).2.symm⟩
  subst hEq
  have h₁ : Budgeted dispatcher w₁ :=
    h₀.cons hTrace₁ hSame₁ (fun _ => rfl) (fun _ => rfl) fun _ => rfl
  have hClock₁ : w₁.clock = some now := (clock_cons hTrace₁).trans hClock₀
  refine ⟨h₁.budgeting, always_deliverEach h₁ (fun d hd => ?_)
    (MemoryWebhookRepository.nodup_findDue _ _ _)⟩
  obtain ⟨hRow, hPending⟩ := MemoryWebhookRepository.mem_findDue hd
  refine ⟨?_, hPending, now, hClock₁, MemoryWebhookRepository.nextAttemptAt_le_of_mem_findDue hd⟩
  rwa [DispatcherWorld.delivery, hSame₁]

/-- A manual retry begins a new budget. -/
theorem always_retry {id : String} (hMax : 1 ≤ dispatcher.cfg.maxAttempts)
    (h : Budgeted dispatcher w) (hFresh : ∀ d, w.delivery id = some d → d.attempts = 0) :
    (Dispatcher.retry id : DispatcherAction Data _).Always (steadyExec i) (Budgeting dispatcher)
      (Patient dispatcher) (fun _ s => Budgeted dispatcher s) w := by
  refine ⟨trivial, fun reply answer w₀ hExec => ?_⟩
  obtain ⟨hTrace₀, hSettle⟩ := trace_of_exec (dispatcherExec_of_steadyExec hExec).1
  obtain ⟨hEq, hSame₀⟩ : answer = .ok (w.delivery id) ∧ w₀.deliveries = w.deliveries := by
    cases reply <;> try cases hSettle
    have hPair := Option.some.inj hSettle
    exact ⟨(Prod.mk.inj hPair).1.symm, (Prod.mk.inj hPair).2.symm⟩
  subst hEq
  have h₀ : Budgeted dispatcher w₀ :=
    h.cons hTrace₀ hSame₀ (fun _ => rfl) (fun _ => rfl) fun _ => rfl
  refine ⟨h₀.budgeting, ?_⟩
  cases hRow : w.delivery id with
  | none => exact h₀
  | some d =>
      refine ⟨trivial, fun reply answer w₁ hExec => ?_⟩
      obtain ⟨hTrace₁, hSettle⟩ := trace_of_exec (dispatcherExec_of_steadyExec hExec).1
      obtain ⟨now, -, rfl, hSame₁⟩ := settle_clock hSettle
      have h₁ : Budgeted dispatcher w₁ :=
        h₀.cons hTrace₁ hSame₁ (fun _ => rfl) (fun _ => rfl) fun _ => rfl
      refine ⟨h₁.budgeting, trivial, fun reply answer w₂ hExec => ?_⟩
      obtain ⟨hTrace₂, hSettle⟩ := trace_of_exec (dispatcherExec_of_steadyExec hExec).1
      have hRow₁ : w₁.delivery d.id = some d := by
        rw [DispatcherWorld.delivery, hSame₁, hSame₀, Table.key_of_get? hRow]
        exact hRow
      obtain ⟨hEq, hPut⟩ := settle_retry hSettle hRow₁
      subst hEq
      have h₂ : Budgeted dispatcher w₂ := h₁.put hMax hTrace₂ hPut (fun _ => rfl) (fun _ => rfl)
        (fun _ => rfl) rfl (hFresh d hRow)
      exact ⟨h₂.budgeting, h₂⟩

/-- A new delivery begins with an unused budget. -/
theorem always_emit (type : OutboundEventType) (payload : Data)
    (hMax : 1 ≤ dispatcher.cfg.maxAttempts) (h : Budgeted dispatcher w) :
    (dispatcher.emit type payload).Always (steadyExec i) (Budgeting dispatcher)
      (Patient dispatcher) (fun _ s => Budgeted dispatcher s) w := by
  have hQuiet : ∀ {w w' : DispatcherWorld Data} {c : WebhookCall Data} {answer},
      Budgeted dispatcher w → w'.trace = ⟨i, .enqueue c, answer⟩ :: w.trace →
      w'.deliveries = w.deliveries → (∀ d, c ≠ .create d) → Budgeted dispatcher w' := by
    intro w w' c answer h hTrace hSame hNot
    refine h.cons hTrace hSame (fun _ => ?_) (fun _ => rfl) fun _ => rfl
    cases c with
    | create d => exact absurd rfl (hNot d)
    | _ => rfl
  apply Prog.always_embed trivial
  · intro reply now w₀ hExec
    obtain ⟨hTrace₀, hSettle⟩ := trace_of_exec (dispatcherExec_of_steadyExec hExec).1
    obtain ⟨_, -, -, hSame₀⟩ := settle_now hSettle
    have h₀ := hQuiet h hTrace₀ hSame₀ (by simp)
    refine ⟨h₀.budgeting, ?_⟩
    apply Prog.always_embed trivial
    · intro reply id w₁ hExec
      obtain ⟨hTrace₁, hSettle⟩ := trace_of_exec (dispatcherExec_of_steadyExec hExec).1
      have h₁ := hQuiet h₀ hTrace₁ (settle_uuid hSettle).2 (by simp)
      refine ⟨h₁.budgeting, ?_⟩
      apply Prog.always_embed trivial
      · intro reply eventId w₂ hExec
        obtain ⟨hTrace₂, hSettle⟩ := trace_of_exec (dispatcherExec_of_steadyExec hExec).1
        have h₂ := hQuiet h₁ hTrace₂ (settle_uuid hSettle).2 (by simp)
        refine ⟨h₂.budgeting, ?_⟩
        apply Prog.always_embed trivial
        · intro reply d w₃ hExec
          obtain ⟨hTrace₃, hSettle⟩ := trace_of_exec (dispatcherExec_of_steadyExec hExec).1
          obtain ⟨-, hPut⟩ := settle_create hSettle
          have h₃ : Budgeted dispatcher w₃ :=
            h₂.put hMax hTrace₃ hPut (fun _ => rfl) (fun _ => rfl) (fun _ => rfl) rfl rfl
          exact ⟨h₃.budgeting, h₃⟩
        · intro reply e w₃ hExec
          obtain ⟨-, hSettle⟩ := trace_of_exec (dispatcherExec_of_steadyExec hExec).1
          cases (settle_create hSettle).1
      · intro reply e w₂ hExec
        obtain ⟨-, hSettle⟩ := trace_of_exec (dispatcherExec_of_steadyExec hExec).1
        obtain ⟨⟨_, hEq⟩, -⟩ := settle_uuid hSettle
        cases hEq
    · intro reply e w₁ hExec
      obtain ⟨-, hSettle⟩ := trace_of_exec (dispatcherExec_of_steadyExec hExec).1
      obtain ⟨⟨_, hEq⟩, -⟩ := settle_uuid hSettle
      cases hEq
  · intro reply e w₀ hExec
    obtain ⟨-, hSettle⟩ := trace_of_exec (dispatcherExec_of_steadyExec hExec).1
    obtain ⟨_, -, hEq, -⟩ := settle_now hSettle
    cases hEq

/-- What is asked of a dispatcher keeps every delivery within its budget. -/
theorem always_entry {request : DispatcherRequest Data} {m : Dispatching Data}
    (hMax : 1 ≤ dispatcher.cfg.maxAttempts) (hFresh : requeuesFresh m (.spawn request) = true)
    (h : Budgeted dispatcher m.world) :
    ((dispatcherSystem dispatcher).entry request).Always (steadyExec i) (Budgeting dispatcher)
      (Patient dispatcher) (fun _ s => Budgeted dispatcher s) m.world := by
  have hThen : ∀ {α : Type} {p : DispatcherAction Data α},
      p.Always (steadyExec i) (Budgeting dispatcher) (Patient dispatcher)
        (fun _ s => Budgeted dispatcher s) m.world →
      (p >>= fun _ => pure ()).Always (steadyExec i) (Budgeting dispatcher) (Patient dispatcher)
        (fun _ s => Budgeted dispatcher s) m.world := by
    intro α p hFirst
    apply always_onReturn
    apply always_mono _ hFirst
    intro result s hDone
    cases result with
    | ok _ => exact hDone
    | error e => exact hDone
  cases request with
  | emit type payload => exact hThen (always_emit type payload hMax h)
  | processDue limit => exact hThen (always_processDue limit h)
  | retry id =>
      simp only [requeuesFresh, Option.all_eq_true, decide_eq_true_eq] at hFresh
      exact hThen (always_retry hMax h hFresh)

end requests

/-- The retry budget, in runs whose requests do not overlap, with a clock that does not
go back, and in which `retry` meets only deliveries of which no attempt was made. -/
theorem retry_budget_kept (dispatcher : Dispatcher Data) (hMax : 1 ≤ dispatcher.cfg.maxAttempts)
    {m : Dispatching Data}
    (hRun : (dispatcherSystem dispatcher).Reaches
      (fun m label => (steadily m label && requeuesFresh m label) = true) (Machine.start .empty) m) :
    (∀ id d, m.world.delivery id = some d →
      d.attempts ≤ dispatcher.cfg.maxAttempts ∧
      (d.status = .pending → d.attempts < dispatcher.cfg.maxAttempts) ∧
      (¬ m.world.Recording id →
        (d.status = .dead ↔ failures id m.world.trace = dispatcher.cfg.maxAttempts))) ∧
    ∀ i id req, m.nextCall i = some (.deliver id (.request req)) → 0 < failures id m.world.trace →
      ∃ t₀ t, lastFailure id m.world.trace = some t₀ ∧ m.world.clock = some t ∧
        t₀ + dispatcher.backoff (failures id m.world.trace) ≤ t := by
  have hStart : Budgeted dispatcher (DispatcherWorld.empty : DispatcherWorld Data) := by
    constructor
    · intro id d hRow
      cases hRow
    · rintro id ⟨e, older, hEq, -⟩
      cases hEq
  have hSerial : Serial steadyExec (Budgeting dispatcher) (Patient dispatcher)
      (Budgeted dispatcher) m := by
    apply Serial.run _ _ _ (serial_start hStart.budgeting hStart) hRun
    · intro m request hAllowed
      exact (Bool.and_eq_true_iff.mp hAllowed).1
    · intro m request hAllowed _ hRest i
      exact always_entry hMax (Bool.and_eq_true_iff.mp hAllowed).2 hRest
    · intro m i reply c hAllowed _
      cases reply with
      | time t =>
          have hSteady : (m.world.clock.all fun t' => t' ≤ t) = true :=
            (Bool.and_eq_true_iff.mp hAllowed).1
          simp [steadyExec, hSteady, dispatcherSystem]
      | _ => rfl
  constructor
  · intro id d hRow
    obtain ⟨hQuiet, hOpen⟩ := hSerial.inv id d hRow
    by_cases hRecording : m.world.Recording id
    · obtain ⟨hPending, hLt⟩ := hOpen hRecording
      exact ⟨Nat.le_of_lt hLt, fun _ => hLt, fun hNot => absurd hRecording hNot⟩
    · have hWithin := hQuiet hRecording
      refine ⟨hWithin.attempts_le, fun hPending => (hWithin.pending hPending).1, fun _ => ?_⟩
      constructor
      · exact hWithin.dead
      · intro hCount
        cases hStatus : d.status with
        | dead => rfl
        | pending =>
            obtain ⟨hLt, hSame, -⟩ := hWithin.pending hStatus
            omega
        | delivered =>
            have hLt := hWithin.delivered hStatus
            omega
  · intro i id req hCall
    exact hSerial.nextCall hCall

namespace Sample

/-- One attempt and no more. -/
def impatient : Dispatcher String :=
  { dispatcher with cfg := { dispatcher.cfg with maxAttempts := 1 } }

/-- A pass at clock `t` whose POST the merchant answers with status 500. -/
def refused (task : Nat) (t : Int) : List (Label WebhookReply (DispatcherRequest String)) :=
  [.spawn (.processDue 50), .step task (.time t), .step task .normal, .step task (.time t),
    .step task (.status 500), .step task .normal]

def requeues (task : Nat) (t : Int) : List (Label WebhookReply (DispatcherRequest String)) :=
  [.spawn (.retry "d1"), .step task .normal, .step task (.time t), .step task .normal]

end Sample

/-- A delivery that is requeued before its first attempt, and then fails twice. -/
theorem retry_budget_sample : ∃ m : Dispatching String,
    (dispatcherSystem Sample.dispatcher).Reaches
      (fun m label => (steadily m label && requeuesFresh m label) = true) (Machine.start .empty) m ∧
    (m.world.delivery "d1").map WebhookDelivery.attempts = some 2 ∧
    failures "d1" m.world.trace = 2 ∧
    ∀ id d, m.world.delivery id = some d → d.attempts ≤ 3 := by
  obtain ⟨m, hRun, hCheck⟩ := System.exists_reaches (dispatcherSystem Sample.dispatcher)
    (fun m label => steadily m label && requeuesFresh m label) (Machine.start .empty)
    (Sample.emits 0 ++ Sample.requeues 1 50 ++ Sample.refused 2 100 ++ Sample.refused 3 40000)
    (fun m => (m.world.delivery "d1").map WebhookDelivery.attempts = some 2 &&
      failures "d1" m.world.trace = 2) (by decide +kernel)
  simp only [Bool.and_eq_true, decide_eq_true_eq] at hCheck
  refine ⟨m, hRun, hCheck.1, hCheck.2, fun id d hRow => ?_⟩
  exact ((retry_budget_kept Sample.dispatcher (by decide) hRun).1 id d hRow).1

/-- A dead delivery is requeued with its attempts spent: it is pending with no attempt
left, and its next failure takes it over the limit. -/
theorem requeued_over_budget :
    (∃ m : Dispatching String, (dispatcherSystem Sample.impatient).Reaches
      (fun m label => steadily m label = true) (Machine.start .empty) m ∧
      ∃ d, m.world.delivery "d1" = some d ∧ d.status = .pending ∧
        ¬ d.attempts < Sample.impatient.cfg.maxAttempts) ∧
    ∃ m : Dispatching String, (dispatcherSystem Sample.impatient).Reaches
      (fun m label => steadily m label = true) (Machine.start .empty) m ∧
      ∃ d, m.world.delivery "d1" = some d ∧ ¬ d.attempts ≤ Sample.impatient.cfg.maxAttempts := by
  constructor
  · obtain ⟨m, hRun, hCheck⟩ := System.exists_reaches (dispatcherSystem Sample.impatient) steadily
      (Machine.start .empty) (Sample.emits 0 ++ Sample.refused 1 100 ++ Sample.requeues 2 200)
      (fun m => (m.world.delivery "d1").any fun d => d.status = .pending &&
        !decide (d.attempts < Sample.impatient.cfg.maxAttempts)) (by decide +kernel)
    obtain ⟨d, hRow, hOver⟩ := (Option.any_eq_true _ _).mp hCheck
    simp only [Bool.and_eq_true, decide_eq_true_eq, Bool.not_eq_true', decide_eq_false_iff_not]
      at hOver
    exact ⟨m, hRun, d, hRow, hOver⟩
  · obtain ⟨m, hRun, hCheck⟩ := System.exists_reaches (dispatcherSystem Sample.impatient) steadily
      (Machine.start .empty)
      (Sample.emits 0 ++ Sample.refused 1 100 ++ Sample.requeues 2 200 ++ Sample.refused 3 300)
      (fun m => (m.world.delivery "d1").any fun d =>
        !decide (d.attempts ≤ Sample.impatient.cfg.maxAttempts)) (by decide +kernel)
    obtain ⟨d, hRow, hOver⟩ := (Option.any_eq_true _ _).mp hCheck
    simp only [Bool.not_eq_true', decide_eq_false_iff_not] at hOver
    exact ⟨m, hRun, d, hRow, hOver⟩

end VpnPayment.Webhooks
