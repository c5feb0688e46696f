import VpnPayment.Async.Snapshot
import VpnPayment.Webhooks.Dispatcher

/-! Passes over the due deliveries that overlap. Each works from the deliveries it was
handed and writes the whole record back after the merchant's response. -/
namespace VpnPayment.Webhooks

open Async Collections

variable {Data : Type}

/-- What a task has done. -/
abbrev DispatcherPast (Data : Type) := History (DispatcherCall Data) DispatcherAns String

def DispatcherEvent.done (e : DispatcherEvent Data) :
    Σ c : DispatcherCall Data, Except String (DispatcherAns c) :=
  ⟨e.call, e.answer⟩

theorem trace_of_exec {i : Nat} {c : DispatcherCall Data} {reply : WebhookReply}
    {w w' : DispatcherWorld Data} {answer : Except String (DispatcherAns c)}
    (h : dispatcherExec i c reply w = some (answer, w')) :
    w'.trace = ⟨i, c, answer⟩ :: w.trace ∧ c.settle w reply = some (answer, w'.deliveries) := by
  obtain ⟨settled, hSettle, hEq⟩ := Option.map_eq_some_iff.mp h
  cases hEq
  exact ⟨rfl, hSettle⟩

/-- The trace records what every task has called. -/
def dispatcherRecording (dispatcher : Dispatcher Data) : Recording (dispatcherSystem dispatcher) :=
  .ofLog DispatcherEvent.task DispatcherEvent.done DispatcherWorld.trace fun hExec =>
    ⟨_, (trace_of_exec hExec).1, rfl, rfl⟩

/-- The delivery that a settled call handed out under an id. -/
def deliveryRead (h : Σ c : DispatcherCall Data, Except String (DispatcherAns c)) (id : String) :
    Option (WebhookDelivery Data) :=
  match h with
  | ⟨.findDue _ _, .ok due⟩ => (due : List (WebhookDelivery Data)).find? fun d => d.id = id
  | ⟨.findById id', .ok found⟩ => if id' = id then found else none
  | _ => none

/-- The delivery that a settled call stored. -/
def WebhookCall.wrote : (c : WebhookCall Data) → Except String (WebhookAns c) →
    Option (WebhookDelivery Data)
  | .create d, .ok _ => some d
  | .update d, .ok _ => some d
  | _, _ => none

namespace DispatcherEvent

def wrote (e : DispatcherEvent Data) : Option (WebhookDelivery Data) :=
  match e with
  | ⟨_, .enqueue c, answer⟩ => c.wrote answer
  | ⟨_, .deliver _ c, answer⟩ => c.wrote answer
  | ⟨_, .retry d, .ok _⟩ => some d
  | _ => none

/-- The delivery was stored with the status. -/
def Stores (e : DispatcherEvent Data) (id : String) (status : DeliveryStatus) : Prop :=
  ∃ d, e.wrote = some d ∧ d.id = id ∧ d.status = status

/-- The delivery was POSTed. -/
def posts (e : DispatcherEvent Data) (id : String) : Bool :=
  match e.call with
  | .deliver forDelivery (.request _) => forDelivery = id
  | _ => false

/-- `retry` requeued the delivery. -/
def retries (e : DispatcherEvent Data) (id : String) : Bool :=
  match e.call with
  | .retry d => d.id = id
  | _ => false

end DispatcherEvent

/-- Which deliveries were handed out and which were stored, by id. -/
def deliveryLog : RowLog (DispatcherEvent Data) String (WebhookDelivery Data) where
  task := DispatcherEvent.task
  reads e id := deliveryRead e.done id
  writes e id := e.wrote.any fun d => d.id = id

/-- A pass POSTs and stores a delivery only while nobody has stored it since the pass
was handed it. -/
def deliversApart (m : Dispatching Data) : Label WebhookReply (DispatcherRequest Data) → Bool
  | .spawn _ => true
  | .step i _ => match m.nextCall i with
      | some (.deliver id (.request _)) | some (.deliver id (.update _)) =>
          (deliveryLog.held i id m.world.trace).isSome
      | _ => true

/-- Once stored as delivered, and unless it is requeued, the delivery is not POSTed and
not stored with another status. -/
def DeliveredStays (trace : List (DispatcherEvent Data)) (id : String) : Prop :=
  ∀ newer e₀ older, trace = newer ++ e₀ :: older → e₀.Stores id .delivered →
    (∀ e ∈ newer, e.retries id = false) →
    ∀ e ∈ newer, e.posts id = false ∧ ∀ status, e.Stores id status → status = .delivered

namespace DispatcherPast

def lastRead (past : DispatcherPast Data) (id : String) : Option (WebhookDelivery Data) :=
  past.findSome? fun h => deliveryRead h id

/-- The task was handed the delivery as a pending one. -/
def HandedPending (past : DispatcherPast Data) (id : String) : Prop :=
  ∃ d, past.lastRead id = some d ∧ d.status = .pending

/-- What a task may call after what it has done. A delivery is created once, under an
identifier the task has drawn. -/
def Admits (past : DispatcherPast Data) : DispatcherCall Data → Prop
  | .enqueue (.create d) => ⟨.enqueue .uuid, .ok d.id⟩ ∈ past ∧
      ∀ h ∈ past, ∀ d', h.1 ≠ .enqueue (.create d')
  | .enqueue (.update _) | .deliver _ (.create _) => False
  | .deliver id (.request _) => past.HandedPending id
  | .deliver id (.update d) => d.id = id ∧ past.HandedPending id
  | _ => True

end DispatcherPast

/-- The deliveries that are due are pending. -/
def dueDeliveriesPending : (c : DispatcherCall Data) → Except String (DispatcherAns c) → Prop
  | .findDue _ _, .ok due => ∀ d ∈ (due : List (WebhookDelivery Data)), d.status = .pending
  | _, _ => True

namespace Dispatcher

open Prog (perform follows_perform follows_bind follows_mono)

variable {dispatcher : Dispatcher Data} {past : DispatcherPast Data}

/-- The program does what is admitted. -/
abbrev Keeps {α : Type} (p : DispatcherAction Data α) (past : DispatcherPast Data) : Prop :=
  p.Follows dueDeliveriesPending DispatcherPast.Admits (fun _ _ => True) past

/-- An attempt hands out no delivery. -/
theorem follows_attempt (d : WebhookDelivery Data) (h : past.HandedPending d.id) :
    (dispatcher.attempt d).Follows dueDeliveriesPending DispatcherPast.Admits
      (fun _ past' => ∀ id, DispatcherPast.lastRead past' id = past.lastRead id) past := by
  have hFail : ∀ (past' : DispatcherPast Data) attempts now error lastStatus,
      (∀ id, past'.lastRead id = past.lastRead id) →
      ((fail dispatcher.cfg dispatcher.backoff d attempts now error lastStatus).embed
        (.deliver d.id) fun _ answer => answer : DispatcherAction Data _).Follows
          dueDeliveriesPending DispatcherPast.Admits
          (fun _ past' => ∀ id, DispatcherPast.lastRead past' id = past.lastRead id) past' := by
    intro past' attempts now error lastStatus hSame
    apply Prog.follows_embed
    · obtain ⟨r, hRead, hPending⟩ := h
      exact ⟨rfl, r, (hSame d.id).trans hRead, hPending⟩
    · exact fun _ _ => hSame
    · exact fun _ _ => hSame
  apply Prog.follows_embed trivial
  · intro now _
    apply Prog.follows_embed h
    · intro status _
      dsimp only
      split
      · apply Prog.follows_embed
        · exact ⟨rfl, h⟩
        · exact fun _ _ _ => rfl
        · exact fun _ _ _ => rfl
      · exact hFail _ _ _ _ _ fun _ => rfl
    · exact fun message _ => hFail _ _ _ _ _ fun _ => rfl
  · exact fun _ _ _ => rfl

theorem keeps_deliverEach {deliveries : List (WebhookDelivery Data)} {counts : ProcessCounts}
    (h : ∀ d ∈ deliveries, past.HandedPending d.id) :
    Keeps (dispatcher.deliverEach deliveries counts) past := by
  induction deliveries generalizing past counts with
  | nil => trivial
  | cons d rest ih =>
      apply follows_bind
      apply follows_mono (fun _ _ => id) _ (follows_attempt d (h d List.mem_cons_self))
      intro result past' hSame
      cases result with
      | error e => trivial
      | ok r =>
          apply ih
          intro d' hMem
          obtain ⟨read, hRead, hPending⟩ := h d' (List.mem_cons_of_mem d hMem)
          exact ⟨read, (hSame d'.id).trans hRead, hPending⟩

theorem keeps_processDue (limit : Nat) : Keeps (dispatcher.processDue limit) [] := by
  apply follows_perform trivial
  · intro now _
    apply follows_perform trivial
    · intro due hPending
      apply keeps_deliverEach
      intro d hMem
      have hSome : (due.find? fun d' => d'.id = d.id).isSome = true :=
        List.find?_isSome.mpr ⟨d, hMem, by simp⟩
      obtain ⟨read, hRead⟩ := Option.isSome_iff_exists.mp hSome
      refine ⟨read, ?_, hPending read (List.mem_of_find?_eq_some hRead)⟩
      rw [DispatcherPast.lastRead, List.findSome?_cons, deliveryRead, hRead]
    · exact fun _ _ => trivial
  · exact fun _ _ => trivial

theorem keeps_retry (id : String) : Keeps (Dispatcher.retry id : DispatcherAction Data _) [] := by
  apply follows_perform trivial
  · intro found _
    cases found with
    | none => trivial
    | some d =>
        apply follows_perform trivial
        · intro now _
          apply And.intro trivial
          exact fun _ _ => trivial
        · exact fun _ _ => trivial
  · exact fun _ _ => trivial

theorem keeps_emit (type : OutboundEventType) (payload : Data) :
    Keeps (dispatcher.emit type payload) [] := by
  apply Prog.follows_embed trivial
  · intro now _
    apply Prog.follows_embed trivial
    · intro id _
      apply Prog.follows_embed trivial
      · intro eventId _
        apply Prog.follows_embed
        · constructor
          · exact List.mem_cons_of_mem _ List.mem_cons_self
          · intro h hMem d hCreate
            simp only [List.mem_cons, List.not_mem_nil, or_false] at hMem
            rcases hMem with rfl | rfl | rfl <;> cases hCreate
        · exact fun _ _ => trivial
        · exact fun _ _ => trivial
      · exact fun _ _ => trivial
    · exact fun _ _ => trivial
  · exact fun _ _ => trivial

/-- What is asked of a dispatcher does what is admitted. -/
theorem keeps_entry (request : DispatcherRequest Data) :
    Keeps ((dispatcherSystem dispatcher).entry request) [] := by
  have hThen : ∀ {α : Type} {p : DispatcherAction Data α}, Keeps p [] →
      Keeps (do
        let _ ← p
        pure ()) [] := by
    intro α p hFirst
    apply follows_bind
    apply follows_mono (fun _ _ => id) _ hFirst
    intro result past _
    cases result <;> trivial
  cases request with
  | emit type payload => exact hThen (keeps_emit type payload)
  | processDue limit => exact hThen (keeps_processDue limit)
  | retry id => exact hThen (keeps_retry id)

end Dispatcher

/-- What holds of the stored deliveries in runs whose passes keep apart. -/
structure DeliveriesSound (w : DispatcherWorld Data) : Prop where
  held : ∀ i id d, deliveryLog.held i id w.trace = some d → w.delivery id = some d
  unique : (w.drawn.map Prod.snd).Nodup
  created : ∀ id d, w.delivery id = some d →
    ∃ e ∈ w.trace, ∃ d', e.call = .enqueue (.create d') ∧ d'.id = id
  drawn : ∀ e ∈ w.trace, ∀ d, e.call = .enqueue (.create d) → (e.task, d.id) ∈ w.drawn
  delivered : ∀ id newer e₀ older, w.trace = newer ++ e₀ :: older → e₀.Stores id .delivered →
    (∀ e ∈ newer, e.retries id = false) → ∃ d, w.delivery id = some d ∧ d.status = .delivered
  stays : ∀ id, DeliveredStays w.trace id

section step

variable {dispatcher : Dispatcher Data} {i : Nat} {c : DispatcherCall Data} {reply : WebhookReply}
  {w w' : DispatcherWorld Data} {answer : Except String (DispatcherAns c)} {m m' : Dispatching Data}
  {label : Label WebhookReply (DispatcherRequest Data)}

theorem updateDelivery_cases (t : DeliveryTable Data) (d : WebhookDelivery Data) :
    updateDelivery t d = (.ok d, t.put d) ∨ ∃ e, updateDelivery t d = (.error e, t) := by
  unfold updateDelivery
  split
  · exact .inl rfl
  · exact .inr ⟨_, rfl⟩

/-- A call stores the delivery it wrote, and nothing else. -/
theorem deliveries_of_exec (h : dispatcherExec i c reply w = some (answer, w')) :
    (∃ d, DispatcherEvent.wrote ⟨i, c, answer⟩ = some d ∧ w'.deliveries = w.deliveries.put d) ∨
    (DispatcherEvent.wrote ⟨i, c, answer⟩ = none ∧ w'.deliveries = w.deliveries) := by
  obtain ⟨-, hSettle⟩ := trace_of_exec h
  generalize w'.deliveries = stored at hSettle ⊢
  have hInner : ∀ (c' : WebhookCall Data) (a : Except String (WebhookAns c')) (t : DeliveryTable Data),
      c'.settle w reply = some (a, t) → (∃ d, c'.wrote a = some d ∧ t = w.deliveries.put d) ∨
        (c'.wrote a = none ∧ t = w.deliveries) := by
    intro c' a t hEq
    cases c' with
    | create d =>
        cases reply <;> cases hEq
        exact .inl ⟨d, rfl, rfl⟩
    | update d =>
        cases reply <;> try cases hEq
        have hPair := Option.some.inj hEq
        rcases updateDelivery_cases w.deliveries d with hOk | ⟨e, hError⟩
        · rw [hOk] at hPair
          cases hPair
          exact .inl ⟨d, rfl, rfl⟩
        · rw [hError] at hPair
          cases hPair
          exact .inr ⟨rfl, rfl⟩
    | uuid =>
        cases reply <;> try cases hEq
        rw [WebhookCall.settle, Option.ite_none_left_eq_some] at hEq
        cases hEq.2
        exact .inr ⟨rfl, rfl⟩
    | now =>
        cases reply <;> cases hEq
        exact .inr ⟨rfl, rfl⟩
    | request req =>
        cases reply <;> cases hEq <;> exact .inr ⟨rfl, rfl⟩
  cases c with
  | enqueue c' => exact hInner c' answer _ hSettle
  | deliver id c' => exact hInner c' answer _ hSettle
  | retry d =>
      cases reply <;> try cases hSettle
      have hPair := Option.some.inj hSettle
      rcases updateDelivery_cases w.deliveries d with hOk | ⟨e, hError⟩
      · rw [hOk] at hPair
        cases hPair
        exact .inl ⟨d, rfl, rfl⟩
      · rw [hError] at hPair
        cases hPair
        exact .inr ⟨rfl, rfl⟩
  | _ =>
      cases reply <;> cases hSettle
      exact .inr ⟨rfl, rfl⟩

/-- Only `create` stores a delivery that was not there. -/
theorem known_of_wrote (h : dispatcherExec i c reply w = some (answer, w'))
    {d : WebhookDelivery Data} (hWrote : DispatcherEvent.wrote ⟨i, c, answer⟩ = some d) :
    c = .enqueue (.create d) ∨ (∃ id, c = .deliver id (.create d)) ∨
      (w.delivery d.id).isSome = true := by
  obtain ⟨-, hSettle⟩ := trace_of_exec h
  generalize w'.deliveries = stored at hSettle
  have hUpdate : ∀ (x : WebhookDelivery Data) (a : WebhookDelivery Data),
      updateDelivery w.deliveries x = (.ok a, stored) → (w.delivery x.id).isSome = true := by
    intro x a hEq
    unfold updateDelivery at hEq
    split at hEq
    · next hHas => exact hHas
    · cases hEq
  cases answer with
  | error e => cases c with
    | enqueue c' => cases c' <;> cases hWrote
    | deliver id c' => cases c' <;> cases hWrote
    | _ => cases hWrote
  | ok a =>
      cases c with
      | enqueue c' =>
          cases c' with
          | create x =>
              cases hWrote
              exact .inl rfl
          | update x =>
              cases hWrote
              cases reply <;> try cases hSettle
              exact .inr (.inr (hUpdate d a (Option.some.inj hSettle)))
          | _ => cases hWrote
      | deliver id c' =>
          cases c' with
          | create x =>
              cases hWrote
              exact .inr (.inl ⟨id, rfl⟩)
          | update x =>
              cases hWrote
              cases reply <;> try cases hSettle
              exact .inr (.inr (hUpdate d a (Option.some.inj hSettle)))
          | _ => cases hWrote
      | retry x =>
          cases hWrote
          cases reply <;> try cases hSettle
          exact .inr (.inr (hUpdate d a (Option.some.inj hSettle)))
      | _ => cases hWrote

/-- What is handed out is what is stored, and what is due is pending. -/
theorem handed_of_exec (h : dispatcherExec i c reply w = some (answer, w')) :
    dueDeliveriesPending c answer ∧
      ∀ id d, deliveryRead ⟨c, answer⟩ id = some d → w'.delivery id = some d := by
  obtain ⟨-, hSettle⟩ := trace_of_exec h
  change dueDeliveriesPending c answer ∧
    ∀ id d, deliveryRead ⟨c, answer⟩ id = some d → w'.deliveries.get? id = some d
  generalize w'.deliveries = stored at hSettle ⊢
  cases c with
  | findDue now limit =>
      cases reply <;> cases hSettle
      constructor
      · intro d hMem
        exact (MemoryWebhookRepository.mem_findDue hMem).2
      · intro id d hRead
        obtain rfl : d.id = id := by simpa using List.find?_some hRead
        exact (MemoryWebhookRepository.mem_findDue (List.mem_of_find?_eq_some hRead)).1
  | findById id' =>
      cases reply <;> cases hSettle
      apply And.intro trivial
      intro id d hRead
      simp only [deliveryRead] at hRead
      split at hRead
      · next hId => exact hId ▸ hRead
      · cases hRead
  | _ => exact ⟨trivial, fun id d hRead => by cases hRead⟩

theorem mem_drawn {e : DispatcherEvent Data} {s : String} (hMem : e ∈ w.trace)
    (hDrew : e.drew = some s) : (e.task, s) ∈ w.drawn :=
  List.mem_filterMap.mpr ⟨e, hMem, by rw [hDrew]; rfl⟩

theorem drawn_cons {e : DispatcherEvent Data} (hTrace : w'.trace = e :: w.trace) :
    w'.drawn = (e.drew.map fun s => (e.task, s)).toList ++ w.drawn := by
  rw [DispatcherWorld.drawn, hTrace, DispatcherWorld.drawn]
  cases hDrew : e.drew <;> simp [hDrew]

theorem unique_step (hExec : dispatcherExec i c reply w = some (answer, w'))
    (h : (w.drawn.map Prod.snd).Nodup) : (w'.drawn.map Prod.snd).Nodup := by
  obtain ⟨hTrace, hSettle⟩ := trace_of_exec hExec
  generalize w'.deliveries = stored at hSettle
  rw [drawn_cons hTrace]
  have hInner : ∀ (c' : WebhookCall Data) (a : Except String (WebhookAns c')),
      c'.settle w reply = some (a, stored) →
      ((((c'.drew a).map fun s => (i, s)).toList ++ w.drawn).map Prod.snd).Nodup := by
    intro c' a hEq
    cases c' with
    | uuid =>
        cases reply <;> try cases hEq
        rw [WebhookCall.settle, Option.ite_none_left_eq_some] at hEq
        obtain ⟨hFresh, hPair⟩ := hEq
        cases hPair
        exact List.nodup_cons.mpr ⟨hFresh, h⟩
    | _ => exact h
  cases c with
  | enqueue c' => exact hInner c' answer hSettle
  | deliver id c' => exact hInner c' answer hSettle
  | _ => exact h

/-- A delivery that is POSTed or stored by a pass that keeps apart is still pending. -/
theorem pending_of_apart {id : String} (hSound : DeliveriesSound m.world)
    (hHanded : DispatcherPast.HandedPending
      (ownCalls DispatcherEvent.task DispatcherEvent.done i m.world.trace) id)
    (hHeld : (deliveryLog.held i id m.world.trace).isSome = true) :
    ∃ d, m.world.delivery id = some d ∧ d.status = .pending := by
  obtain ⟨d, hIsHeld⟩ := Option.isSome_iff_exists.mp hHeld
  obtain ⟨read, hRead, hPending⟩ := hHanded
  have hLast : DispatcherPast.lastRead
      (ownCalls DispatcherEvent.task DispatcherEvent.done i m.world.trace) id = some d :=
    (RowLog.lastRead_ownCalls (L := deliveryLog) DispatcherEvent.done deliveryRead
      fun _ => rfl).trans (RowLog.lastRead_of_held hIsHeld)
  rw [hRead] at hLast
  cases hLast
  exact ⟨d, hSound.held i id d hIsHeld, hPending⟩

/-- A delivery that is stored as delivered is not touched, unless it is requeued. -/
theorem untouched_of_apart {id : String} {d : WebhookDelivery Data} (hSound : DeliveriesSound m.world)
    (hAdmits : DispatcherPast.Admits
      (ownCalls DispatcherEvent.task DispatcherEvent.done i m.world.trace) c)
    (hApart : deliversApart m (.step i reply) = true) (hCall : m.nextCall i = some c)
    (hRow : m.world.delivery id = some d) (hDelivered : d.status = .delivered)
    (hKept : DispatcherEvent.retries ⟨i, c, answer⟩ id = false) :
    DispatcherEvent.posts ⟨i, c, answer⟩ id = false ∧
      ∀ x, DispatcherEvent.wrote ⟨i, c, answer⟩ = some x → x.id ≠ id := by
  have hNotHanded : (deliveryLog.held i id m.world.trace).isSome = true →
      ¬DispatcherPast.HandedPending
        (ownCalls DispatcherEvent.task DispatcherEvent.done i m.world.trace) id := by
    intro hHeld hHanded
    obtain ⟨d', hRow', hPending⟩ := pending_of_apart hSound hHanded hHeld
    rw [hRow] at hRow'
    cases hRow'
    rw [hDelivered] at hPending
    cases hPending
  simp only [deliversApart, hCall] at hApart
  cases c with
  | enqueue c' =>
      apply And.intro rfl
      intro x hWrote hId
      cases c' with
      | create d' =>
          have hNew : x = d' := by
            cases answer with
            | ok a => exact (Option.some.inj hWrote).symm
            | error e => cases hWrote
          subst hNew
          -- The identifier was drawn once, so this task would have created the delivery.
          obtain ⟨hDrew, hFirst⟩ := hAdmits
          obtain ⟨e, hMem, hTask, hDone⟩ := exists_of_mem_ownCalls hDrew
          obtain ⟨e', hMem', d', hCreate, hId'⟩ := hSound.created id d hRow
          have hHere : (e.task, x.id) ∈ m.world.drawn := by
            apply mem_drawn hMem
            obtain ⟨task, call, answer⟩ := e
            cases hDone
            rfl
          have hThere := hSound.drawn e' hMem' d' hCreate
          have hSame := List.inj_on_of_nodup_map hSound.unique hHere hThere
            (hId.trans hId'.symm)
          have hOwn : e'.done ∈ ownCalls DispatcherEvent.task DispatcherEvent.done i m.world.trace := by
            have hTasks : e'.task = i := (congrArg Prod.fst hSame).symm.trans hTask
            exact hTasks ▸ mem_ownCalls hMem'
          exact hFirst _ hOwn d' hCreate
      | update d' => exact hAdmits
      | _ => cases hWrote
  | deliver forDelivery c' =>
      cases c' with
      | request req =>
          refine ⟨?_, fun x hWrote => (nomatch hWrote)⟩
          apply decide_eq_false
          rintro rfl
          exact hNotHanded hApart hAdmits
      | update d' =>
          apply And.intro rfl
          intro x hWrote hId
          have hNew : x = d' := by
            cases answer with
            | ok a => exact (Option.some.inj hWrote).symm
            | error e => cases hWrote
          subst hNew
          obtain ⟨rfl, hHanded⟩ := hAdmits
          subst hId
          exact hNotHanded hApart hHanded
      | create d' => exact hAdmits.elim
      | _ => exact ⟨rfl, fun x hWrote => (nomatch hWrote)⟩
  | retry d' =>
      apply And.intro rfl
      intro x hWrote hId
      have hNew : x = d' := by
        cases answer with
        | ok a => exact (Option.some.inj hWrote).symm
        | error e => cases hWrote
      subst hNew
      exact of_decide_eq_false hKept hId
  | _ => exact ⟨rfl, fun x hWrote => (nomatch hWrote)⟩

theorem delivery_of_wrote {e : DispatcherEvent Data}
    (hStored : (∃ d, e.wrote = some d ∧ w'.deliveries = w.deliveries.put d) ∨
      (e.wrote = none ∧ w'.deliveries = w.deliveries)) (id : String) :
    (∃ d, e.wrote = some d ∧ d.id = id ∧ w'.delivery id = some d) ∨
      ((∀ d, e.wrote = some d → d.id ≠ id) ∧ w'.delivery id = w.delivery id) := by
  rcases hStored with ⟨d, hWrote, hPut⟩ | ⟨hNone, hSame⟩
  · by_cases hId : d.id = id
    · refine .inl ⟨d, hWrote, hId, ?_⟩
      rw [DispatcherWorld.delivery, hPut, Table.get?_put, if_pos hId]
    · refine .inr ⟨fun x hx => ?_, ?_⟩
      · rw [hWrote] at hx
        cases hx
        exact hId
      · rw [DispatcherWorld.delivery, hPut, Table.get?_put, if_neg hId]
        rfl
  · refine .inr ⟨fun x hx => ?_, ?_⟩
    · rw [hNone] at hx
      cases hx
    · rw [DispatcherWorld.delivery, hSame]
      rfl

/-- The event on top of a log, or one below it. -/
theorem split_cons {e e₀ : DispatcherEvent Data} {trace newer older : List (DispatcherEvent Data)}
    (h : e :: trace = newer ++ e₀ :: older) :
    (newer = [] ∧ e₀ = e) ∨ ∃ rest, newer = e :: rest ∧ trace = rest ++ e₀ :: older := by
  cases newer with
  | nil => exact .inl ⟨rfl, (List.cons.inj h).1.symm⟩
  | cons first rest =>
      obtain ⟨rfl, hRest⟩ := List.cons.inj h
      exact .inr ⟨rest, rfl, hRest⟩

/-- Every call of the dispatcher that keeps apart. -/
theorem DeliveriesSound.step (hSound : DeliveriesSound m.world)
    (hFollowing : Following (dispatcherRecording dispatcher) dueDeliveriesPending
      DispatcherPast.Admits (fun _ _ => True) m)
    (hApart : deliversApart m label = true)
    (hStep : (dispatcherSystem dispatcher).step m label = some m') : DeliveriesSound m'.world := by
  obtain hSame | ⟨i, reply, c, answer, rfl, hCall, hExec⟩ := System.world_of_step hStep
  · rwa [hSame]
  have hAdmits := hFollowing.nextCall hCall
  have hTrace := (trace_of_exec hExec).1
  have hStored := deliveries_of_exec hExec
  have hDrawn : ∀ entry ∈ m.world.drawn, entry ∈ m'.world.drawn := by
    intro entry hMem
    rw [drawn_cons hTrace]
    exact List.mem_append_right _ hMem
  -- A delivery that was stored as delivered and not requeued since.
  have hQuiet : ∀ id rest e₀ older, m.world.trace = rest ++ e₀ :: older → e₀.Stores id .delivered →
      (∀ e ∈ (⟨i, c, answer⟩ :: rest : List (DispatcherEvent Data)), e.retries id = false) →
      DispatcherEvent.posts ⟨i, c, answer⟩ id = false ∧
      (∀ d, DispatcherEvent.wrote ⟨i, c, answer⟩ = some d → d.id ≠ id) ∧
      ∃ d, m.world.delivery id = some d ∧ d.status = .delivered := by
    intro id rest e₀ older hSplit hStores hKept
    obtain ⟨d, hRow, hDelivered⟩ := hSound.delivered id rest e₀ older hSplit hStores
      fun e hMem => hKept e (List.mem_cons_of_mem _ hMem)
    obtain ⟨hPosts, hWrote⟩ := untouched_of_apart hSound hAdmits hApart hCall hRow hDelivered
      (hKept _ List.mem_cons_self)
    exact ⟨hPosts, hWrote, d, hRow, hDelivered⟩
  constructor
  · intro j id d hHeld
    rw [hTrace] at hHeld
    apply RowLog.stored_of_held hSound.held _ _ hHeld
    · exact (handed_of_exec hExec).2
    · intro k hWrites
      rcases delivery_of_wrote hStored k with ⟨x, hWrote, hId, -⟩ | ⟨-, hKept⟩
      · simp [deliveryLog, hWrote, hId] at hWrites
      · exact hKept
  · exact unique_step hExec hSound.unique
  · intro id d hRow
    rw [hTrace]
    rcases delivery_of_wrote hStored id with ⟨x, hWrote, hId, -⟩ | ⟨-, hKept⟩
    · rcases known_of_wrote hExec hWrote with rfl | ⟨forDelivery, rfl⟩ | hKnown
      · exact ⟨_, List.mem_cons_self, x, rfl, hId⟩
      · exact hAdmits.elim
      · obtain ⟨old, hOld⟩ := Option.isSome_iff_exists.mp hKnown
        obtain ⟨e, hMem, d', hCreate, hId'⟩ := hSound.created x.id old hOld
        exact ⟨e, List.mem_cons_of_mem _ hMem, d', hCreate, hId'.trans hId⟩
    · rw [hKept] at hRow
      obtain ⟨e, hMem, d', hCreate, hId⟩ := hSound.created id d hRow
      exact ⟨e, List.mem_cons_of_mem _ hMem, d', hCreate, hId⟩
  · intro e hMem d hCreate
    rw [hTrace] at hMem
    rcases List.mem_cons.mp hMem with rfl | hOld
    · dsimp only at hCreate
      subst hCreate
      obtain ⟨hDrew, -⟩ := hAdmits
      obtain ⟨e', hMem', hTask, hDone⟩ := exists_of_mem_ownCalls hDrew
      apply hDrawn
      rw [← hTask]
      apply mem_drawn hMem'
      obtain ⟨task, call, answer⟩ := e'
      cases hDone
      rfl
    · exact hDrawn _ (hSound.drawn e hOld d hCreate)
  · intro id newer e₀ older hSplit hStores hKept
    rw [hTrace] at hSplit
    rcases split_cons hSplit with ⟨-, rfl⟩ | ⟨rest, rfl, hRest⟩
    · obtain ⟨d, hWrote, hId, hDelivered⟩ := hStores
      rcases delivery_of_wrote hStored id with ⟨x, hWrote', -, hRow⟩ | ⟨hNot, -⟩
      · rw [hWrote] at hWrote'
        cases hWrote'
        exact ⟨d, hRow, hDelivered⟩
      · exact absurd hId (hNot d hWrote)
    · obtain ⟨-, hNot, d, hRow, hDelivered⟩ := hQuiet id rest e₀ older hRest hStores hKept
      rcases delivery_of_wrote hStored id with ⟨x, hWrote, hId, -⟩ | ⟨-, hSame⟩
      · exact absurd hId (hNot x hWrote)
      · exact ⟨d, hSame.trans hRow, hDelivered⟩
  · intro id newer e₀ older hSplit hStores hKept e hMem
    rw [hTrace] at hSplit
    rcases split_cons hSplit with ⟨rfl, -⟩ | ⟨rest, rfl, hRest⟩
    · cases hMem
    · rcases List.mem_cons.mp hMem with rfl | hOld
      · obtain ⟨hPosts, hNot, -⟩ := hQuiet id rest e₀ older hRest hStores hKept
        apply And.intro hPosts
        intro status hStores'
        obtain ⟨d, hWrote, hId, -⟩ := hStores'
        exact absurd hId (hNot d hWrote)
      · exact hSound.stays id rest e₀ older hRest hStores
          (fun e hMem' => hKept e (List.mem_cons_of_mem _ hMem')) e hOld

end step

/-- As long as passes keep apart on each delivery, a delivery that was stored as
delivered stays so and is not POSTed again, unless it is requeued. -/
theorem delivered_stays_while_apart (dispatcher : Dispatcher Data) {m : Dispatching Data}
    (hRun : (dispatcherSystem dispatcher).Reaches (fun m label => deliversApart m label = true)
      (Machine.start .empty) m) (id : String) : DeliveredStays m.world.trace id := by
  have hHolds : DeliveriesSound m.world ∧ Following (dispatcherRecording dispatcher)
      dueDeliveriesPending DispatcherPast.Admits (fun _ _ => True) m := by
    apply hRun.invariant (P := fun m => DeliveriesSound m.world ∧
      Following (dispatcherRecording dispatcher) dueDeliveriesPending DispatcherPast.Admits
        (fun _ _ => True) m)
    · intro m label m' hApart hStep hHolds
      constructor
      · exact hHolds.1.step hHolds.2 hApart hStep
      · apply hHolds.2.step (fun request _ => Dispatcher.keeps_entry request) _ hStep
        intro i reply c answer w' _ _ hExec
        exact (handed_of_exec hExec).1
    · constructor
      · constructor
        · intro i id d hHeld
          cases hHeld
        · exact List.nodup_nil
        · intro id d hRow
          cases hRow
        · intro e hMem
          cases hMem
        · intro id newer e₀ older hSplit
          cases newer <;> cases hSplit
        · intro id newer e₀ older hSplit
          cases newer <;> cases hSplit
      · exact following_start fun _ => rfl
  exact hHolds.1.stays id

namespace Sample

def dispatcher : Dispatcher String where
  hmac _ message := message
  stringify envelope := envelope.data
  cfg := ⟨"https://shop.example/hook", "secret", 3⟩
  backoff := defaultBackoff

/-- A task publishes an event as delivery `d1`. -/
def emits (task : Nat) : List (Label WebhookReply (DispatcherRequest String)) :=
  [.spawn (.emit .orderFulfilled "o1"), .step task (.time 0), .step task (.text "d1"),
    .step task (.text "e1"), .step task .normal]

/-- A pass takes the delivery and is about to POST it. -/
def takes (task : Nat) : List (Label WebhookReply (DispatcherRequest String)) :=
  [.spawn (.processDue 50), .step task (.time 100), .step task .normal, .step task (.time 100)]

end Sample

/-- A pass on its own delivers an event, and a later pass finds nothing. -/
theorem delivered_stays_sample : ∃ m : Dispatching String,
    (dispatcherSystem Sample.dispatcher).Reaches (fun m label => deliversApart m label = true)
      (Machine.start .empty) m ∧
    (m.world.delivery "d1").map WebhookDelivery.status = some .delivered ∧
    DeliveredStays m.world.trace "d1" := by
  obtain ⟨m, hRun, hCheck⟩ := System.exists_reaches (dispatcherSystem Sample.dispatcher)
    deliversApart (Machine.start .empty)
    (Sample.emits 0 ++ Sample.takes 1 ++ [.step 1 (.status 200), .step 1 .normal,
      .spawn (.processDue 50), .step 2 (.time 200), .step 2 .normal])
    (fun m => (m.world.delivery "d1").map WebhookDelivery.status = some .delivered)
    (by decide +kernel)
  exact ⟨m, hRun, of_decide_eq_true hCheck, delivered_stays_while_apart Sample.dispatcher hRun "d1"⟩

/-- Pass 1 waits for the merchant's response while pass 2 delivers `d1`. Then the POST of
pass 1 fails, and it stores `d1` as pending. -/
theorem slow_pass_undoes_delivery : ∃ m : Dispatching String,
    (dispatcherSystem Sample.dispatcher).Reaches (fun _ _ => True) (Machine.start .empty) m ∧
    (m.world.delivery "d1").map WebhookDelivery.status = some .pending ∧
    ¬DeliveredStays m.world.trace "d1" := by
  obtain ⟨m, hRun, hCheck⟩ := System.exists_reaches (dispatcherSystem Sample.dispatcher)
    (fun _ _ => true) (Machine.start .empty)
    (Sample.emits 0 ++ Sample.takes 1 ++ Sample.takes 2 ++
      [.step 2 (.status 200), .step 2 .normal, .step 1 (.fails "timeout"), .step 1 .normal])
    (fun m => (m.world.delivery "d1").map WebhookDelivery.status = some .pending &&
      ((m.world.trace.drop 2).head?.any fun e =>
        (e.wrote.any fun d => d.id = "d1" && d.status = .delivered)) &&
      (m.world.trace.take 2).all (fun e => !e.retries "d1") &&
      (m.world.trace.take 2).any fun e => e.wrote.any fun d => d.id = "d1" && d.status = .pending)
    (by decide +kernel)
  simp only [Bool.and_eq_true, decide_eq_true_eq, Option.any_eq_true, List.all_eq_true,
    List.any_eq_true, Bool.not_eq_true'] at hCheck
  obtain ⟨⟨⟨hPending, e₀, hHead, d₀, hWrote₀, hId₀, hDelivered⟩, hKept⟩, e, hMem, d, hWrote, hId,
    hAgain⟩ := hCheck
  refine ⟨m, hRun.mono fun _ _ _ _ _ => trivial, hPending, ?_⟩
  intro hStays
  have hSplit : m.world.trace = m.world.trace.take 2 ++ e₀ :: (m.world.trace.drop 2).tail := by
    rw [List.cons_head?_tail (Option.mem_def.mpr hHead), List.take_append_drop]
  have hStatus := (hStays _ e₀ _ hSplit ⟨d₀, hWrote₀, hId₀, hDelivered⟩ hKept e hMem).2 .pending
    ⟨d, hWrote, hId, hAgain⟩
  cases hStatus

end VpnPayment.Webhooks
