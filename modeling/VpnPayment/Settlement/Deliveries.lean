import VpnPayment.Services.Calls
import VpnPayment.Settlement.Healthy

/-! Notifications of payments that are handled one after another while no dependency
fails. What is not recorded of a notification does not matter to the next ones. -/
namespace VpnPayment

open Async Collections
open Prog (perform)

/-- A notification of a provider: when it arrives, what its verification finds, and the
identifier that is drawn if it starts a subscription. -/
structure Delivery where
  arrival : Int
  method : PaymentMethod
  raw : RawCallback
  result : CallbackResult
  drawn : String

/-- How the environment replies while the notification is handled. -/
def Delivery.reply (d : Delivery) : Call → Reply
  | .verifyCallback _ _ => .callback d.result
  | .uuid => .text d.drawn
  | .tick => .time d.arrival
  | _ => .normal

/-- What the notification is recorded as. -/
def Delivery.eventKey (d : Delivery) : String :=
  s!"cb:{d.method.name}:{d.result.eventId}"

def delivering (b : Backend) (i : Nat) (d : Delivery) : Executor Call Ans AppError World Reply :=
  fun c _ w => exec b i c (d.reply c) w

/-- The notification reports no payment, names no order, or fails the check of the currency
or of the amount. -/
def rejected (deps : Deps) (w : World) (d : Delivery) : Bool :=
  !d.result.paid || (w.store.orders.findByOutTradeNo deps.backend d.result.outTradeNo).all fun o =>
    d.result.currency ≠ o.currency || d.result.paidAmount.ltInt o.amount

/-- The notifications are handled one after another from task `i` on, each in the world it
arrives in. -/
inductive Delivers {Key : Type} (locker : String → Key) (deps : Deps) :
    Nat → World → List (World × Delivery) → World → Prop
  | nil (i : Nat) (w : World) : Delivers locker deps i w [] w
  | cons {i : Nat} {w arrived handled finish : World} {d : Delivery} {run : List (World × Delivery)}
      {result : Except AppError Outcome}
      (tick : (serve locker deps .tick).RunsTo (delivering deps.backend i d) w (.ok .done) arrived)
      (callback : (serve locker deps (.handleCallback d.method d.raw)).RunsTo
        (delivering deps.backend (i + 1) d) arrived result handled)
      (rest : Delivers locker deps (i + 2) handled run finish) :
      Delivers locker deps i w ((arrived, d) :: run) finish

/-- What is left of a run without the notifications that were rejected when they arrived. -/
def accepted (deps : Deps) (run : List (World × Delivery)) : List Delivery :=
  (run.filter fun x => !rejected deps x.1 x.2).map Prod.snd

/-- The events emitted so far, newest first. -/
def World.emitted (w : World) : List (OutboundEventType × Payload) :=
  w.trace.filterMap fun e => match e.call with
    | .emit type payload => some (type, payload)
    | _ => none

/-- The orders handed to the sweep pipeline so far, newest first. -/
def World.handedOver (w : World) : List Order :=
  w.trace.filterMap fun e => match e.call with
    | .onUsdtSettled o => some o
    | _ => none

/-- The worlds differ in the clock, in who drew which identifier, and in the records of
other events than these. -/
structure Alike (keys : List String) (w v : World) : Prop where
  orders : w.store.orders = v.store.orders
  refunds : w.store.refunds = v.store.refunds
  subscriptions : w.store.subscriptions = v.store.subscriptions
  issued : w.issued.map Prod.snd = v.issued.map Prod.snd
  emitted : w.emitted = v.emitted
  handedOver : w.handedOver = v.handedOver
  processed : ∀ k ∈ keys, w.store.processed.has k = v.store.processed.has k

section alike

variable {b : Backend} {i j : Nat} {c : Call} {reply : Reply} {w w₁ v : World} {keys : List String}
  {answer : Except AppError (Ans c)}

/-- Alike worlds differ in their processed events at most. -/
theorem Alike.store (h : Alike keys w v) : v.store = { w.store with processed := v.store.processed } := by
  show v.store = ⟨w.store.orders, w.store.refunds, w.store.subscriptions, v.store.processed⟩
  rw [h.orders, h.refunds, h.subscriptions]

/-- Alike worlds have the same identifiers in use. -/
theorem Alike.unused (h : Alike keys w v) (id : String) : w.Unused id ↔ v.Unused id := by
  have hIssued : (∀ entry ∈ w.issued, entry.2 ≠ id) ↔ ∀ entry ∈ v.issued, entry.2 ≠ id := by
    rw [← List.forall_mem_map (P := fun x => x ≠ id), h.issued, List.forall_mem_map]
  simp only [World.Unused, hIssued, h.orders, h.refunds, h.subscriptions]

/-- The calls whose answer depends on the records of these events only. -/
def Call.recordsOnly (keys : List String) : Call → Prop
  | .markIfNew k => k ∈ keys
  | .sweep _ => False
  | _ => True

/-- What a call does to the rest of the store does not depend on the recorded events. -/
theorem effect_processed {effect : Store → Except AppError (Ans c × Store)} {clock : Int}
    (hEffect : storeEffect b clock c = some effect) (hMark : ∀ k, c ≠ .markIfNew k)
    (hSweep : ∀ t, c ≠ .sweep t) (s : Store) (processed : EventStore) :
    effect { s with processed := processed } =
        (effect s).map (fun out => (out.1, { out.2 with processed := processed })) ∧
      ∀ a s', effect s = .ok (a, s') → s'.processed = s.processed := by
  -- a repository call that may be rejected writes one part of the store
  have hWrite : ∀ {α β : Type} (result : Except AppError α) (a : β) (put : Store → α → Store),
      (∀ s t, put { s with processed := processed } t = { put s t with processed := processed }) →
      (∀ s t, (put s t).processed = s.processed) →
      ((result.map fun t => (a, put { s with processed := processed } t)) =
          (result.map fun t => (a, put s t)).map
            (fun out => (out.1, { out.2 with processed := processed }))) ∧
        ∀ a' s', (result.map fun t => (a, put s t)) = .ok (a', s') → s'.processed = s.processed := by
    intro α β result a put hPut hKeeps
    cases result with
    | error e => exact ⟨rfl, nofun⟩
    | ok t =>
        refine ⟨by simp [Except.map, hPut], ?_⟩
        rintro _ _ ⟨⟩
        exact hKeeps s t
  cases c <;> simp only [storeEffect, Option.some.injEq, reduceCtorEq] at hEffect <;> subst hEffect
  case markIfNew k => exact absurd rfl (hMark k)
  case sweep t => exact absurd rfl (hSweep t)
  case ordersCreate o =>
    exact hWrite _ o (fun s t => { s with orders := t }) (fun _ _ => rfl) fun _ _ => rfl
  case ordersUpdate o =>
    exact hWrite _ o (fun s t => { s with orders := t }) (fun _ _ => rfl) fun _ _ => rfl
  case refundsCreate r =>
    exact hWrite _ r (fun s t => { s with refunds := t }) (fun _ _ => rfl) fun _ _ => rfl
  case subscriptionsCreate sub =>
    exact hWrite _ sub (fun s t => { s with subscriptions := t }) (fun _ _ => rfl) fun _ _ => rfl
  case subscriptionsUpdate sub =>
    exact hWrite _ sub (fun s t => { s with subscriptions := t }) (fun _ _ => rfl) fun _ _ => rfl
  all_goals
    refine ⟨rfl, ?_⟩
    rintro _ _ ⟨⟩
    rfl

/-- What a call that does not reach the store answers does not depend on the rest. -/
theorem outsideAnswer_alike (h : Alike keys w v) (hClock : w.clock = v.clock) (c : Call)
    (reply : Reply) : outsideAnswer w c reply = outsideAnswer v c reply := by
  cases c with
  | now => cases reply <;> simp [outsideAnswer, hClock]
  | uuid => cases reply <;> simp [outsideAnswer, h.unused]
  | _ => cases reply <;> rfl

/-- An event emits one notification, or none. -/
theorem emitted_log (w : World) (e : Event) : (w.log e).emitted = (match e.call with
    | .emit type payload => some (type, payload)
    | _ => none).toList ++ w.emitted := by
  rw [World.emitted, World.log, List.filterMap_cons]
  cases e.call <;> rfl

/-- An event hands one order over, or none. -/
theorem handedOver_log (w : World) (e : Event) : (w.log e).handedOver = (match e.call with
    | .onUsdtSettled o => some o
    | _ => none).toList ++ w.handedOver := by
  rw [World.handedOver, World.log, List.filterMap_cons]
  cases e.call <;> rfl

/-- A call that is recorded in both worlds. -/
theorem Alike.log (h : Alike keys w v) (applied applied' : Bool) (answer' : Except AppError (Ans c)) :
    Alike keys (w.log ⟨i, c, answer, applied⟩) (v.log ⟨j, c, answer', applied'⟩) where
  orders := h.orders
  refunds := h.refunds
  subscriptions := h.subscriptions
  issued := h.issued
  emitted := by rw [emitted_log, emitted_log, h.emitted]
  handedOver := by rw [handedOver_log, handedOver_log, h.handedOver]
  processed := h.processed

/-- A record is made in both worlds or in neither. -/
theorem has_markIfNew {s s' : EventStore} {k k' : String} {now now' : Int} (hSame : s.has k = s'.has k)
    (hOther : s.has k' = s'.has k') : (s.markIfNew b k now).1 = (s'.markIfNew b k now').1 ∧
      (s.markIfNew b k now).2.has k' = (s'.markIfNew b k now').2.has k' := by
  rw [EventStore.markIfNew_eq, EventStore.markIfNew_eq, ← hSame]
  cases hKnown : s.has k with
  | true => exact ⟨rfl, hOther⟩
  | false =>
      refine ⟨rfl, ?_⟩
      by_cases hKey : k = k'
      · simp [Table.has, hKey]
      · simpa [Table.has, hKey] using hOther

/-- The clock and the identifiers are noted alike. -/
theorem noted_alike (hAlike : Alike keys w v) (hClock : w.clock = v.clock) (c : Call) (reply : Reply) :
    Alike keys (noted i w c reply) (noted j v c reply) ∧
      (noted i w c reply).clock = (noted j v c reply).clock := by
  unfold noted
  split
  · refine ⟨{ hAlike with issued := ?_ }, hClock⟩
    simp [hAlike.issued]
  · exact ⟨{ hAlike with }, rfl⟩
  · exact ⟨hAlike, hClock⟩

/-- A repository takes the call in both worlds or rejects it in both. -/
theorem effect_alike {effect : Store → Except AppError (Ans c × Store)} (hAlike : Alike keys w v)
    (hCall : c.recordsOnly keys) (hEffect : storeEffect b w.clock c = some effect) :
    (∃ a s t, effect w.store = .ok (a, s) ∧ effect v.store = .ok (a, t) ∧
      Alike keys { w with store := s } { v with store := t }) ∨
    ∃ e, effect w.store = .error e ∧ effect v.store = .error e := by
  by_cases hMark : ∃ k, c = .markIfNew k
  · obtain ⟨k, rfl⟩ := hMark
    have hSame := hAlike.processed k hCall
    cases hEffect
    refine .inl ⟨_, _, _, rfl, congrArg Except.ok (Prod.ext ?_ rfl),
      { hAlike with processed := fun k' hMem => ?_ }⟩
    · exact (has_markIfNew hSame hSame).1.symm
    · exact (has_markIfNew hSame (hAlike.processed k' hMem)).2
  · have hNoMark : ∀ k, c ≠ .markIfNew k := fun k hEq => hMark ⟨k, hEq⟩
    have hNoSweep : ∀ t, c ≠ .sweep t := by
      rintro t rfl
      exact hCall
    obtain ⟨hRest, hProcessed⟩ := effect_processed hEffect hNoMark hNoSweep w.store v.store.processed
    rw [← hAlike.store] at hRest
    cases hTaken : effect w.store with
    | error e => exact .inr ⟨e, rfl, by rw [hRest, hTaken]; rfl⟩
    | ok out =>
        obtain ⟨a, s⟩ := out
        rw [hTaken] at hRest
        refine .inl ⟨a, s, _, rfl, hRest, rfl, rfl, rfl, hAlike.issued, hAlike.emitted,
          hAlike.handedOver, fun k hMem => ?_⟩
        show s.processed.has k = v.store.processed.has k
        rw [hProcessed a s hTaken, hAlike.processed k hMem]

/-- A call of the outside that does not fail is answered. -/
theorem exec_of_outside (hReply : reply.fails = false) (hEffect : storeEffect b w.clock c = none) :
    exec b i c reply w = (outsideAnswer w c reply).map fun a =>
      (.ok a, (noted i w c reply).log ⟨i, c, .ok a, false⟩) := by
  cases reply with
  | throws applied e => cases hReply
  | _ => simp only [exec, hEffect]

/-- Alike worlds stay alike when the same call is made in both. -/
theorem exec_alike (hAlike : Alike keys w v) (hClock : w.clock = v.clock) (hCall : c.recordsOnly keys)
    (hReply : reply.fails = false) (hExec : exec b i c reply w = some (answer, w₁)) :
    ∃ v₁, exec b j c reply v = some (answer, v₁) ∧ Alike keys w₁ v₁ ∧ w₁.clock = v₁.clock := by
  cases hEffect : storeEffect b w.clock c with
  | none =>
      have hEffect' : storeEffect b v.clock c = none := hClock ▸ hEffect
      rw [exec_of_outside hReply hEffect] at hExec
      rw [exec_of_outside hReply hEffect', ← outsideAnswer_alike hAlike hClock]
      obtain ⟨a, hAnswer, hEq⟩ := Option.map_eq_some_iff.mp hExec
      cases hEq
      obtain ⟨hNoted, hTime⟩ := noted_alike (i := i) (j := j) hAlike hClock c reply
      exact ⟨_, by rw [hAnswer, Option.map_some], hNoted.log false false _, hTime⟩
  | some effect =>
      have hEffect' : storeEffect b v.clock c = some effect := hClock ▸ hEffect
      cases reply with
      | throws applied e => cases hReply
      | normal =>
          simp only [exec, hEffect] at hExec
          simp only [exec, hEffect']
          obtain ⟨a, s, t, hTaken, hTaken', hStores⟩ | ⟨e, hRejected, hRejected'⟩ :=
            effect_alike hAlike hCall hEffect
          · rw [hTaken] at hExec
            cases hExec
            exact ⟨_, by rw [hTaken'], hStores.log true true _, hClock⟩
          · rw [hRejected] at hExec
            cases hExec
            exact ⟨_, by rw [hRejected'], hAlike.log false false _, hClock⟩
      | _ => simp [exec, hEffect] at hExec

/-- The call neither emits an event nor hands an order over. -/
def Call.silent : Call → Bool
  | .emit _ _ | .onUsdtSettled _ => false
  | _ => true

/-- A silent call leaves alike worlds alike. -/
theorem alike_log (hAlike : Alike keys w v) (hSilent : c.silent = true) (applied : Bool) :
    Alike keys w (v.log ⟨j, c, answer, applied⟩) :=
  { hAlike with
    emitted := by
      rw [emitted_log, hAlike.emitted]
      cases c <;> first | rfl | cases hSilent
    handedOver := by
      rw [handedOver_log, hAlike.handedOver]
      cases c <;> first | rfl | cases hSilent }

theorem alike_refl (keys : List String) (w : World) : Alike keys w w :=
  ⟨rfl, rfl, rfl, rfl, rfl, rfl, fun _ _ => rfl⟩

/-- The record of another event. -/
theorem alike_marked {k : String} {now : Int} (hAlike : Alike keys w v) (hOther : k ∉ keys) :
    Alike keys w { v with
      store := { v.store with processed := (v.store.processed.markIfNew b k now).2 } } :=
  { hAlike with
    processed := fun k' hMem => by
      have hNe : k ≠ k' := by
        rintro rfl
        exact hOther hMem
      rw [hAlike.processed k' hMem, EventStore.markIfNew_eq]
      split
      · rfl
      · simp [Table.has, hNe] }

end alike

section callback

variable {Key : Type} {locker : String → Key} {deps : Deps} {i : Nat} {w w' : World} {d : Delivery}
  {keys : List String}

theorem OrderStore.get?_of_findByOutTradeNo {b : Backend} {s : OrderStore} {no : String} {o : Order}
    (hFind : s.findByOutTradeNo b no = some o) : s.byId.get? o.id = some o := by
  cases b with
  | memory =>
      obtain ⟨id, -, hRow⟩ := Option.bind_eq_some_iff.mp hFind
      exact Table.key_of_get? hRow ▸ hRow
  | sql => exact Table.get?_of_mem (List.mem_of_find?_eq_some hFind)

/-- The order that the notification reaches while it is PENDING. -/
def reached (deps : Deps) (w : World) (d : Delivery) : Option Order :=
  if (deps.providers d.method).isSome && d.result.paid && !w.store.processed.has d.eventKey then
    (w.store.orders.findByOutTradeNo deps.backend d.result.outTradeNo).filter fun o =>
      o.status = .PENDING
  else none

/-- The order that the notification settles: it reaches the order and passes the checks. -/
def settledBy (deps : Deps) (w : World) (d : Delivery) : Option Order :=
  (reached deps w d).filter fun o =>
    d.result.currency = o.currency && !d.result.paidAmount.ltInt o.amount

/-- A settlement ends alike on the same orders and subscriptions. -/
theorem SettleEnds.of_same {order : Order} {w₁ : World} (hEnds : SettleEnds deps w₁ order w')
    (hOrders : w₁.store.orders = w.store.orders)
    (hSubscriptions : w₁.store.subscriptions = w.store.subscriptions) (hClock : w₁.clock = w.clock) :
    SettleEnds deps w order w' where
  others id hNe := (hEnds.others id hNe).trans (World.order_congr hOrders id)
  status := by
    have hAccepts : accepts deps w₁ order = accepts deps w order := by
      simp only [accepts, hSubscriptions, hClock]
    rw [← hAccepts]
    exact hEnds.status

/-- A delivery is answered as a healthy outside does. -/
theorem healthy_delivering (b : Backend) (i : Nat) (d : Delivery) : Healthy b i (delivering b i d) where
  settles {c} _ _ _ _ hExec := by
    refine ⟨d.reply c, ?_, hExec⟩
    unfold Delivery.reply
    split <;> rfl

section steps

variable {α : Type} {b : Backend} {Q : Except AppError α → World → Prop} {w₁ : World}

/-- Verification answers the result of the delivery. -/
theorem ends_verify {f : CallbackResult → Action Key α} (hAlike : Alike keys w w₁)
    (hOk : ∀ w₂, Alike keys w w₂ → w₂.store = w₁.store → w₂.clock = w₁.clock →
      (f d.result).Ends (delivering b i d) Q w₂) :
    (perform (Call.verifyCallback d.method d.raw) >>= f).Ends (delivering b i d) Q w₁ := by
  let w₂ := w₁.log ⟨i, .verifyCallback d.method d.raw, .ok d.result, false⟩
  have hExec : ∀ reply, delivering b i d (.verifyCallback d.method d.raw) reply w₁ =
      some (.ok d.result, w₂) := fun _ => rfl
  exact Prog.ends_determined hExec (hOk w₂ (alike_log hAlike rfl false) rfl rfl)

/-- A call that reads the store. -/
theorem ends_reading {c : Call} {f : Ans c → Action Key α} {value : Store → Ans c}
    (hEffect : storeEffect b w₁.clock c = some fun s => .ok (value s, s)) (hReply : d.reply c = .normal)
    (hSilent : c.silent = true) (hAlike : Alike keys w w₁)
    (hOk : ∀ w₂, Alike keys w w₂ → w₂.store = w₁.store → w₂.clock = w₁.clock →
      (f (value w₁.store)).Ends (delivering b i d) Q w₂) :
    (perform c >>= f).Ends (delivering b i d) Q w₁ := by
  let w₂ := w₁.log ⟨i, c, .ok (value w₁.store), true⟩
  have hExec : ∀ reply, delivering b i d c reply w₁ = some (.ok (value w₁.store), w₂) := by
    intro reply
    simp only [delivering, hReply, exec, hEffect]
    rfl
  exact Prog.ends_determined hExec (hOk w₂ (alike_log hAlike hSilent true) rfl rfl)

/-- The record of the notification. -/
theorem ends_recording {f : Bool → Action Key α} (hAlike : Alike keys w w₁)
    (hOther : d.eventKey ∉ keys) (hOk : ∀ w₂, Alike keys w w₂ → w₂.store.orders = w₁.store.orders →
      w₂.clock = w₁.clock →
      (f (!w₁.store.processed.has d.eventKey)).Ends (delivering b i d) Q w₂) :
    (perform (Call.markIfNew d.eventKey) >>= f).Ends (delivering b i d) Q w₁ := by
  let marked := w₁.store.processed.markIfNew b d.eventKey w₁.clock
  let w₂ := { w₁ with store := { w₁.store with processed := marked.2 } }.log
    ⟨i, .markIfNew d.eventKey, .ok marked.1, true⟩
  have hExec : ∀ reply, delivering b i d (.markIfNew d.eventKey) reply w₁ =
      some (.ok marked.1, w₂) := fun _ => rfl
  have hNew : marked.1 = !w₁.store.processed.has d.eventKey := by
    simp only [marked, EventStore.markIfNew_eq]
    cases w₁.store.processed.has d.eventKey <;> rfl
  refine Prog.ends_determined hExec ?_
  rw [hNew]
  exact hOk w₂ (alike_log (alike_marked hAlike hOther) rfl true) rfl rfl

end steps

/-- A notification settles the order it is for, or it leaves nothing but its own record. -/
def CallbackEnds (deps : Deps) (keys : List String) (w : World) (d : Delivery) (w' : World) : Prop :=
  match settledBy deps w d with
  | some o => SettleEnds deps w o w'
  | none => Alike keys w w'

/-- A callback that settles nothing is acknowledged. -/
theorem handled_of_none (hNone : settledBy deps w d = none) (hAlike : Alike keys w w') :
    CallbackEnds deps keys w d w' := by
  rw [CallbackEnds, hNone]
  exact hAlike

/-- A callback that settles an order ends in its settlement. -/
theorem handled_of_some {o : Order} (hSome : settledBy deps w d = some o)
    (hEnds : SettleEnds deps w o w') : CallbackEnds deps keys w d w' := by
  rw [CallbackEnds, hSome]
  exact hEnds

/-- The locked part, once the order was found. -/
theorem ends_settleFresh {o : Order} {w₁ : World} (hAlike : Alike keys w w₁) (hClock : w₁.clock = w.clock)
    (hStored : w₁.order o.id = some o)
    (hReached : reached deps w d = (some o).filter fun o => o.status = .PENDING) :
    (PaymentService.settleFresh deps o
        ⟨d.result.providerTxnId, d.result.paidAmount, d.result.currency⟩ : Action Key Order).Ends
      (delivering deps.backend i d) (fun _ w' => CallbackEnds deps keys w d w') w₁ := by
  unfold PaymentService.settleFresh
  split_ifs with hPaid hTerminal hCurrency hAmount
  · refine handled_of_none ?_ hAlike
    rcases hPaid with hStatus | hStatus <;> simp [settledBy, hReached, Option.filter, hStatus]
  · refine handled_of_none ?_ hAlike
    have hStatus : o.status ≠ .PENDING := by
      intro hEq
      rw [hEq] at hTerminal
      cases hTerminal
    simp [settledBy, hReached, Option.filter, hStatus]
  · refine handled_of_none ?_ hAlike
    have hOther : ¬d.result.currency = o.currency := hCurrency
    by_cases hStatus : o.status = .PENDING <;>
      simp [settledBy, hReached, Option.filter, hStatus, hOther]
  · refine handled_of_none ?_ hAlike
    have hLess : d.result.paidAmount.ltInt o.amount = true := hAmount
    by_cases hStatus : o.status = .PENDING <;>
      simp [settledBy, hReached, Option.filter, hStatus, hLess]
  · have hPending : o.status = .PENDING := by
      cases hStatus : o.status <;> simp_all [isTerminal, TRANSITIONS]
    refine Prog.ends_mono (fun _ w' hEnds => handled_of_some (o := o) ?_ ?_)
      (ends_settle (healthy_delivering deps.backend i d) hPending hStored)
    · have hSame : d.result.currency = o.currency := by simpa using hCurrency
      have hEnough : d.result.paidAmount.ltInt o.amount = false := by simpa using hAmount
      simp [settledBy, hReached, Option.filter, hPending, hSame, hEnough]
    · exact hEnds.of_same hAlike.orders.symm hAlike.subscriptions.symm hClock

/-- Every end of a callback, for an event that was not processed before. -/
theorem ends_callback (hOther : d.eventKey ∉ keys) :
    (serve locker deps (.handleCallback d.method d.raw)).Ends (delivering deps.backend i d)
      (fun _ w' => CallbackEnds deps keys w d w') w := by
  refine Prog.ends_bind (R := fun _ w' => CallbackEnds deps keys w d w') ?_ (fun _ _ h => h) fun _ _ h => h
  unfold PaymentService.handleCallback
  refine Prog.ends_ofExcept (fun provider hProvider => ?_) fun e hError => ?_
  swap
  · have hNone : deps.providers d.method = none := by
      unfold PaymentService.provider at hError
      split at hError
      · cases hError
      · next hNone => exact hNone
    exact handled_of_none (by simp [settledBy, reached, hNone]) (alike_refl keys w)
  have hEnabled : (deps.providers d.method).isSome = true := by
    unfold PaymentService.provider at hProvider
    split at hProvider
    · next hSome => simp [hSome]
    · cases hProvider
  refine ends_verify (alike_refl keys w) fun w₁ h₁ hStore₁ hClock₁ => ?_
  split
  · next hUnpaid => exact handled_of_none (by simp [settledBy, reached, hUnpaid]) h₁
  next hPaid =>
  refine ends_recording h₁ hOther fun w₂ h₂ hOrders₂ hClock₂ => ?_
  rw [hStore₁] at hOrders₂ ⊢
  cases hKnown : w.store.processed.has d.eventKey with
  | true => exact handled_of_none (by simp [settledBy, reached, hKnown]) h₂
  | false =>
      have hReached : reached deps w d = (w.store.orders.findByOutTradeNo deps.backend
          d.result.outTradeNo).filter fun o => o.status = .PENDING := by
        have hReported : d.result.paid = true := by simpa using hPaid
        simp [reached, hEnabled, hKnown, hReported]
      refine ends_reading rfl rfl rfl h₂ fun w₃ h₃ hStore₃ hClock₃ => ?_
      rw [hOrders₂]
      cases hFind : w.store.orders.findByOutTradeNo deps.backend d.result.outTradeNo with
      | none => exact handled_of_none (by rw [settledBy, hReached, hFind]; rfl) h₃
      | some o =>
          have hRow : w.store.orders.findById deps.backend o.id = some o :=
            (OrderStore.findById_eq deps.backend _ o.id).trans (OrderStore.get?_of_findByOutTradeNo hFind)
          refine Prog.ends_tryCatch (R := fun _ w' => CallbackEnds deps keys w d w') ?_ (fun _ _ h => h)
            fun _ _ h => h
          refine Prog.ends_bind (R := fun _ w' => CallbackEnds deps keys w d w') ?_ (fun _ _ h => h)
            fun _ _ h => h
          apply Prog.ends_withLock
          refine ends_reading rfl rfl rfl h₃ fun w₄ h₄ hStore₄ hClock₄ => ?_
          rw [hStore₃, hOrders₂, hRow]
          refine ends_settleFresh h₄ ?_ ?_ (hReached.trans (by rw [hFind]))
          · rw [hClock₄, hClock₃, hClock₂, hClock₁]
          · show w₄.store.orders.byId.get? o.id = some o
            rw [hStore₄, hStore₃, hOrders₂]
            exact OrderStore.get?_of_findByOutTradeNo hFind

theorem recordsOnly_of_settlement {c : Call} (hCall : c.ofSettlement = true) : c.recordsOnly keys := by
  cases c <;> trivial

/-- In a world that knows the same of the notification it is handled in the same way. -/
theorem callback_alike {j : Nat} {v : World} {result : Except AppError Outcome}
    (hAlike : Alike keys w v) (hClock : w.clock = v.clock) (hKey : d.eventKey ∈ keys)
    (hRun : (serve locker deps (.handleCallback d.method d.raw)).RunsTo
      (delivering deps.backend i d) w result w') :
    ∃ v', (serve locker deps (.handleCallback d.method d.raw)).RunsTo
      (delivering deps.backend j d) v result v' ∧ Alike keys w' v' := by
  have hExec : ∀ c reply s answer s₁ t, c.recordsOnly keys → (Alike keys s t ∧ s.clock = t.clock) →
      delivering deps.backend i d c reply s = some (answer, s₁) →
      ∃ t₁, delivering deps.backend j d c reply t = some (answer, t₁) ∧
        Alike keys s₁ t₁ ∧ s₁.clock = t₁.clock := by
    intro c reply s answer s₁ t hCall hBoth hStep
    have hReply : (d.reply c).fails = false := by
      unfold Delivery.reply
      split <;> rfl
    exact exec_alike hBoth.1 hBoth.2 hCall hReply hStep
  simp only [serve, PaymentService.handleCallback] at hRun ⊢
  cases hProvider : PaymentService.provider deps d.method with
  | error e =>
      rw [hProvider] at hRun
      obtain ⟨rfl, rfl⟩ := hRun
      exact ⟨v, ⟨rfl, rfl⟩, hAlike⟩
  | ok provider =>
      rw [hProvider] at hRun
      obtain ⟨reply, answer, w₁, hVerify, hRest⟩ := hRun
      cases hVerify
      have hVerified : Alike keys (w.log ⟨i, .verifyCallback d.method d.raw, .ok d.result, false⟩)
          (v.log ⟨j, .verifyCallback d.method d.raw, .ok d.result, false⟩) := hAlike.log false false _
      apply Exists.elim (Prog.runsTo_of_similar hExec ?_ ⟨hVerified, hClock⟩ hRest)
      · rintro v' ⟨hRest', hAlike', -⟩
        exact ⟨v', ⟨reply, _, _, rfl, hRest'⟩, hAlike'⟩
      -- what follows the verification looks up no record but that of the notification
      refine Prog.calls_bind ?_ fun _ => trivial
      show Prog.Calls _ (if ¬d.result.paid = true then _ else _)
      split
      · trivial
      refine calls_then hKey fun isNew => ?_
      split
      · trivial
      refine calls_then trivial fun order => ?_
      cases order with
      | none => trivial
      | some order =>
          refine Prog.calls_tryCatch (Prog.calls_bind ?_ fun _ => trivial) fun _ => trivial
          exact Prog.calls_mono (fun c hCall => recordsOnly_of_settlement hCall)
            (calls_applyPayment locker order.id _)

end callback
end VpnPayment
