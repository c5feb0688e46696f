import VpnPayment.Settlement.Deliveries
import VpnPayment.Settlement.ProofOfPayment
import VpnPayment.Subscriptions.Refulfilment

/-! Notifications that are rejected leave no trace, and which of the others make an order
FULFILLED. -/
namespace VpnPayment

open Async Collections

section alike

variable {keys keys' : List String} {w v u : World}

theorem Alike.symm (h : Alike keys w v) : Alike keys v w :=
  ⟨h.orders.symm, h.refunds.symm, h.subscriptions.symm, h.issued.symm, h.emitted.symm,
    h.handedOver.symm, fun k hMem => (h.processed k hMem).symm⟩

theorem Alike.trans (h : Alike keys w v) (h' : Alike keys v u) : Alike keys w u :=
  ⟨h.orders.trans h'.orders, h.refunds.trans h'.refunds, h.subscriptions.trans h'.subscriptions,
    h.issued.trans h'.issued, h.emitted.trans h'.emitted, h.handedOver.trans h'.handedOver,
    fun k hMem => (h.processed k hMem).trans (h'.processed k hMem)⟩

theorem Alike.mono (h : Alike keys w v) (hKeys : ∀ k ∈ keys', k ∈ keys) : Alike keys' w v :=
  { h with processed := fun k hMem => h.processed k (hKeys k hMem) }

end alike

variable {Key : Type} {locker : String → Key} {deps : Deps} {i j : Nat} {w v w' arrived : World}
  {d d' : Delivery} {run : List (World × Delivery)} {keys : List String}

/-- Different events are recorded under different keys. -/
theorem eventId_of_eventKey (h : d.eventKey = d'.eventKey) : d.result.eventId = d'.result.eventId := by
  have hChars := congrArg String.toList h
  simp only [Delivery.eventKey, toString, String.toList_append] at hChars
  cases hMethod : d.method <;> cases hMethod' : d'.method <;>
    simp [hMethod, hMethod', PaymentMethod.name] at hChars <;> exact String.toList_inj.mp hChars

/-- Time passes until the notification arrives. -/
theorem arrived_of_tick (keys : List String) (hTick : (serve locker deps .tick).RunsTo
    (delivering deps.backend i d) w (.ok .done) arrived) :
    Alike keys w arrived ∧ arrived.clock = d.arrival := by
  obtain ⟨reply, answer, w₁, hExec, hRest⟩ := hTick
  cases hExec
  obtain ⟨-, rfl⟩ := hRest
  have hLater : Alike keys w { w with clock := d.arrival } := { alike_refl keys w with }
  have hLogged : Alike keys w ({ w with clock := d.arrival }.log ⟨i, .tick, .ok (), false⟩) :=
    alike_log hLater rfl false
  exact ⟨hLogged, rfl⟩

theorem exists_arrived (locker : String → Key) (deps : Deps) (i : Nat) (d : Delivery) (w : World) :
    ∃ arrived, (serve locker deps .tick).RunsTo (delivering deps.backend i d) w (.ok .done) arrived :=
  ⟨_, .normal, _, _, rfl, rfl, rfl⟩

/-- A rejected payment settles nothing. -/
theorem settledBy_of_rejected (h : rejected deps w d = true) : settledBy deps w d = none := by
  simp only [rejected, Bool.or_eq_true, Bool.not_eq_true', Option.all_eq_true] at h
  rcases h with hUnpaid | hChecks
  · simp [settledBy, reached, hUnpaid]
  · rw [settledBy, Option.filter_eq_none_iff]
    intro o hReached hPasses
    have hFound : w.store.orders.findByOutTradeNo deps.backend d.result.outTradeNo = some o := by
      unfold reached at hReached
      split at hReached
      · exact (Option.filter_eq_some_iff.mp hReached).1
      · cases hReached
    have hFails := hChecks o hFound
    simp only [Bool.and_eq_true, decide_eq_true_eq, Bool.not_eq_true'] at hPasses
    simp [hPasses.1, hPasses.2] at hFails

/-- The keys under which the notifications of a run are recorded. -/
def eventKeys (run : List (World × Delivery)) : List String :=
  run.map fun x => x.2.eventKey

/-- Deliveries of different events have different keys. -/
theorem nodup_eventKeys (h : (run.map fun x => x.2.result.eventId).Nodup) : (eventKeys run).Nodup := by
  rw [eventKeys, List.Nodup, List.pairwise_map]
  rw [List.Nodup, List.pairwise_map] at h
  exact h.imp fun hNe hEq => hNe (eventId_of_eventKey hEq)

/-- What was rejected may as well not have been delivered: by induction on the run, beside
a world that has seen the accepted notifications only. -/
theorem Delivers.without_rejected (hRun : Delivers locker deps i w run w')
    (hKeys : (eventKeys run).Nodup) (hAlike : Alike (eventKeys run) w v) :
    ∃ run' v', Delivers locker deps j v run' v' ∧ run'.map Prod.snd = accepted deps run ∧
      Alike [] w' v' := by
  induction hRun generalizing j v with
  | nil i w => exact ⟨[], v, .nil j v, rfl, hAlike⟩
  | @cons i w arrived handled finish d run result tick callback rest ih =>
      obtain ⟨hNew, hRest⟩ := List.nodup_cons.mp hKeys
      have hArrived := arrived_of_tick (eventKeys ((arrived, d) :: run)) tick
      by_cases hRejected : rejected deps arrived d = true
      · -- only its own record is left of it
        have hHandled := Prog.ends_iff_runsTo.mp (ends_callback hNew) _ _ callback
        rw [CallbackEnds, settledBy_of_rejected hRejected] at hHandled
        have hSame : Alike (eventKeys run) handled v := by
          refine hHandled.symm.trans (Alike.mono (hArrived.1.symm.trans hAlike) ?_)
          exact fun k hMem => List.mem_cons_of_mem _ hMem
        obtain ⟨run', v', hRun', hKept, hEnd⟩ := ih hRest hSame
        exact ⟨run', v', hRun', by simp [hKept, accepted, hRejected], hEnd⟩
      · obtain ⟨arrived', tick'⟩ := exists_arrived locker deps j d v
        have hArrived' := arrived_of_tick (eventKeys ((arrived, d) :: run)) tick'
        have hSame := hArrived.1.symm.trans (hAlike.trans hArrived'.1)
        obtain ⟨v₁, hCallback, hHandled⟩ := callback_alike (j := j + 1) hSame
          (hArrived.2.trans hArrived'.2.symm) List.mem_cons_self callback
        obtain ⟨run', v', hRun', hKept, hEnd⟩ := ih hRest
          (hHandled.mono fun k hMem => List.mem_cons_of_mem _ hMem)
        refine ⟨(arrived', d) :: run', v', .cons tick' hCallback hRun', ?_, hEnd⟩
        simp [hKept, accepted, hRejected]

/-- A run is determined by the notifications. -/
theorem Delivers.unique {run' : List (World × Delivery)} {u : World}
    (hRun : Delivers locker deps i w run w') (hRun' : Delivers locker deps i w run' u)
    (hSame : run.map Prod.snd = run'.map Prod.snd) : w' = u := by
  induction hRun generalizing run' u with
  | nil i w =>
      cases hRun' with
      | nil => rfl
      | cons => cases hSame
  | cons tick callback rest ih =>
      cases hRun' with
      | nil => cases hSame
      | cons tick' callback' rest' =>
          simp only [List.map_cons, List.cons.injEq] at hSame
          obtain ⟨rfl, hRest⟩ := hSame
          obtain ⟨-, rfl⟩ := Prog.runsTo_unique (fun _ _ _ _ => rfl) tick tick'
          obtain ⟨-, rfl⟩ := Prog.runsTo_unique (fun _ _ _ _ => rfl) callback callback'
          exact ih rest' hRest

section settled

variable {id : String} {a : World} {o : Order}

/-- The status under which the order is stored. -/
def World.statusOf (w : World) (id : String) : Option OrderStatus :=
  (w.order id).map Order.status

/-- The order that a delivery reaches is pending. -/
theorem order_of_reached (h : reached deps w d = some o) :
    w.order o.id = some o ∧ o.status = .PENDING := by
  unfold reached at h
  split at h
  · obtain ⟨hFound, hPending⟩ := Option.filter_eq_some_iff.mp h
    exact ⟨OrderStore.get?_of_findByOutTradeNo hFound, of_decide_eq_true hPending⟩
  · cases h

theorem pending_of_settledBy (h : settledBy deps w d = some o) : w.statusOf o.id = some .PENDING := by
  obtain ⟨hReached, -⟩ := Option.filter_eq_some_iff.mp h
  obtain ⟨hStored, hPending⟩ := order_of_reached hReached
  rw [World.statusOf, hStored, Option.map_some, hPending]

/-- What one notification does to the status of an order. -/
theorem statusOf_handled {i' : Nat} {result : Except AppError Outcome} {handled : World}
    (hTick : (serve locker deps .tick).RunsTo (delivering deps.backend i d) w (.ok .done) arrived)
    (hCallback : (serve locker deps (.handleCallback d.method d.raw)).RunsTo
      (delivering deps.backend i' d) arrived result handled) (id : String) :
    arrived.statusOf id = w.statusOf id ∧
    (handled.statusOf id = arrived.statusOf id ∧
        (∀ o, settledBy deps arrived d = some o → o.id ≠ id) ∨
      ∃ o, settledBy deps arrived d = some o ∧ o.id = id ∧
        handled.statusOf id = some (if accepts deps arrived o then .FULFILLED else .PAID)) := by
  have hArrived := (arrived_of_tick [] hTick).1
  have hHandled := Prog.ends_iff_runsTo.mp (ends_callback List.not_mem_nil) _ _ hCallback
  have hBefore : arrived.order id = w.order id := World.order_congr hArrived.orders.symm id
  refine ⟨congrArg (Option.map Order.status) hBefore, ?_⟩
  rw [CallbackEnds] at hHandled
  cases hSettled : settledBy deps arrived d with
  | none =>
      rw [hSettled] at hHandled
      have hSame : handled.order id = arrived.order id := World.order_congr hHandled.orders.symm id
      refine .inl ⟨congrArg (Option.map Order.status) hSame, fun o hSome => ?_⟩
      cases hSome
  | some o =>
      rw [hSettled] at hHandled
      by_cases hId : o.id = id
      · subst hId
        exact .inr ⟨o, rfl, rfl, hHandled.status⟩
      · refine .inl ⟨congrArg (Option.map Order.status) (hHandled.others id (Ne.symm hId)), ?_⟩
        rintro _ ⟨⟩
        exact hId

/-- An order that is not PENDING keeps its status, and no notification settles it. -/
theorem Delivers.kept (hRun : Delivers locker deps i w run w') (hStatus : w.statusOf id ≠ some .PENDING) :
    w'.statusOf id = w.statusOf id ∧
      ∀ x ∈ run, ∀ o, settledBy deps x.1 x.2 = some o → o.id ≠ id := by
  induction hRun with
  | nil => exact ⟨rfl, fun x hMem => absurd hMem List.not_mem_nil⟩
  | cons tick callback rest ih =>
      obtain ⟨hArrived, ⟨hSame, hNone⟩ | ⟨o, hSettled, rfl, -⟩⟩ := statusOf_handled tick callback id
      · obtain ⟨hEnd, hRest⟩ := ih (by rwa [hSame, hArrived])
        refine ⟨hEnd.trans (hSame.trans hArrived), fun x hMem => ?_⟩
        cases hMem with
        | head => exact hNone
        | tail _ hMem => exact hRest x hMem
      · exact absurd (hArrived.symm.trans (pending_of_settledBy hSettled)) hStatus

/-- An order that no notification settles keeps its status. -/
theorem Delivers.unsettled (hRun : Delivers locker deps i w run w')
    (hNone : ∀ x ∈ run, ∀ o, settledBy deps x.1 x.2 = some o → o.id ≠ id) :
    w'.statusOf id = w.statusOf id := by
  induction hRun with
  | nil => rfl
  | cons tick callback rest ih =>
      obtain ⟨hArrived, ⟨hSame, -⟩ | ⟨o, hSettled, hId, -⟩⟩ := statusOf_handled tick callback id
      · rw [ih fun x hMem => hNone x (List.mem_cons_of_mem _ hMem), hSame, hArrived]
      · exact absurd hId (hNone _ List.mem_cons_self o hSettled)

/-- An order that a notification settles was PENDING until then, no other notification
settles it, and its status is the one it got. -/
theorem Delivers.settled (hRun : Delivers locker deps i w run w') (hMem : (a, d) ∈ run)
    (hSettled : settledBy deps a d = some o) :
    w.statusOf o.id = some .PENDING ∧
      w'.statusOf o.id = some (if accepts deps a o then .FULFILLED else .PAID) ∧
      ∀ x ∈ run, ∀ o', settledBy deps x.1 x.2 = some o' → o'.id = o.id → x = (a, d) := by
  induction hRun with
  | nil => cases hMem
  | @cons i w arrived handled finish d run result tick callback rest ih =>
      obtain ⟨hArrived, hHandled⟩ := statusOf_handled tick callback o.id
      cases hMem with
      | head =>
          have hStart := hArrived.symm.trans (pending_of_settledBy hSettled)
          obtain ⟨-, hNone⟩ | ⟨o', hSettled', -, hStatus⟩ := hHandled
          · exact absurd rfl (hNone o hSettled)
          obtain rfl := Option.some.inj (hSettled.symm.trans hSettled')
          -- it is not PENDING afterwards
          obtain ⟨hEnd, hRest⟩ := rest.kept (show handled.statusOf o.id ≠ some .PENDING by rw [hStatus]; split <;> nofun)
          refine ⟨hStart, hEnd.trans hStatus, fun x hMem o' hOther hId => ?_⟩
          cases hMem with
          | head => rfl
          | tail _ hMem => exact absurd hId (hRest x hMem o' hOther)
      | tail _ hMem =>
          obtain ⟨hPending, hEnd, hOnly⟩ := ih hMem
          obtain ⟨hSame, hNone⟩ | ⟨o', hSettled', -, hStatus⟩ := hHandled
          · refine ⟨(hSame.trans hArrived).symm.trans hPending, hEnd, fun x hMem o' hOther hId => ?_⟩
            cases hMem with
            | head => exact absurd hId (hNone o' hOther)
            | tail _ hMem => exact hOnly x hMem o' hOther hId
          · rw [hStatus] at hPending
            split at hPending <;> cases hPending

/-- The order is FULFILLED now and was not before. -/
def BecomesFulfilled (w w' : World) (id : String) : Prop :=
  w'.statusOf id = some .FULFILLED ∧ w.statusOf id ≠ some .FULFILLED

/-- The notification has the right currency and at least the amount of the order, and
reaches it while it is PENDING. -/
def Delivery.Pays (deps : Deps) (w : World) (d : Delivery) (id : String) : Prop :=
  ∃ o, reached deps w d = some o ∧ o.id = id ∧ d.result.currency = o.currency ∧
    d.result.paidAmount.covers o.amount = true

/-- A delivery that pays settles its order. -/
theorem settledBy_of_pays (h : d.Pays deps a id) : ∃ o, settledBy deps a d = some o ∧ o.id = id ∧
    d.result.paidAmount.value ≠ .nan := by
  obtain ⟨o, hReached, hId, hCurrency, hCovers⟩ := h
  simp only [JsNumber.covers, Bool.and_eq_true, decide_eq_true_eq] at hCovers
  refine ⟨o, Option.filter_eq_some_iff.mpr ⟨hReached, ?_⟩, hId, hCovers.1⟩
  simpa [hCurrency] using hCovers.2

/-- And one that settles an order pays it, as long as its amount is a number. -/
theorem pays_of_settledBy (h : settledBy deps a d = some o) (hNumber : d.result.paidAmount.value ≠ .nan) :
    d.Pays deps a o.id := by
  obtain ⟨hReached, hChecks⟩ := Option.filter_eq_some_iff.mp h
  simp only [Bool.and_eq_true, decide_eq_true_eq, Bool.not_eq_true'] at hChecks
  exact ⟨o, hReached, rfl, hChecks.1, covers_of hNumber hChecks.2⟩

/-- The order becomes FULFILLED exactly when the payment is accepted. -/
theorem Delivers.fulfilled_iff (hRun : Delivers locker deps i w run w') (hMem : (a, d) ∈ run)
    (hSettled : settledBy deps a d = some o) : BecomesFulfilled w w' o.id ↔ accepts deps a o = true := by
  obtain ⟨hPending, hEnd, -⟩ := hRun.settled hMem hSettled
  rw [BecomesFulfilled, hPending, hEnd]
  cases accepts deps a o <;> simp

/-- Some delivery pays the order exactly when this one has an amount that is a number. -/
theorem Delivers.paid_iff (hRun : Delivers locker deps i w run w') (hMem : (a, d) ∈ run)
    (hSettled : settledBy deps a d = some o) :
    (∃ x ∈ run, x.2.Pays deps x.1 o.id) ↔ d.result.paidAmount.value ≠ .nan := by
  constructor
  · rintro ⟨x, hOther, hPays⟩
    obtain ⟨o', hSettled', hId, hNumber⟩ := settledBy_of_pays hPays
    obtain rfl := (hRun.settled hMem hSettled).2.2 x hOther o' hSettled' hId
    exact hNumber
  · exact fun hNumber => ⟨(a, d), hMem, pays_of_settledBy hSettled hNumber⟩

end settled

/-- The two runs end with the same orders and subscriptions, the same orders handed to the
sweep pipeline and the same events emitted. -/
structure SameEnd (w v : World) : Prop where
  orders : w.store.orders = v.store.orders
  subscriptions : w.store.subscriptions = v.store.subscriptions
  handedOver : w.handedOver = v.handedOver
  emitted : w.emitted = v.emitted

/-- Deliveries of different events may come in any order. -/
theorem Delivers.sameEnd (hRun : Delivers locker deps i w run w')
    (hDistinct : (run.map fun x => x.2.result.eventId).Nodup) :
    (∃ run' v', Delivers locker deps j w run' v' ∧ run'.map Prod.snd = accepted deps run) ∧
      ∀ run' v', Delivers locker deps j w run' v' → run'.map Prod.snd = accepted deps run →
        SameEnd w' v' := by
  obtain ⟨run', v', hKept, hThinned, hAlike⟩ :=
    hRun.without_rejected (j := j) (nodup_eventKeys hDistinct) (alike_refl _ w)
  refine ⟨⟨run', v', hKept, hThinned⟩, fun run'' v'' hOther hSame => ?_⟩
  obtain rfl := hKept.unique hOther (hThinned.trans hSame.symm)
  exact ⟨hAlike.orders, hAlike.subscriptions, hAlike.handedOver, hAlike.emitted⟩

/-- Notifications that are rejected may be left out. An order becomes FULFILLED exactly
when a notification pays for it while it is PENDING, if and only if of each notification
that settles an order the amount is a number exactly when the order's plan is enabled and
the repository takes the subscription. -/
theorem rejected_without_trace (hRun : Delivers locker deps i w run w')
    (hDistinct : (run.map fun x => x.2.result.eventId).Nodup) :
    ((∃ run' v', Delivers locker deps j w run' v' ∧ run'.map Prod.snd = accepted deps run) ∧
      ∀ run' v', Delivers locker deps j w run' v' → run'.map Prod.snd = accepted deps run →
        SameEnd w' v') ∧
    ((∀ id, BecomesFulfilled w w' id ↔ ∃ x ∈ run, x.2.Pays deps x.1 id) ↔
      ∀ x ∈ run, ∀ o, settledBy deps x.1 x.2 = some o →
        (x.2.result.paidAmount.value ≠ .nan ↔ accepts deps x.1 o = true)) := by
  refine ⟨hRun.sameEnd hDistinct, fun hExact x hMem o hSettled => ?_, fun hCondition id => ?_⟩
  · rw [← hRun.fulfilled_iff hMem hSettled, ← hRun.paid_iff hMem hSettled]
    exact (hExact o.id).symm
  · by_cases hSome : ∃ x ∈ run, ∃ o, settledBy deps x.1 x.2 = some o ∧ o.id = id
    · obtain ⟨x, hMem, o, hSettled, rfl⟩ := hSome
      rw [hRun.fulfilled_iff hMem hSettled, hRun.paid_iff hMem hSettled]
      exact (hCondition x hMem o hSettled).symm
    · have hNone : ∀ x ∈ run, ∀ o, settledBy deps x.1 x.2 = some o → o.id ≠ id :=
        fun x hMem o hSettled hId => hSome ⟨x, hMem, o, hSettled, hId⟩
      rw [BecomesFulfilled, hRun.unsettled hNone]
      constructor
      · rintro ⟨hNow, hBefore⟩
        exact absurd hNow hBefore
      · rintro ⟨x, hMem, hPays⟩
        obtain ⟨o, hSettled, hId, -⟩ := settledBy_of_pays hPays
        exact absurd hId (hNone x hMem o hSettled)

/-- What the provider answers while the notification is handled, whatever the world. -/
def Delivery.replies (d : Delivery) : Call → World → Reply :=
  fun c _ => d.reply c

/-- The notifications handled one after another. -/
def deliver (locker : String → Key) (deps : Deps) :
    Nat → World → List Delivery → Option (List (World × Delivery) × World)
  | _, w, [] => some ([], w)
  | i, w, d :: ds =>
      ((serve locker deps .tick).outcome (delivering deps.backend i d) d.replies w).bind fun ticked =>
        ((serve locker deps (.handleCallback d.method d.raw)).outcome
            (delivering deps.backend (i + 1) d) d.replies ticked.2).bind fun handled =>
          (deliver locker deps (i + 2) handled.2 ds).map fun rest => ((ticked.2, d) :: rest.1, rest.2)

theorem delivers_of_deliver {ds : List Delivery} (h : deliver locker deps i w ds = some (run, w')) :
    Delivers locker deps i w run w' ∧ run.map Prod.snd = ds := by
  induction ds generalizing i w run with
  | nil =>
      cases h
      exact ⟨.nil _ _, rfl⟩
  | cons d ds ih =>
      obtain ⟨⟨ticked, arrived⟩, hTick, h⟩ := Option.bind_eq_some_iff.mp h
      obtain ⟨⟨result, handled⟩, hCallback, h⟩ := Option.bind_eq_some_iff.mp h
      obtain ⟨⟨rest, finish⟩, hRest, h⟩ := Option.map_eq_some_iff.mp h
      cases h
      obtain ⟨hRun, hSame⟩ := ih hRest
      have hTicked : ticked = .ok .done := by
        have hOutcome := congrArg (Option.map Prod.fst) hTick
        exact (Option.some.inj hOutcome).symm
      subst hTicked
      exact ⟨.cons (Prog.runsTo_of_outcome hTick) (Prog.runsTo_of_outcome hCallback) hRun,
        congrArg (d :: ·) hSame⟩

namespace Sample

/-- WeChat notifies of a payment for alice's order, and does not say how much. -/
def bareDelivery : Delivery :=
  ⟨5, .wechat, ⟨"", []⟩, ⟨"VPN1", "wx1", true, ⟨.nan, "undefined"⟩, .CNY, "ev1", "SUCCESS"⟩, "s2"⟩

/-- A payment of `amount` arrives at the given time. -/
def delivery (arrival amount : Int) (eventId : String) : Delivery :=
  ⟨arrival, .alipay, ⟨"", []⟩, ⟨"VPN1", "al1", true, .ofInt amount, .CNY, eventId, "SUCCESS"⟩, "s2"⟩

/-- The store with alice's order, and the subscription she got for her first one. -/
def returningStore : Store :=
  { subscriberStore month with orders := (storeOf order).orders }

theorem exists_delivers (backend : Backend) (store : Store) (ds : List Delivery)
    (check : List (World × Delivery) × World → Bool)
    (h : (deliver (fun key => key) (Sample.deps backend) 0 (World.start store 0) ds).any check = true) :
    ∃ run w', Delivers (fun key => key) (Sample.deps backend) 0 (World.start store 0) run w' ∧
      run.map Prod.snd = ds ∧ check (run, w') = true := by
  obtain ⟨⟨run, w'⟩, hDeliver, hCheck⟩ := (Option.any_eq_true _ _).mp h
  obtain ⟨hRun, hSame⟩ := delivers_of_deliver hDeliver
  exact ⟨run, w', hRun, hSame, hCheck⟩

end Sample

/-- An underpayment, then the payment: the order becomes FULFILLED. -/
theorem rejected_without_trace_sample : ∃ run w',
    Delivers (fun key => key) (Sample.deps .memory) 0 (World.start (Sample.storeOf Sample.order) 0) run w' ∧
    run.map Prod.snd = [Sample.delivery 5 1499 "ev1", Sample.delivery 9 1500 "ev2"] ∧
    (∀ id, BecomesFulfilled (World.start (Sample.storeOf Sample.order) 0) w' id ↔
      ∃ x ∈ run, x.2.Pays (Sample.deps .memory) x.1 id) := by
  obtain ⟨run, w', hRun, hSame, hCheck⟩ := Sample.exists_delivers .memory (Sample.storeOf Sample.order)
    [Sample.delivery 5 1499 "ev1", Sample.delivery 9 1500 "ev2"]
    (fun out => out.1.all fun x => (settledBy (Sample.deps .memory) x.1 x.2).all fun o =>
      x.2.result.paidAmount.value ≠ .nan && accepts (Sample.deps .memory) x.1 o) (by decide +kernel)
  have hDistinct : (run.map fun x => x.2.result.eventId).Nodup := by
    have hIds := congrArg (List.map fun d => d.result.eventId) hSame
    rw [List.map_map] at hIds
    exact hIds ▸ (by decide)
  refine ⟨run, w', hRun, hSame, (rejected_without_trace (j := 0) hRun hDistinct).2.mpr ?_⟩
  intro x hMem o hSettled
  have hBoth := List.all_eq_true.mp hCheck x hMem
  rw [hSettled] at hBoth
  simp only [Option.all_some, Bool.and_eq_true, decide_eq_true_eq] at hBoth
  exact ⟨fun _ => hBoth.2, fun _ => hBoth.1⟩

/-- A notification without an amount makes the order FULFILLED; a payment in full does not
where a subscription that has run out is still active. -/
theorem fulfilled_by_rejected :
    WechatPayProvider.verifyCallback "ev1" Sample.bareNotification = .ok Sample.bareDelivery.result ∧
    (∃ run w', Delivers (fun key => key) (Sample.deps .memory) 0
        (World.start (Sample.storeOf Sample.order) 0) run w' ∧
      run.map Prod.snd = [Sample.bareDelivery] ∧
      BecomesFulfilled (World.start (Sample.storeOf Sample.order) 0) w' "o1" ∧
      ¬∃ x ∈ run, x.2.Pays (Sample.deps .memory) x.1 "o1") ∧
    ∃ run w', Delivers (fun key => key) (Sample.deps .sql) 0 (World.start Sample.returningStore 0) run w' ∧
      run.map Prod.snd = [Sample.delivery Sample.later 1500 "ev1"] ∧
      (∃ x ∈ run, x.2.Pays (Sample.deps .sql) x.1 "o1") ∧
      ¬BecomesFulfilled (World.start Sample.returningStore 0) w' "o1" := by
  refine ⟨rfl, ?_, ?_⟩
  · obtain ⟨run, w', hRun, hSame, hCheck⟩ := Sample.exists_delivers .memory
      (Sample.storeOf Sample.order) [Sample.bareDelivery]
      (fun out => out.2.statusOf "o1" = some .FULFILLED) (by decide +kernel)
    refine ⟨run, w', hRun, hSame, ⟨of_decide_eq_true hCheck, by decide⟩, ?_⟩
    rintro ⟨x, hMem, hPays⟩
    have hBare : x.2 ∈ [Sample.bareDelivery] := hSame ▸ List.mem_map_of_mem hMem
    obtain ⟨o, -, -, hNumber⟩ := settledBy_of_pays hPays
    rw [List.mem_singleton.mp hBare] at hNumber
    exact hNumber rfl
  · obtain ⟨run, w', hRun, hSame, hCheck⟩ := Sample.exists_delivers .sql
      Sample.returningStore [Sample.delivery Sample.later 1500 "ev1"]
      (fun out => out.2.statusOf "o1" = some .PAID &&
        out.1.any fun x => (settledBy (Sample.deps .sql) x.1 x.2).any fun o => o.id = "o1")
      (by decide +kernel)
    simp only [Bool.and_eq_true, decide_eq_true_eq, List.any_eq_true, Option.any_eq_true] at hCheck
    obtain ⟨hPaid, x, hMem, o, hSettled, hId⟩ := hCheck
    refine ⟨run, w', hRun, hSame, ⟨x, hMem, ?_⟩, fun hBecomes => ?_⟩
    · have hDelivered : x.2 ∈ [Sample.delivery Sample.later 1500 "ev1"] :=
        hSame ▸ List.mem_map_of_mem hMem
      refine hId ▸ pays_of_settledBy hSettled ?_
      rw [List.mem_singleton.mp hDelivered]
      nofun
    · cases hPaid.symm.trans hBecomes.1

end VpnPayment
