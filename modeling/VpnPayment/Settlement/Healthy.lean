import VpnPayment.Async.Sequential
import VpnPayment.Settlement.Lineage

/-! A settlement that runs alone while no dependency fails: the order ends FULFILLED, or
PAID where its plan is gone or the repository does not take the subscription. -/
namespace VpnPayment

open Async Collections
open Prog (perform)

/-- No call fails of its own: a repository rejects what it has to, and everything else
answers. -/
structure Healthy (b : Backend) (i : Nat) (run : Executor Call Ans AppError World Reply) : Prop where
  settles : ∀ {c reply w answer w'}, run c reply w = some (answer, w') →
    ∃ reply', reply'.fails = false ∧ exec b i c reply' w = some (answer, w')

variable {Key : Type} {deps : Deps} {b : Backend} {i : Nat}
  {run : Executor Call Ans AppError World Reply} {w w' : World} {α : Type} {c : Call}
  {Q : Except AppError α → World → Prop}

section calls

/-- A repository call takes its effect, or the repository rejects it. -/
theorem ends_store {f : Ans c → Action Key α} {effect : Store → Except AppError (Ans c × Store)}
    (hHealthy : Healthy b i run) (hEffect : storeEffect b w.clock c = some effect)
    (hOk : ∀ a w₁, effect w.store = .ok (a, w₁.store) → w₁.clock = w.clock → (f a).Ends run Q w₁)
    (hError : ∀ e w₁, effect w.store = .error e → w₁.store = w.store → Q (.error e) w₁) :
    (perform c >>= f).Ends run Q w := by
  refine ⟨trivial, fun reply answer w₁ hStep => ⟨trivial, ?_⟩⟩
  obtain ⟨reply', hFails, hExec⟩ := hHealthy.settles hStep
  obtain ⟨e, rfl, rfl, hRejected | rfl⟩ | ⟨a, s, hTaken, rfl, rfl | ⟨e, -, rfl⟩⟩ :=
    exec_store hExec hEffect
  · exact hError e _ hRejected rfl
  · cases hFails
  · exact hOk a _ hTaken rfl
  · cases hFails

/-- A call that reads the store. -/
theorem ends_read {f : Ans c → Action Key α} {value : Store → Ans c} (hHealthy : Healthy b i run)
    (hEffect : storeEffect b w.clock c = some fun s => .ok (value s, s))
    (hOk : ∀ w₁, w₁.store = w.store → w₁.clock = w.clock → (f (value w.store)).Ends run Q w₁) :
    (perform c >>= f).Ends run Q w := by
  refine ends_store hHealthy hEffect (fun a w₁ hTaken hClock => ?_) fun e w₁ hRejected => by
    cases hRejected
  obtain ⟨rfl, hStore⟩ := Prod.mk.inj (Except.ok.inj hTaken)
  exact hOk w₁ hStore.symm hClock

/-- A call that does not reach the store answers, and leaves the store alone. -/
theorem Healthy.outside {reply : Reply} {answer : Except AppError (Ans c)} (hHealthy : Healthy b i run)
    (hStep : run c reply w = some (answer, w')) (hEffect : storeEffect b w.clock c = none)
    (hTick : c ≠ .tick) : ∃ a reply', answer = .ok a ∧ outsideAnswer w c reply' = some a ∧
      w'.store = w.store ∧ w'.clock = w.clock := by
  obtain ⟨reply', hFails, hExec⟩ := hHealthy.settles hStep
  obtain ⟨e, -, -, -, applied, rfl⟩ | ⟨a, hAnswer, rfl, rfl⟩ := exec_outside hExec hEffect
  · cases hFails
  · have hNoted : (noted i w c reply').store = w.store ∧ (noted i w c reply').clock = w.clock := by
      unfold noted
      split
      · exact ⟨rfl, rfl⟩
      · exact absurd rfl hTick
      · exact ⟨rfl, rfl⟩
    exact ⟨a, reply', rfl, hAnswer, hNoted⟩

theorem ends_outside {f : Ans c → Action Key α} (hHealthy : Healthy b i run)
    (hEffect : storeEffect b w.clock c = none) (hTick : c ≠ .tick)
    (hOk : ∀ a reply w₁, outsideAnswer w c reply = some a → w₁.store = w.store →
      w₁.clock = w.clock → (f a).Ends run Q w₁) :
    (perform c >>= f).Ends run Q w := by
  refine ⟨trivial, fun reply answer w₁ hStep => ⟨trivial, ?_⟩⟩
  obtain ⟨a, reply', rfl, hAnswer, hStore, hClock⟩ := hHealthy.outside hStep hEffect hTick
  exact hOk a reply' w₁ hAnswer hStore hClock

/-- The clock of the run. -/
theorem ends_now {f : Int → Action Key α} (hHealthy : Healthy b i run)
    (hOk : ∀ w₁, w₁.store = w.store → w₁.clock = w.clock → (f w.clock).Ends run Q w₁) :
    (perform Call.now >>= f).Ends run Q w := by
  refine ends_outside hHealthy rfl nofun fun a reply w₁ hAnswer hStore hClock => ?_
  cases reply <;> simp only [outsideAnswer, reduceCtorEq, Option.some.injEq] at hAnswer
  exact hAnswer ▸ hOk w₁ hStore hClock

/-- The program succeeds and leaves the store alone. -/
def Succeeds (w : World) (result : Except AppError α) (w' : World) : Prop :=
  (∃ a, result = .ok a) ∧ w'.store = w.store

theorem ends_perform (hHealthy : Healthy b i run) (hEffect : storeEffect b w.clock c = none)
    (hTick : c ≠ .tick) : (perform c : Action Key (Ans c)).Ends run (Succeeds w) w := by
  refine ⟨trivial, fun reply answer w₁ hStep => ⟨trivial, ?_⟩⟩
  obtain ⟨a, -, rfl, -, hStore, -⟩ := hHealthy.outside hStep hEffect hTick
  exact ⟨⟨a, rfl⟩, hStore⟩

/-- An optional dependency that leaves the store alone. -/
theorem ends_whenPresent {present : Bool} {f : Unit → Action Key α} {p : Action Key Unit}
    (hRun : p.Ends run (Succeeds w) w)
    (hOk : ∀ w₁, w₁.store = w.store → (f ()).Ends run Q w₁) :
    (whenPresent present p >>= f).Ends run Q w := by
  refine Prog.ends_bind (R := Succeeds w) ?_ (fun _ w₁ h => hOk w₁ h.2) ?_
  · unfold whenPresent
    split
    · exact hRun
    · exact ⟨⟨(), rfl⟩, rfl⟩
  · rintro e w₁ ⟨⟨_, hEq⟩, -⟩
    cases hEq

end calls

/-- The repository takes a subscription that the user gets or that is extended now. Under
SQL the user has at most one active subscription. -/
def SubscriptionStore.takesTime (b : Backend) (s : SubscriptionStore) (userId : String) (now : Int) :
    Bool :=
  b = .memory || s.byId.rows.all fun row => !(row.active && row.userId = userId) ||
    (s.findActiveByUser b userId = some row && row.expiresAt > now)

/-- The plan is known, and the repository takes the subscription. -/
def accepts (deps : Deps) (w : World) (o : Order) : Bool :=
  (PlanCatalog.getPlan deps.plans o.planId).isSome &&
    w.store.subscriptions.takesTime deps.backend o.userId w.clock

namespace SubscriptionStore

variable {s : SubscriptionStore} {sub x : Subscription} {userId : String} {now : Int}

theorem get?_of_findActive (h : s.findActiveByUser b userId = some x) :
    s.byId.get? x.id = some x := by
  cases b with
  | memory =>
      obtain ⟨id, -, hGet⟩ := Option.bind_eq_some_iff.mp h
      exact Table.key_of_get? hGet ▸ hGet
  | sql => exact Table.get?_of_mem (List.mem_of_find?_eq_some h)

theorem takesTime_sql : s.takesTime .sql userId now = true ↔ ∀ row ∈ s.byId.rows,
    row.active = true → row.userId = userId →
      s.findActiveByUser .sql userId = some row ∧ row.expiresAt > now := by
  simp only [takesTime, List.all_eq_true, Bool.or_eq_true, Bool.not_eq_true', Bool.and_eq_false_imp,
    Bool.and_eq_true, decide_eq_true_eq, decide_eq_false_iff_not, reduceCtorEq, decide_false,
    Bool.false_eq_true, false_or]
  exact forall₂_congr fun row _ => by tauto

/-- A subscription that the user does not have yet is taken if no other is active. -/
theorem create_iff (hActive : sub.active = true) (hNew : s.byId.get? sub.id = none)
    (hNone : (s.findActiveByUser b sub.userId).filter (fun e => e.expiresAt > now) = none) :
    (∃ s', s.create b sub = .ok s') ↔ s.takesTime b sub.userId now = true := by
  cases b with
  | memory => exact ⟨fun _ => rfl, fun _ => ⟨_, rfl⟩⟩
  | sql =>
      have hOther : ∀ row ∈ s.byId.rows, row.id ≠ sub.id := fun row hMem hId => by
        have hRow := Table.get?_of_mem hMem
        rw [show row.id = sub.id from hId, hNew] at hRow
        cases hRow
      have hCreate : (∃ s', s.create .sql sub = .ok s') ↔
          SqlSubscriptionRepository.violatesActiveUser s sub = false := by
        simp only [create, SqlSubscriptionRepository.create, Table.has, hNew, Option.isSome_none,
          Bool.false_eq_true, if_false]
        cases SqlSubscriptionRepository.violatesActiveUser s sub <;> simp
      rw [hCreate, takesTime_sql, SqlSubscriptionRepository.violatesActiveUser, hActive, Bool.true_and,
        List.any_eq_false]
      constructor
      · intro hFree row hMem hRowActive hUser
        exact absurd (by simp [hRowActive, hUser, hOther row hMem]) (hFree row hMem)
      · intro hTakes row hMem hBusy
        simp only [Bool.and_eq_true, decide_eq_true_eq] at hBusy
        obtain ⟨hFound, hLater⟩ := hTakes row hMem hBusy.1.1 hBusy.1.2
        rw [hFound] at hNone
        simp [Option.filter, hLater] at hNone

/-- The running subscription of the user is extended if no other is active. -/
theorem update_iff (hActive : sub.active = true) (hSame : sub.id = x.id)
    (hRunning : (s.findActiveByUser b userId).filter (fun e => e.expiresAt > now) = some x) :
    (∃ s', s.update b sub = .ok s') ↔ s.takesTime b userId now = true := by
  obtain ⟨hFound, hLater⟩ := Option.filter_eq_some_iff.mp hRunning
  cases b with
  | memory => exact ⟨fun _ => rfl, fun _ => ⟨_, rfl⟩⟩
  | sql =>
      have hRow := get?_of_findActive hFound
      have hOwner : x.userId = userId := by
        have hFind := List.find?_some hFound
        simp only [Bool.and_eq_true, decide_eq_true_eq] at hFind
        exact hFind.1
      have hUpdate : (∃ s', s.update .sql sub = .ok s') ↔ SqlSubscriptionRepository.violatesActiveUser s
          (SqlSubscriptionRepository.setColumns x sub) = false := by
        simp only [update, SqlSubscriptionRepository.update, hSame, hRow]
        cases SqlSubscriptionRepository.violatesActiveUser s
          (SqlSubscriptionRepository.setColumns x sub) <;> simp
      rw [hUpdate, takesTime_sql]
      simp only [SqlSubscriptionRepository.violatesActiveUser, SqlSubscriptionRepository.setColumns,
        hActive, hOwner, Bool.true_and, List.any_eq_false]
      constructor
      · intro hFree row hMem hRowActive hUser
        have hId : row.id = x.id := by
          by_contra hNe
          exact hFree row hMem (by simp [hRowActive, hUser, hNe])
        have hEq : s.byId.get? x.id = some row := hId ▸ Table.get?_of_mem hMem
        obtain rfl := Option.some.inj (hRow.symm.trans hEq)
        exact ⟨hFound, by simpa using hLater⟩
      · intro hTakes row hMem hBusy
        simp only [Bool.and_eq_true, decide_eq_true_eq] at hBusy
        obtain ⟨hOther, -⟩ := hTakes row hMem hBusy.1.1 hBusy.1.2
        obtain rfl := Option.some.inj (hFound.symm.trans hOther)
        exact hBusy.2 rfl

end SubscriptionStore

/-- How a grant of time ends: the orders are left alone, and it succeeds unless the plan is
unknown or the repository rejects the subscription. -/
structure GrantEnds (deps : Deps) (w : World) (order : Order)
    (result : Except AppError (Order × Subscription)) (w' : World) : Prop where
  orders : w'.store.orders = w.store.orders
  granted : ∀ a, result = .ok a → a.1 = { order with status := .FULFILLED, updatedAt := w.clock }
  accepted : (∃ a, result = .ok a) ↔ accepts deps w order = true

section settlement

variable {order : Order} {paid : PaidReport}

theorem ends_writeSubscription {plan : Plan} (hHealthy : Healthy deps.backend i run) :
    (SubscriptionService.writeSubscription plan order w.clock
        (w.store.subscriptions.findActiveByUser deps.backend order.userId) : Action Key Subscription).Ends
      run (fun result w' => w'.store.orders = w.store.orders ∧ ((∃ sub, result = .ok sub) ↔
        w.store.subscriptions.takesTime deps.backend order.userId w.clock = true)) w := by
  unfold SubscriptionService.writeSubscription
  cases hRunning : (w.store.subscriptions.findActiveByUser deps.backend order.userId).filter
      fun e => e.expiresAt > w.clock with
  | some running =>
      have hTakes : (∃ s, w.store.subscriptions.update deps.backend
          (SubscriptionService.extended running plan order w.clock) = .ok s) ↔ _ :=
        SubscriptionStore.update_iff (x := running) rfl rfl hRunning
      refine ends_store hHealthy rfl (fun _ w₁ hTaken _ => ?_) fun e w₁ hRejected hStore => ?_
      · obtain ⟨s, hUpdate, hEq⟩ := map_eq_ok_iff.mp hTaken
        obtain ⟨-, hStore⟩ := Prod.mk.inj hEq
        exact ⟨by rw [← hStore], fun _ => hTakes.mp ⟨s, hUpdate⟩, fun _ => ⟨_, rfl⟩⟩
      · refine ⟨by rw [hStore], ?_, fun hTakesTime => ?_⟩
        · rintro ⟨_, hEq⟩
          cases hEq
        · obtain ⟨s, hUpdate⟩ := hTakes.mpr hTakesTime
          rw [hUpdate] at hRejected
          cases hRejected
  | none =>
      refine ends_outside hHealthy rfl nofun fun id reply w₁ hAnswer hStore₁ _ => ?_
      have hUnused : w.store.subscriptions.byId.get? id = none := by
        cases reply <;> simp only [outsideAnswer, reduceCtorEq] at hAnswer
        obtain ⟨hUnused, hEq⟩ := Option.ite_none_right_eq_some.mp hAnswer
        cases hEq
        exact hUnused.2.2.2.1
      have hTakes : (∃ s, w.store.subscriptions.create deps.backend
          (SubscriptionService.started id plan order w.clock) = .ok s) ↔ _ :=
        SubscriptionStore.create_iff rfl hUnused hRunning
      refine ends_store hHealthy rfl (fun _ w₂ hTaken _ => ?_) fun e w₂ hRejected hStore₂ => ?_
      · obtain ⟨s, hCreate, hEq⟩ := map_eq_ok_iff.mp hTaken
        obtain ⟨-, hStore⟩ := Prod.mk.inj hEq
        rw [hStore₁] at hCreate
        exact ⟨by rw [← hStore, ← hStore₁], fun _ => hTakes.mp ⟨s, hCreate⟩, fun _ => ⟨_, rfl⟩⟩
      · refine ⟨by rw [hStore₂, hStore₁], ?_, fun hTakesTime => ?_⟩
        · rintro ⟨_, hEq⟩
          cases hEq
        · obtain ⟨s, hCreate⟩ := hTakes.mpr hTakesTime
          rw [hStore₁, hCreate] at hRejected
          cases hRejected

theorem ends_grant (hHealthy : Healthy deps.backend i run) (hPaid : order.status = .PAID) :
    (SubscriptionService.grant deps order : Action Key (Order × Subscription)).Ends
      run (GrantEnds deps w order) w := by
  unfold SubscriptionService.grant
  split
  · next hNone =>
      refine ⟨rfl, fun _ hEq => ?_, ?_⟩
      · cases hEq
      · simp [accepts, hNone]
  next plan hPlan =>
    refine ends_now hHealthy fun w₁ hStore₁ hClock₁ => ends_read hHealthy rfl fun w₂ hStore₂ hClock₂ => ?_
    have hStore : w₂.store = w.store := hStore₂.trans hStore₁
    have hClock : w₂.clock = w.clock := hClock₂.trans hClock₁
    rw [hStore₁, ← hStore, ← hClock]
    refine Prog.ends_bind (ends_writeSubscription hHealthy) (fun sub w₃ hWritten => ?_)
      fun e w₃ hFailed => ?_
    · rw [assertTransition_of_edge (by rw [hPaid]; decide)]
      refine ⟨by rw [hWritten.1, hStore], ?_, fun _ => ?_, fun _ => ⟨_, rfl⟩⟩
      · rintro _ ⟨⟩
        rw [hClock]
      · have hTakes := hWritten.2.mp ⟨sub, rfl⟩
        rw [hStore, hClock] at hTakes
        simp [accepts, hPlan, hTakes]
    · refine ⟨by rw [hFailed.1, hStore], fun _ hEq => ?_, ?_, fun hAccepted => ?_⟩
      · cases hEq
      · rintro ⟨_, hEq⟩
        cases hEq
      · have hTakes := (Bool.and_eq_true_iff.mp hAccepted).2
        rw [← hStore, ← hClock] at hTakes
        obtain ⟨_, hEq⟩ := hFailed.2.mpr hTakes
        cases hEq

theorem OrderStore.update_of_get? {s : OrderStore} {o row : Order} (hRow : s.byId.get? o.id = some row) :
    s.update b o = .ok { s with byId := s.byId.put (written b row o) } := by
  cases b with
  | memory => simp [update, MemoryOrderRepository.update, Table.has, hRow, written]
  | sql => simp [update, SqlOrderRepository.update, hRow, written]

/-- Writing back an order that is stored. -/
theorem ends_ordersUpdate (row : Order) {o : Order} {f : Order → Action Key α} (hHealthy : Healthy b i run)
    (hRow : w.order o.id = some row)
    (hOk : ∀ w₁, (∀ id, w₁.order id =
        if o.id = id then some (OrderStore.written b row o) else w.order id) →
      w₁.store.subscriptions = w.store.subscriptions → w₁.clock = w.clock → (f o).Ends run Q w₁) :
    (perform (Call.ordersUpdate o) >>= f).Ends run Q w := by
  have hUpdate := OrderStore.update_of_get? (b := b) hRow
  refine ends_store (c := Call.ordersUpdate o) hHealthy rfl (fun a w₁ hTaken hClock => ?_)
    fun e w₁ hRejected _ => ?_
  · rw [hUpdate] at hTaken
    obtain ⟨rfl, hStore⟩ := Prod.mk.inj (Except.ok.inj hTaken)
    refine hOk w₁ (fun id => ?_) (by rw [← hStore]) hClock
    show w₁.store.orders.byId.get? id = _
    rw [← hStore, Table.get?_put, OrderStore.written_id (Table.key_of_get? hRow)]
    rfl
  · rw [hUpdate] at hRejected
    cases hRejected

/-- How a settlement ends: no other order changes, and the order is FULFILLED, or it is
PAID where the plan is unknown or the repository rejects the subscription. -/
structure SettleEnds (deps : Deps) (w : World) (order : Order) (w' : World) : Prop where
  others : ∀ id, id ≠ order.id → w'.order id = w.order id
  status : (w'.order order.id).map Order.status =
    some (if accepts deps w order then .FULFILLED else .PAID)

/-- What is left to do once the order is marked FULFILLED does not reach the store. -/
theorem ends_announce {final : Order} {audit outbound settled : Bool} {p q r : Action Key Unit}
    (hSettled : ∀ w₁, w₁.store = w'.store → SettleEnds deps w order w₁)
    (hp : ∀ w, p.Ends run (Succeeds w) w) (hq : ∀ w, q.Ends run (Succeeds w) w)
    (hr : ∀ w, r.Ends run (Succeeds w) w) :
    (whenPresent audit p >>= fun _ => whenPresent outbound q >>= fun _ =>
      whenPresent settled r >>= fun _ => pure final).Ends run
      (fun _ w₁ => SettleEnds deps w order w₁) w' := by
  refine ends_whenPresent (hp _) fun w₁ hStore₁ => ends_whenPresent (hq _) fun w₂ hStore₂ =>
    ends_whenPresent (hr _) fun w₃ hStore₃ => ?_
  exact hSettled w₃ (hStore₃.trans (hStore₂.trans hStore₁))

theorem ends_settle (hHealthy : Healthy deps.backend i run) (hPending : order.status = .PENDING)
    (hStored : w.order order.id = some order) :
    (PaymentService.settle deps order paid : Action Key Order).Ends run
      (fun _ w' => SettleEnds deps w order w') w := by
  unfold PaymentService.settle
  refine ends_now hHealthy fun w₁ hStore₁ hClock₁ => ?_
  rw [assertTransition_of_edge (by rw [hPending]; decide)]
  -- the order is marked PAID
  refine ends_ordersUpdate order hHealthy
    ((World.order_congr (congrArg Store.orders hStore₁) _).trans hStored)
    fun w₂ hPaid hSubscriptions hClock₂ => ?_
  have hOld : ∀ id, id ≠ order.id → w₂.order id = w.order id := by
    intro id hNe
    have hKept : w₂.order id = w₁.order id := (hPaid id).trans (if_neg (Ne.symm hNe))
    rw [hKept, World.order_congr (congrArg Store.orders hStore₁)]
  have hSame : accepts deps w₂ (PaymentService.paidOrder order paid .PAID w.clock) =
      accepts deps w order := by
    simp only [accepts, hSubscriptions, hClock₂, hStore₁, hClock₁]
    rfl
  have hHere : w₂.order order.id = some (OrderStore.written deps.backend order
      (PaymentService.paidOrder order paid .PAID w.clock)) :=
    (hPaid order.id).trans (if_pos rfl)
  -- time is granted
  refine Prog.ends_bind (ends_grant hHealthy rfl) (fun granted w₃ hGranted => ?_) fun e w₃ hFailed => ?_
  · have hAccepts : accepts deps w order = true := hSame ▸ hGranted.accepted.mp ⟨granted, rfl⟩
    obtain ⟨fulfilled, sub⟩ := granted
    obtain rfl := hGranted.granted _ rfl
    have hRow₃ := (World.order_congr hGranted.orders order.id).trans hHere
    refine ends_ordersUpdate _ hHealthy hRow₃ fun w₄ hFinal _ _ => ?_
    apply ends_announce
    · intro w₅ hStore
      have hOrders := World.order_congr (congrArg Store.orders hStore)
      constructor
      · intro id hNe
        have hKept : w₄.order id = w₃.order id := (hFinal id).trans (if_neg (Ne.symm hNe))
        rw [hOrders, hKept, World.order_congr hGranted.orders, hOld id hNe]
      · have hWritten : w₄.order order.id = some _ := (hFinal order.id).trans (if_pos rfl)
        rw [hOrders, hWritten, Option.map_some, OrderStore.status_written, if_pos hAccepts]
    · exact fun _ => ends_perform hHealthy rfl nofun
    · exact fun _ => ends_perform hHealthy rfl nofun
    · intro w₅
      refine Prog.ends_tryCatch (ends_perform hHealthy rfl nofun) (fun _ _ h => h) fun e w₆ h => ?_
      obtain ⟨⟨_, hEq⟩, -⟩ := h
      cases hEq
  · constructor
    · intro id hNe
      rw [World.order_congr hFailed.orders, hOld id hNe]
    · have hRejects : ¬accepts deps w order = true := by
        rw [← hSame, ← hFailed.accepted]
        rintro ⟨_, hEq⟩
        cases hEq
      rw [World.order_congr hFailed.orders, hHere, Option.map_some, OrderStore.status_written,
        if_neg hRejects]
      rfl

end settlement
end VpnPayment
