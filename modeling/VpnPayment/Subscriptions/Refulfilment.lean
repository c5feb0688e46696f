import Mathlib.Data.Set.Finite.Basic
import Mathlib.Data.Countable.Defs
import VpnPayment.Async.Sequential
import VpnPayment.Settlement.ExactlyOnce
import VpnPayment.Subscriptions.OneActive

/-! What `fulfillOrder` does with an order that is FULFILLED already. -/
namespace VpnPayment

open Async Collections
open Prog (perform)

variable {Key : Type} {deps : Deps} {order : Order} {i : Nat} {w w' : World}

/-- The subscriptions that `fulfillOrder` leaves as they are, whatever its calls answer. -/
abbrev LeavesSubscriptions (deps : Deps) (i : Nat) (w : World) {α : Type} (p : Action Key α) : Prop :=
  p.Ends (exec deps.backend i) (fun _ w' => w'.store.subscriptions = w.store.subscriptions) w

section found

variable {existing : Subscription}

/-- The subscription found is returned with the order as it was. -/
theorem fulfillOrder_found (hFulfilled : order.status = .FULFILLED)
    (hFound : w.store.subscriptions.findActiveByUser deps.backend order.userId = some existing) :
    (SubscriptionService.fulfillOrder deps order : Action Key (Order × Subscription)).Ends
      (exec deps.backend i) (fun result w' => w'.store.subscriptions = w.store.subscriptions ∧
        ∀ a, result = .ok a → a = (order, existing)) w := by
  unfold SubscriptionService.fulfillOrder
  rw [if_pos hFulfilled]
  refine ⟨trivial, fun reply answer w₁ hExec => ⟨trivial, ?_⟩⟩
  have hKept := (exec_subscriptions rfl hExec).1
  cases answer with
  | error e =>
      refine ⟨hKept, fun a hEq => ?_⟩
      cases hEq
  | ok answer =>
      have hRead : answer = w₁.store.subscriptions.findActiveByUser deps.backend order.userId :=
        exec_reads hExec
      rw [hKept, hFound] at hRead
      subst hRead
      refine ⟨hKept, fun a hEq => ?_⟩
      cases hEq
      rfl

end found

section missing

variable (Key i) in
/-- Without a plan nothing is granted. -/
theorem grant_unknownPlan (hUnknown : PlanCatalog.getPlan deps.plans order.planId = none) :
    LeavesSubscriptions deps i w
      (SubscriptionService.grant deps order : Action Key (Order × Subscription)) := by
  unfold SubscriptionService.grant
  rw [hUnknown]
  exact (rfl : w.store.subscriptions = w.store.subscriptions)

theorem fulfillOrder_unknownPlan (hUnknown : PlanCatalog.getPlan deps.plans order.planId = none) :
    LeavesSubscriptions deps i w
      (SubscriptionService.fulfillOrder deps order : Action Key (Order × Subscription)) := by
  unfold SubscriptionService.fulfillOrder
  split
  · refine ⟨trivial, fun reply answer w₁ hExec => ⟨trivial, ?_⟩⟩
    have hKept := (exec_subscriptions rfl hExec).1
    cases answer with
    | error e => exact hKept
    | ok found =>
        cases found with
        | some existing => exact hKept
        | none =>
            have hEnds := grant_unknownPlan Key i (w := w₁) hUnknown
            exact Prog.ends_mono (fun _ _ hSame => hSame.trans hKept) hEnds
  · exact grant_unknownPlan Key i hUnknown

end missing

section granted

/-- `randomUUID` always has an identifier left. -/
theorem World.exists_unused (w : World) : ∃ id, w.Unused id := by
  let used : List String := "" :: (w.issued.map Prod.snd ++ w.store.orders.byId.rows.map Order.id ++
    w.store.refunds.byId.rows.map Refund.id ++ w.store.subscriptions.byId.rows.map Subscription.id)
  obtain ⟨id, hFree⟩ := Infinite.exists_notMem_finset used.toFinset
  simp only [used, List.mem_toFinset, List.mem_cons, List.mem_append, not_or, List.mem_map,
    not_exists, not_and] at hFree
  obtain ⟨hNonempty, ⟨⟨hIssued, hOrders⟩, hRefunds⟩, hSubscriptions⟩ := hFree
  exact ⟨id, hIssued, Table.get?_eq_none_iff.mpr hOrders, Table.get?_eq_none_iff.mpr hRefunds,
    Table.get?_eq_none_iff.mpr hSubscriptions, hNonempty⟩

/-- Where the user has no active subscription, nothing keeps a new one out. -/
theorem SubscriptionStore.create_of_none {b : Backend} {s : SubscriptionStore} {sub : Subscription}
    (hNone : s.findActiveByUser b sub.userId = none) (hNew : s.byId.get? sub.id = none)
    (hActive : sub.active = true) : s.create b sub = .ok (s.write b sub) := by
  rw [create_eq hNew hActive, if_neg]
  rintro ⟨rfl, hViolates⟩
  obtain ⟨row, hMem, hRow⟩ := List.any_eq_true.mp (Bool.and_eq_true_iff.mp hViolates).2
  simp only [Bool.and_eq_true, decide_eq_true_eq] at hRow
  have hOther := List.find?_eq_none.mp hNone row hMem
  simp [hRow.1.1, hRow.1.2] at hOther

theorem SubscriptionStore.write_ne {b : Backend} {s : SubscriptionStore} {sub : Subscription}
    (hNew : s.byId.get? sub.id = none) : s.write b sub ≠ s := by
  intro hEq
  have hRow := congrArg (fun s => s.byId.get? sub.id) hEq
  simp [hNew] at hRow

/-- A repository call can take its effect. -/
theorem performs {b : Backend} {c : Call} {effect : Store → Except AppError (Ans c × Store)} {a : Ans c}
    {s : Store} (hEffect : storeEffect b w.clock c = some effect) (hOk : effect w.store = .ok (a, s)) :
    (perform c : Action Key (Ans c)).RunsTo (exec b i) w (.ok a)
      ({ w with store := s }.log ⟨i, c, .ok a, true⟩) := by
  refine Prog.runsTo_perform.mpr ⟨.normal, ?_⟩
  simp only [exec, hEffect, hOk]

/-- The lookup of a user without an active subscription. -/
theorem performs_findActive {u : String}
    (hNone : w.store.subscriptions.findActiveByUser deps.backend u = none) :
    (perform (Call.subscriptionsFindActiveByUser u) : Action Key (Option Subscription)).RunsTo
      (exec deps.backend i) w (.ok none) (w.log ⟨i, .subscriptionsFindActiveByUser u, .ok none, true⟩) :=
  hNone ▸ performs (s := w.store) rfl rfl

variable (Key i) in
/-- A user without an active subscription gets one. -/
theorem grant_creates {plan : Plan} {status : OrderStatus}
    (hStatus : assertTransition order.status .FULFILLED = .ok status)
    (hNone : w.store.subscriptions.findActiveByUser deps.backend order.userId = none)
    (hPlan : PlanCatalog.getPlan deps.plans order.planId = some plan) :
    ∃ id w', w.store.subscriptions.byId.get? id = none ∧
      (SubscriptionService.grant deps order : Action Key (Order × Subscription)).RunsTo
        (exec deps.backend i) w (.ok ({ order with status := status, updatedAt := w.clock },
          SubscriptionService.started id plan order w.clock)) w' ∧
      w'.store.subscriptions = w.store.subscriptions.write deps.backend
        (SubscriptionService.started id plan order w.clock) := by
  let sees := (w.log ⟨i, .now, .ok w.clock, false⟩).log
    ⟨i, .subscriptionsFindActiveByUser order.userId, .ok none, true⟩
  obtain ⟨id, hUnused⟩ := sees.exists_unused
  have hNew : w.store.subscriptions.byId.get? id = none := hUnused.2.2.2.1
  let draws := (noted i sees .uuid (.text id)).log ⟨i, .uuid, .ok id, false⟩
  have hNow : (perform Call.now : Action Key Int).RunsTo (exec deps.backend i) w (.ok w.clock)
      (w.log ⟨i, .now, .ok w.clock, false⟩) := Prog.runsTo_perform.mpr ⟨.normal, rfl⟩
  have hDraw : (perform Call.uuid : Action Key String).RunsTo (exec deps.backend i) sees (.ok id) draws := by
    refine Prog.runsTo_perform.mpr ⟨.text id, ?_⟩
    simp [exec, storeEffect, outsideAnswer, hUnused, draws]
  let sub := SubscriptionService.started id plan order w.clock
  have hCreate : w.store.subscriptions.create deps.backend sub =
      .ok (w.store.subscriptions.write deps.backend sub) :=
    SubscriptionStore.create_of_none hNone hNew rfl
  let written := ({ draws with store := { w.store with
    subscriptions := w.store.subscriptions.write deps.backend sub } } : World).log
      ⟨i, .subscriptionsCreate sub, .ok sub, true⟩
  have hWrite : (perform (Call.subscriptionsCreate sub) : Action Key Subscription).RunsTo
      (exec deps.backend i) draws (.ok sub) written :=
    performs rfl (congrArg (Except.map _) hCreate)
  refine ⟨id, written, hNew, ?_⟩
  unfold SubscriptionService.grant SubscriptionService.writeSubscription
  rw [hPlan]
  constructor
  · refine Prog.runsTo_ok_bind hNow (Prog.runsTo_ok_bind (performs_findActive hNone) ?_)
    refine Prog.runsTo_ok_bind (Prog.runsTo_ok_bind hDraw (Prog.runsTo_ok_bind hWrite ⟨rfl, rfl⟩)) ?_
    rw [hStatus]
    exact ⟨rfl, rfl⟩
  · rfl

variable (Key i) in
/-- An order that is FULFILLED already is granted its time again where the user has no
active subscription. -/
theorem fulfillOrder_again {plan : Plan} (hFulfilled : order.status = .FULFILLED)
    (hNone : w.store.subscriptions.findActiveByUser deps.backend order.userId = none)
    (hPlan : PlanCatalog.getPlan deps.plans order.planId = some plan) :
    ∃ id w', w.store.subscriptions.byId.get? id = none ∧
      (SubscriptionService.fulfillOrder deps order : Action Key (Order × Subscription)).RunsTo
        (exec deps.backend i) w (.ok ({ order with updatedAt := w.clock },
          SubscriptionService.started id plan order w.clock)) w' ∧
      w'.store.subscriptions = w.store.subscriptions.write deps.backend
        (SubscriptionService.started id plan order w.clock) := by
  have hSame : assertTransition order.status .FULFILLED = .ok order.status := by
    rw [hFulfilled]
    rfl
  obtain ⟨id, w', hNew, hRun, hStored⟩ := grant_creates Key i
    (w := w.log ⟨i, .subscriptionsFindActiveByUser order.userId, .ok none, true⟩) hSame hNone hPlan
  refine ⟨id, w', hNew, ?_, hStored⟩
  unfold SubscriptionService.fulfillOrder
  rw [if_pos hFulfilled]
  exact Prog.runsTo_ok_bind (performs_findActive hNone) hRun

end granted

/-- `fulfillOrder` leaves the subscriptions alone for an order that is FULFILLED exactly if
the user has an active subscription or the plan is gone. -/
theorem fulfilled_again_iff (hFulfilled : order.status = .FULFILLED) (i : Nat) (w : World) :
    (∀ result w', (SubscriptionService.fulfillOrder deps order : Action Key (Order × Subscription)).RunsTo
        (exec deps.backend i) w result w' → w'.store.subscriptions = w.store.subscriptions) ↔
      (w.store.subscriptions.findActiveByUser deps.backend order.userId).isSome = true ∨
        PlanCatalog.getPlan deps.plans order.planId = none := by
  constructor
  · intro hKept
    cases hFound : w.store.subscriptions.findActiveByUser deps.backend order.userId with
    | some existing => exact .inl rfl
    | none =>
        cases hPlan : PlanCatalog.getPlan deps.plans order.planId with
        | none => exact .inr rfl
        | some plan =>
            obtain ⟨id, w', hNew, hRun, hStored⟩ :=
              fulfillOrder_again Key i hFulfilled hFound hPlan
            exact absurd (hStored.symm.trans (hKept _ w' hRun)) (SubscriptionStore.write_ne hNew)
  · intro hCondition result w' hRun
    cases hCondition with
    | inl hFound =>
        obtain ⟨existing, hFound⟩ := Option.isSome_iff_exists.mp hFound
        exact (Prog.ends_iff_runsTo.mp (fulfillOrder_found hFulfilled hFound) result w' hRun).1
    | inr hUnknown =>
        exact Prog.ends_iff_runsTo.mp (fulfillOrder_unknownPlan hUnknown) result w' hRun

namespace Sample

/-- The month alice got for her first order. -/
def month : Subscription :=
  SubscriptionService.started "s1" monthly Sample.order 0

/-- The store with her subscription. -/
def subscriberStore (sub : Subscription) : Store :=
  { Store.empty with subscriptions := ⟨Table.empty.put sub,
      if sub.active then Table.empty.put (sub.userId, sub.id) else .empty⟩ }

end Sample

/-- While alice's subscription is active, fulfilling her order again leaves it alone, also
after it has run out. -/
theorem fulfilled_again_sample : ∃ result w',
    (SubscriptionService.fulfillOrder (Sample.deps .memory) Sample.fulfilled :
      Action String (Order × Subscription)).RunsTo (exec .memory 0)
        (World.start (Sample.subscriberStore Sample.month) Sample.later) result w' ∧
    w'.store.subscriptions = (Sample.subscriberStore Sample.month).subscriptions := by
  have hRun : ∃ result w', (SubscriptionService.fulfillOrder (Sample.deps .memory) Sample.fulfilled :
      Action String (Order × Subscription)).RunsTo (exec .memory 0)
        (World.start (Sample.subscriberStore Sample.month) Sample.later) result w' :=
    ⟨_, _, .normal, _, _, rfl, rfl, rfl⟩
  obtain ⟨result, w', hRun⟩ := hRun
  exact ⟨result, w', hRun, (@fulfilled_again_iff String (Sample.deps .memory) Sample.fulfilled rfl 0 _).mpr
    (.inl rfl) result w' hRun⟩

/-- Once it is deactivated, the order that was fulfilled buys a second month. -/
theorem fulfilled_twice : ∃ (w' : World) (again : Subscription),
    (SubscriptionService.fulfillOrder (Sample.deps .memory) Sample.fulfilled :
      Action String (Order × Subscription)).RunsTo (exec .memory 0)
        (World.start (Sample.subscriberStore { Sample.month with active := false }) Sample.later)
        (.ok ({ Sample.fulfilled with updatedAt := Sample.later }, again)) w' ∧
      w'.store.subscriptions ≠ (Sample.subscriberStore { Sample.month with active := false }).subscriptions ∧
      again.expiresAt = Sample.later + SubscriptionService.addMs Sample.monthly := by
  obtain ⟨id, w', hNew, hRun, hStored⟩ := @fulfillOrder_again String (Sample.deps .memory)
    Sample.fulfilled 0 (World.start (Sample.subscriberStore { Sample.month with active := false }) Sample.later)
    Sample.monthly rfl rfl rfl
  refine ⟨w', _, hRun, fun hEq => ?_, rfl⟩
  exact SubscriptionStore.write_ne hNew (hStored.symm.trans hEq)

end VpnPayment
