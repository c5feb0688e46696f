import VpnPayment.Settlement.PaymentIntents

/-! An order is stored as PENDING for as long as `createOrder` offers it for payment, if
it was so when it was found by its key and nobody takes it out of PENDING meanwhile. -/
namespace VpnPayment

open Async Collections

/-- The reply lets a call to a repository take effect. -/
def Reply.applies : Reply → Bool
  | .throws applied _ => applied
  | _ => true

/-- An order is stored under the identifier and waits to be paid. -/
def World.Pending (w : World) (id : String) : Prop :=
  ∃ row, w.order id = some row ∧ row.status = .PENDING

variable {Instance Key : Type} {locker : Instance → String → Key} {deps : Deps}

/-- What `createOrder` finds by a key is PENDING, or no payment is created for it. -/
def findsPayable (deps : Deps) (found : Option Order) : Bool :=
  found.all fun o => o.metadata.payInfo.isSome || o.status = .PENDING || (deps.providers o.method).isNone

/-- No task offers the order for payment. -/
def notOffered (m : Deployment Key) (id : String) : Bool :=
  (List.range m.tasks.length).all fun j => (m.nextCall j).bind Call.offers ≠ some id

/-- A key is not looked up when its order has no payment and is no longer PENDING, and no
order is taken out of PENDING while it is offered for payment. -/
def keepsPayable (deps : Deps) (m : Deployment Key) : Label Reply (Instance × Request) → Bool
  | .spawn _ => true
  | .step i reply => match m.nextCall i with
      | some (.ordersFindByIdempotencyKey k) =>
          reply.fails || findsPayable deps (m.world.store.orders.findByIdempotencyKey deps.backend k)
      | some (.ordersUpdate o) => o.status = .PENDING || !reply.applies || notOffered m o.id
      | _ => true

section calls

variable {b : Backend} {i : Nat} {c : Call} {reply : Reply} {w w' : World}
  {answer : Except AppError (Ans c)}

theorem World.pending_congr {id : String} (h : w'.store.orders = w.store.orders)
    (hPending : w.Pending id) : w'.Pending id := by
  obtain ⟨row, hRow, hStatus⟩ := hPending
  exact ⟨row, (World.order_congr h id).trans hRow, hStatus⟩

theorem store_of_unapplied {effect : Store → Except AppError (Ans c × Store)}
    (hEffect : storeEffect b w.clock c = some effect) (hReply : reply.applies = false)
    (hExec : exec b i c reply w = some (answer, w')) : w'.store = w.store := by
  cases reply with
  | throws applied e =>
      cases hReply
      simp only [exec, hEffect] at hExec
      cases hExec
      rfl
  | _ => cases hReply

/-- A write that takes effect stores the order with the status it carries. -/
theorem pending_of_update {o saved : Order} (hPending : o.status = .PENDING)
    (hStored : ∃ row, w.order o.id = some row)
    (hExec : exec b i (.ordersUpdate o) reply w = some (.ok saved, w')) : w'.Pending o.id := by
  obtain ⟨row, hRow⟩ := hStored
  obtain ⟨e, hEq, -⟩ | ⟨a, s, hOk, rfl, -⟩ := exec_store hExec rfl
  · cases hEq
  obtain ⟨t, hUpdate, hEq⟩ := map_eq_ok_iff.mp hOk
  cases hEq
  obtain ⟨row', hRow', hRows⟩ | ⟨hNone, -⟩ := OrderStore.update_cases hUpdate
  · refine ⟨OrderStore.written b row' o, ?_, OrderStore.status_written.trans hPending⟩
    show t.byId.get? o.id = _
    rw [hRows, Table.get?_put, if_pos (OrderStore.written_id (Table.key_of_get? hRow'))]
  · have hStored : w.store.orders.byId.get? o.id = some row := hRow
    rw [hNone] at hStored
    cases hStored

end calls

section steps

variable {m m' : Deployment Key} {label : Label Reply (Instance × Request)} {id : String}

/-- An order that some task offers for payment stays PENDING. -/
theorem pending_step [DecidableEq Key] (hTracked : Tracked locker deps m)
    (hKeeps : keepsPayable deps m label = true) (hStep : (system locker deps).step m label = some m')
    {j : Nat} {c : Call} (hCall : m.nextCall j = some c) (hOffers : c.offers = some id)
    (hPending : m.world.Pending id) : m'.world.Pending id := by
  obtain hSame | ⟨i, reply, c', answer, rfl, hNext, hAdmits, hExec, hOrders⟩ :=
    hTracked.orderStep hStep
  · rwa [hSame]
  obtain ⟨row, hRow, hStatus⟩ := hPending
  cases hOrders with
  | same c' answer applied trace orders failed =>
      exact World.pending_congr orders ⟨row, hRow, hStatus⟩
  | inserted new answer trace stored order =>
      have hNe : new.id ≠ id := by
        rintro rfl
        rw [hTracked.lineage.new hAdmits] at hRow
        cases hRow
      exact ⟨row, by rw [order, if_neg hNe, hRow], hStatus⟩
  | rewritten o row' answer trace found stored order =>
      by_cases hId : o.id = id
      swap
      · exact ⟨row, by rw [order, if_neg hId, hRow], hStatus⟩
      -- the write keeps the status, or it has no effect, or nobody offers the order
      subst hId
      simp only [keepsPayable, hNext, Bool.or_eq_true, decide_eq_true_eq, Bool.not_eq_true'] at hKeeps
      rcases hKeeps with (hKept | hReply) | hNobody
      · refine ⟨_, by rw [order, if_pos rfl], OrderStore.status_written.trans hKept⟩
      · exact World.pending_congr (congrArg Store.orders (store_of_unapplied rfl hReply hExec))
          ⟨row, hRow, hStatus⟩
      · have hLt : j < m.tasks.length := by
          obtain ⟨t, ht, -⟩ := Option.bind_eq_some_iff.mp hCall
          exact (List.getElem?_eq_some_iff.mp ht).1
        have hNot := List.all_eq_true.mp hNobody j (List.mem_range.mpr hLt)
        simp [hCall, hOffers] at hNot

/-- The call that leaves an order to be paid leaves it PENDING. -/
theorem pending_of_open {i : Nat} {reply : Reply} {c : Call} {answer : Except AppError (Ans c)}
    (past : Past) (hTracked : Tracked locker deps m) (hNext : m.nextCall i = some c)
    (hKeeps : keepsPayable deps m (.step i reply : Label Reply (Instance × Request)) = true)
    (hExec : exec deps.backend i c reply m.world = some (answer, m'.world))
    (hOpen : Open deps (⟨c, answer⟩ :: past) id) : m'.world.Pending id := by
  cases hOpen with
  | inserted o answer before pending =>
      cases orderStep_of_exec hExec with
      | same c answer applied trace orders failed =>
          obtain ⟨e, hEq⟩ := failed o rfl
          cases hEq
      | inserted o answer trace stored order =>
          refine ⟨_, by rw [order, if_pos rfl], ?_⟩
          rw [← pending]
          cases deps.backend <;> rfl
  | written o answer before pending =>
      obtain ⟨row, hRow, -⟩ := hTracked.lineage.terms (hTracked.admits hNext)
      exact pending_of_update pending ⟨row, hRow⟩ hExec
  | found k o before noPayInfo enabled =>
      obtain ⟨hFound, hStore⟩ := exec_read rfl (fun s => rfl) hExec
      have hStored := OrderStore.get?_of_findByIdempotencyKey hFound.symm
      refine ⟨o, ?_, ?_⟩
      · show m'.world.store.orders.byId.get? o.id = some o
        rw [hStore, hStored]
      have hReply : reply.fails = false := by
        cases reply with
        | throws applied e =>
            cases applied <;> cases hExec
        | _ => rfl
      simpa [keepsPayable, hNext, hReply, findsPayable, ← hFound, noPayInfo,
        Option.isSome_iff_ne_none.mp enabled] using hKeeps

/-- What holds while no order that is offered for payment is anything but PENDING. -/
structure PayableOffers (locker : Instance → String → Key) (deps : Deps) (m : Deployment Key) : Prop where
  tracked : Tracked locker deps m
  offering : EachTask (recording locker deps) (fun _ p past => Offering deps p past) m
  pending : ∀ i c id, m.nextCall i = some c → c.offers = some id → m.world.Pending id

theorem offering_step [DecidableEq Key]
    (hOffering : EachTask (recording locker deps) (fun _ p past => Offering deps p past) m)
    (hStep : (system locker deps).step m label = some m') :
    EachTask (recording locker deps) (fun _ p past => Offering deps p past) m' := by
  apply hOffering.step _ _ _ _ hStep
  · intro request _
    exact offering_serve (locker request.1) request.2
  · intro i reply c next answer w' _ _ hExec hTask
    refine ⟨hTask.follows.2 answer (possible_of_exec hExec), ?_⟩
    rcases hTask.lockFree with hOnly | ⟨hCalls, hNone⟩
    · exact .inl (hOnly.2 answer)
    · exact .inr ⟨hCalls.2 answer, List.forall_mem_cons.mpr ⟨createsPayment_of_offers hCalls.1, hNone⟩⟩
  · intro i key next past hTask
    exact ⟨hTask.follows, .inr (hTask.lockFree.resolve_left not_false)⟩
  · intro i next past hTask
    exact ⟨hTask.follows, .inr (hTask.lockFree.resolve_left not_false)⟩

/-- A task that goes on with calls that offer nothing is not about to offer an order. -/
theorem offers_ne_of_calls {i : Nat} {rest : Action Key Outcome} {held : Option Key}
    {w : World} {t : Task Key Call Ans AppError Outcome} {c : Call}
    (hCalls : rest.Calls fun c => c.offers = none)
    (hCall : Machine.nextCall ⟨w, m.tasks.set i ⟨rest, held⟩⟩ i = some c)
    (hTask : m.tasks[i]? = some t) : c.offers ≠ some id := by
  have hLt : i < m.tasks.length := (List.getElem?_eq_some_iff.mp hTask).1
  rw [Machine.nextCall, List.getElem?_set_self hLt, Option.bind_some] at hCall
  cases rest with
  | call c' next =>
      cases hCall
      rw [hCalls.1]
      intro hEq
      cases hEq
  | _ => cases hCall

/-- What a task that is about to offer an order has just done. -/
theorem PayableOffers.pending_of_next [DecidableEq Key] (hPayable : PayableOffers locker deps m)
    (hKeeps : keepsPayable deps m label = true) (hStep : (system locker deps).step m label = some m')
    {j : Nat} {c : Call} (hCall : m'.nextCall j = some c) (hOffers : c.offers = some id) :
    m'.world.Pending id := by
  have hOffering := offering_step hPayable.offering hStep
  obtain ⟨next, hTask⟩ := hOffering.atCall hCall
  obtain ⟨t, ht, hProg⟩ := Option.bind_eq_some_iff.mp hCall
  obtain hSame | ⟨request, rfl, hLast, rfl, hNew⟩ | ⟨reply, before, rfl, hBefore, hResumed⟩ :=
    System.task_cases hStep ht
  · -- the task was about to make this call before the step
    have hOld : m.nextCall j = some c := by rw [Machine.nextCall, hSame, Option.bind_some, hProg]
    exact pending_step hPayable.tracked hKeeps hStep hOld hOffers (hPayable.pending j c id hOld hOffers)
  · -- a task that has just been started has offered nothing
    have hOpen := hTask.follows.1 id hOffers
    have hNone : (recording locker deps).own m'.world j = [] := by
      rw [hNew]
      exact hPayable.offering.unused j hLast.ge
    rw [hNone] at hOpen
    cases hOpen
  · obtain ⟨c', rest, answer, w', hp, hExec, rfl⟩ | ⟨key, rest, hp, -, rfl⟩ | ⟨rest, hp, rfl⟩ :=
      System.stepTask_cases hResumed
    · have hNext : m.nextCall j = some c' := by rw [Machine.nextCall, hBefore, Option.bind_some, hp]
      refine pending_of_open (m.world.past j) hPayable.tracked hNext hKeeps hExec ?_
      have hOpen := hTask.follows.1 id hOffers
      rwa [(recording locker deps).settles hExec] at hOpen
    · -- a task that takes locks offers nothing
      have hLock := (hPayable.offering.tasks j before hBefore).lockFree
      rw [hp] at hLock
      have hCalls : rest.Calls fun c => c.offers = none := (hLock.resolve_left not_false).1
      exact absurd hOffers (offers_ne_of_calls hCalls hCall hBefore)
    · have hLock := (hPayable.offering.tasks j before hBefore).lockFree
      rw [hp] at hLock
      have hCalls : rest.Calls fun c => c.offers = none := (hLock.resolve_left not_false).1
      exact absurd hOffers (offers_ne_of_calls hCalls hCall hBefore)

theorem PayableOffers.step [DecidableEq Key] (hPayable : PayableOffers locker deps m)
    (hKeeps : keepsPayable deps m label = true) (hStep : (system locker deps).step m label = some m') :
    PayableOffers locker deps m' where
  tracked := hPayable.tracked.step hStep
  offering := offering_step hPayable.offering hStep
  pending _ _ _ hCall hOffers := hPayable.pending_of_next hKeeps hStep hCall hOffers

/-- A payment that has just been created and is returned is for an order that is PENDING. -/
theorem PayableOffers.returned [DecidableEq Key] (hPayable : PayableOffers locker deps m)
    (hKeeps : keepsPayable deps m label = true) (hStep : (system locker deps).step m label = some m')
    {i : Nat} (hRan : m.returned i = false) {t : Task Key Call Ans AppError Outcome}
    {output : CreateOrderOutput} (ht : m'.tasks[i]? = some t)
    (hProg : t.prog = .ret (.ok (.created output)))
    (hCreated : ∃ h ∈ m'.world.past i, h.1.createsPayment = true) :
    m'.world.Pending output.order.id := by
  have hTask := (offering_step hPayable.offering hStep).tasks i t ht
  rw [hProg] at hTask
  obtain ⟨created, hMem, hCreates⟩ := hCreated
  have hSome : ¬∀ h ∈ m'.world.past i, h.1.createsPayment = false := fun hNone => by
    rw [hNone created hMem] at hCreates
    cases hCreates
  have hReturns := (hTask.follows output rfl).resolve_left hSome
  obtain hSame | ⟨request, rfl, hLast, rfl, hNew⟩ | ⟨reply, before, rfl, hBefore, hResumed⟩ :=
    System.task_cases hStep ht
  · rw [Machine.returned_iff.mpr ⟨t, _, hSame, hProg⟩] at hRan
    cases hRan
  · have hNone : m'.world.past i = [] := by
      rw [hNew]
      exact hPayable.offering.unused i hLast.ge
    rw [hNone] at hMem
    cases hMem
  · obtain ⟨c, rest, answer, w', hp, hExec, rfl⟩ | ⟨key, rest, hp, -, rfl⟩ | ⟨rest, hp, rfl⟩ :=
      System.stepTask_cases hResumed
    · have hNext : m.nextCall i = some c := by rw [Machine.nextCall, hBefore, Option.bind_some, hp]
      have hPast := (recording locker deps).settles hExec
      rw [hPast] at hReturns
      rcases hReturns with hOpen | ⟨c', answer', older, hHead, hOffers⟩
      · exact pending_of_open _ hPayable.tracked hNext hKeeps hExec hOpen
      · cases hHead
        exact pending_step hPayable.tracked hKeeps hStep hNext hOffers
          (hPayable.pending i c _ hNext hOffers)
    · have hLock := (hPayable.offering.tasks i before hBefore).lockFree
      rw [hp] at hLock
      exact absurd (hLock.resolve_left not_false).2 hSome
    · have hLock := (hPayable.offering.tasks i before hBefore).lockFree
      rw [hp] at hLock
      exact absurd (hLock.resolve_left not_false).2 hSome

end steps

/-- Runs in which no key is looked up whose order has no payment and is no longer PENDING,
and no order is taken out of PENDING while it is offered for payment: the provider is
asked for payments of PENDING orders only, and the order is still PENDING when a new
payment is returned. -/
theorem payment_of_pending [DecidableEq Key] {store : Store} {clock : Int} {m : Deployment Key}
    (hRun : (system locker deps).Reaches (fun m label => keepsPayable deps m label = true)
      (Deployment.start store clock) m) :
    (∀ i o, m.nextCall i = some (.createPayment o) → m.world.Pending o.id) ∧
    ∀ label m' i t output, keepsPayable deps m label = true →
      (system locker deps).step m label = some m' → m.returned i = false →
      m'.tasks[i]? = some t → t.prog = .ret (.ok (.created output)) →
      (∃ h ∈ m'.world.past i, h.1.createsPayment = true) → m'.world.Pending output.order.id := by
  have hPayable : PayableOffers locker deps m := by
    refine hRun.invariant (fun _ _ _ hKeeps hStep hPayable => hPayable.step hKeeps hStep)
      ⟨tracked_start, ⟨fun i t ht => ?_, fun _ _ => rfl⟩, fun i c id hCall => ?_⟩
    · simp [Deployment.start, Machine.start] at ht
    · simp [Deployment.start, Machine.start, Machine.nextCall] at hCall
  constructor
  · intro i o hCall
    exact hPayable.pending i _ o.id hCall rfl
  · intro label m' i t output hKeeps hStep hRan ht hProg hCreated
    exact hPayable.returned hKeeps hStep hRan ht hProg hCreated

namespace Sample

/-- A call that has inserted its order up to what the provider answers. -/
def insertsAnd (task : Nat) (reply : Reply) : List (Label Reply (Unit × Request)) :=
  looksUp task ++ [.step task .normal, .step task (.text "o1"), .step task (.text "VPN1"),
    .step task .normal, .step task reply, .step task .normal]

end Sample

/-- The payment could not be stored with its order, which is found again while PENDING. -/
theorem payment_of_pending_sample : ∃ (m : Deployment String) (o : Order),
    (singleInstance (Sample.deps .sql)).Reaches
      (fun m label => keepsPayable (Sample.deps .sql) m label = true)
      (Deployment.start Store.empty 0) m ∧
    m.nextCall 1 = some (.createPayment o) ∧ m.world.Pending o.id := by
  obtain ⟨m, hRun, hCheck⟩ := System.exists_reaches (singleInstance (Sample.deps .sql))
    (keepsPayable (Sample.deps .sql)) (Deployment.start Store.empty 0)
    (Sample.insertsAnd 0 (.payment Sample.payInfo) ++
      [.step 0 (.throws false (plainError "connection terminated"))] ++ Sample.looksUp 1)
    (fun m => (m.nextCall 1).any Call.createsPayment) (by decide +kernel)
  obtain ⟨c, hCall, hCreates⟩ := (Option.any_eq_true _ _).mp hCheck
  cases c with
  | createPayment o => exact ⟨m, o, hRun, hCall, (payment_of_pending hRun).1 1 o hCall⟩
  | _ => cases hCreates

/-- The provider refuses the payment of an order, which is marked FAILED. A call with the
same key finds the order, has a payment created for it and returns the two. -/
theorem payment_of_failed : ∃ (m m' : Deployment String) (o : Order),
    (singleInstance (Sample.deps .sql)).Reaches (fun _ _ => True)
      (Deployment.start Store.empty 0) m ∧
    m.nextCall 1 = some (.createPayment o) ∧
    (m.world.order o.id).map Order.status = some .FAILED ∧
    (singleInstance (Sample.deps .sql)).step m (.step 1 (.payment Sample.payInfo)) = some m' ∧
    createdOrder m' 1 = some o.id ∧ (m'.world.order o.id).map Order.status = some .FAILED := by
  obtain ⟨m, hRun, hCheck⟩ := System.exists_reaches (singleInstance (Sample.deps .sql))
    (fun _ _ => true) (Deployment.start Store.empty 0)
    (Sample.insertsAnd 0 (.throws false (plainError "connection terminated")) ++ [.step 0 .normal] ++
      Sample.looksUp 1)
    (fun m => (m.nextCall 1).any (fun c => c.createsPayment && c.offers = some "o1") &&
      decide ((m.world.order "o1").map Order.status = some .FAILED) &&
      ((singleInstance (Sample.deps .sql)).step m (.step 1 (.payment Sample.payInfo))).any fun m' =>
        decide (createdOrder m' 1 = some "o1") &&
          decide ((m'.world.order "o1").map Order.status = some .FAILED)) (by decide +kernel)
  simp only [Bool.and_eq_true, decide_eq_true_eq, Option.any_eq_true] at hCheck
  obtain ⟨⟨⟨c, hCall, hCreates, hId⟩, hFailed⟩, m', hStep, hReturned, hStill⟩ := hCheck
  cases c with
  | createPayment o =>
      have hEq : o.id = "o1" := Option.some.inj hId
      rw [← hEq] at hFailed hReturned hStill
      exact ⟨m, m', o, hRun.mono fun _ _ _ _ _ => trivial, hCall, hFailed, hStep, hReturned, hStill⟩
  | _ => cases hCreates

end VpnPayment
