import VpnPayment.Async.Requests
import VpnPayment.Settlement.Lineage
import VpnPayment.Settlement.StatusMachine
import VpnPayment.Storage.IdempotencyIndex

/-! `createOrder` looks the idempotency key up in one step and stores it in a later
one. -/
namespace VpnPayment

open Async Collections

/-- The lookup of a key found no order. -/
def foundNothing : (Σ c : Call, Except AppError (Ans c)) → Bool
  | ⟨.ordersFindByIdempotencyKey _, .ok none⟩ => true
  | _ => false

def isInsertion : (Σ c : Call, Except AppError (Ans c)) → Bool
  | ⟨.ordersCreate _, _⟩ => true
  | _ => false

variable {Instance Key : Type} {locker : Instance → String → Key} {deps : Deps} {k : String}

/-- The task has looked the key up in vain and has not inserted its order yet. -/
def isCreating (k : String) (m : Deployment Key) (i : Nat) : Bool :=
  !m.returned i && (((m.world.past i).newest (.ordersFindByIdempotencyKey k)).any foundNothing &&
    (m.world.past i).all fun h => !isInsertion h)

/-- A key is looked up only while no other task is creating an order for it. -/
def looksUpAlone (k : String) (m : Deployment Key) : Label Reply (Instance × Request) → Bool
  | .spawn _ => true
  | .step i _ => m.nextCall i ≠ some (.ordersFindByIdempotencyKey k) ||
      (List.range m.tasks.length).all fun j => j = i || !isCreating k m j

/-- Orders are created on one input. -/
def createsOnly (input : CreateOrderInput) : Request → Bool
  | .createOrder other => other = input
  | _ => true

/-- Whether a repository takes the merchant order number for a duplicate. -/
def OrderStore.outTradeNoTaken (s : OrderStore) (outTradeNo : String) : Backend → Bool
  | .memory => s.byOutTradeNo.has outTradeNo
  | .sql => s.byId.rows.any fun row => row.outTradeNo = outTradeNo

theorem isCreating_iff {m : Deployment Key} {i : Nat} :
    isCreating k m i = true ↔ m.returned i = false ∧
      (∃ h, (m.world.past i).newest (.ordersFindByIdempotencyKey k) = some h ∧ foundNothing h = true) ∧
      ∀ h ∈ m.world.past i, isInsertion h = false := by
  simp [isCreating, Option.any_eq_true]

/-- What is about to insert an order with the key is creating it. -/
theorem isCreating_of_nextCall {m : Deployment Key} {i : Nat} {o : Order}
    (hTracked : Tracked locker deps m) (hCall : m.nextCall i = some (.ordersCreate o)) (hk : k ≠ "")
    (hKey : o.idempotencyKey = some k) : isCreating k m i = true := by
  have hInserts : Inserts deps (m.world.past i) o := hTracked.admits hCall
  have hTruthy : truthy o.idempotencyKey = some k := by simp [hKey, truthy, hk]
  refine isCreating_iff.mpr ⟨Machine.not_returned_of_nextCall hCall,
    ⟨_, hInserts.unseen k hTruthy, rfl⟩, fun h hMem => ?_⟩
  have hFirst := hInserts.first h hMem
  unfold isInsertion
  split
  · exact absurd rfl (hFirst _)
  · rfl

/-- The tasks that are creating an order were so before the step, or the step is the
lookup that found nothing. -/
theorem isCreating_before [DecidableEq Key] {m m' : Deployment Key}
    {label : Label Reply (Instance × Request)} (hStep : (system locker deps).step m label = some m')
    {j : Nat} (hCreating : isCreating k m' j = true) : isCreating k m j = true ∨
      ∃ reply, label = .step j reply ∧ m.nextCall j = some (.ordersFindByIdempotencyKey k) ∧
        exec deps.backend j (.ordersFindByIdempotencyKey k) reply m.world =
          some (.ok none, m'.world) := by
  obtain ⟨hRuns, ⟨h, hNewest, hNothing⟩, hNone⟩ := isCreating_iff.mp hCreating
  have hRan : m.returned j = false := by
    by_contra hReturned
    rw [System.returned_of_step hStep (by simpa using hReturned)] at hRuns
    cases hRuns
  obtain hSame | ⟨i, reply, c, answer, rfl, hCall, hExec⟩ := System.world_of_step hStep
  · rw [hSame] at hNewest hNone
    exact .inl (isCreating_iff.mpr ⟨hRan, ⟨h, hNewest, hNothing⟩, hNone⟩)
  obtain ⟨applied, hTrace⟩ := trace_of_exec hExec
  have hPast : m'.world.past j =
      if i = j then ⟨c, answer⟩ :: m.world.past j else m.world.past j := World.past_logged hTrace
  have hBefore : ∀ h ∈ m.world.past j, isInsertion h = false := by
    intro h hMem
    refine hNone h ?_
    rw [hPast]
    split
    · exact List.mem_cons_of_mem _ hMem
    · exact hMem
  by_cases hMine : i = j
  · subst hMine
    rw [hPast, if_pos rfl] at hNewest
    by_cases hLookup : c = .ordersFindByIdempotencyKey k
    · subst hLookup
      right
      refine ⟨reply, rfl, hCall, ?_⟩
      have hHead : ⟨.ordersFindByIdempotencyKey k, answer⟩ = h := by
        simpa [Past.newest] using hNewest
      subst hHead
      cases answer with
      | error e => cases hNothing
      | ok found => cases found with
        | none => exact hExec
        | some o => cases hNothing
    · rw [Past.newest_cons hLookup] at hNewest
      exact .inl (isCreating_iff.mpr ⟨hRan, ⟨h, hNewest, hNothing⟩, hBefore⟩)
  · rw [hPast, if_neg hMine] at hNewest
    exact .inl (isCreating_iff.mpr ⟨hRan, ⟨h, hNewest, hNothing⟩, hBefore⟩)

/-- What holds of a key whose lookups are kept apart. -/
structure OneKey (deps : Deps) (k : String) (m : Deployment Key) : Prop where
  keyed : m.world.store.orders.Keyed deps.backend k
  alone : ∀ i j, isCreating k m i = true → isCreating k m j = true → i = j
  absent : ∀ i, isCreating k m i = true → ∀ o, m.world.order o.id = some o →
    o.idempotencyKey ≠ some k
  found : ∀ i existing, ⟨.ordersFindByIdempotencyKey k, .ok (some existing)⟩ ∈ m.world.past i →
    ∃ row, m.world.order existing.id = some row ∧ row.idempotencyKey = some k

section steps

variable {m m' : Deployment Key}

/-- The lookup answers what the repository finds. -/
theorem lookup_answer {b : Backend} {i : Nat} {reply : Reply} {w w' : World} {found : Option Order}
    (hExec : exec b i (.ordersFindByIdempotencyKey k) reply w = some (.ok found, w')) :
    found = w.store.orders.findByIdempotencyKey b k := by
  obtain ⟨s, hOk⟩ := effect_of_answer hExec rfl
  cases hOk
  rfl

theorem OneKey.keyed_step {i : Nat} {c : Call} {answer : Except AppError (Ans c)}
    (hOne : OneKey deps k m) (hTracked : Tracked locker deps m) (hk : k ≠ "")
    (hCall : m.nextCall i = some c)
    (hOrders : OrderStep deps.backend i m.world m'.world c answer) :
    m'.world.store.orders.Keyed deps.backend k := by
  have hAdmits := hTracked.admits hCall
  cases hOrders with
  | same c answer applied trace orders failed =>
      rw [orders]
      exact hOne.keyed
  | inserted o answer trace stored order =>
      have hDrawn := hTracked.lineage.drawn i o.id (Inserts.drawn hAdmits)
      refine hOne.keyed.create stored hk (hTracked.lineage.nonempty _ hDrawn)
        (hTracked.lineage.new hAdmits) fun hKey x hx => ?_
      exact hOne.absent i (isCreating_of_nextCall hTracked hCall hk hKey) x hx
  | rewritten o row answer trace found stored order =>
      obtain ⟨row', hRow', hTerms⟩ := hTracked.lineage.terms hAdmits
      obtain rfl := Option.some.inj (found.symm.trans hRow')
      exact hOne.keyed.update stored found
        (Order.idempotencyKey_eq_of_terms (OrderStore.terms_written hTerms))

/-- Stored orders with the key after a step: they were there, or the step inserts
one. -/
theorem keyed_before {i : Nat} {c : Call} {answer : Except AppError (Ans c)}
    (hLineage : m.world.Lineage) (hAdmits : Admits deps (m.world.past i) c)
    (hOrders : OrderStep deps.backend i m.world m'.world c answer) {o : Order}
    (ho : m'.world.order o.id = some o) (hKey : o.idempotencyKey = some k) :
    (∃ x, m.world.order x.id = some x ∧ x.idempotencyKey = some k) ∨
    ∃ new, c = .ordersCreate new ∧ new.idempotencyKey = some k := by
  cases hOrders with
  | same c answer applied trace orders failed =>
      exact .inl ⟨o, (World.order_congr orders o.id).symm.trans ho, hKey⟩
  | inserted new answer trace stored order =>
      rw [order] at ho
      split at ho
      · have hSame : (OrderStore.created deps.backend new).idempotencyKey = new.idempotencyKey := by
          cases deps.backend <;> rfl
        rw [← Option.some.inj ho, hSame] at hKey
        exact .inr ⟨new, rfl, hKey⟩
      · exact .inl ⟨o, ho, hKey⟩
  | rewritten new row answer trace found stored order =>
      rw [order] at ho
      split at ho
      · obtain ⟨row', hRow', hTerms⟩ := hLineage.terms hAdmits
        obtain rfl := Option.some.inj (found.symm.trans hRow')
        rw [← Option.some.inj ho,
          Order.idempotencyKey_eq_of_terms (OrderStore.terms_written hTerms)] at hKey
        exact .inl ⟨row, by rw [World.id_of_order found, found], hKey⟩
      · exact .inl ⟨o, ho, hKey⟩

/-- A lookup that finds nothing is made while nobody else is creating. -/
theorem eq_of_looksUpAlone {i j : Nat} {reply : Reply} (hTracked : Tracked locker deps m)
    (hAlone : looksUpAlone k m (.step i reply : Label Reply (Instance × Request)) = true)
    (hCall : m.nextCall i = some (.ordersFindByIdempotencyKey k)) (hCreating : isCreating k m j = true) :
    j = i := by
  have hLt : j < m.tasks.length := by
    by_contra hLe
    obtain ⟨-, ⟨h, hNewest, -⟩, -⟩ := isCreating_iff.mp hCreating
    have hNone : m.world.past j = [] := hTracked.following.unused j (by omega)
    rw [hNone] at hNewest
    cases hNewest
  have hAll : ∀ j < m.tasks.length, j = i ∨ isCreating k m j = false := by
    simpa [looksUpAlone, hCall] using hAlone
  rcases hAll j hLt with hEq | hNot
  · exact hEq
  · rw [hCreating] at hNot
    cases hNot

/-- At most one task goes on to create. -/
theorem OneKey.alone_step [DecidableEq Key] {label : Label Reply (Instance × Request)}
    (hOne : OneKey deps k m) (hTracked : Tracked locker deps m)
    (hAlone : looksUpAlone k m label = true) (hStep : (system locker deps).step m label = some m')
    (i j : Nat) (hi : isCreating k m' i = true) (hj : isCreating k m' j = true) : i = j := by
  rcases isCreating_before hStep hi with hi | ⟨reply, rfl, hCall, -⟩ <;>
    rcases isCreating_before hStep hj with hj | ⟨reply', hLabel, hCall', -⟩
  · exact hOne.alone i j hi hj
  · subst hLabel
    exact eq_of_looksUpAlone hTracked hAlone hCall' hi
  · exact (eq_of_looksUpAlone hTracked hAlone hCall hj).symm
  · cases hLabel
    rfl

/-- Where a task goes on to create, no stored order has the key. -/
theorem OneKey.absent_step [DecidableEq Key] {i : Nat} {reply : Reply} {c : Call}
    {answer : Except AppError (Ans c)} (hOne : OneKey deps k m) (hTracked : Tracked locker deps m)
    (hk : k ≠ "") (hCall : m.nextCall i = some c) (hAdmits : Admits deps (m.world.past i) c)
    (hOrders : OrderStep deps.backend i m.world m'.world c answer)
    (hStep : (system locker deps).step m (.step i reply : Label Reply (Instance × Request)) = some m')
    (j : Nat) (hj : isCreating k m' j = true) (o : Order) (ho : m'.world.order o.id = some o) :
    o.idempotencyKey ≠ some k := by
  intro hKey
  rcases keyed_before hTracked.lineage hAdmits hOrders ho hKey with ⟨x, hx, hxKey⟩ | ⟨new, rfl, hNewKey⟩
  · rcases isCreating_before hStep hj with hOld | ⟨_, hLabel, hCall', hExec'⟩
    · exact hOne.absent j hOld x hx hxKey
    · have hFind := (hOne.keyed.finds x).mpr ⟨hx, hxKey⟩
      rw [← lookup_answer hExec'] at hFind
      cases hFind
  · have hMine := isCreating_of_nextCall hTracked hCall hk hNewKey
    rcases isCreating_before hStep hj with hOld | ⟨_, hLabel, hCall', -⟩
    · -- the task that inserts is no longer creating afterwards
      obtain rfl := hOne.alone i j hMine hOld
      obtain ⟨-, -, hNone⟩ := isCreating_iff.mp hj
      have hInserted : ⟨.ordersCreate new, answer⟩ ∈ m'.world.past i := by
        rw [World.past_of_step hOrders, if_pos rfl]
        exact List.mem_cons_self
      cases hNone _ hInserted
    · cases hLabel
      cases hCall.symm.trans hCall'

theorem OneKey.step [DecidableEq Key] {label : Label Reply (Instance × Request)}
    (hOne : OneKey deps k m) (hTracked : Tracked locker deps m) (hk : k ≠ "")
    (hAlone : looksUpAlone k m label = true)
    (hStep : (system locker deps).step m label = some m') : OneKey deps k m' := by
  have hApart := hOne.alone_step hTracked hAlone hStep
  obtain hSame | ⟨i, reply, c, answer, rfl, hCall, hAdmits, hExec, hOrders⟩ :=
    hTracked.orderStep hStep
  · refine ⟨hSame ▸ hOne.keyed, hApart, fun j hj => ?_, hSame ▸ hOne.found⟩
    rcases isCreating_before hStep hj with hOld | ⟨reply, -, -, hExec⟩
    · rw [hSame]
      exact hOne.absent j hOld
    · obtain ⟨applied, hTrace⟩ := trace_of_exec hExec
      rw [hSame] at hTrace
      exact absurd hTrace.symm (List.cons_ne_self _ _)
  · refine ⟨hOne.keyed_step hTracked hk hCall hOrders, hApart,
      hOne.absent_step hTracked hk hCall hAdmits hOrders hStep, fun j existing hMem => ?_⟩
    have hKept : ∀ {row}, m.world.order existing.id = some row → row.idempotencyKey = some k →
        ∃ row', m'.world.order existing.id = some row' ∧ row'.idempotencyKey = some k := by
      intro row hRow hKey
      obtain ⟨row', hRow', hTerms⟩ := hTracked.lineage.kept hAdmits hOrders hRow
      exact ⟨row', hRow', (Order.idempotencyKey_eq_of_terms hTerms).trans hKey⟩
    rcases World.mem_past_of_step hOrders hMem with hOld | ⟨rfl, hNew⟩
    · obtain ⟨row, hRow, hKey⟩ := hOne.found j existing hOld
      exact hKept hRow hKey
    · cases hNew
      obtain ⟨hRow, hKey⟩ := (hOne.keyed.finds existing).mp (lookup_answer hExec).symm
      exact hKept hRow hKey

end steps

/-- The id of the order that a settled `createOrder` has returned. -/
def createdOrder (m : Deployment Key) (i : Nat) : Option String :=
  m.tasks[i]?.bind fun t => match t.prog with
    | .ret (.ok (.created output)) => some output.order.id
    | _ => none

theorem createdOrder_eq_some {m : Deployment Key} {i : Nat} {id : String}
    (h : createdOrder m i = some id) : ∃ t output, m.tasks[i]? = some t ∧
      t.prog = .ret (.ok (.created output)) ∧ output.order.id = id := by
  obtain ⟨t, ht, hProg⟩ := Option.bind_eq_some_iff.mp h
  split at hProg
  · next output hRet => exact ⟨t, output, ht, hRet, Option.some.inj hProg⟩
  · cases hProg

/-- What a settled `createOrder` has returned is stored with the key. -/
theorem stored_of_returned {m : Deployment Key} {i : Nat} {input : CreateOrderInput}
    {output : CreateOrderOutput} (hOne : OneKey deps k m) (hTracked : Tracked locker deps m)
    (hInput : input.idempotencyKey = some k) (hReturned : Returned input output (m.world.past i)) :
    ∃ row, m.world.order output.order.id = some row ∧ row.idempotencyKey = some k := by
  rcases hReturned with ⟨k', existing, hTruthy, hMem, hId⟩ | ⟨o, answer, hMem, hKey, hId⟩
  · obtain rfl : k = k' := by
      rw [hInput] at hTruthy
      exact Option.some.inj (Option.filter_eq_some_iff.mp hTruthy).1
    obtain ⟨row, hRow, hRowKey⟩ := hOne.found i existing hMem
    exact ⟨row, hId ▸ hRow, hRowKey⟩
  · obtain ⟨row, hRow, hTerms⟩ := hTracked.lineage.saw i o (.inr ⟨answer, hMem⟩)
    refine ⟨row, hId ▸ hRow, ?_⟩
    rw [Order.idempotencyKey_eq_of_terms hTerms, hKey, hInput]

/-- An insertion fails for no other reason than its merchant order number. -/
theorem outTradeNo_of_create_error {s : OrderStore} {b : Backend} {o : Order} {e : AppError}
    (hCreate : s.create b o = .error e) (hNew : s.byId.get? o.id = none)
    (hKey : ∀ x, s.byId.get? x.id = some x → x.idempotencyKey ≠ o.idempotencyKey) :
    s.outTradeNoTaken o.outTradeNo b = true := by
  cases b with
  | memory =>
      simp only [OrderStore.create, MemoryOrderRepository.create] at hCreate
      split at hCreate
      · next hTaken => exact hTaken
      · cases hCreate
  | sql =>
      have hUnused : (s.byId.rows.any fun row => row.idempotencyKey = o.idempotencyKey) = false := by
        rw [List.any_eq_false]
        intro row hMem
        simpa using hKey row (Table.get?_of_mem hMem)
      simp only [OrderStore.create, SqlOrderRepository.create, Table.has, hNew, hUnused,
        Bool.and_false, Option.isSome_none, Bool.false_eq_true, if_false] at hCreate
      split at hCreate
      · next hTaken => exact hTaken
      · cases hCreate

/-- The task was started to create an order under the key. -/
def createsUnder (k : String) (requests : List (Instance × Request)) (i : Nat) : Bool :=
  match requests[i]? with
  | some (_, .createOrder input) => input.idempotencyKey = some k
  | _ => false

/-- What a task returns as created, it was started to create. -/
def ServesCreated (request : Instance × Request) (result : Except AppError Outcome) (past : Past) :
    Prop :=
  ∀ output, result = .ok (.created output) → ∃ input, request.2 = .createOrder input ∧
    Returned input output past

/-- As long as the key is looked up by one task at a time, all calls with the key
return one order, no other is stored under it, and no insertion collides with it. -/
theorem one_order_per_key [DecidableEq Key] {store : Store} {clock : Int}
    {requests : List (Instance × Request)} {m : Deployment Key} (hk : k ≠ "")
    (hStore : store.orders.Keyed deps.backend k)
    (hRun : (system locker deps).Takes (fun _ m label => looksUpAlone k m label = true)
      (Deployment.start store clock) requests m) :
    (∀ i j id id', createsUnder k requests i = true → createsUnder k requests j = true →
      createdOrder m i = some id → createdOrder m j = some id' → id = id') ∧
    (∀ o o', m.world.order o.id = some o → m.world.order o'.id = some o' →
      o.idempotencyKey = some k → o'.idempotencyKey = some k → o = o') ∧
    ∀ i o e, m.nextCall i = some (.ordersCreate o) → o.idempotencyKey = some k →
      m.world.store.orders.create deps.backend o = .error e →
      m.world.store.orders.outTradeNoTaken o.outTradeNo deps.backend = true := by
  have hNotCreating : ∀ i, isCreating k (Deployment.start store clock : Deployment Key) i ≠ true := by
    intro i hi
    obtain ⟨-, ⟨h, hNewest, -⟩, -⟩ := isCreating_iff.mp hi
    cases hNewest
  have hStart : OneKey deps k (Deployment.start store clock : Deployment Key) :=
    ⟨hStore, fun i _ hi => absurd hi (hNotCreating i), fun i hi => absurd hi (hNotCreating i),
      fun i existing hMem => by cases hMem⟩
  obtain ⟨hTracked, hOne, hServing⟩ := hRun.invariant (P := fun requests m =>
    Tracked locker deps m ∧ OneKey deps k m ∧
      Serving (recording locker deps) Possible (fun _ => Admits deps) ServesCreated requests m) (by
    rintro requests m label m' hAlone hStep ⟨hTracked, hOne, hServing⟩
    refine ⟨hTracked.step hStep, hOne.step hTracked hk hAlone hStep,
      hServing.step ?_ (fun _ _ _ _ _ _ _ hExec => possible_of_exec hExec) hStep⟩
    rintro ⟨n, request⟩ rfl
    refine Prog.follows_mono (fun _ _ => id) ?_ (traced_serve (locker n) request)
    rintro _ past hServes output rfl
    exact hServes _ rfl output rfl)
    ⟨tracked_start, hStart, serving_start fun _ => rfl⟩
  have hReturns : ∀ i id, createsUnder k requests i = true → createdOrder m i = some id →
      ∃ row, m.world.order id = some row ∧ row.idempotencyKey = some k := by
    intro i id hUnder hId
    obtain ⟨t, output, hTask, hProg, rfl⟩ := createdOrder_eq_some hId
    obtain ⟨⟨n, request⟩, hRequest, hServes⟩ := hServing.returned hTask hProg
    obtain ⟨input, rfl, hReturned⟩ := hServes output rfl
    have hInput : input.idempotencyKey = some k := by
      simpa [createsUnder, hRequest] using hUnder
    exact stored_of_returned hOne hTracked hInput hReturned
  refine ⟨fun i j id id' hUnder hUnder' hi hj => ?_, fun o o' ho ho' hKey hKey' => ?_,
    fun i o e hCall hKey hCreate => ?_⟩
  · obtain ⟨row, hRow, hKey⟩ := hReturns i id hUnder hi
    obtain ⟨row', hRow', hKey'⟩ := hReturns j id' hUnder' hj
    obtain rfl := World.id_of_order hRow
    obtain rfl := World.id_of_order hRow'
    rw [hOne.keyed.unique hRow hKey hRow' hKey']
  · exact hOne.keyed.unique ho hKey ho' hKey'
  · refine outTradeNo_of_create_error hCreate (hTracked.lineage.new (hTracked.admits hCall)) ?_
    rw [hKey]
    exact hOne.absent i (isCreating_of_nextCall hTracked hCall hk hKey)

theorem keyed_empty (b : Backend) (k : String) : Store.empty.orders.Keyed b k where
  finds o := by
    constructor
    · intro hFind
      cases b <;> cases hFind
    · rintro ⟨hRow, -⟩
      cases hRow
  indexed _ entry hEntry := by cases hEntry

namespace Sample

def keyedInput : CreateOrderInput := ⟨"alice", "monthly", .alipay, some "K", none⟩

def otherInput : CreateOrderInput := ⟨"bob", "monthly", .alipay, some "L", none⟩

/-- A task looks the key up. -/
def looksUp (task : Nat) : List (Label Reply (Unit × Request)) :=
  [.spawn ((), .createOrder keyedInput), .step task .normal]

/-- The rest of `createOrder` after a lookup that found nothing. -/
def completes (task : Nat) (id outTradeNo : String) : List (Label Reply (Unit × Request)) :=
  [.step task .normal, .step task (.text id), .step task (.text outTradeNo), .step task .normal,
    .step task (.payment payInfo), .step task .normal, .step task .normal]

end Sample

/-- A call, another one with a key of its own that runs beside it, and the repetition of the
first. -/
theorem one_order_per_key_sample : ∃ (requests : List (Unit × Request)) (m : Deployment String),
    (singleInstance (Sample.deps .sql)).Takes (fun _ m label => looksUpAlone "K" m label = true)
      (Deployment.start Store.empty 0) requests m ∧
    createsUnder "K" requests 0 = true ∧ createsUnder "K" requests 1 = false ∧
    createsUnder "K" requests 2 = true ∧ createdOrder m 0 = some "o1" ∧
    createdOrder m 1 = some "o2" ∧ createdOrder m 2 = some "o1" := by
  obtain ⟨requests, m, hRun, hCheck⟩ := System.exists_takes (singleInstance (Sample.deps .sql))
    (fun _ m label => looksUpAlone "K" m label) (Deployment.start Store.empty 0)
    (Sample.looksUp 0 ++ [.spawn ((), .createOrder Sample.otherInput), .step 1 .normal] ++
      Sample.completes 0 "o1" "VPN1" ++ Sample.looksUp 2 ++ Sample.completes 1 "o2" "VPN2")
    (fun (requests, m) => (createsUnder "K" requests 0 && !createsUnder "K" requests 1 &&
      createsUnder "K" requests 2) && (createdOrder m 0 = some "o1" &&
      createdOrder m 1 = some "o2" && (createdOrder m 2).isSome)) (by decide +kernel)
  simp only [Bool.and_eq_true, Bool.not_eq_true', decide_eq_true_eq] at hCheck
  obtain ⟨⟨⟨hFirst, hOther⟩, hAgain⟩, ⟨hCreated, hBeside⟩, hReplayed⟩ := hCheck
  obtain ⟨id, hId⟩ := Option.isSome_iff_exists.mp hReplayed
  obtain ⟨hSame, -, -⟩ := one_order_per_key (by decide) (keyed_empty _ _) hRun
  exact ⟨requests, m, hRun, hFirst, hOther, hAgain, hCreated, hBeside,
    hSame 0 2 "o1" id hFirst hAgain hCreated hId ▸ hId⟩

/-- Two calls with one key look it up before either has inserted its order. In
memory both succeed with an order of their own, under SQL the second one fails. -/
theorem key_collides : (∃ m : Deployment String,
      (singleInstance (Sample.deps .memory)).Reaches
        (fun _ label => onlySpawns (createsOnly Sample.keyedInput) label = true)
        (Deployment.start Store.empty 0) m ∧
      createdOrder m 0 = some "o1" ∧ createdOrder m 1 = some "o2") ∧
    ∃ m : Deployment String, (singleInstance (Sample.deps .sql)).Reaches
        (fun _ label => onlySpawns (createsOnly Sample.keyedInput) label = true)
        (Deployment.start Store.empty 0) m ∧
      createdOrder m 0 = some "o1" ∧
      m.rejection 1 = some (uniqueViolation "orders_idempotency_key_key") := by
  constructor
  · obtain ⟨m, hRun, hCheck⟩ := System.exists_reaches (singleInstance (Sample.deps .memory))
      (fun _ label => onlySpawns (createsOnly Sample.keyedInput) label)
      (Deployment.start Store.empty 0)
      (Sample.looksUp 0 ++ Sample.looksUp 1 ++ Sample.completes 0 "o1" "VPN1" ++
        Sample.completes 1 "o2" "VPN2")
      (fun m => createdOrder m 0 = some "o1" && createdOrder m 1 = some "o2") (by decide +kernel)
    simp only [Bool.and_eq_true, decide_eq_true_eq] at hCheck
    exact ⟨m, hRun, hCheck⟩
  · obtain ⟨m, hRun, hCheck⟩ := System.exists_reaches (singleInstance (Sample.deps .sql))
      (fun _ label => onlySpawns (createsOnly Sample.keyedInput) label)
      (Deployment.start Store.empty 0)
      (Sample.looksUp 0 ++ Sample.looksUp 1 ++ Sample.completes 0 "o1" "VPN1" ++
        (Sample.completes 1 "o2" "VPN2").take 4)
      (fun m => createdOrder m 0 = some "o1" &&
        m.rejection 1 = some (uniqueViolation "orders_idempotency_key_key")) (by decide +kernel)
    simp only [Bool.and_eq_true, decide_eq_true_eq] at hCheck
    exact ⟨m, hRun, hCheck⟩

end VpnPayment
