import VpnPayment.Settlement.CreatePrograms

/-! Every request keeps the order discipline, and what that means for whole runs
of a system. -/
namespace VpnPayment

open Async Collections
open Prog (perform)

/-- The requests of a scope. Orders are created in the `creating` scope only, and
time is granted only in the course of a settlement. -/
def Request.admitted (scope : Scope) : Request → Prop
  | .createOrder _ => scope = .creating
  | .fulfillOrder _ => False
  | _ => True

section programs

variable {Instance Key : Type} {scope : Scope} {orderOf : Key → String}
  {locker : Instance → String → Key} {deps : Deps} {i : Nat} {n₀ : Instance} {w : World}

/-- A reminder mark is not a grant. -/
theorem quiet_reminder (sub : Subscription) (now : Int) :
    (Call.subscriptionsUpdate { sub with expiryNotifiedAt := some now }).quiet = true := by
  simp [Call.quiet, Call.writesLedger, Call.grantee]

theorem quiet_deactivation (sub : Subscription) (now : Int) :
    (Call.subscriptionsUpdate { sub with active := false, updatedAt := now }).quiet = true := by
  simp [Call.quiet, Call.writesLedger, Call.grantee]

/-- By induction on the subscriptions the reminder pass has yet to visit. -/
theorem safe_remindEach (now : Int) (subs : List Subscription) (sent : Nat) :
    SafeProgram scope orderOf locker deps i (ExpiryService.remindEach deps now subs sent) w := by
  induction subs generalizing sent w with
  | nil => exact safeProgram_ret _
  | cons sub rest ih =>
      unfold ExpiryService.remindEach
      split
      · refine safeProgram_quiet rfl fun _ _ _ => ?_
        exact safeProgram_quiet (quiet_reminder sub now) fun _ _ _ => ih _
      · exact ih _

/-- By induction on the subscriptions the deactivation pass has yet to visit. -/
theorem safe_deactivateEach (now : Int) (subs : List Subscription) (count : Nat) :
    SafeProgram scope orderOf locker deps i (ExpiryService.deactivateEach now subs count) w := by
  induction subs generalizing count w with
  | nil => exact safeProgram_ret _
  | cons sub rest ih =>
      unfold ExpiryService.deactivateEach
      split
      · exact ih _
      · refine safeProgram_quiet (quiet_deactivation sub now) fun _ _ _ => ?_
        exact safeProgram_quiet rfl fun _ _ _ => ih _

theorem safe_reconcile (hKey : ∀ orderId, orderOf (locker n₀ orderId) = orderId) (heal : Bool) :
    SafeProgram scope orderOf locker deps i (ReconciliationService.run (locker n₀) heal) w := by
  refine safeProgram_quiet rfl fun now _ _ => ?_
  refine safeProgram_quiet rfl fun orders _ _ => ?_
  refine safeProgram_quiet rfl fun refunds w₃ hSound₃ => ?_
  cases heal with
  | true =>
      exact safeProgram_bind hSound₃ (safe_expireStaleOrders hKey) fun _ _ _ => safeProgram_ret _
  | false => exact safeProgram_ret _

/-- One case for each kind of request. -/
theorem safe_serve (hKey : ∀ orderId, orderOf (locker n₀ orderId) = orderId) {request : Request}
    (hAdmitted : request.admitted scope) (hSound : World.Sound scope w) :
    SafeProgram scope orderOf locker deps i (serve (locker n₀) deps request) w := by
  have hRest : ∀ {α : Type} {p : Action Key α} {f : α → Outcome},
      SafeProgram scope orderOf locker deps i p w →
      SafeProgram scope orderOf locker deps i (p >>= fun a => pure (f a)) w :=
    fun hFirst => safeProgram_bind hSound hFirst fun _ _ _ => safeProgram_ret _
  cases request with
  | createOrder input =>
      obtain rfl : scope = .creating := hAdmitted
      exact hRest (safe_createOrder input hSound)
  | handleCallback method raw => exact hRest (safe_handleCallback hKey method raw)
  | syncOrder orderId => exact hRest (safe_syncOrder hKey orderId)
  | expireStaleOrders => exact hRest (safe_expireStaleOrders hKey)
  | refundOrder orderId input => exact hRest (safe_refundOrder hKey orderId input)
  | handleRefundCallback method raw => exact hRest (safe_handleRefundCallback hKey method raw)
  | fulfillOrder order => exact hAdmitted.elim
  | sendExpiryReminders =>
      refine hRest (safeProgram_quiet rfl fun now _ _ => ?_)
      exact safeProgram_quiet rfl fun subs _ _ => safe_remindEach now subs 0
  | deactivateExpired =>
      refine hRest (safeProgram_quiet rfl fun now _ _ => ?_)
      exact safeProgram_quiet rfl fun subs _ _ => safe_deactivateEach now subs 0
  | reconcile heal => exact hRest (safe_reconcile hKey heal)
  | sweep olderThanMs => exact safeProgram_quiet rfl fun _ _ _ => safeProgram_ret _
  | tick => exact safeProgram_quiet rfl fun _ _ _ => safeProgram_ret _

theorem entry_safe (hKey : ∀ n orderId, orderOf (locker n orderId) = orderId)
    (request : Instance × Request) (hAdmitted : request.2.admitted scope)
    (hSound : World.Sound scope w) :
    Safe scope orderOf locker deps i none ((system locker deps).entry request)
      (fun h _ _ => h = none ∧ True) w :=
  Discipline.wp_mono (fun _ _ _ _ hHeld => ⟨hHeld, trivial⟩)
    (safe_serve (hKey request.1) hAdmitted hSound)

end programs

section runs

variable {Instance Key : Type} [DecidableEq Key] {scope : Scope} {orderOf : Key → String}
  {locker : Instance → String → Key} {deps : Deps} {store : Store} {clock : Int}

/-- The runs the order discipline speaks about. -/
abbrev Disciplined (scope : Scope) (orderOf : Key → String) (locker : Instance → String → Key)
    (deps : Deps) : Deployment Key → Label Reply (Instance × Request) → Prop :=
  (orderDiscipline scope orderOf locker deps).Permits fun request => request.2.admitted scope

variable {m m' : Deployment Key} {label : Label Reply (Instance × Request)}

/-- A disciplined run from a sound start stays coherent. -/
theorem coherent_of_reaches (hKey : ∀ n orderId, orderOf (locker n orderId) = orderId)
    (hSound : World.Sound scope (World.start store clock))
    (hOwned : ∀ id, World.Owned scope id (World.start store clock))
    (hRun : (system locker deps).Reaches (Disciplined scope orderOf locker deps)
      (Deployment.start store clock) m) :
    (orderDiscipline scope orderOf locker deps).Coherent m :=
  Discipline.Coherent.run (fun request hAdmitted _ _ hSound _ => entry_safe hKey request hAdmitted hSound)
    (Discipline.coherent_start hSound hOwned fun _ => trivial) hRun

/-- One disciplined step writes orders lawfully. -/
theorem writes_of_step (hKey : ∀ n orderId, orderOf (locker n orderId) = orderId)
    (hCoh : (orderDiscipline scope orderOf locker deps).Coherent m)
    (hAllowed : Disciplined scope orderOf locker deps m label)
    (hStep : (system locker deps).step m label = some m') {id : String} {o : Order}
    (ho : m.world.order id = some o) :
    ∃ o', m'.world.order id = some o' ∧ Order.Write (scope = .creating) o o' := by
  obtain ⟨-, hSame | ⟨i, t, -, hGuar⟩⟩ := hCoh.step (fun request hAdmitted _ _ hSound _ =>
    entry_safe hKey request hAdmitted hSound) hAllowed hStep
  · exact ⟨o, by rw [hSame, ho], .refl o⟩
  · exact hGuar.writes id o ho

/-- In a disciplined run stored orders evolve lawfully. -/
theorem evolves_of_reaches (hKey : ∀ n orderId, orderOf (locker n orderId) = orderId)
    (hCoh : (orderDiscipline scope orderOf locker deps).Coherent m)
    (hRun : (system locker deps).Reaches (Disciplined scope orderOf locker deps) m m')
    {id : String} {o : Order} (ho : m.world.order id = some o) :
    ∃ o', m'.world.order id = some o' ∧ Order.Evolves (scope = .creating) o o' := by
  induction hRun with
  | refl => exact ⟨o, ho, .refl o⟩
  | tail prior hAllowed last ih =>
      obtain ⟨o', ho', hEvolves⟩ := ih
      obtain ⟨o'', ho'', hWrite⟩ :=
        writes_of_step hKey (hCoh.run (fun request hAdmitted _ _ hSound _ => entry_safe hKey request hAdmitted hSound) prior) hAllowed last ho'
      exact ⟨o'', ho'', hEvolves.trans hWrite.evolves⟩

end runs

/-- In the store of a deployment the refund ledger of every order holds. -/
def Store.Ledgered (store : Store) : Prop :=
  ∀ id o, store.orders.byId.get? id = some o →
    LedgerHolds o (store.refunds.byId.rows.filter fun r => r.orderId = id)

theorem World.owned_start {scope : Scope} {store : Store} {clock : Int}
    (hLedger : scope.keepsLedger → store.Ledgered) (id : String) :
    World.Owned scope id (World.start store clock) :=
  fun hScope o ho => hLedger hScope id o ho

/-- Nothing has been granted when a deployment starts. -/
theorem World.sound_start {scope : Scope} {store : Store} {clock : Int}
    (hLedger : scope.keepsLedger → store.Ledgered)
    (hRefunded : scope = .settled → ∀ id o, store.orders.byId.get? id = some o →
      o.status = .REFUNDED →
      FullyRefunded o (store.refunds.byId.rows.filter fun r => r.orderId = id))
    (hRefundsPaid : scope = .creating → ∀ id,
      store.refunds.byId.rows.filter (fun r => r.orderId = id) ≠ [] →
      ∃ o, store.orders.byId.get? id = some o ∧ o.status ≠ .PENDING) :
    World.Sound scope (World.start store clock) where
  issued := List.nodup_nil
  granted id hPos := by simp [World.start, World.grants] at hPos
  bounded hScope id o ho := (hLedger hScope id o ho).bounded
  refunded hScope id o ho := hRefunded hScope id o ho
  refundsPaid hScope id := hRefundsPaid hScope id

section conditions

variable {Instance Key : Type} {scope : Scope} {orderOf : Key → String}
  {locker : Instance → String → Key} {deps : Deps} {m : Deployment Key}
  {label : Label Reply (Instance × Request)}

theorem admitted_of_afterCreation {request : Request} (h : request.afterCreation = true) :
    request.admitted scope := by
  cases request with
  | createOrder input => cases h
  | fulfillOrder order => cases h
  | _ => trivial

/-- Nobody is in the critical section of the order, on any instance. -/
abbrev OrderFree (orderOf : Key → String) (m : Deployment Key) (id : String) : Prop :=
  ∀ t ∈ m.tasks, t.held.map orderOf ≠ some id

/-- What a step has to meet for the order discipline to speak about it. -/
theorem disciplined_of {kind : Request → Bool} (hKind : ∀ r, kind r = true → r.admitted scope)
    (hSpawns : onlySpawns kind label = true)
    (hCall : ∀ i reply t c, label = .step i reply → m.tasks[i]? = some t → m.nextCall i = some c →
      Condition scope i (t.held.map orderOf) (OrderFree orderOf m) c reply m.world)
    (hLock : ∀ i reply key, label = .step i reply → m.nextLock i = some key →
      OrderFree orderOf m (orderOf key)) :
    Disciplined scope orderOf locker deps m label := by
  cases label with
  | spawn request => exact hKind request.2 hSpawns
  | step i reply =>
      intro t ht
      split
      · next c next hProg => exact hCall i reply t c rfl ht (by simp [Machine.nextCall, ht, hProg])
      · next key next hProg => exact hLock i reply key rfl (by simp [Machine.nextLock, ht, hProg])
      · trivial

theorem reachesStore_of_writesLedger {c : Call} (h : c.writesLedger = true) :
    c.reachesStore = true := by
  cases c <;> first | rfl | cases h

/-- On one instance the lock of an order keeps the tasks apart. -/
theorem orderFree_of_step {deps : Deps} {m m' : Deployment String} {i : Nat} {reply : Reply}
    {key : String} (hLock : m.nextLock i = some key)
    (hStep : (singleInstance deps).step m (.step i reply) = some m') : OrderFree id m key := by
  obtain ⟨t, ht, hTask⟩ := Option.bind_eq_some_iff.mp hStep
  simp only [Machine.nextLock, ht, Option.bind_some] at hLock
  obtain ⟨c, next, answer, w, hProg, -⟩ | ⟨key', next, hProg, hFree, -⟩ | ⟨next, hProg, -⟩ :=
    System.stepTask_cases hTask <;> rw [hProg] at hLock <;> cases hLock
  intro other hMem
  rw [Option.map_id]
  exact hFree other hMem

end conditions
end VpnPayment
