import VpnPayment.Settlement.Runs

/-! An order's time is granted at most once: on one instance always, on several
as long as their critical sections of one order do not overlap. -/
namespace VpnPayment

open Async Collections

theorem not_plain (h : Scope.keepsLedger .plain) : False := by
  rcases h with h | h <;> cases h

theorem condition_plain {i : Nat} {h : Option String} {free : String → Prop} {c : Call}
    {reply : Reply} {w : World} : Condition .plain i h free c reply w where
  writes hScope := (not_plain hScope).elim
  release hScope := (not_plain hScope).elim
  settled := nofun
  creating := nofun

theorem World.sound_plain {store : Store} {clock : Int} :
    World.Sound .plain (World.start store clock) :=
  World.sound_start (fun h => (not_plain h).elim) nofun nofun

theorem World.owned_plain {store : Store} {clock : Int} (id : String) :
    World.Owned .plain id (World.start store clock) :=
  World.owned_start (fun h => (not_plain h).elim) id

theorem World.Sound.grants_le_one {scope : Scope} {w : World} (hSound : World.Sound scope w)
    (orderId : String) : w.grants orderId ≤ 1 := by
  by_cases hPos : 0 < w.grants orderId
  · exact (hSound.granted orderId hPos).1.le
  · omega

section single

variable {deps : Deps} {store : Store} {clock : Int} {m m' : Deployment String}

/-- Every run of one instance on existing orders is disciplined. -/
theorem disciplined_single
    (hRun : (singleInstance deps).Reaches (fun _ label => onlySpawns Request.afterCreation label = true) m m') :
    (singleInstance deps).Reaches (Disciplined .plain id (fun _ orderId => orderId) deps) m m' := by
  refine hRun.mono fun m label m' hSpawns hStep => ?_
  refine disciplined_of (fun _ => admitted_of_afterCreation) hSpawns (fun _ _ _ _ _ _ _ => condition_plain) ?_
  rintro i reply key rfl hLock
  exact orderFree_of_step hLock hStep

/-- Exactly-once fulfilment on one instance, whatever fails and however the
requests interleave: the time of an order is granted at most once, and an order
that has left PENDING never returns to it. -/
theorem granted_at_most_once
    (hRun : (singleInstance deps).Reaches (fun _ label => onlySpawns Request.afterCreation label = true)
      (Deployment.start store clock) m)
    (hMore : (singleInstance deps).Reaches
      (fun _ label => onlySpawns Request.afterCreation label = true) m m') (orderId : String) :
    m'.world.grants orderId ≤ 1 ∧
      ∀ o, m.world.order orderId = some o → o.status ≠ .PENDING →
        ∃ o', m'.world.order orderId = some o' ∧ o'.status ≠ .PENDING := by
  have hKey : ∀ (n : Unit) (orderId : String), id orderId = orderId := fun _ _ => rfl
  have hCoh : ∀ {m : Deployment String}, (singleInstance deps).Reaches
      (fun _ label => onlySpawns Request.afterCreation label = true) (Deployment.start store clock) m →
      (orderDiscipline .plain id (fun (_ : Unit) orderId => orderId) deps).Coherent m := fun hRun =>
    coherent_of_reaches hKey World.sound_plain World.owned_plain (disciplined_single hRun)
  refine ⟨(hCoh (hRun.trans hMore)).inv.grants_le_one orderId, fun o ho hStatus => ?_⟩
  obtain ⟨o', ho', hEvolves⟩ := evolves_of_reaches hKey (hCoh hRun) (disciplined_single hMore) ho
  exact ⟨o', ho', fun hPending => hStatus (follows_to_pending hEvolves.status hPending)⟩

end single

/-! A small deployment to run requests on. -/
namespace Sample

def provider : PaymentProvider where
  hasRefund := true
  hasVerifyRefundCallback := true
  callbackAck ok := ⟨if ok then 200 else 500, "text/plain", if ok then "success" else "fail"⟩

def monthly : Plan where
  id := "monthly"
  name := "Monthly"
  durationDays := 30
  trafficGb := 200
  deviceLimit := 3
  priceCnyFen := 1500
  priceUsdtMicro := 2000000
  enabled := true

def deps (backend : Backend) : Deps where
  backend := backend
  providers _ := some provider
  plans := [monthly]
  orderTtlMinutes := 30
  usdtUniqueDeltaMax := 9999
  usdtAddressMode := none
  addressAllocator := false
  onUsdtSettled := false
  audit := false
  outbound := false
  reminderWindowMs := 259200000

/-- An order of alice's, just created. -/
def order : Order where
  id := "o1"
  merchantId := some DEFAULT_MERCHANT_ID
  outTradeNo := "VPN1"
  userId := "alice"
  planId := "monthly"
  method := .alipay
  currency := .CNY
  amount := 1500
  status := .PENDING
  providerTxnId := none
  idempotencyKey := none
  createdAt := 0
  updatedAt := 0
  expiresAt := 1800000
  paidAt := none
  refundedAmount := none
  metadata := .empty

def fulfilled : Order :=
  { order with status := .FULFILLED, providerTxnId := some "txn1", paidAt := some 0 }

/-- A store with one order. -/
def storeOf (o : Order) : Store :=
  { Store.empty with
    orders := ⟨Table.empty.put o, Table.empty.put (o.outTradeNo, o.id), Table.empty⟩ }

theorem eq_of_storeOf {o o' : Order} {id : String}
    (h : (storeOf o).orders.byId.get? id = some o') : o = o' := by
  have hGet : (Table.empty.put o).get? id = some o' := h
  rw [Table.get?_put] at hGet
  split at hGet
  · exact Option.some.inj hGet
  · cases hGet

theorem ledgered_storeOf {o : Order} (hRefunded : o.refundedAmount = none) (hAmount : 0 ≤ o.amount) :
    (storeOf o).Ledgered := by
  intro id o' ho'
  obtain rfl := eq_of_storeOf ho'
  have hNone : ((storeOf o).refunds.byId.rows.filter fun r => r.orderId = id) = [] := rfl
  rw [hNone]
  exact ⟨by simp [hRefunded, reserved], by simpa [reserved] using hAmount, by simp, by simp⟩

/-- The notification that the order is paid. -/
def callback : CallbackResult :=
  ⟨"VPN1", "txn1", true, .ofInt 1500, .CNY, "ev1", "TRADE_SUCCESS"⟩

/-- A task settles calls as the code behind them does. -/
def steps {Instance : Type} (task count : Nat) : List (Label Reply (Instance × Request)) :=
  List.replicate count (.step task .normal)

end Sample

/-- A notification that goes through. -/
theorem granted_once_sample : ∃ m : Deployment String,
    (singleInstance (Sample.deps .memory)).Reaches
      (fun _ label => onlySpawns Request.afterCreation label = true)
      (Deployment.start (Sample.storeOf Sample.order) 0) m ∧
    0 < m.world.grants "o1" ∧ m.world.grants "o1" ≤ 1 := by
  obtain ⟨m, hRun, hGranted⟩ := System.exists_reaches
    (singleInstance (Sample.deps .memory)) (fun _ label => onlySpawns Request.afterCreation label)
    (Deployment.start (Sample.storeOf Sample.order) 0)
    (List.flatten [[.spawn ((), .handleCallback .alipay ⟨"", []⟩),
        .step 0 (.callback Sample.callback)], Sample.steps 0 8, [.step 0 (.text "s1")],
      Sample.steps 0 1])
    (fun m => 0 < m.world.grants "o1") (by decide +kernel)
  exact ⟨m, hRun, by simpa using hGranted, (granted_at_most_once hRun (.refl m) "o1").1⟩

section replicas

variable {deps : Deps} {store : Store} {clock : Int}

/-- A task enters the critical section of an order only while no task of another
instance is inside it. -/
def sectionsApart (m : Deployment (Nat × String)) : Label Reply (Nat × Request) → Bool
  | .spawn _ => true
  | .step i _ => (m.nextLock i).all fun key => m.tasks.all fun t => t.held.map Prod.snd ≠ some key.2

theorem orderFree_of_sectionsApart {m : Deployment (Nat × String)} {i : Nat} {reply : Reply}
    {key : Nat × String} (hApart : sectionsApart m (.step i reply) = true)
    (hLock : m.nextLock i = some key) : OrderFree Prod.snd m key.2 := by
  simp only [sectionsApart, hLock, Option.all_some, List.all_eq_true, decide_eq_true_eq] at hApart
  exact hApart

/-- Requests on existing orders whose critical sections do not overlap. -/
def apartTraffic (m : Deployment (Nat × String)) (label : Label Reply (Nat × Request)) : Bool :=
  onlySpawns Request.afterCreation label && sectionsApart m label

theorem disciplined_replicas {m m' : Deployment (Nat × String)}
    (hRun : (replicated deps).Reaches (fun m label => apartTraffic m label = true) m m') :
    (replicated deps).Reaches (Disciplined .plain Prod.snd Prod.mk deps) m m' := by
  refine hRun.mono fun m label _ hTraffic _ => ?_
  obtain ⟨hSpawns, hApart⟩ := Bool.and_eq_true_iff.mp hTraffic
  refine disciplined_of (fun _ => admitted_of_afterCreation) hSpawns
    (fun _ _ _ _ _ _ _ => condition_plain) ?_
  rintro i reply key rfl hLock
  exact orderFree_of_sectionsApart hApart hLock

/-- No statement fails, so the ledgers are kept as well. -/
theorem disciplined_ledger {m m' : Deployment (Nat × String)}
    (hRun : (replicated deps).Reaches
      (fun m label => (apartTraffic m label && noFailure Call.reachesStore m label) = true) m m') :
    (replicated deps).Reaches (Disciplined .ledger Prod.snd Prod.mk deps) m m' := by
  refine hRun.mono fun m label _ hTraffic _ => ?_
  obtain ⟨hTraffic, hNoFailure⟩ := Bool.and_eq_true_iff.mp hTraffic
  obtain ⟨hSpawns, hApart⟩ := Bool.and_eq_true_iff.mp hTraffic
  refine disciplined_of (fun _ => admitted_of_afterCreation) hSpawns ?_ ?_
  · rintro i reply t c rfl ht hCall
    have hReply : c.reachesStore = true → ∀ applied e, reply ≠ .throws applied e := by
      rintro hReaches applied e rfl
      simp [noFailure, hCall, hReaches, Reply.fails] at hNoFailure
    exact ⟨fun _ hWrites => hReply (reachesStore_of_writesLedger hWrites),
      fun _ _ id hc => hReply (hc ▸ rfl), nofun, nofun⟩
  · rintro i reply key rfl hLock
    exact orderFree_of_sectionsApart hApart hLock

/-- Several instances on one database keep each order safe as long as they do not
work on it at the same time. -/
theorem replicas_safe_while_apart (hLedger : store.Ledgered) :
    (∀ m m' : Deployment (Nat × String),
      (replicated deps).Reaches (fun m label => apartTraffic m label = true)
        (Deployment.start store clock) m →
      (replicated deps).Reaches (fun m label => apartTraffic m label = true) m m' →
      ∀ orderId, m'.world.grants orderId ≤ 1 ∧
        ∀ o, m.world.order orderId = some o → o.status = .FULFILLED →
          ∃ o', m'.world.order orderId = some o' ∧ o'.status ≠ .PAID) ∧
    (∀ m : Deployment (Nat × String),
      (replicated deps).Reaches
        (fun m label => (apartTraffic m label && noFailure Call.reachesStore m label) = true)
        (Deployment.start store clock) m →
      ∀ orderId o, m.world.order orderId = some o →
        reserved (m.world.refundsOf orderId) ≤ o.amount) := by
  have hKey : ∀ (n : Nat) (orderId : String), (n, orderId).2 = orderId := fun _ _ => rfl
  refine ⟨fun m m' hRun hMore orderId => ⟨?_, fun o ho hStatus => ?_⟩, fun m hRun orderId o ho => ?_⟩
  · have hCoh := coherent_of_reaches hKey World.sound_plain World.owned_plain
      (disciplined_replicas (hRun.trans hMore))
    exact hCoh.inv.grants_le_one orderId
  · have hCoh := coherent_of_reaches hKey World.sound_plain World.owned_plain
      (disciplined_replicas hRun)
    obtain ⟨o', ho', hEvolves⟩ := evolves_of_reaches hKey hCoh (disciplined_replicas hMore) ho
    refine ⟨o', ho', fun hPaid => ?_⟩
    rcases follows_from_fulfilled (hStatus ▸ hEvolves.status) with h | h <;>
      cases hPaid.symm.trans h
  · have hSound : World.Sound .ledger (World.start store clock) :=
      World.sound_start (fun _ => hLedger) nofun nofun
    have hOwned : ∀ id, World.Owned .ledger id (World.start store clock) :=
      World.owned_start fun _ => hLedger
    have hCoh := coherent_of_reaches hKey hSound hOwned (disciplined_ledger hRun)
    exact hCoh.inv.bounded (.inl rfl) orderId o ho

end replicas

namespace Sample

/-- Two instances learn of alice's payment one after the other. -/
def settledInTurn : List (Label Reply (Nat × Request)) :=
  List.flatten [[.spawn (0, .handleCallback .alipay ⟨"", []⟩), .step 0 (.callback callback)],
    steps 0 8, [.step 0 (.text "s1")], steps 0 3, [.spawn (1, .syncOrder "o1")], steps 1 1]

/-- Then each of them refunds a part of the order. -/
def refundedInTurn : List (Label Reply (Nat × Request)) :=
  List.flatten [[.spawn (1, .refundOrder "o1" ⟨some (.ofInt 500), none, none⟩)], steps 2 2,
    [.step 2 (.text "RF1"), .step 2 .normal, .step 2 (.refunded ⟨some "p1", .SUCCESS, ""⟩),
      .step 2 (.text "r1")], steps 2 4,
    [.spawn (0, .refundOrder "o1" ⟨none, none, none⟩)], steps 3 2,
    [.step 3 (.text "RF2"), .step 3 .normal, .step 3 (.refunded ⟨some "p2", .SUCCESS, ""⟩),
      .step 3 (.text "r2")], steps 3 4]

end Sample

/-- Two instances work on one order in turn: the first one grants its time, and both refund it
in parts. -/
theorem replicas_safe_sample : ∃ m m' : Deployment (Nat × String), ∃ o,
    (replicated (Sample.deps .sql)).Reaches
      (fun m label => (apartTraffic m label && noFailure Call.reachesStore m label) = true)
      (Deployment.start (Sample.storeOf Sample.order) 0) m ∧
    (replicated (Sample.deps .sql)).Reaches
      (fun m label => (apartTraffic m label && noFailure Call.reachesStore m label) = true) m m' ∧
    m.world.order "o1" = some o ∧ o.status = .FULFILLED ∧ 0 < m.world.grants "o1" ∧
    m'.world.grants "o1" ≤ 1 ∧ (∃ o', m'.world.order "o1" = some o' ∧ o'.status ≠ .PAID) ∧
    (m'.world.refundsOf "o1").length = 2 ∧
    ∀ o', m'.world.order "o1" = some o' → reserved (m'.world.refundsOf "o1") ≤ o'.amount := by
  obtain ⟨m, m', hRun, hMore, hCheck⟩ := System.exists_reaches_then (replicated (Sample.deps .sql))
    (fun m label => apartTraffic m label && noFailure Call.reachesStore m label)
    (Deployment.start (Sample.storeOf Sample.order) 0) Sample.settledInTurn Sample.refundedInTurn
    (fun m m' => ((m.world.order "o1").any fun o => o.status = .FULFILLED) &&
      0 < m.world.grants "o1" && (m'.world.refundsOf "o1").length = 2) (by decide +kernel)
  simp only [Bool.and_eq_true, decide_eq_true_eq, Option.any_eq_true] at hCheck
  obtain ⟨⟨⟨o, ho, hStatus⟩, hGranted⟩, hRefunds⟩ := hCheck
  have hApart : ∀ {m m' : Deployment (Nat × String)}, (replicated (Sample.deps .sql)).Reaches
      (fun m label => (apartTraffic m label && noFailure Call.reachesStore m label) = true) m m' →
      (replicated (Sample.deps .sql)).Reaches (fun m label => apartTraffic m label = true) m m' :=
    fun h => h.mono fun _ _ _ hBoth _ => (Bool.and_eq_true_iff.mp hBoth).1
  obtain ⟨hGrants, hLedgers⟩ := @replicas_safe_while_apart (Sample.deps .sql) _ 0
    (Sample.ledgered_storeOf (o := Sample.order) (by decide) (by decide))
  obtain ⟨hOnce, hStays⟩ := hGrants m m' (hApart hRun) (hApart hMore) "o1"
  exact ⟨m, m', o, hRun, hMore, ho, hStatus, hGranted, hOnce, hStays o ho hStatus, hRefunds,
    hLedgers m' (hRun.trans hMore) "o1"⟩

/-- Two instances learn of one payment, one from the provider's notification and
one by polling. They grant its time twice. Two refunds of the whole amount on two
instances both go through. -/
theorem replicas_grant_twice :
    (∃ m : Deployment (Nat × String), (replicated (Sample.deps .sql)).Reaches
      (fun m label => (onlySpawns Request.afterCreation label &&
        noFailure Call.reachesStore m label) = true)
      (Deployment.start (Sample.storeOf Sample.order) 0) m ∧
      m.world.grants "o1" = 2 ∧
      m.world.store.subscriptions.byId.rows.map Subscription.orderIds = [["o1", "o1"]]) ∧
    ∃ m : Deployment (Nat × String), (replicated (Sample.deps .sql)).Reaches
      (fun m label => (onlySpawns Request.afterCreation label &&
        noFailure Call.reachesStore m label) = true)
      (Deployment.start (Sample.storeOf Sample.fulfilled) 0) m ∧
      (m.world.order "o1").map Order.amount = some 1500 ∧ reserved (m.world.refundsOf "o1") = 3000 := by
  constructor
  · obtain ⟨m, hRun, hTwice⟩ := System.exists_reaches (replicated (Sample.deps .sql))
      (fun m label => onlySpawns Request.afterCreation label && noFailure Call.reachesStore m label)
      (Deployment.start (Sample.storeOf Sample.order) 0)
      (List.flatten [[.spawn (0, .handleCallback .alipay ⟨"", []⟩), .spawn (1, .syncOrder "o1"),
          .step 0 (.callback Sample.callback)], Sample.steps 0 4,
        Sample.steps 1 1, [.step 1 (.query ⟨true, some "txn1", none, "TRADE_SUCCESS"⟩)],
        -- both instances have read the order PENDING under a lock of their own
        Sample.steps 1 3, Sample.steps 0 4, [.step 0 (.text "s1")], Sample.steps 0 3,
        Sample.steps 1 7])
      (fun m => m.world.grants "o1" = 2 ∧
        m.world.store.subscriptions.byId.rows.map Subscription.orderIds = [["o1", "o1"]])
      (by decide +kernel)
    exact ⟨m, hRun, by simpa using hTwice⟩
  · obtain ⟨m, hRun, hTwice⟩ := System.exists_reaches (replicated (Sample.deps .sql))
      (fun m label => onlySpawns Request.afterCreation label && noFailure Call.reachesStore m label)
      (Deployment.start (Sample.storeOf Sample.fulfilled) 0)
      (List.flatten [[.spawn (0, .refundOrder "o1" ⟨none, none, none⟩),
          .spawn (1, .refundOrder "o1" ⟨none, none, none⟩)],
        Sample.steps 0 2, Sample.steps 1 2,
        [.step 0 (.text "RF1"), .step 0 .normal, .step 0 (.refunded ⟨some "p1", .SUCCESS, ""⟩),
          .step 0 (.text "r1")], Sample.steps 0 3,
        [.step 1 (.text "RF2"), .step 1 .normal, .step 1 (.refunded ⟨some "p2", .SUCCESS, ""⟩),
          .step 1 (.text "r2")], Sample.steps 1 3])
      (fun m => (m.world.order "o1").map Order.amount = some 1500 ∧
        reserved (m.world.refundsOf "o1") = 3000) (by decide +kernel)
    exact ⟨m, hRun, by simpa using hTwice⟩
end VpnPayment
