import VpnPayment.Settlement.ExactlyOnce

/-! Stored orders follow the state machine, also while `createOrder` is waiting
for the provider, as long as it does not write back over later news. -/
namespace VpnPayment

open Async Collections

/-- Refunds belong to orders that were paid. -/
def Store.RefundsPaid (store : Store) : Prop :=
  ∀ id, store.refunds.byId.rows.filter (fun r => r.orderId = id) ≠ [] →
    ∃ o, store.orders.byId.get? id = some o ∧ o.status ≠ .PENDING

/-- What `createOrder` writes back without a lock finds the order still PENDING,
and a refusal by the provider is written while nobody works on the order. -/
def writesBackInTime (m : Deployment String) : Label Reply (Unit × Request) → Bool
  | .spawn _ => true
  | .step i _ => match m.nextCall i with
      | some (.ordersUpdate o) =>
          (m.tasks[i]?.any fun t => t.held.isSome) ||
            (m.world.order o.id).all fun row =>
              row.status = .PENDING && (o.status = .PENDING || m.Unlocked o.id)
      | _ => true

/-- All requests but a bare `fulfillOrder`, which only settlements make. -/
def Request.onOrders : Request → Bool
  | .fulfillOrder _ => false
  | _ => true

theorem admitted_of_onOrders {request : Request} (h : request.onOrders = true) :
    request.admitted .creating := by
  cases request with
  | createOrder input => rfl
  | fulfillOrder order => cases h
  | _ => trivial

section runs

variable {deps : Deps} {store : Store} {clock : Int} {m m' m'' : Deployment String}
  {label : Label Reply (Unit × Request)}

/-- The runs in which `createOrder` writes back in time. -/
def orderTraffic (m : Deployment String) (label : Label Reply (Unit × Request)) : Bool :=
  onlySpawns Request.onOrders label && writesBackInTime m label

theorem disciplined_orderTraffic (hTraffic : orderTraffic m label = true)
    (hStep : (singleInstance deps).step m label = some m') :
    Disciplined .creating id (fun (_ : Unit) orderId => orderId) deps m label := by
  obtain ⟨hSpawns, hInTime⟩ := Bool.and_eq_true_iff.mp hTraffic
  refine disciplined_of (fun _ => admitted_of_onOrders) hSpawns ?_ ?_
  · rintro i reply t c rfl ht hCall
    refine ⟨fun h => absurd rfl (not_creating h), fun h => absurd rfl (not_creating h), nofun, ?_⟩
    rintro - o row rfl hHeld hRow
    have hFree : t.held = none := by simpa using hHeld
    simp only [writesBackInTime, hCall, ht, Option.any_some, hFree, Option.isSome_none,
      Bool.false_or, hRow, Option.all_some, Bool.and_eq_true, Bool.or_eq_true,
      decide_eq_true_eq] at hInTime
    refine ⟨hInTime.1, fun hNot other hMem => ?_⟩
    rw [Option.map_id]
    exact hInTime.2.resolve_left hNot other hMem
  · rintro i reply key rfl hLock
    exact orderFree_of_step hLock hStep

/-- What one write may do to a stored order, and what any number of them may. -/
theorem status_follows_machine (hPaid : store.RefundsPaid)
    (hRun : (singleInstance deps).Reaches (fun m label => orderTraffic m label = true)
      (Deployment.start store clock) m) (hTraffic : orderTraffic m label = true)
    (hStep : (singleInstance deps).step m label = some m')
    (hMore : (singleInstance deps).Reaches (fun m label => orderTraffic m label = true) m m'')
    {orderId : String} {o : Order} (ho : m.world.order orderId = some o) :
    (∃ o', m'.world.order orderId = some o' ∧ Edge o.status o'.status ∧ Order.Keeps o o') ∧
    ∃ o'', m''.world.order orderId = some o'' ∧ Order.Keeps o o'' ∧
      (o.status = .EXPIRED ∨ o.status = .FULFILLED ∨ o.status = .REFUNDED →
        o''.status ≠ .PENDING ∧ o''.status ≠ .FAILED) := by
  have hKey : ∀ (_ : Unit) (orderId : String), id orderId = orderId := fun _ _ => rfl
  have hSound : World.Sound .creating (World.start store clock) :=
    World.sound_start (fun h => absurd rfl (not_creating h)) nofun fun _ => hPaid
  have hOwned : ∀ id, World.Owned .creating id (World.start store clock) :=
    World.owned_start fun h => absurd rfl (not_creating h)
  have hCoh := coherent_of_reaches hKey hSound hOwned
    (hRun.mono fun _ _ _ => disciplined_orderTraffic)
  constructor
  · obtain ⟨o', ho', hWrite⟩ :=
      writes_of_step hKey hCoh (disciplined_orderTraffic hTraffic hStep) hStep ho
    exact ⟨o', ho', hWrite.status, hWrite.keeps⟩
  · obtain ⟨o'', ho'', hEvolves⟩ :=
      evolves_of_reaches hKey hCoh (hMore.mono fun _ _ _ => disciplined_orderTraffic) ho
    refine ⟨o'', ho'', hEvolves.keeps, fun hDone => ?_⟩
    have hFollows := hEvolves.status
    rcases hDone with h | h | h
    · rw [follows_of_isTerminal (by rw [h]; rfl) hFollows, h]
      decide
    · rcases follows_from_fulfilled (h ▸ hFollows) with h' | h' <;> rw [h'] <;> decide
    · rw [follows_of_isTerminal (by rw [h]; rfl) hFollows, h]
      decide

end runs

namespace Sample

def createInput : CreateOrderInput := ⟨"alice", "monthly", .alipay, none, none⟩

/-- A task creates the order up to the provider's answer. -/
def creates (task : Nat) : List (Label Reply (Unit × Request)) :=
  [.spawn ((), .createOrder createInput), .step task .normal, .step task (.text "o1"),
    .step task (.text "VPN1"), .step task .normal]

/-- A task settles the order. -/
def settles (task : Nat) : List (Label Reply (Unit × Request)) :=
  [.spawn ((), .handleCallback .alipay ⟨"", []⟩), .step task (.callback callback)] ++ steps task 8 ++
    [.step task (.text "s1")] ++ steps task 3

def payInfo : CreatePaymentResult := ⟨.alipay, "https://pay.example/1", .qrcode, []⟩

end Sample

/-- The order is created, and its write-back is next. -/
theorem status_follows_sample : ∃ m m' : Deployment String,
    (singleInstance (Sample.deps .memory)).Reaches (fun m label => orderTraffic m label = true)
      (Deployment.start Store.empty 0) m ∧
    (singleInstance (Sample.deps .memory)).step m (.step 0 .normal) = some m' ∧
    ∃ o o', m.world.order "o1" = some o ∧ m'.world.order "o1" = some o' ∧
      Edge o.status o'.status := by
  obtain ⟨m, hRun, hCheck⟩ := System.exists_reaches (singleInstance (Sample.deps .memory))
    orderTraffic (Deployment.start Store.empty 0)
    (Sample.creates 0 ++ [.step 0 (.payment Sample.payInfo), .step 0 .normal])
    (fun m => (m.world.order "o1").isSome && orderTraffic m (.step 0 .normal) &&
      ((singleInstance (Sample.deps .memory)).step m (.step 0 .normal)).isSome) (by decide +kernel)
  simp only [Bool.and_eq_true, Option.isSome_iff_exists] at hCheck
  obtain ⟨⟨⟨o, ho⟩, hTraffic⟩, m', hStep⟩ := hCheck
  have hPaid : Store.empty.RefundsPaid := fun id h => absurd rfl h
  obtain ⟨⟨o', ho', hEdge, -⟩, -⟩ := status_follows_machine hPaid hRun hTraffic hStep (.refl m) ho
  exact ⟨m, m', hRun, hStep, o, o', ho, ho', hEdge⟩

/-- The payment is notified before the provider's answer to `createPayment` has
arrived. The write-back makes the fulfilled order PENDING and erases its payment. -/
theorem write_back_erases_payment : ∃ m m' : Deployment String,
    (singleInstance (Sample.deps .memory)).Reaches
      (fun _ label => onlySpawns Request.onOrders label = true) (Deployment.start Store.empty 0) m ∧
    (singleInstance (Sample.deps .memory)).step m (.step 0 .normal) = some m' ∧
    (m.world.order "o1").map (fun o => (o.status, o.paidAt, o.providerTxnId)) =
      some (.FULFILLED, some 0, some "txn1") ∧
    (m'.world.order "o1").map (fun o => (o.status, o.paidAt, o.providerTxnId)) =
      some (.PENDING, none, none) := by
  obtain ⟨m, hRun, hCheck⟩ := System.exists_reaches (singleInstance (Sample.deps .memory))
    (fun _ label => onlySpawns Request.onOrders label) (Deployment.start Store.empty 0)
    (Sample.creates 0 ++ Sample.settles 1 ++ [.step 0 (.payment Sample.payInfo), .step 0 .normal])
    (fun m => (m.world.order "o1").map (fun o => (o.status, o.paidAt, o.providerTxnId)) =
        some (.FULFILLED, some 0, some "txn1") &&
      ((singleInstance (Sample.deps .memory)).step m (.step 0 .normal)).any fun m' =>
        (m'.world.order "o1").map (fun o => (o.status, o.paidAt, o.providerTxnId)) =
          some (.PENDING, none, none)) (by decide +kernel)
  simp only [Bool.and_eq_true, decide_eq_true_eq, Option.any_eq_true] at hCheck
  obtain ⟨hBefore, m', hStep, hAfter⟩ := hCheck
  exact ⟨m, m', hRun, hStep, hBefore, hAfter⟩

end VpnPayment
