import VpnPayment.Async.Discipline
import VpnPayment.Settlement.Guarded

/-! The discipline of the order locks: what a task may do to the orders, what it
may expect of the others, and what holds of an order nobody is working on. -/
namespace VpnPayment

open Async Collections

/-- What a group of runs is restricted to. In the `ledger` scopes the writes of
orders and refunds do not fail. In the `settled` scope no refund that completes
an order overtakes one that is still pending. The `creating` scope has
`createOrder` in flight. -/
inductive Scope
  | plain
  | ledger
  | settled
  | creating
deriving DecidableEq

def Scope.keepsLedger (scope : Scope) : Prop :=
  scope = .ledger ∨ scope = .settled

theorem not_creating {scope : Scope} (hScope : scope.keepsLedger) : scope ≠ .creating := by
  rintro rfl
  rcases hScope with h | h <;> cases h

/-- The refund ledger of an order nobody is working on. -/
structure LedgerHolds (o : Order) (refunds : List Refund) : Prop where
  balanced : o.refundedAmount.getD 0 = reserved refunds
  bounded : reserved refunds ≤ o.amount
  positive : ∀ r ∈ refunds, 0 < r.amount
  paid : refunds ≠ [] → o.status = .PAID ∨ o.status = .FULFILLED ∨ o.status = .REFUNDED

theorem ledgerHolds_of_core {o o' : Order} {refunds : List Refund} (hCore : o.core = o'.core)
    (h : LedgerHolds o refunds) : LedgerHolds o' refunds where
  balanced := Order.eq_of_core Order.refundedAmount (fun _ => rfl) hCore ▸ h.balanced
  bounded := Order.eq_of_core Order.amount (fun _ => rfl) hCore ▸ h.bounded
  positive := h.positive
  paid := Order.status_eq_of_core hCore ▸ h.paid

theorem ledgerHolds_core {o : Order} {refunds : List Refund} :
    LedgerHolds o.core refunds ↔ LedgerHolds o refunds :=
  ⟨fun h => ⟨h.balanced, h.bounded, h.positive, h.paid⟩,
    fun h => ⟨h.balanced, h.bounded, h.positive, h.paid⟩⟩

/-- Writing an order back keeps its ledger, whatever its status becomes. -/
theorem ledgerHolds_written {b : Backend} {o o' : Order} {refunds : List Refund}
    (h : LedgerHolds o.core refunds) (hAmount : o'.amount = o.amount)
    (hRefunded : o'.refundedAmount.getD 0 = o.refundedAmount.getD 0)
    (hPaid : refunds ≠ [] → o'.status = .PAID ∨ o'.status = .FULFILLED ∨ o'.status = .REFUNDED) :
    LedgerHolds (OrderStore.written b o' o').core refunds where
  balanced := by
    have hBalanced : o.refundedAmount.getD 0 = reserved refunds := h.balanced
    have hWritten : (OrderStore.written b o' o').refundedAmount.getD 0 = o'.refundedAmount.getD 0 :=
      OrderStore.refundedAmount_written_getD
    exact hWritten.trans (hRefunded.trans hBalanced)
  bounded := by
    have hBounded : reserved refunds ≤ o.amount := h.bounded
    have hWritten : (OrderStore.written b o' o').amount = o'.amount := by cases b <;> rfl
    exact hWritten.symm ▸ hAmount.symm ▸ hBounded
  positive := h.positive
  paid hRefunds := by
    have hWritten : (OrderStore.written b o' o').status = o'.status := OrderStore.status_written
    simpa [Order.core, hWritten] using hPaid hRefunds

/-- The money of an order marked REFUNDED has left: no refund is still waiting
for the provider, and the refunds add up. -/
structure FullyRefunded (o : Order) (refunds : List Refund) : Prop where
  noPending : ∀ r ∈ refunds, r.status ≠ .PENDING
  covered : o.amount ≤ reserved refunds

namespace World

/-- The core of a stored order. -/
def core (w : World) (id : String) : Option Order :=
  (w.order id).map Order.core

theorem core_eq_some {w : World} {id : String} {o : Order} (h : w.order id = some o) :
    w.core id = some o.core := by
  simp [core, h]

theorem core_eq_none_iff {w : World} {id : String} : w.core id = none ↔ w.order id = none := by
  simp [core]

/-- What holds at every moment of a run. -/
structure Sound (scope : Scope) (w : World) : Prop where
  issued : (w.issued.map Prod.snd).Nodup
  granted : ∀ id, 0 < w.grants id →
    w.grants id = 1 ∧ ∃ o, w.order id = some o ∧ o.status ≠ .PENDING
  bounded : scope.keepsLedger → ∀ id o, w.order id = some o →
    reserved (w.refundsOf id) ≤ o.amount
  refunded : scope = .settled → ∀ id o, w.order id = some o → o.status = .REFUNDED →
    FullyRefunded o (w.refundsOf id)
  refundsPaid : scope = .creating → ∀ id, w.refundsOf id ≠ [] →
    ∃ o, w.order id = some o ∧ o.status ≠ .PENDING

/-- What holds of an order nobody is working on. -/
def Owned (scope : Scope) (id : String) (w : World) : Prop :=
  scope.keepsLedger → ∀ o, w.order id = some o → LedgerHolds o (w.refundsOf id)

/-- A refund that was found stays to be found, as a refund of the same order. -/
def RefundsStay (b : Backend) (w w' : World) : Prop :=
  ∀ no r, w.store.refunds.findByOutRefundNo b no = some r →
    ∃ r', w'.store.refunds.findByOutRefundNo b no = some r' ∧ r'.id = r.id ∧ r'.orderId = r.orderId

/-- What the other tasks may do while a task is in the critical section of at
most one order. -/
structure Rely (b : Backend) (scope : Scope) (i : Nat) (h : Option String) (w w' : World) :
    Prop where
  orders : ∀ id o, w.order id = some o → ∃ o', w'.order id = some o' ∧ Order.Evolves (scope = .creating) o o'
  refunds : RefundsStay b w w'
  issued : ∀ id, (i, id) ∈ w.issued → (i, id) ∈ w'.issued
  newOrder : ∀ id, (i, id) ∈ w.issued → w.order id = none → w'.order id = none
  newRefund : ∀ id, (i, id) ∈ w.issued → w.refund id = none → w'.refund id = none
  lastWrite : w'.lastWrite i = w.lastWrite i
  heldRefunds : ∀ id, h = some id → w'.refundsOf id = w.refundsOf id
  heldGrants : ∀ id, h = some id → w'.grants id = w.grants id
  heldOrder : ∀ id, h = some id → (scope = .creating → w.order id ≠ none) →
    w'.core id = w.core id

/-- The parts of an order's state that its lock guards did not change, or the
order has just been created. -/
structure Apart (scope : Scope) (id : String) (w w' : World) : Prop where
  refunds : w'.refundsOf id = w.refundsOf id
  grants : w'.grants id = w.grants id
  order : (scope = .creating → w.order id ≠ none) → w'.core id = w.core id

/-- What a task does in one step while in the critical section of at most one
order. `free` are the orders nobody is working on. -/
structure Guar (b : Backend) (scope : Scope) (i : Nat) (h : Option String)
    (free : String → Prop) (w w' : World) : Prop where
  writes : ∀ id o, w.order id = some o → ∃ o', w'.order id = some o' ∧ Order.Write (scope = .creating) o o'
  refunds : RefundsStay b w w'
  issued : w'.issued = w.issued ∨ ∃ id, w'.issued = (i, id) :: w.issued
  newOrder : ∀ id, w.order id = none → w'.order id ≠ none → (i, id) ∈ w'.issued
  newRefund : ∀ id, w.refund id = none → w'.refund id ≠ none → (i, id) ∈ w'.issued
  lastWrite : ∀ j, j ≠ i → w'.lastWrite j = w.lastWrite j
  others : ∀ id, h ≠ some id → Apart scope id w w' ∨
    (free id ∧ (Owned scope id w → Owned scope id w'))

variable {b : Backend} {scope : Scope} {i j : Nat} {h h' : Option String} {id : String}
  {free : String → Prop} {w w' w₁ w₂ w₃ : World}

theorem RefundsStay.refl (b : Backend) (w : World) : RefundsStay b w w :=
  fun _ r hr => ⟨r, hr, rfl, rfl⟩

theorem RefundsStay.trans (h₁ : RefundsStay b w₁ w₂) (h₂ : RefundsStay b w₂ w₃) :
    RefundsStay b w₁ w₃ := by
  intro no r hr
  obtain ⟨r', hr', hId, hOrder⟩ := h₁ no r hr
  obtain ⟨r'', hr'', hId', hOrder'⟩ := h₂ no r' hr'
  exact ⟨r'', hr'', hId'.trans hId, hOrder'.trans hOrder⟩

theorem Rely.refl (b : Backend) (scope : Scope) (i : Nat) (h : Option String) (w : World) :
    Rely b scope i h w w where
  orders _ o ho := ⟨o, ho, .refl o⟩
  refunds := .refl b w
  issued _ hi := hi
  newOrder _ _ hNone := hNone
  newRefund _ _ hNone := hNone
  lastWrite := rfl
  heldRefunds _ _ := rfl
  heldGrants _ _ := rfl
  heldOrder _ _ _ := rfl

theorem Rely.trans (h₁ : Rely b scope i h w₁ w₂) (h₂ : Rely b scope i h w₂ w₃) :
    Rely b scope i h w₁ w₃ where
  orders id o ho := by
    obtain ⟨o', ho', hEvolves⟩ := h₁.orders id o ho
    obtain ⟨o'', ho'', hEvolves'⟩ := h₂.orders id o' ho'
    exact ⟨o'', ho'', hEvolves.trans hEvolves'⟩
  refunds := h₁.refunds.trans h₂.refunds
  issued id hi := h₂.issued id (h₁.issued id hi)
  newOrder id hi hNone := h₂.newOrder id (h₁.issued id hi) (h₁.newOrder id hi hNone)
  newRefund id hi hNone := h₂.newRefund id (h₁.issued id hi) (h₁.newRefund id hi hNone)
  lastWrite := h₂.lastWrite.trans h₁.lastWrite
  heldRefunds id hh := (h₂.heldRefunds id hh).trans (h₁.heldRefunds id hh)
  heldGrants id hh := (h₂.heldGrants id hh).trans (h₁.heldGrants id hh)
  heldOrder id hh hNew := by
    refine (h₂.heldOrder id hh fun hScope => ?_).trans (h₁.heldOrder id hh hNew)
    cases hOrder : w₁.order id with
    | none => exact absurd hOrder (hNew hScope)
    | some o =>
        obtain ⟨o', ho', -⟩ := h₁.orders id o hOrder
        simp [ho']

theorem Apart.owned (hApart : Apart scope id w w') (hOwned : Owned scope id w) :
    Owned scope id w' := by
  intro hScope o ho
  have hCore := hApart.order fun h => absurd h (not_creating hScope)
  rw [core_eq_some ho] at hCore
  obtain ⟨o', ho', hEq⟩ := Option.map_eq_some_iff.mp hCore.symm
  rw [hApart.refunds]
  exact ledgerHolds_of_core hEq (hOwned hScope o' ho')

/-- A step of one task is a move the other tasks expect. -/
theorem Guar.rely (hGuar : Guar b scope i h free w w') (hSound' : Sound scope w') (hNe : i ≠ j)
    (hHeld : ∀ id, h' = some id → h ≠ some id ∧ ¬free id) : Rely b scope j h' w w' := by
  have hIssued : ∀ k id, (k, id) ∈ w.issued → (k, id) ∈ w'.issued := by
    intro k id hk
    obtain hEq | ⟨new, hEq⟩ := hGuar.issued
    · rw [hEq]
      exact hk
    · rw [hEq]
      exact List.mem_cons_of_mem _ hk
  have hOwner : ∀ id, (i, id) ∈ w'.issued → (j, id) ∈ w'.issued → False := by
    intro id hi hj
    exact hNe (congrArg Prod.fst (List.inj_on_of_nodup_map hSound'.issued hi hj rfl))
  have hApart : ∀ id, h' = some id → Apart scope id w w' := fun id hh =>
    (hGuar.others id (hHeld id hh).1).resolve_right fun hFree => (hHeld id hh).2 hFree.1
  refine ⟨?_, hGuar.refunds, hIssued j, ?_, ?_, hGuar.lastWrite j (Ne.symm hNe),
    fun id hh => (hApart id hh).refunds, fun id hh => (hApart id hh).grants,
    fun id hh => (hApart id hh).order⟩
  · intro id o ho
    obtain ⟨o', ho', hWrite⟩ := hGuar.writes id o ho
    exact ⟨o', ho', hWrite.evolves⟩
  · intro id hj hNone
    by_contra hSome
    exact hOwner id (hGuar.newOrder id hNone hSome) (hIssued j id hj)
  · intro id hj hNone
    by_contra hSome
    exact hOwner id (hGuar.newRefund id hNone hSome) (hIssued j id hj)

end World

/-- The refund has settled and completes the refunds of its order, while another
one is still waiting for the provider. -/
def overtakes (w : World) (r : Refund) : Bool :=
  let others := (w.refundsOf r.orderId).filter fun x => x.id ≠ r.id
  isSettled r.status && (w.order r.orderId).any (fun o => o.amount ≤ reserved others + r.amount) &&
    others.any fun x => x.status = .PENDING

theorem noPending_of_overtakes {w : World} {r x : Refund} {o : Order} {refunds : List Refund}
    (h : overtakes w r = false) (hRefunds : w.refundsOf r.orderId = refunds)
    (hSettled : isSettled r.status = true) (ho : w.order r.orderId = some o)
    (hCovered : o.amount ≤ reserved (refunds.filter fun x => x.id ≠ r.id) + r.amount)
    (hx : x ∈ refunds) (hNe : x.id ≠ r.id) : x.status ≠ .PENDING := by
  intro hPending
  have hAny : (refunds.filter fun x => x.id ≠ r.id).any (fun x => x.status = .PENDING) = true :=
    List.any_eq_true.mpr ⟨x, List.mem_filter.mpr ⟨hx, by simpa using hNe⟩, by simpa using hPending⟩
  simp only [overtakes, hRefunds, hSettled, ho, Option.any_some, hCovered, hAny] at h
  cases h

/-- A task's latest write settled a refund as FAILED, so that it has yet to
release the amount. -/
def releasing (w : World) (i : Nat) : Prop :=
  ∃ r, w.lastWrite i = some (.refundsUpdate r) ∧ r.status = .FAILED

/-- Under which condition a call is made and settles in the runs of a scope. -/
structure Condition (scope : Scope) (i : Nat) (h : Option String) (free : String → Prop)
    (c : Call) (reply : Reply) (w : World) : Prop where
  writes : scope.keepsLedger → c.writesLedger = true → ∀ applied e, reply ≠ .throws applied e
  release : scope.keepsLedger → releasing w i → ∀ id, c = .ordersFindById id →
    ∀ applied e, reply ≠ .throws applied e
  settled : scope = .settled → ∀ r, c = .refundsCreate r ∨ c = .refundsUpdate r →
    overtakes w r = false
  creating : scope = .creating → ∀ o row, c = .ordersUpdate o → h = none →
    w.order o.id = some row → row.status = .PENDING ∧ (o.status ≠ .PENDING → free o.id)

/-- The discipline of the order locks for a system whose keys are the locks of
orders. -/
def orderDiscipline {Instance Key : Type} (scope : Scope) (orderOf : Key → String)
    (locker : Instance → String → Key) (deps : Deps) :
    Discipline (system locker deps) String where
  resource := orderOf
  inv := World.Sound scope
  own := World.Owned scope
  fresh _ _ := True
  rely := World.Rely deps.backend scope
  guar := World.Guar deps.backend scope
  cond := Condition scope
  post _ _ _ := True
  rely_refl := World.Rely.refl deps.backend scope
  rely_trans := World.Rely.trans
  guar_rely hGuar _ hSound' hNe hHeld := hGuar.rely hSound' hNe hHeld
  guar_own hGuar _ _ hHeld _ hOwned := by
    obtain hApart | ⟨_, hKeep⟩ := hGuar.others _ hHeld
    · exact hApart.owned hOwned
    · exact hKeep hOwned
  guar_fresh _ _ hFresh := hFresh

end VpnPayment
