import VpnPayment.Services.System

/-! What the lock of an order guards, and how one call can change it. -/
namespace VpnPayment

open Async Collections

namespace Order

/-- The fields no write changes. -/
def identity (o : Order) : Order :=
  { o with
    status := .PENDING
    providerTxnId := none
    updatedAt := 0
    paidAt := none
    refundedAmount := none
    metadata := .empty }

/-- The fields that only the holder of the order's lock may change. -/
def core (o : Order) : Order :=
  { o with updatedAt := 0, metadata := .empty }

variable {o o' : Order}

/-- Orders with the same core agree on every field the core keeps. -/
theorem eq_of_core {α : Type} (f : Order → α) (hf : ∀ x : Order, f x.core = f x)
    (h : o.core = o'.core) : f o = f o' := by
  rw [← hf o, h, hf]

/-- What an order's identity determines is equal for orders with one identity. -/
theorem eq_of_identity {α : Type} (f : Order → α) (hf : ∀ x : Order, f x.identity = f x)
    (h : o.identity = o'.identity) : f o = f o' := by
  rw [← hf o, h, hf]

/-- Orders that agree in their core agree in their identity. -/
theorem identity_eq_of_core (h : o.core = o'.core) : o.identity = o'.identity :=
  eq_of_core identity (fun _ => rfl) h

theorem status_eq_of_core (h : o.core = o'.core) : o.status = o'.status :=
  eq_of_core Order.status (fun _ => rfl) h

/-- The core consists of the identity and of what settlement and refunds record. -/
theorem core_ext (hIdentity : o.identity = o'.identity) (hStatus : o.status = o'.status)
    (hTxn : o.providerTxnId = o'.providerTxnId) (hPaidAt : o.paidAt = o'.paidAt)
    (hRefunded : o.refundedAmount = o'.refundedAmount) : o.core = o'.core := by
  simp only [identity, Order.mk.injEq] at hIdentity
  simp [core, hStatus, hTxn, hPaidAt, hRefunded, hIdentity]

/-- Nothing recorded is erased. -/
structure Keeps (o o' : Order) : Prop where
  paidAt : o.paidAt.isSome → o'.paidAt.isSome
  providerTxnId : o.providerTxnId.isSome → o'.providerTxnId.isSome
  refundedAmount : o.refundedAmount.isSome → o'.refundedAmount.isSome

theorem Keeps.refl (o : Order) : Keeps o o :=
  ⟨fun h => h, fun h => h, fun h => h⟩

theorem Keeps.trans {o₁ o₂ o₃ : Order} (h : Keeps o₁ o₂) (h' : Keeps o₂ o₃) : Keeps o₁ o₃ :=
  ⟨h'.paidAt ∘ h.paidAt, h'.providerTxnId ∘ h.providerTxnId, h'.refundedAmount ∘ h.refundedAmount⟩

/-- An order with the same core keeps what the other had. -/
theorem keeps_of_core (h : o.core = o'.core) : Keeps o o' where
  paidAt := (eq_of_core Order.paidAt (fun _ => rfl) h) ▸ fun h => h
  providerTxnId := (eq_of_core Order.providerTxnId (fun _ => rfl) h) ▸ fun h => h
  refundedAmount := (eq_of_core Order.refundedAmount (fun _ => rfl) h) ▸ fun h => h

/-- One lawful write of a stored order. The `strict` reading says in addition
that an order is not written to in substance while it stays PENDING. -/
structure Write (strict : Prop) (o o' : Order) : Prop where
  identity : o'.identity = o.identity
  status : Edge o.status o'.status
  keeps : Keeps o o'
  pending : strict → o'.status = .PENDING → o'.core = o.core

/-- Any number of lawful writes. -/
structure Evolves (strict : Prop) (o o' : Order) : Prop where
  identity : o'.identity = o.identity
  status : Follows o.status o'.status
  keeps : Keeps o o'
  pending : strict → o'.status = .PENDING → o'.core = o.core

variable {strict : Prop}

/-- A single write is an evolution. -/
theorem Write.evolves (h : Write strict o o') : Evolves strict o o' :=
  ⟨h.identity, .single h.status, h.keeps, h.pending⟩

theorem Write.refl (o : Order) : Write strict o o :=
  ⟨rfl, .inl rfl, .refl o, fun _ _ => rfl⟩

theorem Evolves.refl (o : Order) : Evolves strict o o :=
  (Write.refl o).evolves

theorem Evolves.trans {o₁ o₂ o₃ : Order} (h : Evolves strict o₁ o₂) (h' : Evolves strict o₂ o₃) :
    Evolves strict o₁ o₃ where
  identity := h'.identity.trans h.identity
  status := Relation.ReflTransGen.trans h.status h'.status
  keeps := h.keeps.trans h'.keeps
  pending hStrict hPending := (h'.pending hStrict hPending).trans
    (h.pending hStrict (follows_to_pending h'.status hPending))

end Order

namespace OrderStore

variable {b : Backend} {row o : Order}

/-- Neither backend changes the identity of a stored order. -/
theorem identity_written (h : o.identity = row.identity) :
    (written b row o).identity = row.identity := by
  cases b
  · exact h
  · rfl

@[simp] theorem status_written : (written b row o).status = o.status := by
  cases b <;> rfl

@[simp] theorem paidAt_written : (written b row o).paidAt = o.paidAt := by
  cases b <;> rfl

@[simp] theorem providerTxnId_written : (written b row o).providerTxnId = o.providerTxnId := by
  cases b <;> rfl

/-- A write keeps what the written order keeps, in either backend. -/
theorem keeps_written (h : Order.Keeps row o) : Order.Keeps row (written b o o) := by
  cases b with
  | memory => exact h
  | sql => exact ⟨h.paidAt, h.providerTxnId, fun _ => rfl⟩

/-- The defaults of the columns keep what was kept. -/
theorem keeps_written_written (h : Order.Keeps row o) :
    Order.Keeps (written b row row) (written b o o) := by
  cases b with
  | memory => exact h
  | sql => exact ⟨h.paidAt, h.providerTxnId, fun _ => rfl⟩

/-- The column of a missing refunded amount has zero, which is how it is read. -/
theorem refundedAmount_written_getD :
    (written b row o).refundedAmount.getD 0 = o.refundedAmount.getD 0 := by
  cases b <;> rfl

/-- What is written depends on the row only through fields no write changes. -/
theorem core_written (h : o.identity = row.identity) :
    (written b row o).core = (written b o o).core := by
  cases b with
  | memory => rfl
  | sql =>
      simp only [Order.identity, Order.mk.injEq, true_and, and_true] at h
      simp [written, SqlOrderRepository.setColumns, Order.core, h]

end OrderStore

namespace Call

/-- The order whose time a subscription write grants. Only `fulfillOrder` writes
an active subscription without a reminder mark, and the order it serves comes
last. -/
def grantee : Call → Option String
  | .subscriptionsCreate sub => if sub.active && sub.expiryNotifiedAt = none then
      sub.orderIds.getLast? else none
  | .subscriptionsUpdate sub => if sub.active && sub.expiryNotifiedAt = none then
      sub.orderIds.getLast? else none
  | _ => none

/-- Writes of orders and refunds. -/
def writesLedger : Call → Bool
  | .ordersCreate _ | .ordersUpdate _ | .refundsCreate _ | .refundsUpdate _ => true
  | _ => false

/-- Calls that touch nothing an order's lock guards. -/
def quiet (c : Call) : Bool :=
  !c.writesLedger && c.grantee = none

end Call

namespace Event

/-- The event appended the order to the orders of a stored subscription. -/
def grants (orderId : String) (e : Event) : Bool :=
  e.applied && e.call.grantee = some orderId

end Event

namespace World

def order (w : World) (id : String) : Option Order :=
  w.store.orders.byId.get? id

def refund (w : World) (id : String) : Option Refund :=
  w.store.refunds.byId.get? id

def refundsOf (w : World) (orderId : String) : List Refund :=
  w.store.refunds.byId.rows.filter fun r => r.orderId = orderId

/-- How often the order's time was granted. -/
def grants (w : World) (orderId : String) : Nat :=
  w.trace.countP (Event.grants orderId)

/-- The last write of an order or a refund by a task that took effect. -/
def lastWrite (w : World) (i : Nat) : Option Call :=
  (w.trace.find? fun e => e.task = i && e.applied && e.call.writesLedger).map Event.call

variable {w : World} {id : String} {o : Order}

@[simp] theorem store_log (w : World) (e : Event) : (w.log e).store = w.store := rfl

@[simp] theorem issued_log (w : World) (e : Event) : (w.log e).issued = w.issued := rfl

@[simp] theorem order_log (w : World) (e : Event) : (w.log e).order id = w.order id := rfl

@[simp] theorem refund_log (w : World) (e : Event) : (w.log e).refund id = w.refund id := rfl

@[simp] theorem refundsOf_log (w : World) (e : Event) :
    (w.log e).refundsOf id = w.refundsOf id := rfl

/-- An event adds a grant if it is one. -/
theorem grants_log (w : World) (e : Event) :
    (w.log e).grants id = w.grants id + if e.grants id then 1 else 0 := by
  simp [grants, log, List.countP_cons]

/-- The newest write of a task to the ledger. -/
theorem lastWrite_log (w : World) (e : Event) (j : Nat) :
    (w.log e).lastWrite j =
      if e.task = j && e.applied && e.call.writesLedger then some e.call else w.lastWrite j := by
  simp only [lastWrite, log, List.find?_cons]
  split <;> simp_all

theorem id_of_order (h : w.order id = some o) : o.id = id :=
  Table.key_of_get? h

/-- The refunds of an order are the stored ones that name it. -/
theorem mem_refundsOf {r : Refund} :
    r ∈ w.refundsOf id ↔ w.refund r.id = some r ∧ r.orderId = id := by
  simp only [refundsOf, refund, List.mem_filter, decide_eq_true_eq, and_congr_left_iff]
  exact fun _ => ⟨Table.get?_of_mem, Table.mem_of_get?⟩

/-- No refund is counted twice. -/
theorem nodup_refundsOf (w : World) (id : String) : ((w.refundsOf id).map Refund.id).Nodup :=
  w.store.refunds.byId.nodup.sublist (List.filter_sublist.map Refund.id)

end World

/-- The sum of the refunds that are not FAILED. -/
def reserved (refunds : List Refund) : Int :=
  ((refunds.filter fun r => r.status ≠ .FAILED).map Refund.amount).sum

/-- What a refund adds to the reserved sum. -/
def Refund.reserves (r : Refund) : Int :=
  if r.status = .FAILED then 0 else r.amount

/-- A refund reserves its amount at most. -/
theorem Refund.reserves_le {r : Refund} (hNonneg : 0 ≤ r.amount) : r.reserves ≤ r.amount := by
  unfold Refund.reserves
  split <;> omega

/-- The reserved total is a sum over the refunds. -/
theorem reserved_eq (refunds : List Refund) : reserved refunds = (refunds.map Refund.reserves).sum := by
  induction refunds with
  | nil => rfl
  | cons r rest ih =>
      unfold reserved at ih ⊢
      by_cases hFailed : r.status = .FAILED <;>
        simp [Refund.reserves, hFailed] at ih ⊢ <;> exact ih

/-- A new refund adds what it reserves. -/
theorem reserved_append (refunds : List Refund) (r : Refund) :
    reserved (refunds ++ [r]) = reserved refunds + r.reserves := by
  simp [reserved_eq]

/-- Rewriting one refund of the list. -/
def rewrite (r : Refund) (refunds : List Refund) : List Refund :=
  refunds.map fun x => if x.id = r.id then r else x

/-- A rewritten refund takes the place of the old one in the reserved total. -/
theorem reserved_rewrite {refunds : List Refund} {r old : Refund}
    (hNodup : (refunds.map Refund.id).Nodup) (hOld : old ∈ refunds) (hId : old.id = r.id) :
    reserved (rewrite r refunds) = reserved refunds - old.reserves + r.reserves := by
  simp only [reserved_eq, rewrite]
  induction refunds with
  | nil => cases hOld
  | cons x rest ih =>
      simp only [List.map_cons, List.nodup_cons, List.mem_map, not_exists, not_and] at hNodup
      rcases List.mem_cons.mp hOld with rfl | hMem
      · have hRest : rest.map (fun x => if x.id = r.id then r else x) = rest := by
          rw [List.map_congr_left (g := id), List.map_id]
          intro y hy
          have hNe : y.id ≠ r.id := fun hEq => hNodup.1 y hy (hEq.trans hId.symm)
          simp [hNe]
        simp only [List.map_cons, hId, if_true, hRest, List.sum_cons]
        omega
      · have hNe : x.id ≠ r.id := fun hEq => hNodup.1 old hMem (hId.trans hEq.symm)
        have ih := ih hNodup.2 hMem
        simp only [List.map_cons, hNe, if_false, List.sum_cons, ih]
        omega

/-- One refund and the others of the list. -/
theorem reserved_others {refunds : List Refund} {r : Refund}
    (hNodup : (refunds.map Refund.id).Nodup) (hMem : r ∈ refunds) :
    reserved (refunds.filter fun x => x.id ≠ r.id) + r.reserves = reserved refunds := by
  simp only [reserved_eq]
  induction refunds with
  | nil => cases hMem
  | cons x rest ih =>
      simp only [List.map_cons, List.nodup_cons, List.mem_map, not_exists, not_and] at hNodup
      rcases List.mem_cons.mp hMem with rfl | hRest
      · have hFilter : rest.filter (fun x => x.id ≠ r.id) = rest :=
          List.filter_eq_self.mpr fun y hy => by simpa using hNodup.1 y hy
        rw [List.filter_cons_of_neg (by simp), hFilter, List.map_cons, List.sum_cons, add_comm]
      · have hNe : x.id ≠ r.id := fun hEq => hNodup.1 r hRest hEq.symm
        have ih := ih hNodup.2 hRest
        simp only [List.filter_cons, hNe, ne_eq, not_false_eq_true, decide_true, if_true,
          List.map_cons, List.sum_cons] at ih ⊢
        omega

theorem reserved_nonneg {refunds : List Refund} (hPos : ∀ r ∈ refunds, 0 < r.amount) :
    0 ≤ reserved refunds := by
  rw [reserved_eq]
  apply List.sum_nonneg
  intro x hx
  obtain ⟨r, hr, rfl⟩ := List.mem_map.mp hx
  have := hPos r hr
  unfold Refund.reserves
  split <;> omega

/-- No refund reserves more than all of them. -/
theorem reserves_le_reserved {refunds : List Refund} {r : Refund}
    (hPos : ∀ r ∈ refunds, 0 < r.amount) (hMem : r ∈ refunds) : r.reserves ≤ reserved refunds := by
  rw [reserved_eq]
  refine List.single_le_sum ?_ _ (List.mem_map_of_mem hMem)
  intro x hx
  obtain ⟨y, hy, rfl⟩ := List.mem_map.mp hx
  have := hPos y hy
  unfold Refund.reserves
  split <;> omega

end VpnPayment
