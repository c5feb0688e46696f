import Mathlib.Data.List.Find
import VpnPayment.Collections.Table
import VpnPayment.Core.OrderStateMachine

/-! The in-memory and the SQL repositories. Both keep rows by primary key. The
in-memory ones find rows by secondary keys through index maps of their own, the
SQL ones by looking at the columns, with the unique constraints of the schema. -/
namespace VpnPayment

open Collections

abbrev Index := Table (String × String) Prod.fst

/-- JavaScript takes an empty string for an absent one in a condition. -/
def truthy (s : Option String) : Option String :=
  s.filter (· ≠ "")

def plainError (message : String) : AppError :=
  ⟨.plain, message⟩

def uniqueViolation (constraint : String) : AppError :=
  plainError s!"duplicate key value violates unique constraint {constraint}"

/-- Which implementation the container was given. -/
inductive Backend
  | memory
  | sql
deriving DecidableEq

/-- The fields of `MemoryOrderRepository`. The `orders` table of the SQL one has
the same rows and no index maps. -/
structure OrderStore where
  byId : Table Order Order.id
  byOutTradeNo : Index
  byIdem : Index

namespace MemoryOrderRepository

def create (s : OrderStore) (order : Order) : Except AppError OrderStore :=
  if s.byOutTradeNo.has order.outTradeNo then
    .error (plainError s!"duplicate outTradeNo: {order.outTradeNo}")
  else
    .ok {
      byId := s.byId.put order
      byOutTradeNo := s.byOutTradeNo.put (order.outTradeNo, order.id)
      byIdem := match truthy order.idempotencyKey with
        | some k => s.byIdem.put (k, order.id)
        | none => s.byIdem }

def findById (s : OrderStore) (id : String) : Option Order :=
  s.byId.get? id

def findByOutTradeNo (s : OrderStore) (outTradeNo : String) : Option Order :=
  (truthy ((s.byOutTradeNo.get? outTradeNo).map Prod.snd)).bind (findById s)

def findByIdempotencyKey (s : OrderStore) (k : String) : Option Order :=
  (truthy ((s.byIdem.get? k).map Prod.snd)).bind (findById s)

def findPendingByMethod (s : OrderStore) (method : PaymentMethod) : List Order :=
  s.byId.rows.filter fun o => o.method = method && o.status = .PENDING

def update (s : OrderStore) (order : Order) : Except AppError OrderStore :=
  if s.byId.has order.id then .ok { s with byId := s.byId.put order }
  else .error (plainError s!"unknown order: {order.id}")

def all (s : OrderStore) : List Order :=
  s.byId.rows

end MemoryOrderRepository

namespace SqlOrderRepository

/-- The row of an order: absent columns take their defaults. -/
def toRow (o : Order) : Order :=
  { o with
    merchantId := some (o.merchantId.getD DEFAULT_MERCHANT_ID)
    refundedAmount := some (o.refundedAmount.getD 0) }

def create (s : OrderStore) (o : Order) : Except AppError OrderStore :=
  if s.byId.has o.id then .error (uniqueViolation "orders_pkey")
  else if s.byId.rows.any fun row => row.outTradeNo = o.outTradeNo then
    .error (uniqueViolation "orders_out_trade_no_key")
  else if o.idempotencyKey.isSome && s.byId.rows.any fun row => row.idempotencyKey = o.idempotencyKey then
    .error (uniqueViolation "orders_idempotency_key_key")
  else .ok { s with byId := s.byId.put (toRow o) }

def findById (s : OrderStore) (id : String) : Option Order :=
  s.byId.get? id

def findByOutTradeNo (s : OrderStore) (outTradeNo : String) : Option Order :=
  s.byId.rows.find? fun row => row.outTradeNo = outTradeNo

def findByIdempotencyKey (s : OrderStore) (k : String) : Option Order :=
  s.byId.rows.find? fun row => row.idempotencyKey = some k

/-- A `SELECT` without `ORDER BY`: the rows come in any order, here in that of the table. -/
def findPendingByMethod (s : OrderStore) (method : PaymentMethod) : List Order :=
  s.byId.rows.filter fun row => row.status = .PENDING && row.method = method

/-- The columns an `UPDATE` sets. -/
def setColumns (row o : Order) : Order :=
  { row with
    status := o.status
    providerTxnId := o.providerTxnId
    updatedAt := o.updatedAt
    paidAt := o.paidAt
    refundedAmount := some (o.refundedAmount.getD 0)
    metadata := o.metadata }

def update (s : OrderStore) (o : Order) : Except AppError OrderStore :=
  match s.byId.get? o.id with
  | some row => .ok { s with byId := s.byId.put (setColumns row o) }
  | none => .ok s

def all (s : OrderStore) : List Order :=
  s.byId.rows

end SqlOrderRepository

namespace OrderStore

def create : Backend → OrderStore → Order → Except AppError OrderStore
  | .memory => MemoryOrderRepository.create
  | .sql => SqlOrderRepository.create

def findById : Backend → OrderStore → String → Option Order
  | .memory => MemoryOrderRepository.findById
  | .sql => SqlOrderRepository.findById

def findByOutTradeNo : Backend → OrderStore → String → Option Order
  | .memory => MemoryOrderRepository.findByOutTradeNo
  | .sql => SqlOrderRepository.findByOutTradeNo

def findByIdempotencyKey : Backend → OrderStore → String → Option Order
  | .memory => MemoryOrderRepository.findByIdempotencyKey
  | .sql => SqlOrderRepository.findByIdempotencyKey

def findPendingByMethod : Backend → OrderStore → PaymentMethod → List Order
  | .memory => MemoryOrderRepository.findPendingByMethod
  | .sql => SqlOrderRepository.findPendingByMethod

def update : Backend → OrderStore → Order → Except AppError OrderStore
  | .memory => MemoryOrderRepository.update
  | .sql => SqlOrderRepository.update

def all : Backend → OrderStore → List Order
  | .memory => MemoryOrderRepository.all
  | .sql => SqlOrderRepository.all

/-- The row a create leaves behind. -/
def created : Backend → Order → Order
  | .memory, o => o
  | .sql, o => SqlOrderRepository.toRow o

/-- The row an update leaves behind in the place of `row`. -/
def written : Backend → Order → Order → Order
  | .memory, _, o => o
  | .sql, row, o => SqlOrderRepository.setColumns row o

variable {b : Backend} {s s' : OrderStore} {o : Order}

@[simp] theorem findById_eq (b : Backend) (s : OrderStore) (id : String) :
    s.findById b id = s.byId.get? id := by
  cases b <;> rfl

/-- The two conditions stand the other way round in the `WHERE`. -/
theorem findPendingByMethod_eq (b : Backend) (s : OrderStore) (method : PaymentMethod) :
    s.findPendingByMethod b method =
      s.byId.rows.filter fun o => o.method = method && o.status = .PENDING := by
  cases b with
  | memory => rfl
  | sql => exact List.filter_congr fun o _ => Bool.and_comm _ _

/-- Both backends list the orders in the order of insertion. -/
theorem all_eq (b : Backend) (s : OrderStore) : s.all b = s.byId.rows := by
  cases b <;> rfl

@[simp] theorem created_id (b : Backend) (o : Order) : (created b o).id = o.id := by
  cases b <;> rfl

theorem written_id (hId : row.id = o.id) : (written b row o).id = o.id := by
  cases b
  · rfl
  · exact hId

/-- A successful insertion puts the row. -/
theorem create_ok (h : s.create b o = .ok s') : s'.byId = s.byId.put (created b o) := by
  cases b with
  | memory =>
      simp only [create, MemoryOrderRepository.create] at h
      split at h
      · cases h
      · cases h
        rfl
  | sql =>
      simp only [create, SqlOrderRepository.create] at h
      split at h
      · cases h
      · split at h
        · cases h
        · split at h
          · cases h
          · cases h
            rfl

/-- An update rewrites the row with its id, or does nothing. -/
theorem update_cases (h : s.update b o = .ok s') :
    (∃ row, s.byId.get? o.id = some row ∧ s' = { s with byId := s.byId.put (written b row o) }) ∨
    (s.byId.get? o.id = none ∧ s' = s) := by
  cases b with
  | memory =>
      cases hRow : s.byId.get? o.id with
      | none => simp [update, MemoryOrderRepository.update, Table.has, hRow] at h
      | some row =>
          simp only [update, MemoryOrderRepository.update, Table.has, hRow, Option.isSome_some,
            if_true, Except.ok.injEq] at h
          exact .inl ⟨row, rfl, h.symm⟩
  | sql =>
      simp only [update, SqlOrderRepository.update] at h
      split at h
      · next row hRow =>
          cases h
          exact .inl ⟨row, hRow, rfl⟩
      · next hNone =>
          cases h
          exact .inr ⟨hNone, rfl⟩

end OrderStore

/-- The fields of `MemoryRefundRepository`. -/
structure RefundStore where
  byId : Table Refund Refund.id
  byOutRefundNo : Index

namespace MemoryRefundRepository

def create (s : RefundStore) (refund : Refund) : Except AppError RefundStore :=
  if s.byOutRefundNo.has refund.outRefundNo then
    .error (plainError s!"duplicate outRefundNo: {refund.outRefundNo}")
  else
    .ok {
      byId := s.byId.put refund
      byOutRefundNo := s.byOutRefundNo.put (refund.outRefundNo, refund.id) }

def findByOutRefundNo (s : RefundStore) (outRefundNo : String) : Option Refund :=
  (truthy ((s.byOutRefundNo.get? outRefundNo).map Prod.snd)).bind s.byId.get?

def findByOrder (s : RefundStore) (orderId : String) : List Refund :=
  s.byId.rows.filter fun r => r.orderId = orderId

def update (s : RefundStore) (refund : Refund) : RefundStore :=
  { s with byId := s.byId.put refund }

def all (s : RefundStore) : List Refund :=
  s.byId.rows

end MemoryRefundRepository

namespace SqlRefundRepository

/-- `order_id` references a row of `orders`. -/
def create (orders : OrderStore) (s : RefundStore) (rf : Refund) : Except AppError RefundStore :=
  if s.byId.has rf.id then .error (uniqueViolation "refunds_pkey")
  else if s.byId.rows.any fun row => row.outRefundNo = rf.outRefundNo then
    .error (uniqueViolation "refunds_out_refund_no_key")
  else if orders.byId.has rf.orderId then .ok { s with byId := s.byId.put rf }
  else .error (plainError "insert or update on table refunds violates foreign key constraint")

def findByOutRefundNo (s : RefundStore) (outRefundNo : String) : Option Refund :=
  s.byId.rows.find? fun row => row.outRefundNo = outRefundNo

def findByOrder (s : RefundStore) (orderId : String) : List Refund :=
  (s.byId.rows.filter fun r => r.orderId = orderId).mergeSort fun x y => x.createdAt ≤ y.createdAt

def setColumns (row rf : Refund) : Refund :=
  { row with
    status := rf.status
    providerRefundId := rf.providerRefundId
    rawStatus := rf.rawStatus
    updatedAt := rf.updatedAt }

def update (s : RefundStore) (rf : Refund) : RefundStore :=
  match s.byId.get? rf.id with
  | some row => { s with byId := s.byId.put (setColumns row rf) }
  | none => s

def all (s : RefundStore) : List Refund :=
  s.byId.rows

end SqlRefundRepository

namespace RefundStore

def create : Backend → OrderStore → RefundStore → Refund → Except AppError RefundStore
  | .memory => fun _ => MemoryRefundRepository.create
  | .sql => SqlRefundRepository.create

def findByOutRefundNo : Backend → RefundStore → String → Option Refund
  | .memory => MemoryRefundRepository.findByOutRefundNo
  | .sql => SqlRefundRepository.findByOutRefundNo

def findByOrder : Backend → RefundStore → String → List Refund
  | .memory => MemoryRefundRepository.findByOrder
  | .sql => SqlRefundRepository.findByOrder

def update : Backend → RefundStore → Refund → RefundStore
  | .memory => MemoryRefundRepository.update
  | .sql => SqlRefundRepository.update

def all : Backend → RefundStore → List Refund
  | .memory => MemoryRefundRepository.all
  | .sql => SqlRefundRepository.all

/-- The row an update leaves behind in the place of `row`. -/
def written : Backend → Refund → Refund → Refund
  | .memory, _, r => r
  | .sql, row, r => SqlRefundRepository.setColumns row r

variable {b : Backend} {orders : OrderStore} {s s' : RefundStore} {r x row : Refund}

theorem written_id (hId : row.id = r.id) : (written b row r).id = r.id := by
  cases b
  · rfl
  · exact hId

/-- Both backends list the refunds in the order of insertion. -/
theorem all_eq (b : Backend) (s : RefundStore) : s.all b = s.byId.rows := by
  cases b <;> rfl

/-- An update of a stored refund rewrites its row. -/
theorem update_eq (hRow : s.byId.get? r.id = some row) :
    s.update b r = { s with byId := s.byId.put (written b row r) } := by
  cases b with
  | memory => rfl
  | sql => simp [update, SqlRefundRepository.update, hRow, written]

/-- A refund that is found by its number is stored. -/
theorem get?_of_find {no : String} (h : s.findByOutRefundNo b no = some x) :
    s.byId.get? x.id = some x := by
  cases b with
  | memory =>
      obtain ⟨id, -, hGet⟩ := Option.bind_eq_some_iff.mp h
      exact Table.key_of_get? hGet ▸ hGet
  | sql => exact Table.get?_of_mem (List.mem_of_find?_eq_some h)

/-- A successful insertion puts the row. -/
theorem create_ok (h : s.create b orders r = .ok s') : s'.byId = s.byId.put r := by
  cases b with
  | memory =>
      simp only [create, MemoryRefundRepository.create] at h
      split at h
      · cases h
      · cases h
        rfl
  | sql =>
      simp only [create, SqlRefundRepository.create] at h
      split at h
      · cases h
      · split at h
        · cases h
        · split at h
          · cases h
            rfl
          · cases h

/-- A new refund does not hide the refunds found before. -/
theorem find_create {no : String} (h : s.create b orders r = .ok s')
    (hNew : s.byId.get? r.id = none) (hFind : s.findByOutRefundNo b no = some x) :
    s'.findByOutRefundNo b no = some x := by
  have hById := create_ok h
  cases b with
  | memory =>
      simp only [create, MemoryRefundRepository.create] at h
      obtain ⟨id, hId, hGet⟩ := Option.bind_eq_some_iff.mp hFind
      have hNe : r.id ≠ id := by
        rintro rfl
        simp [hNew] at hGet
      split at h
      · cases h
      · next hHas =>
          cases h
          have hNo : r.outRefundNo ≠ no := by
            rintro rfl
            cases hEntry : s.byOutRefundNo.get? r.outRefundNo <;>
              simp [Table.has, hEntry, truthy] at hId hHas
          simp [findByOutRefundNo, MemoryRefundRepository.findByOutRefundNo, hNo, hId, hNe, hGet]
  | sql =>
      have hRows : s'.byId.rows = s.byId.rows ++ [r] := by
        rw [hById]
        exact Table.rows_put_of_get?_eq_none hNew
      simp only [findByOutRefundNo, SqlRefundRepository.findByOutRefundNo] at hFind ⊢
      rw [hRows, List.find?_append, hFind]
      rfl

/-- An update shows in every lookup that finds the refund it is about. -/
theorem find_update (no : String) (hRow : s.byId.get? r.id = some row)
    (hNo : (written b row r).outRefundNo = row.outRefundNo) :
    (s.update b r).findByOutRefundNo b no =
      (s.findByOutRefundNo b no).map fun x => if x.id = r.id then written b row r else x := by
  have hId : (written b row r).id = r.id := written_id (Table.key_of_get? hRow)
  rw [update_eq hRow]
  cases b with
  | memory =>
      simp only [findByOutRefundNo, MemoryRefundRepository.findByOutRefundNo, Option.map_bind]
      congr 1
      funext id
      simp only [Table.get?_put, hId, Function.comp_apply]
      by_cases hEq : r.id = id
      · subst hEq
        simp [hRow, Table.key_of_get? hRow]
      · cases hGet : s.byId.get? id with
        | none => simp [hEq]
        | some x => simp [hEq, Table.key_of_get? hGet, Ne.symm hEq]
  | sql =>
      have hRows : (s.byId.put (written .sql row r)).rows = s.byId.rows.map fun x =>
          if x.id = (written .sql row r).id then written .sql row r else x :=
        Table.rows_put_of_get? (hId ▸ hRow)
      simp only [findByOutRefundNo, SqlRefundRepository.findByOutRefundNo, hRows, List.find?_map]
      rw [hId]
      congr 1
      refine List.find?_congr fun x hx => ?_
      by_cases hEq : x.id = r.id
      · have hGet := Table.get?_of_mem hx
        rw [hEq, hRow, Option.some.injEq] at hGet
        subst hGet
        simp [hEq, hNo]
      · simp [hEq]

end RefundStore

/-- The fields of `MemorySubscriptionRepository`. -/
structure SubscriptionStore where
  byId : Table Subscription Subscription.id
  activeByUser : Index

namespace MemorySubscriptionRepository

def findActiveByUser (s : SubscriptionStore) (userId : String) : Option Subscription :=
  (truthy ((s.activeByUser.get? userId).map Prod.snd)).bind s.byId.get?

def create (s : SubscriptionStore) (sub : Subscription) : SubscriptionStore where
  byId := s.byId.put sub
  activeByUser := if sub.active then s.activeByUser.put (sub.userId, sub.id) else s.activeByUser

def update (s : SubscriptionStore) (sub : Subscription) : SubscriptionStore where
  byId := s.byId.put sub
  activeByUser :=
    if sub.active then s.activeByUser.put (sub.userId, sub.id)
    else if (s.activeByUser.get? sub.userId).map Prod.snd = some sub.id then
      s.activeByUser.delete sub.userId
    else s.activeByUser

def listActive (s : SubscriptionStore) : List Subscription :=
  s.byId.rows.filter fun sub => sub.active

end MemorySubscriptionRepository

namespace SqlSubscriptionRepository

def findActiveByUser (s : SubscriptionStore) (userId : String) : Option Subscription :=
  s.byId.rows.find? fun row => row.userId = userId && row.active

/-- The partial unique index `idx_subscriptions_active_user` already has an entry
for the user of an active row, other than the row itself. -/
def violatesActiveUser (s : SubscriptionStore) (sub : Subscription) : Bool :=
  sub.active && s.byId.rows.any fun row => row.active && row.userId = sub.userId && row.id ≠ sub.id

def create (s : SubscriptionStore) (sub : Subscription) : Except AppError SubscriptionStore :=
  if s.byId.has sub.id then .error (uniqueViolation "subscriptions_pkey")
  else if violatesActiveUser s sub then .error (uniqueViolation "idx_subscriptions_active_user")
  else .ok { s with byId := s.byId.put sub }

def setColumns (row sub : Subscription) : Subscription :=
  { row with
    planId := sub.planId
    startsAt := sub.startsAt
    expiresAt := sub.expiresAt
    trafficGb := sub.trafficGb
    deviceLimit := sub.deviceLimit
    active := sub.active
    orderIds := sub.orderIds
    expiryNotifiedAt := sub.expiryNotifiedAt
    updatedAt := sub.updatedAt }

def update (s : SubscriptionStore) (sub : Subscription) : Except AppError SubscriptionStore :=
  match s.byId.get? sub.id with
  | none => .ok s
  | some row =>
      if violatesActiveUser s (setColumns row sub) then
        .error (uniqueViolation "idx_subscriptions_active_user")
      else .ok { s with byId := s.byId.put (setColumns row sub) }

/-- `WHERE active = true` -/
def listActive (s : SubscriptionStore) : List Subscription :=
  s.byId.rows.filter fun row => row.active = true

end SqlSubscriptionRepository

namespace SubscriptionStore

def findActiveByUser : Backend → SubscriptionStore → String → Option Subscription
  | .memory => MemorySubscriptionRepository.findActiveByUser
  | .sql => SqlSubscriptionRepository.findActiveByUser

def create : Backend → SubscriptionStore → Subscription → Except AppError SubscriptionStore
  | .memory => fun s sub => .ok (MemorySubscriptionRepository.create s sub)
  | .sql => SqlSubscriptionRepository.create

def update : Backend → SubscriptionStore → Subscription → Except AppError SubscriptionStore
  | .memory => fun s sub => .ok (MemorySubscriptionRepository.update s sub)
  | .sql => SqlSubscriptionRepository.update

def listActive : Backend → SubscriptionStore → List Subscription
  | .memory => MemorySubscriptionRepository.listActive
  | .sql => SqlSubscriptionRepository.listActive

/-- The rows of the active subscriptions. -/
def activeRows (s : SubscriptionStore) : List Subscription :=
  s.byId.rows.filter Subscription.active

/-- The loop of the memory repository selects what the WHERE clause does. -/
theorem listActive_eq (b : Backend) (s : SubscriptionStore) : s.listActive b = s.activeRows := by
  cases b with
  | memory => rfl
  | sql => exact List.filter_congr fun sub _ => Bool.decide_eq_true

end SubscriptionStore

/-- Processed webhook and event ids with the time each was recorded. -/
abbrev EventStore := Table (String × Int) Prod.fst

namespace MemoryProcessedEventStore

def markIfNew (s : EventStore) (eventId : String) (now : Int) : Bool × EventStore :=
  if s.has eventId then (false, s) else (true, s.put (eventId, now))

/-- One round of the loop of `sweep`. -/
def sweepStep (cutoff : Int) (state : Nat × EventStore) (entry : String × Int) : Nat × EventStore :=
  if entry.2 < cutoff then (state.1 + 1, state.2.delete entry.1) else state

def sweep (s : EventStore) (olderThanMs now : Int) : Nat × EventStore :=
  s.rows.foldl (sweepStep (now - olderThanMs)) (0, s)

end MemoryProcessedEventStore

namespace SqlProcessedEventStore

/-- `INSERT ... ON CONFLICT (event_id) DO NOTHING`, with the number of rows it inserts. -/
def insert (s : EventStore) (row : String × Int) : Nat × EventStore :=
  if s.rows.any fun old => old.1 = row.1 then (0, s) else (1, s.put row)

def markIfNew (s : EventStore) (eventId : String) (now : Int) : Bool × EventStore :=
  let result := insert s (eventId, now)
  (result.1 > 0, result.2)

/-- `DELETE ... WHERE created_at < $1`, with the number of rows it deletes. -/
def sweep (s : EventStore) (olderThanMs now : Int) : Nat × EventStore :=
  let cutoff := now - olderThanMs
  ((s.rows.filter fun row => row.2 < cutoff).length, s.filter fun row => ¬row.2 < cutoff)

end SqlProcessedEventStore

namespace EventStore

def markIfNew : Backend → EventStore → String → Int → Bool × EventStore
  | .memory => MemoryProcessedEventStore.markIfNew
  | .sql => SqlProcessedEventStore.markIfNew

def sweep : Backend → EventStore → Int → Int → Nat × EventStore
  | .memory => MemoryProcessedEventStore.sweep
  | .sql => SqlProcessedEventStore.sweep

/-- The conflict that the statement avoids is the entry that the map has. -/
theorem markIfNew_eq (b : Backend) (s : EventStore) (eventId : String) (now : Int) :
    s.markIfNew b eventId now = if s.has eventId then (false, s) else (true, s.put (eventId, now)) := by
  cases b with
  | memory => rfl
  | sql =>
      have hConflict : (s.rows.any fun old => old.1 = eventId) = s.has eventId := by
        rw [Table.has, Bool.eq_iff_iff, List.any_eq_true, Option.isSome_iff_exists]
        exact exists_congr fun row => by rw [Table.get?_eq_some_iff, decide_eq_true_eq]
      show SqlProcessedEventStore.markIfNew s eventId now = _
      rw [SqlProcessedEventStore.markIfNew, SqlProcessedEventStore.insert, hConflict]
      cases s.has eventId <;> rfl

/-- The loop over entries deletes the old ones among them. -/
theorem foldl_sweepStep (cutoff : Int) (entries : List (String × Int)) (n : Nat) (s : EventStore) :
    entries.foldl (MemoryProcessedEventStore.sweepStep cutoff) (n, s) =
      (n + (entries.filter fun entry => entry.2 < cutoff).length,
        s.filter fun row => !entries.any fun entry => entry.2 < cutoff && entry.1 = row.1) := by
  induction entries generalizing n s with
  | nil => simp [Table.filter]
  | cons entry entries ih =>
      rw [List.foldl_cons, MemoryProcessedEventStore.sweepStep]
      split
      · next hOld =>
          rw [ih, List.filter_cons_of_pos (by simpa using hOld), List.length_cons, Table.delete,
            Table.filter_filter, Nat.add_assoc, Nat.add_comm 1]
          congr 2
          funext row
          have hSwap : decide (row.1 ≠ entry.1) = !decide (entry.1 = row.1) := by
            rw [← decide_not]
            exact decide_eq_decide.mpr ne_comm
          rw [List.any_cons, hSwap, decide_eq_true hOld, Bool.true_and, Bool.not_or]
          exact Bool.and_comm _ _
      · next hRecent =>
          rw [ih, List.filter_cons_of_neg (by simpa using hRecent)]
          congr 2
          funext row
          simp [hRecent]

/-- The loop over the map deletes what the DELETE does, and counts it. -/
theorem sweep_eq (b : Backend) (s : EventStore) (olderThanMs now : Int) :
    s.sweep b olderThanMs now = ((s.rows.filter fun row => row.2 < now - olderThanMs).length,
      s.filter fun row => ¬row.2 < now - olderThanMs) := by
  cases b with
  | sql => rfl
  | memory =>
      show s.rows.foldl (MemoryProcessedEventStore.sweepStep (now - olderThanMs)) (0, s) = _
      rw [foldl_sweepStep, Nat.zero_add]
      congr 1
      apply Table.filter_congr
      -- An entry with the id of a row is that row.
      intro row hRow
      have hAny : (s.rows.any fun entry => entry.2 < now - olderThanMs && entry.1 = row.1) =
          decide (row.2 < now - olderThanMs) := by
        rw [Bool.eq_iff_iff, List.any_eq_true, decide_eq_true_eq]
        constructor
        · rintro ⟨entry, hEntry, hBoth⟩
          simp only [Bool.and_eq_true, decide_eq_true_eq] at hBoth
          have hSame := Table.get?_of_mem hEntry
          rw [hBoth.2, Table.get?_of_mem hRow] at hSame
          cases hSame
          exact hBoth.1
        · exact fun hOld => ⟨row, hRow, by simp [hOld]⟩
      rw [hAny, decide_not]

end EventStore

structure Store where
  orders : OrderStore
  refunds : RefundStore
  subscriptions : SubscriptionStore
  processed : EventStore

namespace Store

def empty : Store where
  orders := ⟨.empty, .empty, .empty⟩
  refunds := ⟨.empty, .empty⟩
  subscriptions := ⟨.empty, .empty⟩
  processed := .empty

end Store
end VpnPayment
