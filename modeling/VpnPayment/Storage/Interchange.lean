import VpnPayment.Collections.PartialIndex
import VpnPayment.Storage.OrderPages
import VpnPayment.Storage.Statements
import VpnPayment.Users.KeysInStep

/-! The SQL repositories answer as the ones in memory do, call by call, as long as nothing
is written that only one of them refuses or keeps: a value that a column does not take, an id
or a key that is in use, a record that is not stored. -/
namespace VpnPayment

open Collections
open SqlOrderRepository (toRow)

/-- The value that the partial unique index of the subscriptions is on. -/
def activeUser (sub : Subscription) : Option String :=
  if sub.active then some sub.userId else none

/-- The two backends hold the same records, the SQL one with the defaults of its columns,
and the index maps in memory are those of the records. -/
structure Replicas (memory sql : Store) : Prop where
  orders : Images toRow memory.orders.byId sql.orders.byId
  refunds : sql.refunds.byId = memory.refunds.byId
  subscriptions : sql.subscriptions.byId = memory.subscriptions.byId
  processed : sql.processed = memory.processed
  outTradeNos : PartIndexes memory.orders.byId memory.orders.byOutTradeNo fun o => some o.outTradeNo
  idempotencyKeys : PartIndexes memory.orders.byId memory.orders.byIdem Order.idempotencyKey
  outRefundNos : PartIndexes memory.refunds.byId memory.refunds.byOutRefundNo fun r => some r.outRefundNo
  activeUsers : PartIndexes memory.subscriptions.byId memory.subscriptions.activeByUser activeUser
  orderIds : memory.orders.byId.get? "" = none
  refundIds : memory.refunds.byId.get? "" = none
  subscriptionIds : memory.subscriptions.byId.get? "" = none

/-- Empty stores are replicas. -/
theorem replicas_empty : Replicas .empty .empty where
  orders := rfl
  refunds := rfl
  subscriptions := rfl
  processed := rfl
  outTradeNos := partIndexes_empty
  idempotencyKeys := partIndexes_empty
  outRefundNos := partIndexes_empty
  activeUsers := partIndexes_empty
  orderIds := rfl
  refundIds := rfl
  subscriptionIds := rfl

/-- What may be called on the two backends alike, given the records. They are created under a new
id. The idempotency key of a new order is not in use, the order of a new refund is stored, and
the user of an active subscription has no other one. An update is of a stored record, and
touches only the columns that the `UPDATE` sets. -/
def Fits (s : Store) : Call → Prop
  | .ordersCreate o => o.id ≠ "" ∧ s.orders.byId.get? o.id = none ∧ o.idempotencyKey ≠ some "" ∧
      ∀ k, o.idempotencyKey = some k → s.orders.byIdem.get? k = none
  | .ordersUpdate o => ∃ row, s.orders.byId.get? o.id = some row ∧
      toRow (SqlOrderRepository.setColumns row o) = toRow o
  | .refundsCreate r => r.id ≠ "" ∧ s.refunds.byId.get? r.id = none ∧
      s.orders.byId.has r.orderId = true
  | .refundsUpdate r => ∃ row, s.refunds.byId.get? r.id = some row ∧
      SqlRefundRepository.setColumns row r = r
  | .subscriptionsCreate sub => sub.id ≠ "" ∧ s.subscriptions.byId.get? sub.id = none ∧
      SqlSubscriptionRepository.violatesActiveUser s.subscriptions sub = false
  | .subscriptionsUpdate sub => ∃ row, s.subscriptions.byId.get? sub.id = some row ∧
      SqlSubscriptionRepository.setColumns row sub = sub ∧
      SqlSubscriptionRepository.violatesActiveUser s.subscriptions sub = false
  | _ => True

/-- The two answers have the same orders, up to the defaults of the columns. Lists have
the same members. -/
def SameAnswer : (c : Call) → Ans c → Ans c → Prop
  | .ordersFindById _, o, o' => o.map toRow = o'.map toRow
  | .ordersFindByOutTradeNo _, o, o' => o.map toRow = o'.map toRow
  | .ordersFindByIdempotencyKey _, o, o' => o.map toRow = o'.map toRow
  | .ordersFindPendingByMethod _, orders, orders' => (orders.map toRow).Perm (orders'.map toRow)
  | .ordersAll, orders, orders' => (orders.map toRow).Perm (orders'.map toRow)
  | .refundsFindByOrder _, refunds, refunds' => List.Perm refunds refunds'
  | .refundsAll, refunds, refunds' => List.Perm refunds refunds'
  | .subscriptionsListActive, subs, subs' => List.Perm subs subs'
  | _, a, a' => a = a'

section lookups

variable {memory sql : Store} {Row : Type} {key : Row → String} {value : Row → Option String}

/-- A lookup in memory, through an index map, finds what a search of the rows finds. -/
theorem find_of_index {t : Table Row key} {index : Index} (h : PartIndexes t index value)
    (hId : t.get? "" = none) (k : String) :
    (truthy ((index.get? k).map Prod.snd)).bind t.get? = t.rows.find? fun row => value row = some k := by
  rw [truthy_lookup, h.lookup]
  intro i hEntry hEmpty
  exact h.no_entry hId (hEmpty ▸ hEntry)

/-- A search of the rows under SQL finds the image of what it finds in memory. -/
theorem find_of_images {t t' : Table Row key} {f : Row → Row} (h : Images f t t') {p p' : Row → Bool}
    (hSame : ∀ row, p' (f row) = p row) : t'.rows.find? p' = (t.rows.find? p).map f := by
  rw [h, List.find?_map]
  congr 2
  exact funext hSame

theorem Replicas.findById (h : Replicas memory sql) (id : String) :
    sql.orders.findById .sql id = (memory.orders.findById .memory id).map toRow := by
  rw [OrderStore.findById_eq, OrderStore.findById_eq, h.orders.get? fun _ => rfl]

/-- The index map answers what the search of the rows answers. -/
theorem Replicas.findByOutTradeNo (h : Replicas memory sql) (no : String) :
    sql.orders.findByOutTradeNo .sql no = (memory.orders.findByOutTradeNo .memory no).map toRow := by
  have hMemory : memory.orders.findByOutTradeNo .memory no = _ := find_of_index h.outTradeNos h.orderIds no
  rw [hMemory]
  apply find_of_images h.orders
  exact fun row => decide_eq_decide.mpr Option.some_inj.symm

theorem Replicas.findByIdempotencyKey (h : Replicas memory sql) (k : String) :
    sql.orders.findByIdempotencyKey .sql k =
      (memory.orders.findByIdempotencyKey .memory k).map toRow := by
  have hMemory : memory.orders.findByIdempotencyKey .memory k = _ :=
    find_of_index h.idempotencyKeys h.orderIds k
  rw [hMemory]
  exact find_of_images h.orders fun row => rfl

/-- The rows of the query are the images of the orders selected in memory. -/
theorem Replicas.findPendingByMethod (h : Replicas memory sql) (method : PaymentMethod) :
    sql.orders.findPendingByMethod .sql method =
      (memory.orders.findPendingByMethod .memory method).map toRow := by
  rw [OrderStore.findPendingByMethod_eq, OrderStore.findPendingByMethod_eq, h.orders, List.filter_map]
  rfl

theorem Replicas.allOrders (h : Replicas memory sql) :
    sql.orders.all .sql = (memory.orders.all .memory).map toRow := by
  rw [OrderStore.all_eq, OrderStore.all_eq, h.orders]

/-- Refunds are stored alike, and the index map answers what the search does. -/
theorem Replicas.findByOutRefundNo (h : Replicas memory sql) (no : String) :
    sql.refunds.findByOutRefundNo .sql no = memory.refunds.findByOutRefundNo .memory no := by
  have hMemory : memory.refunds.findByOutRefundNo .memory no = _ :=
    find_of_index h.outRefundNos h.refundIds no
  rw [hMemory, ← h.refunds]
  show List.find? _ sql.refunds.byId.rows = _
  congr 1
  exact funext fun row => decide_eq_decide.mpr Option.some_inj.symm

/-- Memory answers the refunds of an order in the order of insertion, SQL by their time. -/
theorem Replicas.findByOrder (h : Replicas memory sql) (id : String) :
    (memory.refunds.findByOrder .memory id).Perm (sql.refunds.findByOrder .sql id) := by
  have hSorted := List.mergeSort_perm (memory.refunds.byId.rows.filter fun r => r.orderId = id)
    fun x y => x.createdAt ≤ y.createdAt
  have hRows : sql.refunds.findByOrder .sql id = SqlRefundRepository.findByOrder memory.refunds id := by
    show SqlRefundRepository.findByOrder sql.refunds id = _
    unfold SqlRefundRepository.findByOrder
    rw [h.refunds]
  rw [hRows]
  exact hSorted.symm

theorem Replicas.allRefunds (h : Replicas memory sql) :
    sql.refunds.all .sql = memory.refunds.all .memory := by
  rw [RefundStore.all_eq, RefundStore.all_eq, h.refunds]

theorem activeUser_eq (sub : Subscription) (userId : String) :
    activeUser sub = some userId ↔ sub.userId = userId ∧ sub.active = true := by
  unfold activeUser
  split
  · next hActive => simp [hActive]
  · next hActive => simp [hActive]

/-- The map of active users answers what the search of the active rows does. -/
theorem Replicas.findActiveByUser (h : Replicas memory sql) (userId : String) :
    sql.subscriptions.findActiveByUser .sql userId =
      memory.subscriptions.findActiveByUser .memory userId := by
  have hMemory : memory.subscriptions.findActiveByUser .memory userId = _ :=
    find_of_index h.activeUsers h.subscriptionIds userId
  rw [hMemory, ← h.subscriptions]
  show List.find? _ sql.subscriptions.byId.rows = _
  congr 1
  funext row
  apply Bool.eq_iff_iff.mpr
  rw [decide_eq_true_iff, activeUser_eq, Bool.and_eq_true, decide_eq_true_iff]

/-- The active subscriptions are stored alike. -/
theorem Replicas.listActive (h : Replicas memory sql) :
    sql.subscriptions.listActive .sql = memory.subscriptions.listActive .memory := by
  rw [SubscriptionStore.listActive_eq, SubscriptionStore.listActive_eq,
    SubscriptionStore.activeRows, SubscriptionStore.activeRows, h.subscriptions]

theorem Replicas.markIfNew (h : Replicas memory sql) (eventId : String) (now : Int) :
    sql.processed.markIfNew .sql eventId now = memory.processed.markIfNew .memory eventId now := by
  rw [EventStore.markIfNew_eq, EventStore.markIfNew_eq, h.processed]

/-- Both backends delete the same events. -/
theorem Replicas.sweep (h : Replicas memory sql) (olderThanMs now : Int) :
    sql.processed.sweep .sql olderThanMs now = memory.processed.sweep .memory olderThanMs now := by
  rw [EventStore.sweep_eq, EventStore.sweep_eq, h.processed]

end lookups

section writes

variable {memory sql : Store}

/-- A row that is rewritten has an id. -/
theorem get?_put_of_named {Row : Type} {key : Row → String} {t : Table Row key} {row old : Row}
    (hId : t.get? "" = none) (hOld : t.get? (key row) = some old) : (t.put row).get? "" = t.get? "" := by
  rw [Table.get?_put, if_neg]
  intro hEmpty
  rw [hEmpty, hId] at hOld
  cases hOld

/-- Both calls fail, or both take effect and leave replicas. -/
def SameEffect {α : Type} (memory sql : Except AppError (α × Store)) : Prop :=
  (∃ e e', memory = .error e ∧ sql = .error e') ∨
    ∃ a s s', memory = .ok (a, s) ∧ sql = .ok (a, s') ∧ Replicas s s'

/-- Both insert, or both reject a duplicate. -/
theorem Replicas.ordersCreate (h : Replicas memory sql) {o : Order}
    (hFits : Fits memory (.ordersCreate o)) :
    SameEffect ((memory.orders.create .memory o).map fun t => (o, { memory with orders := t }))
      ((sql.orders.create .sql o).map fun t => (o, { sql with orders := t })) := by
  obtain ⟨hNamed, hNew, hEmptyKey, hFreeKey⟩ := hFits
  have hAbsent : ¬sql.orders.byId.has o.id = true := by
    rw [h.orders.has fun _ => rfl, Table.has, hNew]
    exact Bool.false_ne_true
  have hTaken : (sql.orders.byId.rows.any fun row => row.outTradeNo = o.outTradeNo) =
      memory.orders.byOutTradeNo.has o.outTradeNo := by
    rw [h.outTradeNos.has_iff, h.orders, List.any_map]
    congr 1
    exact funext fun row => decide_eq_decide.mpr Option.some_inj.symm
  by_cases hHas : memory.orders.byOutTradeNo.has o.outTradeNo = true
  · left
    have hMemory : memory.orders.create .memory o = .error _ := if_pos hHas
    have hSql : sql.orders.create .sql o = .error _ := (if_neg hAbsent).trans (if_pos (hTaken.trans hHas))
    rw [hMemory, hSql]
    exact ⟨_, _, rfl, rfl⟩
  · right
    have hUnused : ¬(o.idempotencyKey.isSome && sql.orders.byId.rows.any fun row =>
        row.idempotencyKey = o.idempotencyKey) = true := by
      cases hKey : o.idempotencyKey with
      | none => exact Bool.false_ne_true
      | some k =>
          rw [Option.isSome_some, Bool.true_and, h.orders, List.any_map]
          have hNone := h.idempotencyKeys.has_iff (k := k)
          rw [Table.has, hFreeKey k hKey] at hNone
          exact fun hAny => Bool.false_ne_true (hNone.trans hAny)
    have hMemory : memory.orders.create .memory o = .ok _ := if_neg hHas
    have hSql : sql.orders.create .sql o = .ok _ :=
      (if_neg hAbsent).trans ((if_neg (hTaken ▸ hHas)).trans (if_neg hUnused))
    rw [hMemory, hSql]
    refine ⟨_, _, _, rfl, rfl, ?_⟩
    have hFreeNo : memory.orders.byOutTradeNo.get? o.outTradeNo = none := by
      simpa [Table.has] using hHas
    exact { h with
      orders := h.orders.put (fun _ => rfl) o
      outTradeNos := h.outTradeNos.insert hNew rfl hFreeNo
      idempotencyKeys := by
        cases hKey : o.idempotencyKey with
        | none => exact h.idempotencyKeys.insert_none hNew hKey
        | some k =>
            have hTruthy : truthy (some k) = some k := by
              have hNe : k ≠ "" := by
                rintro rfl
                exact hEmptyKey hKey
              simp [truthy, hNe]
            dsimp only
            rw [hTruthy]
            exact h.idempotencyKeys.insert hNew hKey (hFreeKey k hKey)
      orderIds := by
        rw [Table.get?_put, if_neg hNamed]
        exact h.orderIds }

/-- Both rewrite the row with the columns that an update sets. -/
theorem Replicas.ordersUpdate (h : Replicas memory sql) {o : Order}
    (hFits : Fits memory (.ordersUpdate o)) :
    SameEffect ((memory.orders.update .memory o).map fun t => (o, { memory with orders := t }))
      ((sql.orders.update .sql o).map fun t => (o, { sql with orders := t })) := by
  obtain ⟨row, hRow, hColumns⟩ := hFits
  have hRowSql : sql.orders.byId.get? o.id = some (toRow row) := by
    rw [h.orders.get? fun _ => rfl, hRow]
    rfl
  have hId : row.id = o.id := Table.key_of_get? hRow
  have hHas : memory.orders.byId.has o.id = true := by rw [Table.has, hRow]; rfl
  have hMemory : memory.orders.update .memory o = .ok _ := if_pos hHas
  have hSql : sql.orders.update .sql o = .ok { sql.orders with byId := sql.orders.byId.put (toRow o) } := by
    show SqlOrderRepository.update sql.orders o = _
    unfold SqlOrderRepository.update
    rw [hRowSql, ← hColumns]
    rfl
  have hColumn : ∀ {α : Type} (f : Order → α), (∀ x, f (toRow x) = f x) →
      (∀ x, f (SqlOrderRepository.setColumns row x) = f row) → f o = f row := by
    intro α f hToRow hSet
    rw [← hToRow o, ← hColumns, hToRow, hSet]
  have hNo : o.outTradeNo = row.outTradeNo := hColumn Order.outTradeNo (fun _ => rfl) fun _ => rfl
  have hKey : o.idempotencyKey = row.idempotencyKey :=
    hColumn Order.idempotencyKey (fun _ => rfl) fun _ => rfl
  rw [hMemory, hSql]
  refine .inr ⟨_, _, _, rfl, rfl, ?_⟩
  exact { h with
    orders := h.orders.put (fun _ => rfl) o
    outTradeNos := h.outTradeNos.rewrite hRow (congrArg some hNo)
    idempotencyKeys := h.idempotencyKeys.rewrite hRow hKey
    orderIds := (get?_put_of_named h.orderIds hRow).trans h.orderIds }

/-- Both insert, or both reject a duplicate number. -/
theorem Replicas.refundsCreate (h : Replicas memory sql) {r : Refund}
    (hFits : Fits memory (.refundsCreate r)) :
    SameEffect ((memory.refunds.create .memory memory.orders r).map fun t => (r, { memory with refunds := t }))
      ((sql.refunds.create .sql sql.orders r).map fun t => (r, { sql with refunds := t })) := by
  obtain ⟨hNamed, hNew, hOrder⟩ := hFits
  have hAbsent : ¬sql.refunds.byId.has r.id = true := by
    rw [h.refunds, Table.has, hNew]
    exact Bool.false_ne_true
  have hStored : sql.orders.byId.has r.orderId = true := (h.orders.has (fun _ => rfl) _).trans hOrder
  have hTaken : (sql.refunds.byId.rows.any fun row => row.outRefundNo = r.outRefundNo) =
      memory.refunds.byOutRefundNo.has r.outRefundNo := by
    rw [h.outRefundNos.has_iff, h.refunds]
    congr 1
    exact funext fun row => decide_eq_decide.mpr Option.some_inj.symm
  by_cases hHas : memory.refunds.byOutRefundNo.has r.outRefundNo = true
  · left
    have hMemory : memory.refunds.create .memory memory.orders r = .error _ := if_pos hHas
    have hSql : sql.refunds.create .sql sql.orders r = .error _ :=
      (if_neg hAbsent).trans (if_pos (hTaken.trans hHas))
    rw [hMemory, hSql]
    exact ⟨_, _, rfl, rfl⟩
  · right
    have hMemory : memory.refunds.create .memory memory.orders r = .ok _ := if_neg hHas
    have hSql : sql.refunds.create .sql sql.orders r = .ok _ :=
      (if_neg hAbsent).trans ((if_neg (hTaken ▸ hHas)).trans (if_pos hStored))
    rw [hMemory, hSql]
    refine ⟨_, _, _, rfl, rfl, ?_⟩
    have hFreeNo : memory.refunds.byOutRefundNo.get? r.outRefundNo = none := by
      simpa [Table.has] using hHas
    exact { h with
      refunds := congrArg (fun t => t.put r) h.refunds
      outRefundNos := h.outRefundNos.insert hNew rfl hFreeNo
      refundIds := by
        rw [Table.get?_put, if_neg hNamed]
        exact h.refundIds }

/-- Both rewrite the row, if there is one. -/
theorem Replicas.refundsUpdate (h : Replicas memory sql) {r : Refund}
    (hFits : Fits memory (.refundsUpdate r)) :
    Replicas { memory with refunds := memory.refunds.update .memory r }
      { sql with refunds := sql.refunds.update .sql r } := by
  obtain ⟨row, hRow, hColumns⟩ := hFits
  have hRowSql : sql.refunds.byId.get? r.id = some row := by rw [h.refunds, hRow]
  have hSql : sql.refunds.update .sql r = { sql.refunds with byId := sql.refunds.byId.put r } := by
    rw [RefundStore.update_eq hRowSql, RefundStore.written, hColumns]
  have hNo : r.outRefundNo = row.outRefundNo := by
    rw [← hColumns]
    rfl
  rw [hSql]
  exact { h with
    refunds := congrArg (fun t => t.put r) h.refunds
    outRefundNos := h.outRefundNos.rewrite hRow (congrArg some hNo)
    refundIds := (get?_put_of_named h.refundIds hRow).trans h.refundIds }

section subscriptions

variable {t : Table Subscription Subscription.id} {index : Index} {sub row : Subscription}

/-- The partial unique index lets one active subscription of a user through. -/
theorem alone_of_not_violates {s : SubscriptionStore} (hActive : sub.active = true)
    (h : SqlSubscriptionRepository.violatesActiveUser s sub = false) :
    ∀ other ∈ s.byId.rows, activeUser other = some sub.userId → other.id = sub.id := by
  intro other hMem hUser
  rw [SqlSubscriptionRepository.violatesActiveUser, hActive, Bool.true_and, List.any_eq_false] at h
  have hOther := h other hMem
  obtain ⟨hSame, hOn⟩ := (activeUser_eq other sub.userId).mp hUser
  simpa [hSame, hOn] using hOther

/-- The index map after a new subscription. -/
theorem activeUsers_create (h : PartIndexes t index activeUser) (hNew : t.get? sub.id = none)
    (hAlone : sub.active = true → ∀ other ∈ t.rows, activeUser other = some sub.userId → other.id = sub.id) :
    PartIndexes (t.put sub) (if sub.active then index.put (sub.userId, sub.id) else index) activeUser := by
  split
  · next hActive =>
      apply h.insert hNew ((activeUser_eq sub sub.userId).mpr ⟨rfl, hActive⟩)
      cases hEntry : index.get? sub.userId with
      | none => rfl
      | some entry =>
          obtain ⟨user, id⟩ := entry
          obtain rfl : user = sub.userId := Table.key_of_get? hEntry
          obtain ⟨other, hOther, hUser⟩ := (h _ id).mp hEntry
          have hId := hAlone hActive other (Table.mem_of_get? hOther) hUser
          rw [← hId, Table.get?_of_mem (Table.mem_of_get? hOther)] at hNew
          cases hNew
  · next hActive => exact h.insert_none hNew (if_neg hActive)

/-- The entry of the old row, if there is one, is that of the user. -/
theorem user_of_entry {k : String} (h : PartIndexes t index activeUser) (hRow : t.get? sub.id = some row)
    (hUser : row.userId = sub.userId) (hEntry : index.get? k = some (k, sub.id)) : sub.userId = k := by
  obtain ⟨row', hRow', hValue⟩ := (h k sub.id).mp hEntry
  rw [hRow] at hRow'
  cases hRow'
  rw [← hUser]
  exact ((activeUser_eq row k).mp hValue).1

/-- The index map after an update to a subscription that is active. -/
theorem activeUsers_active (h : PartIndexes t index activeUser) (hRow : t.get? sub.id = some row)
    (hUser : row.userId = sub.userId) (hActive : sub.active = true)
    (hAlone : ∀ other ∈ t.rows, activeUser other = some sub.userId → other.id = sub.id) :
    PartIndexes (t.put sub) (index.put (sub.userId, sub.id)) activeUser := by
  apply h.put
  intro k i
  have hValue : activeUser sub = some k ↔ sub.userId = k := by
    rw [activeUser_eq]
    exact and_iff_left hActive
  rw [Table.get?_put, hValue]
  by_cases hk : sub.userId = k
  · subst hk
    rw [if_pos rfl]
    split
    · next hi => simp [hi]
    · next hi =>
        apply iff_of_false
        · intro hEntry
          exact hi (congrArg Prod.snd (Option.some.inj hEntry)).symm
        · intro hEntry
          obtain ⟨other, hOther, hValue'⟩ := (h _ i).mp hEntry
          have hId : other.id = i := Table.key_of_get? hOther
          exact hi (hId.symm.trans (hAlone other (Table.mem_of_get? hOther) hValue'))
  · rw [if_neg hk]
    split
    · next hi =>
        subst hi
        exact iff_of_false (fun hEntry => hk (user_of_entry h hRow hUser hEntry)) hk
    · exact Iff.rfl

/-- The index map after an update to a subscription that is not. It loses the entry it has. -/
theorem activeUsers_inactive (h : PartIndexes t index activeUser) (hRow : t.get? sub.id = some row)
    (hUser : row.userId = sub.userId) (hInactive : ¬sub.active = true) :
    PartIndexes (t.put sub)
      (if (index.get? sub.userId).map Prod.snd = some sub.id then index.delete sub.userId else index)
      activeUser := by
  have hNone : activeUser sub = none := if_neg hInactive
  apply h.put
  intro k i
  rw [hNone]
  split
  · next hEntry =>
      obtain ⟨entry, hEntry, hSnd⟩ := Option.map_eq_some_iff.mp hEntry
      obtain ⟨user, id⟩ := entry
      obtain rfl : user = sub.userId := Table.key_of_get? hEntry
      obtain rfl : id = sub.id := hSnd
      rw [Table.get?_delete]
      by_cases hk : sub.userId = k
      · subst hk
        rw [if_pos rfl, hEntry]
        split
        · simp
        · next hi => simp [Ne.symm hi]
      · rw [if_neg hk]
        split
        · next hi =>
            subst hi
            exact iff_of_false (fun hEntry => hk (user_of_entry h hRow hUser hEntry)) (by simp)
        · exact Iff.rfl
  · next hOther =>
      split
      · next hi =>
          subst hi
          apply iff_of_false
          · intro hEntry
            obtain rfl := user_of_entry h hRow hUser hEntry
            exact hOther (by rw [hEntry]; rfl)
          · simp
      · exact Iff.rfl

/-- The index map after an update. -/
theorem activeUsers_update (h : PartIndexes t index activeUser) (hRow : t.get? sub.id = some row)
    (hUser : row.userId = sub.userId)
    (hAlone : sub.active = true → ∀ other ∈ t.rows, activeUser other = some sub.userId → other.id = sub.id) :
    PartIndexes (t.put sub)
      (if sub.active then index.put (sub.userId, sub.id)
      else if (index.get? sub.userId).map Prod.snd = some sub.id then index.delete sub.userId
      else index) activeUser := by
  by_cases hActive : sub.active = true
  · rw [if_pos hActive]
    exact activeUsers_active h hRow hUser hActive (hAlone hActive)
  · rw [if_neg hActive]
    exact activeUsers_inactive h hRow hUser hActive

end subscriptions

/-- An insertion that the partial unique index lets through. -/
theorem Replicas.subscriptionsCreate (h : Replicas memory sql) {sub : Subscription}
    (hFits : Fits memory (.subscriptionsCreate sub)) :
    SameEffect ((memory.subscriptions.create .memory sub).map fun t => (sub, { memory with subscriptions := t }))
      ((sql.subscriptions.create .sql sub).map fun t => (sub, { sql with subscriptions := t })) := by
  obtain ⟨hNamed, hNew, hAlone⟩ := hFits
  have hAbsent : ¬sql.subscriptions.byId.has sub.id = true := by
    rw [h.subscriptions, Table.has, hNew]
    exact Bool.false_ne_true
  have hAlone' : ¬SqlSubscriptionRepository.violatesActiveUser sql.subscriptions sub = true := by
    unfold SqlSubscriptionRepository.violatesActiveUser at hAlone ⊢
    rw [h.subscriptions, hAlone]
    exact Bool.false_ne_true
  have hSql : sql.subscriptions.create .sql sub = .ok _ := (if_neg hAbsent).trans (if_neg hAlone')
  rw [hSql]
  refine .inr ⟨_, _, _, rfl, rfl, ?_⟩
  exact { h with
    subscriptions := congrArg (fun t => t.put sub) h.subscriptions
    activeUsers := activeUsers_create h.activeUsers hNew fun hActive => alone_of_not_violates hActive hAlone
    subscriptionIds := by
      show (memory.subscriptions.byId.put sub).get? "" = none
      rw [Table.get?_put, if_neg hNamed]
      exact h.subscriptionIds }

/-- An update that the partial unique index lets through. -/
theorem Replicas.subscriptionsUpdate (h : Replicas memory sql) {sub : Subscription}
    (hFits : Fits memory (.subscriptionsUpdate sub)) :
    SameEffect ((memory.subscriptions.update .memory sub).map fun t => (sub, { memory with subscriptions := t }))
      ((sql.subscriptions.update .sql sub).map fun t => (sub, { sql with subscriptions := t })) := by
  obtain ⟨row, hRow, hColumns, hAlone⟩ := hFits
  have hAlone' : SqlSubscriptionRepository.violatesActiveUser sql.subscriptions sub = false := by
    unfold SqlSubscriptionRepository.violatesActiveUser at hAlone ⊢
    rw [h.subscriptions, hAlone]
  have hSql : sql.subscriptions.update .sql sub =
      .ok { sql.subscriptions with byId := sql.subscriptions.byId.put sub } := by
    show SqlSubscriptionRepository.update sql.subscriptions sub = _
    unfold SqlSubscriptionRepository.update
    rw [h.subscriptions, hRow]
    simp only [hColumns, hAlone', Bool.false_eq_true, if_false]
  have hUser : row.userId = sub.userId := by
    rw [← hColumns]
    rfl
  rw [hSql]
  refine .inr ⟨_, _, _, rfl, rfl, ?_⟩
  exact { h with
    subscriptions := congrArg (fun t => t.put sub) h.subscriptions
    activeUsers := activeUsers_update h.activeUsers hRow hUser fun hActive =>
      alone_of_not_violates hActive hAlone
    subscriptionIds := (get?_put_of_named h.subscriptionIds hRow).trans h.subscriptionIds }

end writes

/-- What is answered to one call after the other. -/
abbrev StoreAnswers := List (Σ c : Call, Except AppError (Ans c))

/-- The error of PostgreSQL for a value that the column does not take. -/
def refusedParameter : AppError :=
  plainError "invalid input for a column"

/-- What the call does to the backend, under SQL only if the columns take its parameters. -/
def settles (b : Backend) (clock : Int) (c : Call)
    (effect : Store → Except AppError (Ans c × Store)) (s : Store) : Except AppError (Ans c × Store) :=
  if b = .memory || c.taken clock then effect s else .error refusedParameter

/-- Make calls of the repositories one after the other, each at a time of the clock. -/
def Store.plays (b : Backend) (s : Store) : List (Int × Call) → StoreAnswers × Store
  | [] => ([], s)
  | (clock, c) :: calls =>
      match storeEffect b clock c with
      | none => s.plays b calls
      | some effect =>
          match settles b clock c effect s with
          | .ok (a, s') => (⟨c, .ok a⟩ :: (s'.plays b calls).1, (s'.plays b calls).2)
          | .error e => (⟨c, .error e⟩ :: (s.plays b calls).1, (s.plays b calls).2)

/-- Each call hands over what the columns can hold, and fits the records in memory when it is
made. -/
def FitsAlong (s : Store) : List (Int × Call) → Prop
  | [] => True
  | (clock, c) :: calls =>
      Storable clock c ∧ Fits s c ∧ FitsAlong (s.plays .memory [(clock, c)]).2 calls

/-- Two answers to one call: both are errors, or they are the same. -/
inductive Agree : (Σ c : Call, Except AppError (Ans c)) → (Σ c : Call, Except AppError (Ans c)) → Prop
  | failed (c : Call) (e e' : AppError) : Agree ⟨c, .error e⟩ ⟨c, .error e'⟩
  | answered (c : Call) (a a' : Ans c) (hSame : SameAnswer c a a') : Agree ⟨c, .ok a⟩ ⟨c, .ok a'⟩

section runs

variable {memory sql : Store} {c : Call} {clock : Int}
  {effect effect' : Store → Except AppError (Ans c × Store)}

/-- The effects of a call on both backends. -/
def StepsAlike (c : Call) (memory sql : Except AppError (Ans c × Store)) : Prop :=
  (∃ e e', memory = .error e ∧ sql = .error e') ∨
    ∃ a a' s s', memory = .ok (a, s) ∧ sql = .ok (a', s') ∧ SameAnswer c a a' ∧ Replicas s s'

/-- A call that stores nothing leaves replicas. -/
theorem Replicas.read (h : Replicas memory sql) {a a' : Ans c} (hSame : SameAnswer c a a') :
    StepsAlike c (.ok (a, memory)) (.ok (a', sql)) :=
  .inr ⟨a, a', memory, sql, rfl, rfl, hSame, h⟩

theorem SameEffect.steps {x y : Except AppError (Ans c × Store)} (h : SameEffect x y)
    (hSame : ∀ a, SameAnswer c a a) : StepsAlike c x y := by
  obtain hFailed | ⟨a, s, s', hx, hy, hReplicas⟩ := h
  · exact .inl hFailed
  · exact .inr ⟨a, a, s, s', hx, hy, hSame a, hReplicas⟩

/-- A row is the image of itself. -/
theorem map_toRow_eq {o o' : Option Order} (h : o' = o.map toRow) : o.map toRow = o'.map toRow := by
  subst h
  cases o <;> rfl

theorem perm_of_toRow {orders orders' : List Order} (h : orders' = orders.map toRow) :
    (orders.map toRow).Perm (orders'.map toRow) := by
  rw [h, List.map_map]
  exact .refl _

/-- One call that fits is answered alike, and leaves replicas. -/
theorem Replicas.step (h : Replicas memory sql) (hFits : Fits memory c)
    (hMemory : storeEffect .memory clock c = some effect)
    (hSql : storeEffect .sql clock c = some effect') : StepsAlike c (effect memory) (effect' sql) := by
  cases c with
  | ordersCreate o =>
      cases hMemory
      cases hSql
      exact (h.ordersCreate hFits).steps fun _ => rfl
  | ordersUpdate o =>
      cases hMemory
      cases hSql
      exact (h.ordersUpdate hFits).steps fun _ => rfl
  | refundsCreate r =>
      cases hMemory
      cases hSql
      exact (h.refundsCreate hFits).steps fun _ => rfl
  | refundsUpdate r =>
      cases hMemory
      cases hSql
      exact .inr ⟨_, _, _, _, rfl, rfl, rfl, h.refundsUpdate hFits⟩
  | subscriptionsCreate sub =>
      cases hMemory
      cases hSql
      exact (h.subscriptionsCreate hFits).steps fun _ => rfl
  | subscriptionsUpdate sub =>
      cases hMemory
      cases hSql
      exact (h.subscriptionsUpdate hFits).steps fun _ => rfl
  | ordersFindById id =>
      cases hMemory
      cases hSql
      exact h.read (map_toRow_eq (h.findById id))
  | ordersFindByOutTradeNo no =>
      cases hMemory
      cases hSql
      exact h.read (map_toRow_eq (h.findByOutTradeNo no))
  | ordersFindByIdempotencyKey k =>
      cases hMemory
      cases hSql
      exact h.read (map_toRow_eq (h.findByIdempotencyKey k))
  | ordersFindPendingByMethod method =>
      cases hMemory
      cases hSql
      exact h.read (perm_of_toRow (h.findPendingByMethod method))
  | ordersAll =>
      cases hMemory
      cases hSql
      exact h.read (perm_of_toRow h.allOrders)
  | refundsFindByOutRefundNo no =>
      cases hMemory
      cases hSql
      exact h.read (h.findByOutRefundNo no).symm
  | refundsFindByOrder id =>
      cases hMemory
      cases hSql
      exact h.read (h.findByOrder id)
  | refundsAll =>
      cases hMemory
      cases hSql
      exact h.read (.of_eq h.allRefunds.symm)
  | subscriptionsFindActiveByUser userId =>
      cases hMemory
      cases hSql
      exact h.read (h.findActiveByUser userId).symm
  | subscriptionsListActive =>
      cases hMemory
      cases hSql
      exact h.read (.of_eq h.listActive.symm)
  | markIfNew eventId =>
      cases hMemory
      cases hSql
      have hSame := h.markIfNew eventId clock
      exact .inr ⟨_, _, _, _, rfl, rfl, (congrArg Prod.fst hSame).symm,
        { h with processed := congrArg Prod.snd hSame }⟩
  | sweep olderThanMs =>
      cases hMemory
      cases hSql
      have hSame := h.sweep olderThanMs clock
      exact .inr ⟨_, _, _, _, rfl, rfl, (congrArg Prod.fst hSame).symm,
        { h with processed := congrArg Prod.snd hSame }⟩
  | _ => cases hMemory

@[simp] theorem settles_memory : settles .memory clock c effect memory = effect memory := by
  simp [settles]

/-- Parameters in the ranges of the columns are taken. -/
theorem settles_of_storable (h : Storable clock c) : settles .sql clock c effect sql = effect sql := by
  simp [settles, taken_of_storable h]

/-- Both backends serve the same calls. -/
theorem storeEffect_isSome (b b' : Backend) (clock clock' : Int) (c : Call) :
    (storeEffect b clock c).isSome = (storeEffect b' clock' c).isSome := by
  cases c <;> rfl

/-- Calls that fit are answered alike, and leave replicas. -/
theorem Replicas.plays (h : Replicas memory sql) {calls : List (Int × Call)}
    (hFits : FitsAlong memory calls) :
    List.Forall₂ Agree (memory.plays .memory calls).1 (sql.plays .sql calls).1 ∧
      Replicas (memory.plays .memory calls).2 (sql.plays .sql calls).2 := by
  induction calls generalizing memory sql with
  | nil => exact ⟨.nil, h⟩
  | cons call calls ih =>
      obtain ⟨clock, c⟩ := call
      obtain ⟨hStorable, hHere, hThen⟩ := hFits
      have hBoth := storeEffect_isSome .memory .sql clock clock c
      simp only [Store.plays] at hThen ⊢
      cases hMemory : storeEffect .memory clock c with
      | none =>
          rw [hMemory, Option.isSome_none] at hBoth
          rw [hMemory] at hThen
          have hSql : storeEffect .sql clock c = none :=
            Option.isNone_iff_eq_none.mp (Option.isSome_eq_false_iff.mp hBoth.symm)
          rw [hSql]
          exact ih h hThen
      | some effect =>
          obtain ⟨effect', hSql⟩ := Option.isSome_iff_exists.mp (hBoth.symm.trans (by rw [hMemory]; rfl))
          rw [hMemory] at hThen
          rw [hSql]
          simp only [settles_memory, settles_of_storable hStorable] at hThen ⊢
          obtain ⟨e, e', hError, hError'⟩ | ⟨a, a', s, s', hOk, hOk', hSame, hReplicas⟩ :=
            h.step hHere hMemory hSql
          · rw [hError] at hThen ⊢
            rw [hError']
            obtain ⟨hRest, hEnd⟩ := ih h hThen
            exact ⟨.cons (.failed c e e') hRest, hEnd⟩
          · rw [hOk] at hThen ⊢
            rw [hOk']
            obtain ⟨hRest, hEnd⟩ := ih hReplicas hThen
            exact ⟨.cons (.answered c a a' hSame) hRest, hEnd⟩

end runs

section queries

variable {memory sql : Store}

/-- A filter selects the images of what it selects in memory. -/
theorem Replicas.selectedOrders (h : Replicas memory sql) (filter : OrderQueryFilter) :
    selectedOrders sql.orders filter = (selectedOrders memory.orders filter).map toRow := by
  unfold VpnPayment.selectedOrders
  rw [h.orders, List.filter_map]
  rfl

/-- The reports count what the defaults of the columns leave alone. -/
theorem tally_toRow {Row κ : Type} [DecidableEq κ] {key : Row → κ} {keyOf : Order → κ}
    {grow : Option Row → Order → Row} (hKey : ∀ o, keyOf (toRow o) = keyOf o)
    (hGrow : ∀ row o, grow row (toRow o) = grow row o) (orders : List Order) :
    tally key keyOf grow (orders.map toRow) = tally key keyOf grow orders := by
  rw [tally, List.foldl_map]
  congr 1
  funext t o
  rw [gather, hKey, hGrow]
  rfl

/-- Both backends report the same sums. -/
theorem Replicas.summarize (h : Replicas memory sql) (filter : OrderQueryFilter) :
    sql.orders.summarize .sql filter = memory.orders.summarize .memory filter := by
  have hPaid : ∀ orders : List Order, paidOrders (orders.map toRow) = (paidOrders orders).map toRow := by
    intro orders
    unfold paidOrders
    rw [List.filter_map]
    rfl
  rw [OrderStore.summarize_eq, OrderStore.summarize_eq, h.selectedOrders, hPaid, List.length_map,
    tally_toRow (fun _ => rfl) fun _ _ => rfl, tally_toRow (fun _ => rfl) fun _ _ => rfl]

/-- The page in memory is one that the SQL query may answer. -/
theorem Replicas.query (h : Replicas memory sql) (filter : OrderQueryFilter) (limit offset : Nat) :
    sql.orders.Answers .sql filter limit offset
      ⟨(memory.orders.query .memory filter limit offset).total,
        (memory.orders.query .memory filter limit offset).items.map toRow⟩ := by
  have hSelected : sql.orders.byId.rows.filter (SqlOrderRepository.selected filter) =
      (VpnPayment.selectedOrders memory.orders filter).map toRow := by
    rw [SqlOrderRepository.selected_eq]
    exact h.selectedOrders filter
  refine ⟨(newestFirst memory.orders filter).map toRow, ?_, ?_, ?_⟩
  · rw [hSelected]
    exact newestFirst_perm.map toRow
  · have hOrder : Descending Order.createdAt (newestFirst memory.orders filter) := newestFirst_descending
    exact List.pairwise_map.mpr hOrder
  · rw [hSelected, List.length_map, OrderStore.total_query, ← List.map_drop, ← List.map_take]
    rfl

end queries

/-- The same counts and sums. A `GROUP BY` hands out its groups in any order. -/
structure SameSummary (x y : OrderSummary) : Prop where
  ordersTotal : x.ordersTotal = y.ordersTotal
  byStatus : x.byStatus.rows.Perm y.byStatus.rows
  paid : x.paid.Perm y.paid

/-- The reports on the orders are the same: PostgreSQL takes a query, and it may answer the
summary and any page of the repository in memory. -/
def SameReports (memory sql : OrderStore) : Prop :=
  ∀ filter : OrderQueryFilter, filter.Storable → filter.taken = true ∧
    SameSummary (memory.summarize .memory filter) (sql.summarize .sql filter) ∧
    ∀ limit offset : Nat, Sql.Safe limit → Sql.Safe offset →
      comparesBigint limit = true ∧ comparesBigint offset = true ∧
      sql.Answers .sql filter limit offset ⟨(memory.query .memory filter limit offset).total,
        (memory.query .memory filter limit offset).items.map toRow⟩

/-- Replicas answer every report alike. -/
theorem Replicas.sameReports {memory sql : Store} (h : Replicas memory sql) :
    SameReports memory.orders sql.orders := by
  intro filter hFilter
  refine ⟨filter.taken_of_storable hFilter, ?_, fun limit offset hLimit hOffset =>
    ⟨comparesBigint_of_safe hLimit, comparesBigint_of_safe hOffset, h.query filter limit offset⟩⟩
  rw [h.summarize]
  exact ⟨rfl, .refl _, .refl _⟩

/-- Whatever is called on the two backends: as long as each call hands over what the columns can
hold and fits the records, the answers are the same, up to the defaults of the columns and the
order of lists, and in the end so are the reports on the orders. -/
theorem backends_interchangeable {calls : List (Int × Call)} (hFits : FitsAlong .empty calls) :
    List.Forall₂ Agree (Store.empty.plays .memory calls).1 (Store.empty.plays .sql calls).1 ∧
      SameReports (Store.empty.plays .memory calls).2.orders (Store.empty.plays .sql calls).2.orders := by
  obtain ⟨hAnswers, hEnd⟩ := replicas_empty.plays hFits
  exact ⟨hAnswers, hEnd.sameReports⟩

namespace Sample

/-- An order with the trade number of the first one. -/
def rivalTwin : Order := { twin "o2" with outTradeNo := "o1" }

def paidTwin : Order := { twin "o1" with status := .PAID, paidAt := some 3 }

/-- Two orders with one trade number, the first of which is then paid, refunded in part, and
gives a subscription that is extended. -/
def shopping : List (Int × Call) :=
  [(0, .ordersCreate (twin "o1")),
    (1, .ordersCreate rivalTwin),
    (2, .ordersFindByOutTradeNo "o1"),
    (3, .ordersUpdate paidTwin),
    (4, .markIfNew "e1"),
    (5, .markIfNew "e1"),
    (6, .refundsCreate Sql.Sample.pendingRefund),
    (7, .refundsUpdate Sql.Sample.settledRefund),
    (8, .subscriptionsCreate Sql.Sample.subscription),
    (9, .subscriptionsUpdate Sql.Sample.extendedSubscription),
    (10, .subscriptionsListActive),
    (11, .sweep 3),
    (12, .ordersAll)]

theorem twins_fit : (twin "o1").toSql.Fits ∧ rivalTwin.toSql.Fits ∧ paidTwin.toSql.Fits := by
  refine ⟨?_, ?_, ?_⟩ <;> constructor
  any_goals constructor
  any_goals decide +kernel

theorem shopping_fits : FitsAlong .empty shopping := by
  have hNoKey : ∀ (id : String) (s : OrderStore) (k : String),
      (twin id).idempotencyKey = some k → s.byIdem.get? k = none := by
    intro id s k hKey
    cases hKey
  have hPlain : Sql.plain "o1" = true ∧ Sql.plain "e1" = true := by decide +kernel
  have hMark : ∀ clock : Int, Sql.Safe clock → Storable clock (.markIfNew "e1") :=
    fun _ hClock => ⟨hPlain.2, hClock⟩
  refine ⟨twins_fit.1, ⟨by decide, rfl, by decide, hNoKey "o1" _⟩, ?_⟩
  refine ⟨twins_fit.2.1, ⟨by decide, rfl, by decide, hNoKey "o2" _⟩, ?_⟩
  refine ⟨hPlain.1, trivial, twins_fit.2.2, ⟨_, rfl, rfl⟩, ?_⟩
  refine ⟨hMark 4 (by decide), trivial, hMark 5 (by decide), trivial, ?_⟩
  refine ⟨Sql.Sample.refunds_fit.1, ⟨by decide, rfl, rfl⟩, ?_⟩
  refine ⟨Sql.Sample.refunds_fit.2, ⟨_, rfl, rfl⟩, ?_⟩
  refine ⟨Sql.Sample.subscriptions_fit.1, ⟨by decide, rfl, rfl⟩, ?_⟩
  refine ⟨Sql.Sample.subscriptions_fit.2, ⟨_, rfl, rfl, rfl⟩, ?_⟩
  have hSweep : Sql.Safe (11 - 3) := by decide
  exact ⟨trivial, trivial, hSweep, trivial, trivial, trivial, trivial⟩

end Sample

/-- The second insertion fails in both. -/
theorem backends_interchangeable_sample :
    (Store.empty.plays .memory Sample.shopping).1.map (fun answer => answer.2.isOk) =
      [true, false, true, true, true, true, true, true, true, true, true, true, true] ∧
    List.Forall₂ Agree (Store.empty.plays .memory Sample.shopping).1
      (Store.empty.plays .sql Sample.shopping).1 ∧
    SameReports (Store.empty.plays .memory Sample.shopping).2.orders
      (Store.empty.plays .sql Sample.shopping).2.orders :=
  ⟨by decide +kernel, backends_interchangeable Sample.shopping_fits⟩

end VpnPayment
