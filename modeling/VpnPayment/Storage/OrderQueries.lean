import VpnPayment.Collections.Tally
import VpnPayment.Storage.Repositories
import Mathlib.Data.List.Sort

/-! The filtered queries and the aggregation of the order repositories. -/
namespace VpnPayment

open Collections

structure OrderQueryFilter where
  merchantId : Option String
  status : Option OrderStatus
  method : Option PaymentMethod
  /-- Inclusive lower bound on the creation time. -/
  createdFrom : Option Int
  /-- Exclusive upper bound on the creation time. -/
  createdTo : Option Int

/-- The tenant an order belongs to. The column of the SQL table is never null. -/
def orderMerchant (o : Order) : String :=
  o.merchantId.getD DEFAULT_MERCHANT_ID

structure OrderPage where
  total : Nat
  items : List Order

/-- Paid orders of one method and currency. -/
structure PaidRow where
  method : PaymentMethod
  currency : Currency
  paidCount : Nat
  grossMinor : Int
deriving DecidableEq

def PaidRow.key (row : PaidRow) : PaymentMethod × Currency :=
  (row.method, row.currency)

abbrev StatusCounts : Type := Table (OrderStatus × Nat) Prod.fst

structure OrderSummary where
  ordersTotal : Nat
  byStatus : StatusCounts
  paid : List PaidRow

/-- One more order of a status. -/
def growStatus (row : Option (OrderStatus × Nat)) (o : Order) : OrderStatus × Nat :=
  (o.status, (row.map Prod.snd).getD 0 + 1)

/-- One more paid order of a method and currency. -/
def growPaid (row : Option PaidRow) (o : Order) : PaidRow :=
  let row := row.getD ⟨o.method, o.currency, 0, 0⟩
  { row with paidCount := row.paidCount + 1, grossMinor := row.grossMinor + o.amount }

def paidStatus (status : OrderStatus) : Bool :=
  status = .PAID || status = .FULFILLED || status = .REFUNDED

namespace MemoryOrderRepository

/-- The predicate of `query` and `summarize`. -/
def matched (filter : OrderQueryFilter) (o : Order) : Bool :=
  ((truthy filter.merchantId).all fun m => orderMerchant o = m) &&
  (filter.status.all fun status => o.status = status) &&
  (filter.method.all fun method => o.method = method) &&
  (filter.createdFrom.all fun time => time ≤ o.createdAt) &&
  (filter.createdTo.all fun time => o.createdAt < time)

def query (s : OrderStore) (filter : OrderQueryFilter) (limit offset : Nat) : OrderPage :=
  let found := (s.byId.rows.filter (matched filter)).insertionSort
    fun x y => y.createdAt ≤ x.createdAt
  ⟨found.length, (found.drop offset).take limit⟩

/-- One round of the loop of `summarize`. -/
def summarizeStep (maps : StatusCounts × Table PaidRow PaidRow.key) (o : Order) :
    StatusCounts × Table PaidRow PaidRow.key :=
  (gather Order.status growStatus maps.1 o,
    if o.paidAt.isSome && paidStatus o.status then
      gather (fun o => (o.method, o.currency)) growPaid maps.2 o
    else maps.2)

def summarize (s : OrderStore) (filter : OrderQueryFilter) : OrderSummary :=
  let found := s.byId.rows.filter (matched filter)
  let maps := found.foldl summarizeStep (.empty, .empty)
  ⟨found.length, maps.1, maps.2.rows⟩

end MemoryOrderRepository

namespace SqlOrderRepository

/-- The conditions of the `WHERE`. -/
def clauses (filter : OrderQueryFilter) : List (Order → Bool) :=
  ((truthy filter.merchantId).toList.map fun m (o : Order) => decide (orderMerchant o = m)) ++
  (filter.status.toList.map fun status (o : Order) => decide (o.status = status)) ++
  (filter.method.toList.map fun method (o : Order) => decide (o.method = method)) ++
  (filter.createdFrom.toList.map fun time (o : Order) => decide (time ≤ o.createdAt)) ++
  (filter.createdTo.toList.map fun time (o : Order) => decide (o.createdAt < time))

def selected (filter : OrderQueryFilter) (o : Order) : Bool :=
  (clauses filter).all fun clause => clause o

/-- Rows of one time come in any order; here in that of the table. -/
def query (s : OrderStore) (filter : OrderQueryFilter) (limit offset : Nat) : OrderPage :=
  let rows := s.byId.rows.filter (selected filter)
  let sorted := rows.insertionSort fun x y => y.createdAt ≤ x.createdAt
  ⟨rows.length, (sorted.drop offset).take limit⟩

/-- Three queries: the count, and one for each `GROUP BY`. -/
def summarize (s : OrderStore) (filter : OrderQueryFilter) : OrderSummary where
  ordersTotal := (s.byId.rows.filter (selected filter)).length
  byStatus := tally Prod.fst Order.status growStatus (s.byId.rows.filter (selected filter))
  paid := (tally PaidRow.key (fun o => (o.method, o.currency)) growPaid
    (s.byId.rows.filter fun o => selected filter o && o.paidAt.isSome && paidStatus o.status)).rows

end SqlOrderRepository

namespace OrderStore

def query : Backend → OrderStore → OrderQueryFilter → Nat → Nat → OrderPage
  | .memory => MemoryOrderRepository.query
  | .sql => SqlOrderRepository.query

def summarize : Backend → OrderStore → OrderQueryFilter → OrderSummary
  | .memory => MemoryOrderRepository.summarize
  | .sql => SqlOrderRepository.summarize

end OrderStore

/-- Both repositories select the same orders. -/
theorem SqlOrderRepository.selected_eq (filter : OrderQueryFilter) :
    selected filter = MemoryOrderRepository.matched filter := by
  funext o
  have hClause : ∀ {α : Type} (x : Option α) (p : α → Order → Bool),
      (x.toList.map p).all (fun clause => clause o) = x.all fun a => p a o := by
    intro α x p
    cases x <;> simp
  simp only [selected, clauses, List.all_append, hClause, MemoryOrderRepository.matched]

/-- The orders that a query and a summary are about. -/
def selectedOrders (s : OrderStore) (filter : OrderQueryFilter) : List Order :=
  s.byId.rows.filter (MemoryOrderRepository.matched filter)

def paidOrders (orders : List Order) : List Order :=
  orders.filter fun o => o.paidAt.isSome && paidStatus o.status

theorem MemoryOrderRepository.foldl_summarizeStep (orders : List Order) :
    orders.foldl summarizeStep (.empty, .empty) = (tally Prod.fst Order.status growStatus orders,
      tally PaidRow.key (fun o => (o.method, o.currency)) growPaid (paidOrders orders)) := by
  have hRun : ∀ maps, orders.foldl summarizeStep maps =
      (orders.foldl (gather Order.status growStatus) maps.1,
        (paidOrders orders).foldl (gather (fun o => (o.method, o.currency)) growPaid) maps.2) := by
    induction orders with
    | nil => exact fun _ => rfl
    | cons o orders ih =>
        intro maps
        rw [List.foldl_cons, ih, paidOrders, paidOrders, List.filter_cons]
        cases hPaid : o.paidAt.isSome && paidStatus o.status with
        | true => simp [summarizeStep, hPaid]
        | false => simp [summarizeStep, hPaid]
  rw [hRun]
  rfl

/-- What both repositories answer. -/
theorem OrderStore.summarize_eq (b : Backend) (s : OrderStore) (filter : OrderQueryFilter) :
    s.summarize b filter = {
      ordersTotal := (selectedOrders s filter).length
      byStatus := tally Prod.fst Order.status growStatus (selectedOrders s filter)
      paid := (tally PaidRow.key (fun o => (o.method, o.currency)) growPaid
        (paidOrders (selectedOrders s filter))).rows } := by
  cases b with
  | memory =>
      simp only [summarize, MemoryOrderRepository.summarize,
        MemoryOrderRepository.foldl_summarizeStep, selectedOrders]
  | sql =>
      have hPaid : (s.byId.rows.filter fun o =>
          SqlOrderRepository.selected filter o && o.paidAt.isSome && paidStatus o.status) =
          paidOrders (selectedOrders s filter) := by
        rw [paidOrders, selectedOrders, List.filter_filter, SqlOrderRepository.selected_eq]
        apply List.filter_congr
        intro o _
        cases MemoryOrderRepository.matched filter o <;> simp
      show SqlOrderRepository.summarize s filter = _
      rw [SqlOrderRepository.summarize, hPaid, SqlOrderRepository.selected_eq]
      rfl

theorem OrderStore.total_query (b : Backend) (s : OrderStore) (filter : OrderQueryFilter)
    (limit offset : Nat) :
    (s.query b filter limit offset).total = (selectedOrders s filter).length := by
  cases b with
  | memory => simp [query, MemoryOrderRepository.query, selectedOrders]
  | sql =>
      simp only [query, SqlOrderRepository.query, SqlOrderRepository.selected_eq, selectedOrders]

end VpnPayment
