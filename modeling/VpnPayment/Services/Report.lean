import VpnPayment.Collections.Traversal
import VpnPayment.Core.Money
import VpnPayment.Storage.OrderQueries

/-! `ReportService`: the summary over all orders, the summary pushed down to the
store, and the listing. -/
namespace VpnPayment

open Collections

structure ReportFilter where
  /-- Inclusive lower bound on the creation time. -/
  createdFrom : Option Int
  /-- Exclusive upper bound on the creation time. -/
  createdTo : Option Int
  method : Option PaymentMethod
  status : Option OrderStatus
  /-- Scope to a single tenant. -/
  merchantId : Option String

/-- The filter a store is given. -/
def ReportFilter.toQuery (filter : ReportFilter) : OrderQueryFilter where
  merchantId := filter.merchantId
  status := filter.status
  method := filter.method
  createdFrom := filter.createdFrom
  createdTo := filter.createdTo

structure CurrencyTotals where
  currency : Currency
  paidCount : Nat
  grossMinor : Int
  grossDisplay : String
  refundedMinor : Int
  refundedDisplay : String
  netMinor : Int
  netDisplay : String

def CurrencyTotals.zero (currency : Currency) : CurrencyTotals :=
  ⟨currency, 0, 0, "0", 0, "0", 0, "0"⟩

/-- Paid orders of one method. The currency is that of the first of them. -/
structure MethodTotals where
  method : PaymentMethod
  currency : Currency
  paidCount : Nat
  grossMinor : Int

/-- Paid orders of one currency. -/
structure CurrencyRow where
  currency : Currency
  paidCount : Nat
  grossMinor : Int

/-- A row with the text of its gross amount. -/
structure Displayed (Row : Type) where
  row : Row
  grossDisplay : String

structure Summary where
  ordersTotal : Nat
  byStatus : StatusCounts
  currencies : List CurrencyTotals
  byMethod : List (Displayed MethodTotals)
  refundsTotal : Nat

structure OrderReport where
  ordersTotal : Nat
  byStatus : StatusCounts
  currencies : List (Displayed CurrencyRow)
  byMethod : List (Displayed PaidRow)

namespace ReportService

/-- A refund counts toward settled money once SUCCESS or MANUAL. -/
def refundSettled (r : Refund) : Bool :=
  r.status = .SUCCESS || r.status = .MANUAL

/-- An order counts as revenue once it has been paid. -/
def isPaid (o : Order) : Bool :=
  o.paidAt.isSome && (o.status = .PAID || o.status = .FULFILLED || o.status = .REFUNDED)

/-- The predicate `matches` of the service. -/
def orderMatches (filter : ReportFilter) (o : Order) : Bool :=
  (filter.createdFrom.all fun time => time ≤ o.createdAt) &&
  (filter.createdTo.all fun time => o.createdAt < time) &&
  (filter.method.all fun method => o.method = method) &&
  (filter.status.all fun status => o.status = status)

def growCurrency (row : Option CurrencyTotals) (o : Order) : CurrencyTotals :=
  let t := row.getD (.zero o.currency)
  { t with paidCount := t.paidCount + 1, grossMinor := t.grossMinor + o.amount }

def growMethod (row : Option MethodTotals) (o : Order) : MethodTotals :=
  let m := row.getD ⟨o.method, o.currency, 0, 0⟩
  { m with paidCount := m.paidCount + 1, grossMinor := m.grossMinor + o.amount }

def growRefunded (row : Option CurrencyTotals) (r : Refund) : CurrencyTotals :=
  let t := row.getD (.zero r.currency)
  { t with refundedMinor := t.refundedMinor + r.amount }

structure SummaryMaps where
  byStatus : StatusCounts
  perCurrency : Table CurrencyTotals CurrencyTotals.currency
  byMethod : Table MethodTotals MethodTotals.method

/-- One round of the loop over the orders. -/
def summaryStep (maps : SummaryMaps) (o : Order) : SummaryMaps :=
  let counted := gather Order.status growStatus maps.byStatus o
  if isPaid o then
    ⟨counted, gather Order.currency growCurrency maps.perCurrency o,
      gather Order.method growMethod maps.byMethod o⟩
  else { maps with byStatus := counted }

def displayCurrency (t : CurrencyTotals) : Except AppError CurrencyTotals := do
  let netMinor := t.grossMinor - t.refundedMinor
  let grossDisplay ← fromMinorUnits t.grossMinor t.currency
  let refundedDisplay ← fromMinorUnits t.refundedMinor t.currency
  let netDisplay ← fromMinorUnits (max 0 netMinor) t.currency
  pure { t with netMinor, grossDisplay, refundedDisplay, netDisplay }

def display {Row : Type} (grossMinor : Row → Int) (currency : Row → Currency) (row : Row) :
    Except AppError (Displayed Row) :=
  (fromMinorUnits (grossMinor row) (currency row)).map fun text => ⟨row, text⟩

/-- The orders of a summary. -/
def foundOrders (orders : OrderStore) (filter : ReportFilter) : List Order :=
  orders.byId.rows.filter (orderMatches filter)

/-- The refunds of the orders of a summary. -/
def foundRefunds (orders : OrderStore) (refunds : RefundStore) (filter : ReportFilter) :
    List Refund :=
  refunds.byId.rows.filter fun r => (foundOrders orders filter).any fun o => o.id = r.orderId

/-- The totals of each currency, after both loops. -/
def currencyTable (orders : List Order) (refunds : List Refund) :
    Table CurrencyTotals CurrencyTotals.currency :=
  (refunds.filter refundSettled).foldl (gather Refund.currency growRefunded)
    (orders.foldl summaryStep ⟨.empty, .empty, .empty⟩).perCurrency

def summary (orders : OrderStore) (refunds : RefundStore) (filter : ReportFilter) :
    Except AppError Summary := do
  let found := foundOrders orders filter
  let ofFound := foundRefunds orders refunds filter
  let maps := found.foldl summaryStep ⟨.empty, .empty, .empty⟩
  let currencies ← (currencyTable found ofFound).rows.mapM displayCurrency
  let methods ← maps.byMethod.rows.mapM (display MethodTotals.grossMinor MethodTotals.currency)
  pure ⟨found.length, maps.byStatus, currencies, methods, ofFound.length⟩

def listOrders (b : Backend) (orders : OrderStore) (filter : ReportFilter) (limit offset : Nat) :
    OrderPage :=
  orders.query b filter.toQuery limit offset

def growRow (row : Option CurrencyRow) (paid : PaidRow) : CurrencyRow :=
  let c := row.getD ⟨paid.currency, 0, 0⟩
  { c with paidCount := c.paidCount + paid.paidCount, grossMinor := c.grossMinor + paid.grossMinor }

def orderSummary (b : Backend) (orders : OrderStore) (filter : ReportFilter) :
    Except AppError OrderReport := do
  let s := orders.summarize b filter.toQuery
  let byCurrency := tally CurrencyRow.currency PaidRow.currency growRow s.paid
  let currencies ← byCurrency.rows.mapM (display CurrencyRow.grossMinor CurrencyRow.currency)
  let byMethod ← s.paid.mapM (display PaidRow.grossMinor PaidRow.currency)
  pure ⟨s.ordersTotal, s.byStatus, currencies, byMethod⟩

/-- The summaries and the listing describe the same orders. -/
structure Agree (s : Summary) (t : OrderReport) (page : OrderPage) : Prop where
  ordersTotal : s.ordersTotal = t.ordersTotal
  listed : page.total = t.ordersTotal
  byStatus : ∀ status, s.byStatus.get? status = t.byStatus.get? status
  perCurrency : ∀ c, sumIf s.currencies (·.currency = c) (fun x => (x.paidCount, x.grossMinor)) =
    sumIf t.currencies (·.row.currency = c) fun x => (x.row.paidCount, x.row.grossMinor)
  perMethod : ∀ m, sumIf s.byMethod (·.row.method = m) (fun x => (x.row.paidCount, x.row.grossMinor)) =
    sumIf t.byMethod (·.row.method = m) fun x => (x.row.paidCount, x.row.grossMinor)

/-- Every order that the other fields of the filter select belongs to its tenant. -/
def OneTenant (orders : OrderStore) (filter : ReportFilter) : Prop :=
  ∀ m, truthy filter.merchantId = some m → ∀ o ∈ foundOrders orders filter, orderMerchant o = m

/-- No sum that is displayed is negative: the paid orders of a method and currency,
the settled refunds of a currency. -/
def Displayable (orders : OrderStore) (refunds : RefundStore) (filter : ReportFilter) : Prop :=
  (∀ m c, 0 ≤ sumIf ((foundOrders orders filter).filter isPaid)
    (fun o => o.method = m && o.currency = c) Order.amount) ∧
  ∀ c, 0 ≤ sumIf ((foundRefunds orders refunds filter).filter refundSettled)
    (fun r => r.currency = c) Refund.amount

section displays

variable {Row Shown : Type} {render : Row → Except AppError Shown}

/-- Showing the rows keeps their sums. -/
theorem sumIf_mapM {M : Type} [AddCommMonoid M] {rows : List Row} {out : List Shown}
    (h : rows.mapM render = .ok out) {shownIf : Shown → Bool} {rowIf : Row → Bool}
    {shownWeight : Shown → M} {weight : Row → M} (hKept : ∀ row shown, render row = .ok shown →
      shownIf shown = rowIf row ∧ shownWeight shown = weight row) :
    sumIf out shownIf shownWeight = sumIf rows rowIf weight := by
  induction rows generalizing out with
  | nil =>
      cases h
      rfl
  | cons row rows ih =>
      rw [List.mapM_cons] at h
      cases hRow : render row with
      | error e =>
          rw [hRow] at h
          cases h
      | ok shown =>
          rw [hRow] at h
          cases hRest : rows.mapM render with
          | error e =>
              rw [hRest] at h
              cases h
          | ok rest =>
              rw [hRest] at h
              cases h
              obtain ⟨hIf, hWeight⟩ := hKept row shown hRow
              rw [sumIf_cons, sumIf_cons, ih hRest, hIf, hWeight]

/-- `fromMinor` refuses negative amounts only. -/
theorem display_ok_iff {grossMinor : Row → Int} {currency : Row → Currency} {row : Row} :
    (∃ out, display grossMinor currency row = .ok out) ↔ 0 ≤ grossMinor row := by
  rw [← @fromMinorUnits_ok_iff _ (currency row)]
  unfold display
  cases fromMinorUnits (grossMinor row) (currency row) with
  | error e => exact ⟨fun h => (nomatch h), fun h => (nomatch h)⟩
  | ok text => exact ⟨fun _ => ⟨_, rfl⟩, fun _ => ⟨_, rfl⟩⟩

theorem row_of_display {grossMinor : Row → Int} {currency : Row → Currency} {row : Row}
    {out : Displayed Row} (h : display grossMinor currency row = .ok out) : out.row = row := by
  unfold display at h
  cases hText : fromMinorUnits (grossMinor row) (currency row) with
  | error e =>
      rw [hText] at h
      cases h
  | ok text =>
      rw [hText] at h
      cases h
      rfl

theorem displayCurrency_ok_iff {t : CurrencyTotals} :
    (∃ out, displayCurrency t = .ok out) ↔ 0 ≤ t.grossMinor ∧ 0 ≤ t.refundedMinor := by
  obtain ⟨net, hNet⟩ := (@fromMinorUnits_ok_iff _ t.currency).mpr
    (le_max_left 0 (t.grossMinor - t.refundedMinor))
  rw [← @fromMinorUnits_ok_iff _ t.currency,
    ← @fromMinorUnits_ok_iff t.refundedMinor t.currency]
  unfold displayCurrency
  dsimp only
  rw [hNet]
  cases fromMinorUnits t.grossMinor t.currency with
  | error e => exact ⟨fun h => (nomatch h), fun h => (nomatch h.1)⟩
  | ok gross =>
      cases fromMinorUnits t.refundedMinor t.currency with
      | error e => exact ⟨fun h => (nomatch h), fun h => (nomatch h.2)⟩
      | ok refunded => exact ⟨fun _ => ⟨⟨_, rfl⟩, _, rfl⟩, fun _ => ⟨_, rfl⟩⟩

/-- The display text leaves the totals alone. -/
theorem of_displayCurrency {t out : CurrencyTotals} (h : displayCurrency t = .ok out) :
    out.currency = t.currency ∧ out.paidCount = t.paidCount ∧ out.grossMinor = t.grossMinor := by
  unfold displayCurrency at h
  cases hGross : fromMinorUnits t.grossMinor t.currency with
  | error e =>
      rw [hGross] at h
      cases h
  | ok gross =>
      rw [hGross] at h
      cases hRefunded : fromMinorUnits t.refundedMinor t.currency with
      | error e =>
          rw [hRefunded] at h
          cases h
      | ok refunded =>
          rw [hRefunded] at h
          cases hNet : fromMinorUnits (max 0 (t.grossMinor - t.refundedMinor)) t.currency with
          | error e =>
              simp only [bind, Except.bind, hNet] at h
              cases h
          | ok net =>
              simp only [bind, Except.bind, hNet] at h
              cases h
              exact ⟨rfl, rfl, rfl⟩

end displays

section maps

/-- The loop of `summary` counts three tallies at once. -/
theorem foldl_summaryStep (orders : List Order) :
    orders.foldl summaryStep ⟨.empty, .empty, .empty⟩ = {
      byStatus := tally Prod.fst Order.status growStatus orders
      perCurrency := tally CurrencyTotals.currency Order.currency growCurrency (orders.filter isPaid)
      byMethod := tally MethodTotals.method Order.method growMethod (orders.filter isPaid) } := by
  have hRun : ∀ maps, orders.foldl summaryStep maps = {
      byStatus := orders.foldl (gather Order.status growStatus) maps.byStatus
      perCurrency := (orders.filter isPaid).foldl (gather Order.currency growCurrency) maps.perCurrency
      byMethod := (orders.filter isPaid).foldl (gather Order.method growMethod) maps.byMethod } := by
    induction orders with
    | nil => exact fun _ => rfl
    | cons o orders ih =>
        intro maps
        rw [List.foldl_cons, ih, List.filter_cons, summaryStep]
        split
        · rfl
        · rfl
  exact hRun _

/-- Paid orders are counted, and their amounts added up. -/
theorem grows_currency : Grows CurrencyTotals.currency Order.currency growCurrency
    (fun t => (t.paidCount, t.grossMinor)) (fun o => (1, o.amount)) where
  key_new _ := rfl
  key_old _ _ h := h
  weight_new o := by simp [growCurrency, CurrencyTotals.zero]
  weight_old t o _ := by simp [growCurrency]

/-- Paid orders add nothing to the refunded totals. -/
theorem grows_unrefunded : Grows CurrencyTotals.currency Order.currency growCurrency
    CurrencyTotals.refundedMinor (fun _ => 0) where
  key_new _ := rfl
  key_old _ _ h := h
  weight_new _ := rfl
  weight_old t _ _ := (Int.add_zero t.refundedMinor).symm

/-- A refund counts for itself only. -/
theorem grows_refunded : Grows CurrencyTotals.currency Refund.currency growRefunded
    CurrencyTotals.refundedMinor Refund.amount where
  key_new _ := rfl
  key_old _ _ h := h
  weight_new r := Int.zero_add r.amount
  weight_old _ _ _ := rfl

/-- Refunds add nothing to the paid totals. -/
theorem grows_unpaid : Grows CurrencyTotals.currency Refund.currency growRefunded
    (fun t => (t.paidCount, t.grossMinor)) (fun _ => 0) where
  key_new _ := rfl
  key_old _ _ h := h
  weight_new _ := rfl
  weight_old t _ _ := (add_zero (t.paidCount, t.grossMinor)).symm

/-- A paid order adds itself to its method. -/
theorem grows_method : Grows MethodTotals.method Order.method growMethod
    (fun m => (m.paidCount, m.grossMinor)) (fun o => (1, o.amount)) where
  key_new _ := rfl
  key_old _ _ h := h
  weight_new o := by simp [growMethod]
  weight_old m o _ := by simp [growMethod]

/-- A paid order adds itself to its method and currency. -/
theorem grows_paid : Grows PaidRow.key (fun o : Order => (o.method, o.currency)) growPaid
    (fun row => (row.paidCount, row.grossMinor)) (fun o => (1, o.amount)) where
  key_new _ := rfl
  key_old _ _ h := h
  weight_new o := by simp [growPaid]
  weight_old row o _ := by simp [growPaid]

/-- The rows of the methods add up to those of the currencies. -/
theorem grows_row : Grows CurrencyRow.currency PaidRow.currency growRow
    (fun row => (row.paidCount, row.grossMinor)) (fun row => (row.paidCount, row.grossMinor)) where
  key_new _ := rfl
  key_old _ _ h := h
  weight_new row := by simp [growRow]
  weight_old row paid _ := by simp [growRow]

variable (found : List Order) (refunds : List Refund)

/-- The rows that a store groups the paid orders in. -/
def paidTable (orders : List Order) : Table PaidRow PaidRow.key :=
  tally PaidRow.key (fun o => (o.method, o.currency)) growPaid (orders.filter isPaid)

/-- The currencies of the paid orders, with the settled refunds gathered in. -/
theorem currencyTable_eq : currencyTable found refunds =
    (refunds.filter refundSettled).foldl (gather Refund.currency growRefunded)
      (tally CurrencyTotals.currency Order.currency growCurrency (found.filter isPaid)) := by
  rw [currencyTable, foldl_summaryStep]

/-- The totals of a currency are those of its paid orders. -/
theorem paid_currencyTable (c : Currency) :
    sumIf (currencyTable found refunds).rows (·.currency = c) (fun t => (t.paidCount, t.grossMinor)) =
      sumIf (found.filter isPaid) (·.currency = c) fun o => (1, o.amount) := by
  have hRefunds := sumIf_foldl_gather grows_unpaid (fun k => decide (k = c))
    (refunds.filter refundSettled)
    (tally CurrencyTotals.currency Order.currency growCurrency (found.filter isPaid))
  have hOrders := sumIf_tally grows_currency (fun k => decide (k = c)) (found.filter isPaid)
  rw [hOrders, sumIf_zero, add_zero] at hRefunds
  rw [currencyTable_eq]
  exact hRefunds

/-- The refunded total of a currency is that of its settled refunds. -/
theorem refunded_currencyTable (c : Currency) :
    sumIf (currencyTable found refunds).rows (·.currency = c) CurrencyTotals.refundedMinor =
      sumIf (refunds.filter refundSettled) (·.currency = c) Refund.amount := by
  have hRefunds := sumIf_foldl_gather grows_refunded (fun k => decide (k = c))
    (refunds.filter refundSettled)
    (tally CurrencyTotals.currency Order.currency growCurrency (found.filter isPaid))
  have hOrders := sumIf_tally grows_unrefunded (fun k => decide (k = c)) (found.filter isPaid)
  rw [hOrders, sumIf_zero, zero_add] at hRefunds
  rw [currencyTable_eq]
  exact hRefunds

/-- The gross amount of a kind of orders, in pairs and alone. -/
theorem gross_sumIf {Row : Type} (rows : List Row) (p : Row → Bool) (count : Row → Nat)
    (gross : Row → Int) :
    (sumIf rows p fun row => (count row, gross row)).2 = sumIf rows p gross :=
  map_sumIf (AddMonoidHom.snd Nat Int) rows p _

/-- The rows under a condition are the paid orders under it. -/
theorem paid_paidTable (p : PaymentMethod × Currency → Bool) :
    sumIf (paidTable found).rows (p ∘ PaidRow.key) (fun row => (row.paidCount, row.grossMinor)) =
      sumIf (found.filter isPaid) (fun o => p (o.method, o.currency)) fun o => (1, o.amount) :=
  sumIf_tally grows_paid p (found.filter isPaid)

theorem gross_paidTable (p : PaymentMethod × Currency → Bool) :
    sumIf (paidTable found).rows (p ∘ PaidRow.key) PaidRow.grossMinor =
      sumIf (found.filter isPaid) (fun o => p (o.method, o.currency)) Order.amount := by
  rw [← gross_sumIf _ _ PaidRow.paidCount, paid_paidTable, gross_sumIf]

/-- The rows of the paid orders can be displayed. -/
theorem paidTable_nonneg_iff : (∀ row ∈ (paidTable found).rows, 0 ≤ row.grossMinor) ↔
    ∀ m c, 0 ≤ sumIf (found.filter isPaid) (fun o => o.method = m && o.currency = c)
      Order.amount := by
  have hKey : ∀ m c, sumIf (found.filter isPaid) (fun o => o.method = m && o.currency = c)
      Order.amount = sumIf (paidTable found).rows (fun row => row.key = (m, c)) PaidRow.grossMinor := by
    intro m c
    have hTable := gross_paidTable found fun k => decide (k = (m, c))
    simp only [Prod.mk.injEq, Bool.decide_and] at hTable
    rw [← hTable]
    congr 1
  constructor
  · intro hRows m c
    rw [hKey]
    exact sumIf_nonneg hRows
  · intro hSums row hRow
    have hValue := sumIf_of_mem hRow PaidRow.grossMinor
    rw [← hValue]
    exact hKey row.method row.currency ▸ hSums row.method row.currency

end maps

section selection

variable {orders : OrderStore} {filter : ReportFilter}

/-- The store adds the condition on the tenant. -/
theorem selectedOrders_eq : selectedOrders orders filter.toQuery =
    (foundOrders orders filter).filter fun o =>
      (truthy filter.merchantId).all fun m => orderMerchant o = m := by
  rw [selectedOrders, foundOrders, List.filter_filter]
  apply List.filter_congr
  intro o _
  simp only [MemoryOrderRepository.matched, orderMatches, ReportFilter.toQuery, Bool.and_assoc]
  cases filter.status.all fun status => decide (o.status = status) <;>
    cases filter.method.all fun method => decide (o.method = method) <;> simp

/-- Both reports count equally many orders exactly when those selected are of one tenant. -/
theorem oneTenant_iff_length : OneTenant orders filter ↔
    (selectedOrders orders filter.toQuery).length = (foundOrders orders filter).length := by
  rw [selectedOrders_eq, List.length_filter_eq_length_iff]
  unfold OneTenant
  cases truthy filter.merchantId with
  | none => simp
  | some m => simp

/-- Then both reports select the same orders. -/
theorem selectedOrders_of_oneTenant (h : OneTenant orders filter) :
    selectedOrders orders filter.toQuery = foundOrders orders filter := by
  have hLength := oneTenant_iff_length.mp h
  rw [selectedOrders_eq] at hLength ⊢
  exact List.filter_eq_self.mpr (List.length_filter_eq_length_iff.mp hLength)

end selection

section reports

variable {b : Backend} {orders : OrderStore} {refunds : RefundStore} {filter : ReportFilter}

/-- What `summary` returns, row by row. -/
theorem summary_eq_ok_iff {s : Summary} : summary orders refunds filter = .ok s ↔
    ∃ currencies methods,
      (currencyTable (foundOrders orders filter) (foundRefunds orders refunds filter)).rows.mapM
        displayCurrency = .ok currencies ∧
      (tally MethodTotals.method Order.method growMethod
        ((foundOrders orders filter).filter isPaid)).rows.mapM
          (display MethodTotals.grossMinor MethodTotals.currency) = .ok methods ∧
      s = ⟨(foundOrders orders filter).length,
        tally Prod.fst Order.status growStatus (foundOrders orders filter), currencies, methods,
        (foundRefunds orders refunds filter).length⟩ := by
  unfold summary
  dsimp only
  rw [foldl_summaryStep]
  dsimp only
  cases (currencyTable (foundOrders orders filter) (foundRefunds orders refunds filter)).rows.mapM
    displayCurrency with
  | error e => exact ⟨fun h => (nomatch h), fun ⟨_, _, h, _⟩ => (nomatch h)⟩
  | ok currencies =>
      cases (tally MethodTotals.method Order.method growMethod
        ((foundOrders orders filter).filter isPaid)).rows.mapM
          (display MethodTotals.grossMinor MethodTotals.currency) with
      | error e => exact ⟨fun h => (nomatch h), fun ⟨_, _, _, h, _⟩ => (nomatch h)⟩
      | ok methods =>
          constructor
          · intro h
            cases h
            exact ⟨_, _, rfl, rfl, rfl⟩
          · intro h
            obtain ⟨_, _, hCurrencies, hMethods, rfl⟩ := h
            cases hCurrencies
            cases hMethods
            rfl

/-- What `orderSummary` returns, row by row. -/
theorem orderSummary_eq_ok_iff {t : OrderReport} : orderSummary b orders filter = .ok t ↔
    ∃ currencies byMethod,
      (tally CurrencyRow.currency PaidRow.currency growRow
        (paidTable (selectedOrders orders filter.toQuery)).rows).rows.mapM
          (display CurrencyRow.grossMinor CurrencyRow.currency) = .ok currencies ∧
      (paidTable (selectedOrders orders filter.toQuery)).rows.mapM
        (display PaidRow.grossMinor PaidRow.currency) = .ok byMethod ∧
      t = ⟨(selectedOrders orders filter.toQuery).length,
        tally Prod.fst Order.status growStatus (selectedOrders orders filter.toQuery),
        currencies, byMethod⟩ := by
  have hPaid : paidOrders (selectedOrders orders filter.toQuery) =
      (selectedOrders orders filter.toQuery).filter isPaid := rfl
  unfold orderSummary
  rw [OrderStore.summarize_eq, hPaid]
  dsimp only
  rw [← paidTable]
  cases (tally CurrencyRow.currency PaidRow.currency growRow
    (paidTable (selectedOrders orders filter.toQuery)).rows).rows.mapM
      (display CurrencyRow.grossMinor CurrencyRow.currency) with
  | error e => exact ⟨fun h => (nomatch h), fun ⟨_, _, h, _⟩ => (nomatch h)⟩
  | ok currencies =>
      cases (paidTable (selectedOrders orders filter.toQuery)).rows.mapM
        (display PaidRow.grossMinor PaidRow.currency) with
      | error e => exact ⟨fun h => (nomatch h), fun ⟨_, _, _, h, _⟩ => (nomatch h)⟩
      | ok byMethod =>
          constructor
          · intro h
            cases h
            exact ⟨_, _, rfl, rfl, rfl⟩
          · intro h
            obtain ⟨_, _, hCurrencies, hMethods, rfl⟩ := h
            cases hCurrencies
            cases hMethods
            rfl

/-- The rows of the summary hold the paid orders of each currency and method. -/
theorem of_summary {s : Summary} (h : summary orders refunds filter = .ok s) :
    s.ordersTotal = (foundOrders orders filter).length ∧
    s.byStatus = tally Prod.fst Order.status growStatus (foundOrders orders filter) ∧
    (∀ c, sumIf s.currencies (·.currency = c) (fun x => (x.paidCount, x.grossMinor)) =
      sumIf ((foundOrders orders filter).filter isPaid) (·.currency = c) fun o => (1, o.amount)) ∧
    ∀ m, sumIf s.byMethod (·.row.method = m) (fun x => (x.row.paidCount, x.row.grossMinor)) =
      sumIf ((foundOrders orders filter).filter isPaid) (·.method = m) fun o => (1, o.amount) := by
  obtain ⟨currencies, methods, hCurrencies, hMethods, rfl⟩ := summary_eq_ok_iff.mp h
  refine ⟨rfl, rfl, fun c => ?_, fun m => ?_⟩
  · rw [← paid_currencyTable _ (foundRefunds orders refunds filter)]
    apply sumIf_mapM hCurrencies
    intro t shown hShown
    obtain ⟨hCurrency, hCount, hGross⟩ := of_displayCurrency hShown
    rw [hCurrency, hCount, hGross]
    exact ⟨rfl, rfl⟩
  · have hTable := sumIf_tally grows_method (fun k => decide (k = m))
      ((foundOrders orders filter).filter isPaid)
    refine Eq.trans (sumIf_mapM hMethods fun row shown hShown => ?_) hTable
    rw [row_of_display hShown]
    exact ⟨rfl, rfl⟩

theorem of_orderSummary {t : OrderReport} (h : orderSummary b orders filter = .ok t) :
    t.ordersTotal = (selectedOrders orders filter.toQuery).length ∧
    t.byStatus = tally Prod.fst Order.status growStatus (selectedOrders orders filter.toQuery) ∧
    (∀ c, sumIf t.currencies (·.row.currency = c) (fun x => (x.row.paidCount, x.row.grossMinor)) =
      sumIf ((selectedOrders orders filter.toQuery).filter isPaid) (·.currency = c)
        fun o => (1, o.amount)) ∧
    ∀ m, sumIf t.byMethod (·.row.method = m) (fun x => (x.row.paidCount, x.row.grossMinor)) =
      sumIf ((selectedOrders orders filter.toQuery).filter isPaid) (·.method = m)
        fun o => (1, o.amount) := by
  obtain ⟨currencies, byMethod, hCurrencies, hMethods, rfl⟩ := orderSummary_eq_ok_iff.mp h
  refine ⟨rfl, rfl, fun c => ?_, fun m => ?_⟩
  · have hTable := sumIf_tally grows_row (fun k => decide (k = c))
      (paidTable (selectedOrders orders filter.toQuery)).rows
    have hPaid := paid_paidTable (selectedOrders orders filter.toQuery) fun k => decide (k.2 = c)
    refine Eq.trans (sumIf_mapM hCurrencies fun row shown hShown => ?_) (hTable.trans hPaid)
    rw [row_of_display hShown]
    exact ⟨rfl, rfl⟩
  · have hPaid := paid_paidTable (selectedOrders orders filter.toQuery) fun k => decide (k.1 = m)
    refine Eq.trans (sumIf_mapM hMethods fun row shown hShown => ?_) hPaid
    rw [row_of_display hShown]
    exact ⟨rfl, rfl⟩

/-- What makes the summary over all orders displayable. -/
theorem summary_ok_of_displayable (h : Displayable orders refunds filter) :
    ∃ s, summary orders refunds filter = .ok s := by
  have hRows := (paidTable_nonneg_iff _).mpr h.1
  obtain ⟨currencies, hCurrencies⟩ := (@mapM_ok_iff _ _ _ displayCurrency
    (currencyTable (foundOrders orders filter) (foundRefunds orders refunds filter)).rows).mpr (by
      intro t ht
      rw [displayCurrency_ok_iff]
      have hGross := sumIf_of_mem ht fun t => (t.paidCount, t.grossMinor)
      have hRefunded := sumIf_of_mem ht CurrencyTotals.refundedMinor
      rw [paid_currencyTable] at hGross
      rw [refunded_currencyTable] at hRefunded
      constructor
      · have hPaid := gross_paidTable (foundOrders orders filter) fun k => decide (k.2 = t.currency)
        have hSum : t.grossMinor = sumIf ((foundOrders orders filter).filter isPaid)
            (·.currency = t.currency) Order.amount := by
          rw [← gross_sumIf _ _ fun _ => 1, hGross]
        rw [hSum, ← hPaid]
        exact sumIf_nonneg hRows
      · rw [← hRefunded]
        exact h.2 t.currency)
  obtain ⟨methods, hMethods⟩ := (@mapM_ok_iff _ _ _
    (display MethodTotals.grossMinor MethodTotals.currency)
    (tally MethodTotals.method Order.method growMethod
      ((foundOrders orders filter).filter isPaid)).rows).mpr (by
      intro m hm
      rw [display_ok_iff]
      have hGross := sumIf_of_mem hm fun m => (m.paidCount, m.grossMinor)
      have hTable := sumIf_tally grows_method (fun k => decide (k = m.method))
        ((foundOrders orders filter).filter isPaid)
      have hPaid := gross_paidTable (foundOrders orders filter) fun k => decide (k.1 = m.method)
      have hSum : m.grossMinor = sumIf ((foundOrders orders filter).filter isPaid)
          (·.method = m.method) Order.amount := by
        rw [← gross_sumIf _ _ fun _ => 1]
        exact congrArg Prod.snd (hGross.symm.trans hTable)
      rw [hSum, ← hPaid]
      exact sumIf_nonneg hRows)
  exact ⟨_, summary_eq_ok_iff.mpr ⟨currencies, methods, hCurrencies, hMethods, rfl⟩⟩

/-- The summary of the store can be displayed when its rows can. -/
theorem orderSummary_ok_iff : (∃ t, orderSummary b orders filter = .ok t) ↔
    ∀ row ∈ (paidTable (selectedOrders orders filter.toQuery)).rows, 0 ≤ row.grossMinor := by
  constructor
  · intro h
    obtain ⟨t, hReport⟩ := h
    obtain ⟨-, byMethod, -, hMethods, -⟩ := orderSummary_eq_ok_iff.mp hReport
    intro row hRow
    exact display_ok_iff.mp ((mapM_ok_iff _).mp ⟨byMethod, hMethods⟩ row hRow)
  · intro hRows
    obtain ⟨byMethod, hMethods⟩ := (@mapM_ok_iff _ _ _ (display PaidRow.grossMinor PaidRow.currency)
      (paidTable (selectedOrders orders filter.toQuery)).rows).mpr
        fun row hRow => display_ok_iff.mpr (hRows row hRow)
    obtain ⟨currencies, hCurrencies⟩ := (@mapM_ok_iff _ _ _
      (display CurrencyRow.grossMinor CurrencyRow.currency)
      (tally CurrencyRow.currency PaidRow.currency growRow
        (paidTable (selectedOrders orders filter.toQuery)).rows).rows).mpr (by
        intro row hRow
        rw [display_ok_iff]
        have hGross := sumIf_of_mem hRow fun row => (row.paidCount, row.grossMinor)
        have hTable := sumIf_tally grows_row (fun k => decide (k = row.currency))
          (paidTable (selectedOrders orders filter.toQuery)).rows
        have hSum : row.grossMinor = sumIf (paidTable (selectedOrders orders filter.toQuery)).rows
            (·.currency = row.currency) PaidRow.grossMinor := by
          rw [← gross_sumIf _ _ PaidRow.paidCount]
          exact congrArg Prod.snd (hGross.symm.trans hTable)
        rw [hSum]
        exact sumIf_nonneg hRows)
    exact ⟨_, orderSummary_eq_ok_iff.mpr ⟨currencies, byMethod, hCurrencies, hMethods, rfl⟩⟩

/-- When both reports are returned, every amount can be displayed. -/
theorem displayable_of_ok (hTenant : OneTenant orders filter)
    (hSummary : ∃ s, summary orders refunds filter = .ok s)
    (hReport : ∃ t, orderSummary b orders filter = .ok t) : Displayable orders refunds filter := by
  constructor
  · rw [← paidTable_nonneg_iff, ← selectedOrders_of_oneTenant hTenant]
    exact orderSummary_ok_iff.mp hReport
  · intro c
    obtain ⟨s, hOk⟩ := hSummary
    obtain ⟨currencies, -, hCurrencies, -, -⟩ := summary_eq_ok_iff.mp hOk
    rw [← refunded_currencyTable (foundOrders orders filter)]
    apply sumIf_nonneg
    intro t ht
    exact (displayCurrency_ok_iff.mp ((mapM_ok_iff _).mp ⟨currencies, hCurrencies⟩ t ht)).2

end reports

/-- The two summaries and the listing agree exactly when the filter names no tenant
but that of every order its other fields select, and no displayed sum is negative. -/
theorem summaries_agree_iff (b : Backend) (orders : OrderStore) (refunds : RefundStore)
    (filter : ReportFilter) (limit offset : Nat) :
    (∃ s t, summary orders refunds filter = .ok s ∧ orderSummary b orders filter = .ok t ∧
      Agree s t (listOrders b orders filter limit offset)) ↔
    OneTenant orders filter ∧ Displayable orders refunds filter := by
  constructor
  · intro h
    obtain ⟨s, t, hSummary, hReport, hAgree⟩ := h
    have hTenant : OneTenant orders filter := by
      rw [oneTenant_iff_length, ← (of_summary hSummary).1, ← (of_orderSummary hReport).1]
      exact hAgree.ordersTotal.symm
    exact ⟨hTenant, displayable_of_ok hTenant ⟨s, hSummary⟩ ⟨t, hReport⟩⟩
  · intro h
    obtain ⟨hTenant, hDisplayable⟩ := h
    have hSelected := selectedOrders_of_oneTenant hTenant
    obtain ⟨s, hSummary⟩ := summary_ok_of_displayable hDisplayable
    obtain ⟨t, hReport⟩ := (orderSummary_ok_iff (b := b)).mpr (by
      rw [hSelected]
      exact (paidTable_nonneg_iff _).mpr hDisplayable.1)
    obtain ⟨hTotal, hStatus, hCurrency, hMethod⟩ := of_summary hSummary
    obtain ⟨hTotal', hStatus', hCurrency', hMethod'⟩ := of_orderSummary hReport
    rw [hSelected] at hTotal' hStatus' hCurrency' hMethod'
    refine ⟨s, t, hSummary, hReport, ?_⟩
    constructor
    · rw [hTotal, hTotal']
    · rw [listOrders, OrderStore.total_query, hSelected, hTotal']
    · intro status
      rw [hStatus, hStatus']
    · intro c
      rw [hCurrency, hCurrency']
    · intro m
      rw [hMethod, hMethod']

/-- A paid order of the second tenant. -/
def tenantOrder : Order where
  id := "o2"
  merchantId := some "m2"
  outTradeNo := "T2"
  userId := "u1"
  planId := "monthly"
  method := .wechat
  currency := .CNY
  amount := 1500
  status := .FULFILLED
  providerTxnId := some "wx2"
  idempotencyKey := none
  createdAt := 0
  updatedAt := 1
  expiresAt := 900000
  paidAt := some 1
  refundedAmount := none
  metadata := .empty

def tenantStore : OrderStore :=
  ⟨Table.empty.put tenantOrder, .empty, .empty⟩

/-- A summary for the first tenant counts the order of the second. -/
theorem summary_counts_other_tenant : ¬∀ b orders refunds filter limit offset,
    ∃ s t, summary orders refunds filter = .ok s ∧ orderSummary b orders filter = .ok t ∧
      Agree s t (listOrders b orders filter limit offset) := by
  intro hAll
  obtain ⟨s, t, hSummary, hReport, hAgree⟩ := hAll .memory tenantStore ⟨.empty, .empty⟩
    ⟨none, none, none, none, some "m1"⟩ 50 0
  have hEq := hAgree.ordersTotal
  rw [(of_summary hSummary).1, (of_orderSummary hReport).1] at hEq
  exact absurd hEq (by decide)

end ReportService
end VpnPayment
