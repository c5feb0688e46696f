import VpnPayment.Collections.Pages
import VpnPayment.Storage.OrderQueries

/-! Reading the orders page by page. The SQL query sorts by creation time only, so the
orders of one millisecond come in any order, in every query another one. -/
namespace VpnPayment

open Collections

/-- What a query may answer. -/
def OrderStore.Answers (s : OrderStore) (b : Backend) (filter : OrderQueryFilter)
    (limit offset : Nat) (page : OrderPage) : Prop :=
  match b with
  | .memory => page = MemoryOrderRepository.query s filter limit offset
  | .sql => ∃ rows : List Order,
      rows.Perm (s.byId.rows.filter (SqlOrderRepository.selected filter)) ∧
      Descending Order.createdAt rows ∧
      page = ⟨(s.byId.rows.filter (SqlOrderRepository.selected filter)).length,
        (rows.drop offset).take limit⟩

/-- The items of all pages: `query(filter, n, 0)`, `query(filter, n, n)` and so on. -/
def OrderStore.ReadsPages (s : OrderStore) (b : Backend) (filter : OrderQueryFilter) (n : Nat) :
    List Order → Prop :=
  Reads (fun offset total items => s.Answers b filter n offset ⟨total, items⟩) n 0

/-- The matching orders, the newest first and those of one time as they are stored. -/
def newestFirst (s : OrderStore) (filter : OrderQueryFilter) : List Order :=
  (selectedOrders s filter).insertionSort fun x y => y.createdAt ≤ x.createdAt

variable {s : OrderStore} {filter : OrderQueryFilter} {n : Nat}

theorem newestFirst_perm : (newestFirst s filter).Perm (selectedOrders s filter) :=
  List.perm_insertionSort _ _

theorem newestFirst_descending : Descending Order.createdAt (newestFirst s filter) := by
  have hTotal : Std.Total fun x y : Order => y.createdAt ≤ x.createdAt :=
    ⟨fun x y => Int.le_total y.createdAt x.createdAt⟩
  have hTrans : IsTrans Order fun x y => y.createdAt ≤ x.createdAt :=
    ⟨fun x y z hxy hyz => Int.le_trans hyz hxy⟩
  exact List.pairwise_insertionSort _ _

theorem newestFirst_nodup : (newestFirst s filter).Nodup := by
  have hRows : s.byId.rows.Nodup := s.byId.nodup.of_map
  exact newestFirst_perm.nodup_iff.mpr (hRows.filter _)

/-- The pages of either repository have every matching order once, the newest first,
exactly where the repository is the one in memory or no page ends between two
matching orders of one creation time. -/
theorem pages_partition_iff (b : Backend) (s : OrderStore) (filter : OrderQueryFilter)
    (hn : 0 < n) :
    (∀ items, s.ReadsPages b filter n items →
      items.Perm (selectedOrders s filter) ∧ Descending Order.createdAt items) ↔
      b = .memory ∨ ¬SplitsTie Order.createdAt (newestFirst s filter) n := by
  cases b with
  | memory =>
      refine iff_of_true ?_ (.inl rfl)
      intro items hReads
      have hFixed : ∀ offset total items, s.Answers .memory filter n offset ⟨total, items⟩ →
          total = (newestFirst s filter).length ∧
            items = ((newestFirst s filter).drop offset).take n := by
        intro offset total items hPage
        cases hPage
        exact ⟨rfl, rfl⟩
      rw [eq_of_reads_fixed hFixed hReads, List.drop_zero]
      exact ⟨newestFirst_perm, newestFirst_descending⟩
  | sql =>
      have hAnswers : (fun offset total items => s.Answers .sql filter n offset ⟨total, items⟩) =
          anyOrder Order.createdAt (newestFirst s filter) n := by
        funext offset total items
        rw [anyOrder, OrderStore.Answers, SqlOrderRepository.selected_eq]
        apply propext
        refine exists_congr fun rows => ?_
        rw [OrderPage.mk.injEq, newestFirst_perm.length_eq]
        exact and_congr_left fun _ =>
          ⟨fun h => h.trans newestFirst_perm.symm, fun h => h.trans newestFirst_perm⟩
      have hOrder : Descending Order.createdAt (newestFirst s filter) := newestFirst_descending
      have hIff := reads_partition_iff hn hOrder newestFirst_nodup
      rw [OrderStore.ReadsPages, hAnswers]
      constructor
      · intro hAll
        refine .inr (hIff.mp fun items hReads => ?_)
        exact ⟨(hAll items hReads).1.trans newestFirst_perm.symm, (hAll items hReads).2⟩
      · intro hCondition items hReads
        cases hCondition with
        | inl hMemory => cases hMemory
        | inr hFree =>
            obtain ⟨hPerm, hOrder⟩ := hIff.mpr hFree items hReads
            exact ⟨hPerm.trans newestFirst_perm, hOrder⟩

namespace Sample

/-- Two orders of one millisecond. -/
def twin (id : String) : Order where
  id := id
  merchantId := some DEFAULT_MERCHANT_ID
  outTradeNo := id
  userId := "alice"
  planId := "monthly"
  method := .alipay
  currency := .CNY
  amount := 1500
  status := .PENDING
  providerTxnId := none
  idempotencyKey := none
  createdAt := 0
  updatedAt := 0
  expiresAt := 1800000
  paidAt := none
  refundedAmount := none
  metadata := .empty

def twins : OrderStore where
  byId := ⟨[twin "o1", twin "o2"], by decide⟩
  byOutTradeNo := .empty
  byIdem := .empty

def everyOrder : OrderQueryFilter := ⟨none, none, none, none, none⟩

end Sample

/-- Of two orders of one time the first page may have one and the second page the
same again, so that the other is on neither. -/
theorem pages_repeat_order : ∃ items, Sample.twins.ReadsPages .sql Sample.everyOrder 1 items ∧
    ¬items.Perm (selectedOrders Sample.twins Sample.everyOrder) := by
  let first := [Sample.twin "o1", Sample.twin "o2"]
  let second := [Sample.twin "o2", Sample.twin "o1"]
  have hSelected : Sample.twins.byId.rows.filter (SqlOrderRepository.selected Sample.everyOrder) =
      first := rfl
  have hFirst : Sample.twins.Answers .sql Sample.everyOrder 1 0 ⟨2, [Sample.twin "o1"]⟩ :=
    ⟨first, hSelected ▸ .refl first, by simp [first, Descending, Sample.twin], rfl⟩
  have hSecond : Sample.twins.Answers .sql Sample.everyOrder 1 1 ⟨2, [Sample.twin "o1"]⟩ :=
    ⟨second, hSelected ▸ .swap _ _ [], by simp [second, Descending, Sample.twin], rfl⟩
  refine ⟨_, .more hFirst (by decide) (.last hSecond (by decide)), ?_⟩
  intro hPerm
  have hMem : Sample.twin "o2" ∈ [Sample.twin "o1"] ++ [Sample.twin "o1"] :=
    hPerm.mem_iff.mpr (by decide)
  revert hMem
  decide

/-- Two orders of one time on one page. -/
theorem pages_partition_sample :
    ∃ items, Sample.twins.ReadsPages .sql Sample.everyOrder 2 items ∧
      items.Perm (selectedOrders Sample.twins Sample.everyOrder) := by
  let both := [Sample.twin "o1", Sample.twin "o2"]
  have hSelected : Sample.twins.byId.rows.filter (SqlOrderRepository.selected Sample.everyOrder) =
      both := rfl
  have hPage : Sample.twins.Answers .sql Sample.everyOrder 2 0 ⟨2, both⟩ :=
    ⟨both, hSelected ▸ .refl both, by simp [both, Descending, Sample.twin], rfl⟩
  have hFree : ¬SplitsTie Order.createdAt (newestFirst Sample.twins Sample.everyOrder) 2 := by
    intro hTie
    obtain ⟨j, x, y, hj, _, hy, _⟩ := hTie
    have hLt := (List.getElem?_eq_some_iff.mp hy).1
    have hLength : (newestFirst Sample.twins Sample.everyOrder).length = 2 := rfl
    omega
  have hReads : Sample.twins.ReadsPages .sql Sample.everyOrder 2 both := .last hPage (by decide)
  exact ⟨both, hReads, ((pages_partition_iff .sql Sample.twins Sample.everyOrder (by decide)).mpr
    (.inr hFree) both hReads).1⟩

end VpnPayment
