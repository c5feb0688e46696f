import VpnPayment.Storage.Columns
import VpnPayment.Sweep.Jobs
import VpnPayment.Users.Service

/-! The statements of the SQL repositories and their row mappers: a row that was created or
updated from a value reads back as that value. -/
namespace VpnPayment.Sql

open Collections Json

section statements

/-- `INSERT INTO t (columns) VALUES ($1, $2, ..)` -/
structure Insert where
  columns : List String
  params : List Value

/-- `UPDATE t SET column = $n, .. WHERE id = $1` -/
structure Update where
  sets : List (String × Nat)
  params : List Value

/-- What the statement binds to a column. -/
def Insert.bound (s : Insert) (column : String) : Value :=
  ((s.columns.zip s.params).lookup column).getD .undefined

def Update.bound (s : Update) (column : String) : Option Value :=
  (s.sets.lookup column).map fun n => s.params.getD (n - 1) .undefined

variable (schema : List Column)

/-- The table has the columns that the statement names, each is named once, and there are as many
parameters as columns. -/
structure Insert.Named (s : Insert) : Prop where
  known : s.columns ⊆ schema.map Column.name
  once : s.columns.Nodup
  matched : s.columns.length = s.params.length

/-- The row that the statement leaves in the table. -/
structure Insert.Stores (s : Insert) (row : String → Datum) : Prop extends s.Named schema where
  values : ∀ c ∈ schema, c.store (s.bound c.name) = some (row c.name)

def Update.Selects (s : Update) (row : String → Datum) : Prop :=
  ∃ id, s.params.head? = some (.string id) ∧ row "id" = .text id

/-- As for an insertion. The parameters are those that the statement refers to. -/
structure Update.Named (s : Update) : Prop where
  known : s.sets.map Prod.fst ⊆ schema.map Column.name
  once : (s.sets.map Prod.fst).Nodup
  matched : ∀ n, n ∈ 1 :: s.sets.map Prod.snd ↔ 1 ≤ n ∧ n ≤ s.params.length

/-- The row before the statement and after it. -/
structure Update.Applies (s : Update) (row row' : String → Datum) : Prop extends s.Named schema where
  sets : s.Selects row → ∀ c ∈ schema, ∀ v, s.bound c.name = some v → c.store v = some (row' c.name)
  keeps : ∀ c ∈ schema, s.bound c.name = none → row' c.name = row c.name
  spares : ¬s.Selects row → row' = row

/-- The driver hands out `r` for the row. -/
def Reads (row : String → Datum) (r : Row) : Prop :=
  ∀ c ∈ schema, c.Reads (row c.name) (r c.name)

end statements

/-- A table with the statements and the mapper of its repository. -/
structure Repository (Record : Type) where
  schema : List Column
  create : Record → Insert
  update : Record → Update
  rowTo : Row → Option Record

section repositories

variable {Record : Type} {t : Repository Record} {valid fits : Record → Prop}
  {changed same : Record → Record → Prop} {x x' : Record} {row row' : String → Datum} {r : Row}

/-- What a value that is created, and one that is written over it, reads back as. -/
structure Repository.MapsBack (t : Repository Record) (valid fits : Record → Prop)
    (changed same : Record → Record → Prop) : Prop where
  /-- The columns take a value that fits them, -/
  accepted : ∀ x, fits x → ∃ row, (t.create x).Stores t.schema row
  /-- the driver hands out a result for the row, -/
  answered : ∀ x row, (t.create x).Stores t.schema row → ∃ r, Reads t.schema row r
  /-- and whatever it hands out is mapped to the value. -/
  created : ∀ x row r, valid x → (t.create x).Stores t.schema row → Reads t.schema row r →
    ∃ y, t.rowTo r = some y ∧ same x y
  /-- A new value that fits is taken over any created one, -/
  rewritten : ∀ x x' row, fits x' → changed x x' → (t.create x).Stores t.schema row →
    ∃ row', (t.update x').Applies t.schema row row'
  /-- the row is then one that its creation could have left, -/
  replaced : ∀ x x' row row', changed x x' → (t.create x).Stores t.schema row →
    (t.update x').Applies t.schema row row' → (t.create x').Stores t.schema row'
  /-- and whatever is handed out for it is mapped to the new value. -/
  updated : ∀ x x' row row' r, valid x' → changed x x' → (t.create x).Stores t.schema row →
    (t.update x').Applies t.schema row row' → Reads t.schema row' r →
    ∃ y, t.rowTo r = some y ∧ same x' y

/-- What the update binds, and what the creation of the old value bound to the columns it leaves
out, is what the creation of the new value would bind. -/
structure Repository.Covers (t : Repository Record) (x x' : Record) : Prop where
  selects : ∀ row, (t.create x).Stores t.schema row → (t.update x').Selects row
  bound : ∀ c ∈ t.schema,
    ((t.update x').bound c.name).getD ((t.create x).bound c.name) = (t.create x').bound c.name

/-- The statements name columns of the table. -/
structure Repository.Named (t : Repository Record) : Prop where
  distinct : (t.schema.map Column.name).Nodup
  create : ∀ x, (t.create x).Named t.schema
  update : ∀ x, (t.update x).Named t.schema

/-- Statements of the usual form: an insertion names all columns in the order of the table, an
update some of them in that order, and the parameters are numbered from the id on. -/
theorem Repository.named (hDistinct : (t.schema.map Column.name).Nodup)
    (hInsert : ∀ x, (t.create x).columns = t.schema.map Column.name ∧
      (t.create x).params.length = t.schema.length)
    (hUpdate : ∀ x, ((t.update x).sets.map Prod.fst).Sublist (t.schema.map Column.name) ∧
      1 :: (t.update x).sets.map Prod.snd = List.range' 1 (t.update x).params.length) : t.Named where
  distinct := hDistinct
  create x := by
    obtain ⟨hColumns, hParams⟩ := hInsert x
    refine ⟨?_, ?_, ?_⟩
    · rw [hColumns]
      exact List.Subset.refl _
    · rw [hColumns]
      exact hDistinct
    · rw [hColumns, hParams, List.length_map]
  update x := by
    obtain ⟨hColumns, hParams⟩ := hUpdate x
    refine ⟨hColumns.subset, hDistinct.sublist hColumns, fun n => ?_⟩
    rw [hParams, List.mem_range'_1]
    omega

/-- One value for each column makes a row, as the columns have different names. -/
theorem exists_row {α : Type} [Nonempty α] {schema : List Column} {P : Column → α → Prop}
    (hDistinct : (schema.map Column.name).Nodup) (h : ∀ c ∈ schema, ∃ a, P c a) :
    ∃ row : String → α, ∀ c ∈ schema, P c (row c.name) := by
  induction schema with
  | nil => exact ⟨fun _ => Classical.arbitrary α, nofun⟩
  | cons c schema ih =>
      rw [List.map_cons, List.nodup_cons] at hDistinct
      obtain ⟨a, ha⟩ := h c List.mem_cons_self
      obtain ⟨row, hRow⟩ := ih hDistinct.2 fun d hd => h d (List.mem_cons_of_mem _ hd)
      refine ⟨Function.update row c.name a, List.forall_mem_cons.mpr ⟨?_, fun d hd => ?_⟩⟩
      · rwa [Function.update_self]
      · have hNe : d.name ≠ c.name := fun hEq => hDistinct.1 (hEq ▸ List.mem_map_of_mem hd)
        rw [Function.update_of_ne hNe]
        exact hRow d hd

/-- An insertion is stored when every column takes the parameter bound to it. -/
theorem Repository.Named.stores (h : t.Named)
    (hTakes : ∀ c ∈ t.schema, c.Takes ((t.create x).bound c.name)) :
    ∃ row, (t.create x).Stores t.schema row := by
  have hNonempty : Nonempty Datum := ⟨.null⟩
  obtain ⟨row, hRow⟩ := exists_row h.distinct hTakes
  exact ⟨row, h.create x, hRow⟩

/-- What an insertion stores can be selected. -/
theorem Repository.Named.reads (h : t.Named) (hStored : (t.create x).Stores t.schema row) :
    ∃ r, Reads t.schema row r := by
  have hNonempty : Nonempty Value := ⟨.null⟩
  exact exists_row (P := fun c => c.Reads (row c.name)) h.distinct fun c hMem =>
    reads_of_store (hStored.values c hMem)

/-- After the update the row is as if the new value had been created. -/
theorem Repository.Covers.stores (h : t.Covers x x') (hNamed : t.Named)
    (hStored : (t.create x).Stores t.schema row)
    (hApplied : (t.update x').Applies t.schema row row') : (t.create x').Stores t.schema row' := by
  refine ⟨hNamed.create x', fun c hMem => ?_⟩
  have hSame := h.bound c hMem
  cases hBound : (t.update x').bound c.name with
  | some v =>
      rw [hBound, Option.getD_some] at hSame
      rw [← hSame]
      exact hApplied.sets (h.selects row hStored) c hMem v hBound
  | none =>
      rw [hBound, Option.getD_none] at hSame
      rw [← hSame, hApplied.keeps c hMem hBound]
      exact hStored.values c hMem

/-- What the creation of the new value would leave is what the update leaves. -/
theorem Repository.Covers.applies (h : t.Covers x x') (hNamed : t.Named)
    (hStored : (t.create x).Stores t.schema row) (hStored' : (t.create x').Stores t.schema row') :
    (t.update x').Applies t.schema row row' := by
  refine ⟨hNamed.update x', fun _ c hMem v hBound => ?_, fun c hMem hBound => ?_, fun hNot => ?_⟩
  · have hSame := h.bound c hMem
    rw [hBound, Option.getD_some] at hSame
    rw [hSame]
    exact hStored'.values c hMem
  · have hSame := h.bound c hMem
    rw [hBound, Option.getD_none] at hSame
    have hOld := hStored.values c hMem
    rw [hSame, hStored'.values c hMem] at hOld
    exact Option.some.inj hOld
  · exact absurd (h.selects row hStored) hNot

/-- A repository maps its records back when its columns take them and its row mapper inverts
what they give back. -/
theorem Repository.mapsBack (hNamed : t.Named)
    (hTakes : ∀ x, fits x → ∀ c ∈ t.schema, c.Takes ((t.create x).bound c.name))
    (hRead : ∀ x r, valid x →
      (∀ c ∈ t.schema, c.ReadsBack ((t.create x).bound c.name) (r c.name)) →
        ∃ y, t.rowTo r = some y ∧ same x y)
    (hCovers : ∀ x x', changed x x' → t.Covers x x') : t.MapsBack valid fits changed same where
  accepted x hFits := hNamed.stores (hTakes x hFits)
  answered x row hStored := hNamed.reads hStored
  created x row r hValid hStored hReads :=
    hRead x r hValid fun c hMem => ⟨row c.name, hStored.values c hMem, hReads c hMem⟩
  rewritten x x' row hFits hChanged hStored := by
    obtain ⟨row', hStored'⟩ := hNamed.stores (hTakes x' hFits)
    exact ⟨row', (hCovers x x' hChanged).applies hNamed hStored hStored'⟩
  replaced x x' row row' hChanged hStored hApplied :=
    (hCovers x x' hChanged).stores hNamed hStored hApplied
  updated x x' row row' r hValid hChanged hStored hApplied hReads := by
    have hAgain := (hCovers x x' hChanged).stores hNamed hStored hApplied
    exact hRead x' r hValid fun c hMem => ⟨row' c.name, hAgain.values c hMem, hReads c hMem⟩

/-- The value is created and read back, and then the new one is written over it and read back. -/
def Repository.Survives (t : Repository Record) (same : Record → Record → Prop) (x x' : Record) : Prop :=
  ∃ row row' r r', (t.create x).Stores t.schema row ∧ Reads t.schema row r ∧
    (∃ y, t.rowTo r = some y ∧ same x y) ∧ (t.update x').Applies t.schema row row' ∧
    Reads t.schema row' r' ∧ ∃ y, t.rowTo r' = some y ∧ same x' y

/-- One insertion and one update of the record, read after each. -/
theorem Repository.MapsBack.survives (h : t.MapsBack valid fits changed same) (hValid : valid x)
    (hFits : fits x) (hValid' : valid x') (hFits' : fits x') (hChanged : changed x x') :
    t.Survives same x x' := by
  obtain ⟨row, hStored⟩ := h.accepted x hFits
  obtain ⟨r, hReads⟩ := h.answered x row hStored
  obtain ⟨row', hApplied⟩ := h.rewritten x x' row hFits' hChanged hStored
  obtain ⟨r', hReads'⟩ := h.answered x' row' (h.replaced x x' row row' hChanged hStored hApplied)
  exact ⟨row, row', r, r', hStored, hReads, h.created x row r hValid hStored hReads, hApplied,
    hReads', h.updated x x' row row' r' hValid' hChanged hStored hApplied hReads'⟩

/-- The `WHERE id` of an update selects the row of the insertion. -/
theorem selects_of_stores {c : Column} {s : Insert} {u : Update} {id : String} (hMem : c ∈ t.schema)
    (hName : c.name = "id") (hType : c.type = .TEXT) (hBound : s.bound "id" = .string id)
    (hHead : u.params.head? = some (.string id)) (hStored : s.Stores t.schema row) : u.Selects row := by
  have hStore := hStored.values c hMem
  rw [hName, hBound] at hStore
  simp only [Column.store, hType, if_true] at hStore
  split at hStore
  · cases hStore
  · exact ⟨id, hHead, (Option.some.inj hStore).symm⟩

end repositories

def text (name : String) : Column := ⟨name, .TEXT, true⟩
def optText (name : String) : Column := ⟨name, .TEXT, false⟩
def bigint (name : String) : Column := ⟨name, .BIGINT, true⟩
def optBigint (name : String) : Column := ⟨name, .BIGINT, false⟩
def integer (name : String) : Column := ⟨name, .INTEGER, true⟩
def boolean (name : String) : Column := ⟨name, .BOOLEAN, true⟩
def jsonb (name : String) : Column := ⟨name, .JSONB, true⟩

section orders

/-- An order with whatever the metadata holds. -/
structure Order where
  id : String
  merchantId : Option String
  outTradeNo : String
  userId : String
  planId : String
  method : PaymentMethod
  currency : Currency
  amount : Int
  status : OrderStatus
  providerTxnId : Option String
  idempotencyKey : Option String
  createdAt : Int
  updatedAt : Int
  expiresAt : Int
  paidAt : Option Int
  refundedAmount : Option Int
  metadata : Record

def ALL_METHODS : List PaymentMethod := [.wechat, .alipay, .usdt]
def allCurrencies : List Currency := [.CNY, .USDT]
def allOrderStatuses : List OrderStatus :=
  [.PENDING, .PAID, .FULFILLED, .EXPIRED, .CANCELLED, .REFUNDED, .FAILED]

/-- Map a DB row to an order. -/
def rowToOrder (r : Row) : Option Order := do
  let method ← named ALL_METHODS PaymentMethod.name (r "method")
  let currency ← named allCurrencies Currency.name (r "currency")
  let amount ← num (r "amount")
  let status ← named allOrderStatuses OrderStatus.name (r "status")
  let createdAt ← num (r "created_at")
  let updatedAt ← num (r "updated_at")
  let expiresAt ← num (r "expires_at")
  let paidAt ← optNum (r "paid_at")
  let refundedAmount ← optNum (r "refunded_amount")
  let metadata ← recordOf (r "metadata")
  return {
    id := str (r "id")
    merchantId := some ((optStr (r "merchant_id")).getD "default")
    outTradeNo := str (r "out_trade_no")
    userId := str (r "user_id")
    planId := str (r "plan_id")
    method, currency, amount, status
    providerTxnId := optStr (r "provider_txn_id")
    idempotencyKey := optStr (r "idempotency_key")
    createdAt, updatedAt, expiresAt, paidAt
    refundedAmount := some (refundedAmount.getD 0)
    metadata }

namespace SqlOrderRepository

def schema : List Column :=
  [text "id", text "merchant_id", text "out_trade_no", text "user_id", text "plan_id", text "method",
    text "currency", bigint "amount", text "status", optText "provider_txn_id",
    optText "idempotency_key", bigint "created_at", bigint "updated_at", bigint "expires_at",
    optBigint "paid_at", bigint "refunded_amount", jsonb "metadata"]

def create (o : Order) : Insert where
  columns := ["id", "merchant_id", "out_trade_no", "user_id", "plan_id", "method", "currency", "amount",
    "status", "provider_txn_id", "idempotency_key", "created_at", "updated_at", "expires_at", "paid_at",
    "refunded_amount", "metadata"]
  params := [.string o.id, .string (o.merchantId.getD "default"), .string o.outTradeNo,
    .string o.userId, .string o.planId, .string o.method.name, .string o.currency.name,
    .number o.amount, .string o.status.name, orNull .string o.providerTxnId,
    orNull .string o.idempotencyKey, .number o.createdAt, .number o.updatedAt, .number o.expiresAt,
    orNull .number o.paidAt, .number (o.refundedAmount.getD 0), .string (stringifyRecord o.metadata)]

def update (o : Order) : Update where
  sets := [("status", 2), ("provider_txn_id", 3), ("updated_at", 4), ("paid_at", 5),
    ("refunded_amount", 6), ("metadata", 7)]
  params := [.string o.id, .string o.status.name, orNull .string o.providerTxnId, .number o.updatedAt,
    orNull .number o.paidAt, .number (o.refundedAmount.getD 0), .string (stringifyRecord o.metadata)]

end SqlOrderRepository

def orders : Repository Order where
  schema := SqlOrderRepository.schema
  create := SqlOrderRepository.create
  update := SqlOrderRepository.update
  rowTo := rowToOrder

structure Order.Safe (o : Order) : Prop where
  amount : Sql.Safe o.amount
  createdAt : Sql.Safe o.createdAt
  updatedAt : Sql.Safe o.updatedAt
  expiresAt : Sql.Safe o.expiresAt
  paidAt : ∀ n, o.paidAt = some n → Sql.Safe n
  refundedAmount : ∀ n, o.refundedAmount = some n → Sql.Safe n

/-- The numbers are safe, and no string has the character NUL. -/
structure Order.Fits (o : Order) : Prop extends o.Safe where
  id : plain o.id = true
  merchantId : o.merchantId.all plain = true
  outTradeNo : plain o.outTradeNo = true
  userId : plain o.userId = true
  planId : plain o.planId = true
  providerTxnId : o.providerTxnId.all plain = true
  idempotencyKey : o.idempotencyKey.all plain = true
  metadata : (Datum.record o.metadata).plain = true

/-- What is read back of an order: the merchant and the refunded amount have their defaults,
and the members of the metadata may have another order. -/
def Order.ReadAs (o o' : Order) : Prop :=
  o' = { o with
    merchantId := some (o.merchantId.getD "default")
    refundedAmount := some (o.refundedAmount.getD 0)
    metadata := o'.metadata } ∧ SameMembers o.metadata o'.metadata

/-- The payment service changes no other fields. -/
def Order.Changes (o o' : Order) : Prop :=
  ∃ status providerTxnId updatedAt paidAt refundedAmount metadata,
    o' = { o with status, providerTxnId, updatedAt, paidAt, refundedAmount, metadata }

/-- The column of a missing refunded amount has zero. -/
theorem Order.Safe.refunded {o : Order} (h : o.Safe) : Sql.Safe (o.refundedAmount.getD 0) := by
  cases hAmount : o.refundedAmount with
  | none => simp [Sql.Safe]
  | some n => exact h.refundedAmount n hAmount

/-- The default merchant can be stored too. -/
theorem Order.Fits.merchant {o : Order} (h : o.Fits) : plain (o.merchantId.getD "default") = true := by
  have hPlain := h.merchantId
  cases hMerchant : o.merchantId with
  | none => decide +kernel
  | some merchant => simpa [hMerchant] using hPlain

/-- The names of the methods have no NUL. -/
theorem plain_method (m : PaymentMethod) : plain m.name = true := by
  cases m <;> decide +kernel

theorem plain_currency (c : Currency) : plain c.name = true := by
  cases c <;> decide +kernel

theorem plain_orderStatus (s : OrderStatus) : plain s.name = true := by
  cases s <;> decide +kernel

/-- A method is told from its name. -/
theorem find_method (m : PaymentMethod) :
    (ALL_METHODS.find? fun b => b.name = m.name) = some m := by
  cases m <;> rfl

/-- A currency is told from its name. -/
theorem find_currency (c : Currency) : (allCurrencies.find? fun b => b.name = c.name) = some c := by
  cases c <;> rfl

/-- An order status is told from its name. -/
theorem find_orderStatus (s : OrderStatus) :
    (allOrderStatuses.find? fun b => b.name = s.name) = some s := by
  cases s <;> rfl

/-- `rowToOrder` gives the order back from a row that reads its parameters back. -/
theorem rowToOrder_readsBack (o : Order) (r : Row) (hSafe : o.Safe)
    (h : ∀ c ∈ orders.schema, c.ReadsBack ((orders.create o).bound c.name) (r c.name)) :
    ∃ o', orders.rowTo r = some o' ∧ o.ReadAs o' := by
  simp only [orders, SqlOrderRepository.schema, text, optText, bigint, optBigint, jsonb,
    List.forall_mem_cons] at h
  obtain ⟨hId, hMerchant, hOutTradeNo, hUser, hPlan, hMethod, hCurrency, hAmount, hStatus, hTxn, hKey,
    hCreated, hUpdated, hExpires, hPaid, hRefunded, hMetadata, -⟩ := h
  obtain ⟨metadata, hRecord, hSame⟩ := recordOf_of_readsBack hMetadata rfl
  refine ⟨{ o with
    merchantId := some (o.merchantId.getD "default")
    refundedAmount := some (o.refundedAmount.getD 0)
    metadata := metadata }, ?_, rfl, hSame⟩
  have hMerchant := optStr_of_readsBack (o := some (o.merchantId.getD "default")) hMerchant rfl
  have hRefunded := optNum_of_readsBack (o := some (o.refundedAmount.getD 0)) hRefunded (by
    rintro _ ⟨⟩
    exact hSafe.refunded)
  show rowToOrder r = _
  simp only [rowToOrder, named_of_readsBack hMethod rfl (find_method o.method),
    named_of_readsBack hCurrency rfl (find_currency o.currency), num_of_readsBack hAmount hSafe.amount,
    named_of_readsBack hStatus rfl (find_orderStatus o.status), num_of_readsBack hCreated hSafe.createdAt,
    num_of_readsBack hUpdated hSafe.updatedAt, num_of_readsBack hExpires hSafe.expiresAt,
    optNum_of_readsBack hPaid hSafe.paidAt, hRefunded, hRecord, Option.bind_eq_bind, Option.bind_some,
    str_of_readsBack hId rfl, hMerchant, str_of_readsBack hOutTradeNo rfl, str_of_readsBack hUser rfl,
    str_of_readsBack hPlan rfl, optStr_of_readsBack hTxn rfl, optStr_of_readsBack hKey rfl]
  rfl

/-- The UPDATE of an order sets what an update changes. -/
theorem orders_covers {o o' : Order} (h : o.Changes o') : orders.Covers o o' := by
  obtain ⟨status, providerTxnId, updatedAt, paidAt, refundedAmount, metadata, rfl⟩ := h
  constructor
  · exact fun row => selects_of_stores (c := text "id") List.mem_cons_self rfl rfl rfl rfl
  · exact List.forall_iff_forall_mem.mp ⟨rfl, rfl, rfl, rfl, rfl, rfl, rfl, rfl, rfl, rfl, rfl, rfl, rfl,
      rfl, rfl, rfl, rfl⟩

/-- The INSERT and the UPDATE of `orders` name columns of the schema. -/
theorem orders_named : orders.Named :=
  Repository.named (by decide) (fun _ => ⟨rfl, rfl⟩) fun _ =>
    ⟨show List.Sublist [_, _, _, _, _, _] _ by decide, rfl⟩

/-- The columns take an order without the character NUL whose numbers are safe. -/
theorem orders_take (o : Order) (h : o.Fits) :
    ∀ c ∈ orders.schema, c.Takes ((orders.create o).bound c.name) :=
  List.forall_iff_forall_mem.mp ⟨takes_string h.id rfl, takes_string h.merchant rfl,
    takes_string h.outTradeNo rfl, takes_string h.userId rfl, takes_string h.planId rfl,
    takes_string (plain_method _) rfl, takes_string (plain_currency _) rfl,
    takes_bigint h.amount rfl, takes_string (plain_orderStatus _) rfl,
    takes_optString h.providerTxnId rfl rfl, takes_optString h.idempotencyKey rfl rfl,
    takes_bigint h.createdAt rfl, takes_bigint h.updatedAt rfl, takes_bigint h.expiresAt rfl,
    takes_optBigint h.paidAt rfl rfl, takes_bigint h.refunded rfl, takes_record h.metadata rfl⟩

/-- Orders come back from the `orders` table with the defaults of its columns. -/
theorem orders_mapsBack : orders.MapsBack Order.Safe Order.Fits Order.Changes Order.ReadAs :=
  Repository.mapsBack orders_named orders_take rowToOrder_readsBack fun _ _ => orders_covers

end orders

section refunds

def allRefundStatuses : List RefundStatus := [.PENDING, .SUCCESS, .FAILED, .MANUAL]

/-- Map a DB row to a refund. -/
def rowToRefund (r : Row) : Option Refund := do
  let amount ← num (r "amount")
  let currency ← named allCurrencies Currency.name (r "currency")
  let status ← named allRefundStatuses RefundStatus.name (r "status")
  let createdAt ← num (r "created_at")
  let updatedAt ← num (r "updated_at")
  return {
    id := str (r "id")
    orderId := str (r "order_id")
    outRefundNo := str (r "out_refund_no")
    amount, currency
    reason := optStr (r "reason")
    status
    providerRefundId := optStr (r "provider_refund_id")
    rawStatus := str (r "raw_status")
    createdAt, updatedAt }

namespace SqlRefundRepository

def schema : List Column :=
  [text "id", text "order_id", text "out_refund_no", bigint "amount", text "currency", optText "reason",
    text "status", optText "provider_refund_id", text "raw_status", bigint "created_at",
    bigint "updated_at"]

def create (rf : Refund) : Insert where
  columns := ["id", "order_id", "out_refund_no", "amount", "currency", "reason", "status",
    "provider_refund_id", "raw_status", "created_at", "updated_at"]
  params := [.string rf.id, .string rf.orderId, .string rf.outRefundNo, .number rf.amount,
    .string rf.currency.name, orNull .string rf.reason, .string rf.status.name,
    orNull .string rf.providerRefundId, .string rf.rawStatus, .number rf.createdAt,
    .number rf.updatedAt]

def update (rf : Refund) : Update where
  sets := [("status", 2), ("provider_refund_id", 3), ("raw_status", 4), ("updated_at", 5)]
  params := [.string rf.id, .string rf.status.name, orNull .string rf.providerRefundId,
    .string rf.rawStatus, .number rf.updatedAt]

end SqlRefundRepository

def refunds : Repository Refund where
  schema := SqlRefundRepository.schema
  create := SqlRefundRepository.create
  update := SqlRefundRepository.update
  rowTo := rowToRefund

structure SafeRefund (rf : Refund) : Prop where
  amount : Safe rf.amount
  createdAt : Safe rf.createdAt
  updatedAt : Safe rf.updatedAt

structure FitsRefund (rf : Refund) : Prop extends SafeRefund rf where
  id : plain rf.id = true
  orderId : plain rf.orderId = true
  outRefundNo : plain rf.outRefundNo = true
  reason : rf.reason.all plain = true
  providerRefundId : rf.providerRefundId.all plain = true
  rawStatus : plain rf.rawStatus = true

def ChangesRefund (rf rf' : Refund) : Prop :=
  ∃ status providerRefundId rawStatus updatedAt,
    rf' = { rf with status, providerRefundId, rawStatus, updatedAt }

theorem plain_refundStatus (s : RefundStatus) : plain s.name = true := by
  cases s <;> decide +kernel

/-- A refund status is told from its name. -/
theorem find_refundStatus (s : RefundStatus) :
    (allRefundStatuses.find? fun b => b.name = s.name) = some s := by
  cases s <;> rfl

/-- `rowToRefund` gives the refund back. -/
theorem rowToRefund_readsBack (rf : Refund) (r : Row) (hSafe : SafeRefund rf)
    (h : ∀ c ∈ refunds.schema, c.ReadsBack ((refunds.create rf).bound c.name) (r c.name)) :
    ∃ rf', refunds.rowTo r = some rf' ∧ rf = rf' := by
  simp only [refunds, SqlRefundRepository.schema, text, optText, bigint, List.forall_mem_cons] at h
  obtain ⟨hId, hOrder, hNo, hAmount, hCurrency, hReason, hStatus, hProviderId, hRaw, hCreated, hUpdated,
    -⟩ := h
  refine ⟨rf, ?_, rfl⟩
  show rowToRefund r = _
  simp only [rowToRefund, num_of_readsBack hAmount hSafe.amount,
    named_of_readsBack hCurrency rfl (find_currency rf.currency),
    named_of_readsBack hStatus rfl (find_refundStatus rf.status),
    num_of_readsBack hCreated hSafe.createdAt, num_of_readsBack hUpdated hSafe.updatedAt,
    Option.bind_eq_bind, Option.bind_some, str_of_readsBack hId rfl, str_of_readsBack hOrder rfl,
    str_of_readsBack hNo rfl, optStr_of_readsBack hReason rfl, optStr_of_readsBack hProviderId rfl,
    str_of_readsBack hRaw rfl]
  rfl

/-- The UPDATE of a refund sets what an update changes. -/
theorem refunds_covers {rf rf' : Refund} (h : ChangesRefund rf rf') : refunds.Covers rf rf' := by
  obtain ⟨status, providerRefundId, rawStatus, updatedAt, rfl⟩ := h
  constructor
  · exact fun row => selects_of_stores (c := text "id") List.mem_cons_self rfl rfl rfl rfl
  · exact List.forall_iff_forall_mem.mp ⟨rfl, rfl, rfl, rfl, rfl, rfl, rfl, rfl, rfl, rfl, rfl⟩

/-- The statements on `refunds` name columns of the schema. -/
theorem refunds_named : refunds.Named :=
  Repository.named (by decide) (fun _ => ⟨rfl, rfl⟩) fun _ => ⟨show List.Sublist [_, _, _, _] _ by decide, rfl⟩

/-- The columns of `refunds` take a refund that is in their ranges. -/
theorem refunds_take (rf : Refund) (h : FitsRefund rf) :
    ∀ c ∈ refunds.schema, c.Takes ((refunds.create rf).bound c.name) :=
  List.forall_iff_forall_mem.mp ⟨takes_string h.id rfl, takes_string h.orderId rfl,
    takes_string h.outRefundNo rfl, takes_bigint h.amount rfl, takes_string (plain_currency _) rfl,
    takes_optString h.reason rfl rfl, takes_string (plain_refundStatus _) rfl,
    takes_optString h.providerRefundId rfl rfl, takes_string h.rawStatus rfl,
    takes_bigint h.createdAt rfl, takes_bigint h.updatedAt rfl⟩

/-- Refunds come back from the `refunds` table as they were. -/
theorem refunds_mapsBack : refunds.MapsBack SafeRefund FitsRefund ChangesRefund Eq :=
  Repository.mapsBack refunds_named refunds_take rowToRefund_readsBack fun _ _ => refunds_covers

end refunds

section subscriptions

/-- Map a DB row to a subscription. -/
def rowToSubscription (r : Row) : Option Subscription := do
  let startsAt ← num (r "starts_at")
  let expiresAt ← num (r "expires_at")
  let trafficGb ← num (r "traffic_gb")
  let deviceLimit ← num (r "device_limit")
  let orderIds ← textsOf (r "order_ids")
  let expiryNotifiedAt ← optNum (r "expiry_notified_at")
  let createdAt ← num (r "created_at")
  let updatedAt ← num (r "updated_at")
  return {
    id := str (r "id")
    userId := str (r "user_id")
    planId := str (r "plan_id")
    startsAt, expiresAt, trafficGb, deviceLimit
    active := truth (r "active")
    orderIds, expiryNotifiedAt, createdAt, updatedAt }

namespace SqlSubscriptionRepository

def schema : List Column :=
  [text "id", text "user_id", text "plan_id", bigint "starts_at", bigint "expires_at",
    integer "traffic_gb", integer "device_limit", boolean "active", jsonb "order_ids",
    optBigint "expiry_notified_at", bigint "created_at", bigint "updated_at"]

def create (s : Subscription) : Insert where
  columns := ["id", "user_id", "plan_id", "starts_at", "expires_at", "traffic_gb", "device_limit",
    "active", "order_ids", "expiry_notified_at", "created_at", "updated_at"]
  params := [.string s.id, .string s.userId, .string s.planId, .number s.startsAt,
    .number s.expiresAt, .number s.trafficGb, .number s.deviceLimit, .boolean s.active,
    .string (stringifyTexts s.orderIds), orNull .number s.expiryNotifiedAt, .number s.createdAt,
    .number s.updatedAt]

def update (s : Subscription) : Update where
  sets := [("plan_id", 2), ("starts_at", 3), ("expires_at", 4), ("traffic_gb", 5), ("device_limit", 6),
    ("active", 7), ("order_ids", 8), ("expiry_notified_at", 9), ("updated_at", 10)]
  params := [.string s.id, .string s.planId, .number s.startsAt, .number s.expiresAt,
    .number s.trafficGb, .number s.deviceLimit, .boolean s.active,
    .string (stringifyTexts s.orderIds), orNull .number s.expiryNotifiedAt, .number s.updatedAt]

end SqlSubscriptionRepository

def subscriptions : Repository Subscription where
  schema := SqlSubscriptionRepository.schema
  create := SqlSubscriptionRepository.create
  update := SqlSubscriptionRepository.update
  rowTo := rowToSubscription

structure SafeSubscription (s : Subscription) : Prop where
  startsAt : Safe s.startsAt
  expiresAt : Safe s.expiresAt
  trafficGb : Safe s.trafficGb
  deviceLimit : Safe s.deviceLimit
  expiryNotifiedAt : ∀ n, s.expiryNotifiedAt = some n → Safe n
  createdAt : Safe s.createdAt
  updatedAt : Safe s.updatedAt

/-- The traffic and the number of devices have INTEGER columns. -/
structure FitsSubscription (s : Subscription) : Prop extends SafeSubscription s where
  id : plain s.id = true
  userId : plain s.userId = true
  planId : plain s.planId = true
  traffic : Int32 s.trafficGb
  devices : Int32 s.deviceLimit
  orderIds : s.orderIds.all plain = true

def ChangesSubscription (s s' : Subscription) : Prop :=
  ∃ planId startsAt expiresAt trafficGb deviceLimit active orderIds expiryNotifiedAt updatedAt,
    s' = { s with planId, startsAt, expiresAt, trafficGb, deviceLimit, active, orderIds,
                  expiryNotifiedAt, updatedAt }

/-- `rowToSubscription` gives the subscription back, its order ids from JSON. -/
theorem rowToSubscription_readsBack (s : Subscription) (r : Row) (hSafe : SafeSubscription s)
    (h : ∀ c ∈ subscriptions.schema, c.ReadsBack ((subscriptions.create s).bound c.name) (r c.name)) :
    ∃ s', subscriptions.rowTo r = some s' ∧ s = s' := by
  simp only [subscriptions, SqlSubscriptionRepository.schema, text, bigint, optBigint, integer, boolean,
    jsonb, List.forall_mem_cons] at h
  obtain ⟨hId, hUser, hPlan, hStarts, hExpires, hTraffic, hDevices, hActive, hOrders, hNotified, hCreated,
    hUpdated, -⟩ := h
  refine ⟨s, ?_, rfl⟩
  show rowToSubscription r = _
  simp only [rowToSubscription, num_of_readsBack hStarts hSafe.startsAt,
    num_of_readsBack hExpires hSafe.expiresAt, num_of_readsBack hTraffic hSafe.trafficGb,
    num_of_readsBack hDevices hSafe.deviceLimit, textsOf_of_readsBack hOrders rfl,
    optNum_of_readsBack hNotified hSafe.expiryNotifiedAt, num_of_readsBack hCreated hSafe.createdAt,
    num_of_readsBack hUpdated hSafe.updatedAt, Option.bind_eq_bind, Option.bind_some,
    str_of_readsBack hId rfl, str_of_readsBack hUser rfl, str_of_readsBack hPlan rfl,
    truth_of_readsBack hActive]
  rfl

/-- The UPDATE of a subscription sets what an update changes. -/
theorem subscriptions_covers {s s' : Subscription} (h : ChangesSubscription s s') :
    subscriptions.Covers s s' := by
  obtain ⟨planId, startsAt, expiresAt, trafficGb, deviceLimit, active, orderIds, expiryNotifiedAt,
    updatedAt, rfl⟩ := h
  constructor
  · exact fun row => selects_of_stores (c := text "id") List.mem_cons_self rfl rfl rfl rfl
  · exact List.forall_iff_forall_mem.mp ⟨rfl, rfl, rfl, rfl, rfl, rfl, rfl, rfl, rfl, rfl, rfl, rfl⟩

/-- The statements on `subscriptions` name columns of the schema. -/
theorem subscriptions_named : subscriptions.Named :=
  Repository.named (by decide) (fun _ => ⟨rfl, rfl⟩) fun _ =>
    ⟨show List.Sublist [_, _, _, _, _, _, _, _, _] _ by decide, rfl⟩

/-- The columns of `subscriptions` take a subscription that is in their ranges. -/
theorem subscriptions_take (s : Subscription) (h : FitsSubscription s) :
    ∀ c ∈ subscriptions.schema, c.Takes ((subscriptions.create s).bound c.name) :=
  List.forall_iff_forall_mem.mp ⟨takes_string h.id rfl, takes_string h.userId rfl,
    takes_string h.planId rfl, takes_bigint h.startsAt rfl, takes_bigint h.expiresAt rfl,
    takes_integer h.traffic rfl, takes_integer h.devices rfl, takes_boolean rfl,
    takes_texts h.orderIds rfl, takes_optBigint h.expiryNotifiedAt rfl rfl,
    takes_bigint h.createdAt rfl, takes_bigint h.updatedAt rfl⟩

/-- Subscriptions come back from the `subscriptions` table as they were. -/
theorem subscriptions_mapsBack :
    subscriptions.MapsBack SafeSubscription FitsSubscription ChangesSubscription Eq :=
  Repository.mapsBack subscriptions_named subscriptions_take rowToSubscription_readsBack
    fun _ _ => subscriptions_covers

end subscriptions

section sweepJobs

/-- A sweep job with any integers in its numeric fields. -/
structure SweepJob where
  id : String
  orderId : String
  depositIndex : Int
  depositAddress : String
  collectionAddress : String
  amountMicro : Int
  status : SweepStatus
  gasTxId : Option String
  sweepTxId : Option String
  attempts : Int
  lastError : Option String
  createdAt : Int
  updatedAt : Int
  nextAttemptAt : Int

def sweepStatusName : SweepStatus → String
  | .PENDING => "PENDING"
  | .GAS_FUELING => "GAS_FUELING"
  | .SWEEPING => "SWEEPING"
  | .SWEPT => "SWEPT"
  | .EMPTY => "EMPTY"
  | .FAILED => "FAILED"

def allSweepStatuses : List SweepStatus :=
  [.PENDING, .GAS_FUELING, .SWEEPING, .SWEPT, .EMPTY, .FAILED]

/-- Map a DB row to a sweep job. -/
def rowToSweepJob (r : Row) : Option SweepJob := do
  let depositIndex ← num (r "deposit_index")
  let amountMicro ← num (r "amount_micro")
  let status ← named allSweepStatuses sweepStatusName (r "status")
  let attempts ← num (r "attempts")
  let createdAt ← num (r "created_at")
  let updatedAt ← num (r "updated_at")
  let nextAttemptAt ← num (r "next_attempt_at")
  return {
    id := str (r "id")
    orderId := str (r "order_id")
    depositIndex
    depositAddress := str (r "deposit_address")
    collectionAddress := str (r "collection_address")
    amountMicro, status
    gasTxId := optStr (r "gas_tx_id")
    sweepTxId := optStr (r "sweep_tx_id")
    attempts
    lastError := optStr (r "last_error")
    createdAt, updatedAt, nextAttemptAt }

namespace SqlSweepJobRepository

def schema : List Column :=
  [text "id", text "order_id", bigint "deposit_index", text "deposit_address",
    text "collection_address", bigint "amount_micro", text "status", optText "gas_tx_id",
    optText "sweep_tx_id", integer "attempts", optText "last_error", bigint "created_at",
    bigint "updated_at", bigint "next_attempt_at"]

def create (job : SweepJob) : Insert where
  columns := ["id", "order_id", "deposit_index", "deposit_address", "collection_address",
    "amount_micro", "status", "gas_tx_id", "sweep_tx_id", "attempts", "last_error", "created_at",
    "updated_at", "next_attempt_at"]
  params := [.string job.id, .string job.orderId, .number job.depositIndex,
    .string job.depositAddress, .string job.collectionAddress, .number job.amountMicro,
    .string (sweepStatusName job.status), orNull .string job.gasTxId, orNull .string job.sweepTxId,
    .number job.attempts, orNull .string job.lastError, .number job.createdAt,
    .number job.updatedAt, .number job.nextAttemptAt]

def update (job : SweepJob) : Update where
  sets := [("deposit_index", 2), ("deposit_address", 3), ("collection_address", 4),
    ("amount_micro", 5), ("status", 6), ("gas_tx_id", 7), ("sweep_tx_id", 8), ("attempts", 9),
    ("last_error", 10), ("updated_at", 11), ("next_attempt_at", 12)]
  params := [.string job.id, .number job.depositIndex, .string job.depositAddress,
    .string job.collectionAddress, .number job.amountMicro, .string (sweepStatusName job.status),
    orNull .string job.gasTxId, orNull .string job.sweepTxId, .number job.attempts,
    orNull .string job.lastError, .number job.updatedAt, .number job.nextAttemptAt]

end SqlSweepJobRepository

def sweepJobs : Repository SweepJob where
  schema := SqlSweepJobRepository.schema
  create := SqlSweepJobRepository.create
  update := SqlSweepJobRepository.update
  rowTo := rowToSweepJob

structure SweepJob.Safe (job : SweepJob) : Prop where
  depositIndex : Sql.Safe job.depositIndex
  amountMicro : Sql.Safe job.amountMicro
  attempts : Sql.Safe job.attempts
  createdAt : Sql.Safe job.createdAt
  updatedAt : Sql.Safe job.updatedAt
  nextAttemptAt : Sql.Safe job.nextAttemptAt

/-- The attempts have an INTEGER column. -/
structure SweepJob.Fits (job : SweepJob) : Prop extends job.Safe where
  id : plain job.id = true
  orderId : plain job.orderId = true
  depositAddress : plain job.depositAddress = true
  collectionAddress : plain job.collectionAddress = true
  gasTxId : job.gasTxId.all plain = true
  sweepTxId : job.sweepTxId.all plain = true
  tries : Int32 job.attempts
  lastError : job.lastError.all plain = true

def SweepJob.Changes (job job' : SweepJob) : Prop :=
  ∃ depositIndex depositAddress collectionAddress amountMicro status gasTxId sweepTxId attempts lastError
      updatedAt nextAttemptAt,
    job' = { job with depositIndex, depositAddress, collectionAddress, amountMicro, status, gasTxId,
                      sweepTxId, attempts, lastError, updatedAt, nextAttemptAt }

theorem plain_sweepStatus (s : SweepStatus) : plain (sweepStatusName s) = true := by
  cases s <;> decide +kernel

/-- A sweep status is told from its name. -/
theorem find_sweepStatus (s : SweepStatus) :
    (allSweepStatuses.find? fun b => sweepStatusName b = sweepStatusName s) = some s := by
  cases s <;> rfl

/-- `rowToJob` gives the sweep job back. -/
theorem rowToSweepJob_readsBack (job : SweepJob) (r : Row) (hSafe : job.Safe)
    (h : ∀ c ∈ sweepJobs.schema, c.ReadsBack ((sweepJobs.create job).bound c.name) (r c.name)) :
    ∃ job', sweepJobs.rowTo r = some job' ∧ job = job' := by
  simp only [sweepJobs, SqlSweepJobRepository.schema, text, optText, bigint, integer,
    List.forall_mem_cons] at h
  obtain ⟨hId, hOrder, hIndex, hAddress, hCollection, hAmount, hStatus, hGas, hSweep, hAttempts, hError,
    hCreated, hUpdated, hNext, -⟩ := h
  refine ⟨job, ?_, rfl⟩
  show rowToSweepJob r = _
  simp only [rowToSweepJob, num_of_readsBack hIndex hSafe.depositIndex,
    num_of_readsBack hAmount hSafe.amountMicro,
    named_of_readsBack hStatus rfl (find_sweepStatus job.status),
    num_of_readsBack hAttempts hSafe.attempts, num_of_readsBack hCreated hSafe.createdAt,
    num_of_readsBack hUpdated hSafe.updatedAt, num_of_readsBack hNext hSafe.nextAttemptAt,
    Option.bind_eq_bind, Option.bind_some, str_of_readsBack hId rfl, str_of_readsBack hOrder rfl,
    str_of_readsBack hAddress rfl, str_of_readsBack hCollection rfl, optStr_of_readsBack hGas rfl,
    optStr_of_readsBack hSweep rfl, optStr_of_readsBack hError rfl]
  rfl

/-- The UPDATE of a sweep job sets what an update changes. -/
theorem sweepJobs_covers {job job' : SweepJob} (h : job.Changes job') : sweepJobs.Covers job job' := by
  obtain ⟨depositIndex, depositAddress, collectionAddress, amountMicro, status, gasTxId, sweepTxId,
    attempts, lastError, updatedAt, nextAttemptAt, rfl⟩ := h
  constructor
  · exact fun row => selects_of_stores (c := text "id") List.mem_cons_self rfl rfl rfl rfl
  · exact List.forall_iff_forall_mem.mp ⟨rfl, rfl, rfl, rfl, rfl, rfl, rfl, rfl, rfl, rfl, rfl, rfl, rfl,
      rfl⟩

/-- The statements on `sweep_jobs` name columns of the schema. -/
theorem sweepJobs_named : sweepJobs.Named :=
  Repository.named (by decide) (fun _ => ⟨rfl, rfl⟩) fun _ =>
    ⟨show List.Sublist [_, _, _, _, _, _, _, _, _, _, _] _ by decide, rfl⟩

/-- The columns of `sweep_jobs` take a job that is in their ranges. -/
theorem sweepJobs_take (job : SweepJob) (h : job.Fits) :
    ∀ c ∈ sweepJobs.schema, c.Takes ((sweepJobs.create job).bound c.name) :=
  List.forall_iff_forall_mem.mp ⟨takes_string h.id rfl, takes_string h.orderId rfl,
    takes_bigint h.depositIndex rfl, takes_string h.depositAddress rfl,
    takes_string h.collectionAddress rfl, takes_bigint h.amountMicro rfl,
    takes_string (plain_sweepStatus _) rfl, takes_optString h.gasTxId rfl rfl,
    takes_optString h.sweepTxId rfl rfl, takes_integer h.tries rfl,
    takes_optString h.lastError rfl rfl, takes_bigint h.createdAt rfl, takes_bigint h.updatedAt rfl,
    takes_bigint h.nextAttemptAt rfl⟩

/-- Sweep jobs come back from the `sweep_jobs` table as they were. -/
theorem sweepJobs_mapsBack : sweepJobs.MapsBack SweepJob.Safe SweepJob.Fits SweepJob.Changes Eq :=
  Repository.mapsBack sweepJobs_named sweepJobs_take rowToSweepJob_readsBack
    fun _ _ => sweepJobs_covers

end sweepJobs

section users

/-- Map a DB row to a user. -/
def rowToUser (r : Row) : Option User := do
  let createdAt ← num (r "created_at")
  let updatedAt ← num (r "updated_at")
  return {
    id := str (r "id")
    email := str (r "email")
    locale := str (r "locale")
    name := optStr (r "name")
    passwordHash := str (r "password_hash")
    apiKey := str (r "api_key")
    createdAt, updatedAt }

namespace SqlUserRepository

def schema : List Column :=
  [text "id", text "email", text "locale", optText "name", text "password_hash", text "api_key",
    bigint "created_at", bigint "updated_at"]

def create (letters : LetterCase) (user : User) : Insert where
  columns := ["id", "email", "locale", "name", "password_hash", "api_key", "created_at", "updated_at"]
  params := [.string user.id, .string (letters.toLowerCase user.email), .string user.locale,
    orNull .string user.name, .string user.passwordHash, .string user.apiKey,
    .number user.createdAt, .number user.updatedAt]

def update (letters : LetterCase) (user : User) : Update where
  sets := [("email", 2), ("locale", 3), ("name", 4), ("password_hash", 5), ("api_key", 6),
    ("updated_at", 7)]
  params := [.string user.id, .string (letters.toLowerCase user.email), .string user.locale,
    orNull .string user.name, .string user.passwordHash, .string user.apiKey,
    .number user.updatedAt]

end SqlUserRepository

def users (letters : LetterCase) : Repository User where
  schema := SqlUserRepository.schema
  create := SqlUserRepository.create letters
  update := SqlUserRepository.update letters
  rowTo := rowToUser

variable {letters : LetterCase}

structure SafeUser (letters : LetterCase) (user : User) : Prop where
  email : letters.toLowerCase user.email = user.email
  createdAt : Safe user.createdAt
  updatedAt : Safe user.updatedAt

structure FitsUser (letters : LetterCase) (user : User) : Prop extends SafeUser letters user where
  id : plain user.id = true
  mail : plain user.email = true
  locale : plain user.locale = true
  name : user.name.all plain = true
  passwordHash : plain user.passwordHash = true
  apiKey : plain user.apiKey = true

def ChangesUser (user user' : User) : Prop :=
  ∃ email locale name passwordHash apiKey updatedAt,
    user' = { user with email, locale, name, passwordHash, apiKey, updatedAt }

/-- `rowToUser` gives the user back. -/
theorem rowToUser_readsBack (user : User) (r : Row) (hSafe : SafeUser letters user)
    (h : ∀ c ∈ (users letters).schema,
      c.ReadsBack (((users letters).create user).bound c.name) (r c.name)) :
    ∃ user', (users letters).rowTo r = some user' ∧ user = user' := by
  simp only [users, SqlUserRepository.schema, text, optText, bigint, List.forall_mem_cons] at h
  obtain ⟨hId, hEmail, hLocale, hName, hHash, hKey, hCreated, hUpdated, -⟩ := h
  refine ⟨user, ?_, rfl⟩
  show rowToUser r = _
  have hLower := str_of_readsBack hEmail rfl
  rw [hSafe.email] at hLower
  simp only [rowToUser, num_of_readsBack hCreated hSafe.createdAt,
    num_of_readsBack hUpdated hSafe.updatedAt, Option.bind_eq_bind, Option.bind_some,
    str_of_readsBack hId rfl, hLower, str_of_readsBack hLocale rfl, optStr_of_readsBack hName rfl,
    str_of_readsBack hHash rfl, str_of_readsBack hKey rfl]
  rfl

/-- The UPDATE of a user sets what an update changes. -/
theorem users_covers {user user' : User} (h : ChangesUser user user') :
    (users letters).Covers user user' := by
  obtain ⟨email, locale, name, passwordHash, apiKey, updatedAt, rfl⟩ := h
  constructor
  · exact fun row => selects_of_stores (c := text "id") List.mem_cons_self rfl rfl rfl rfl
  · exact List.forall_iff_forall_mem.mp ⟨rfl, rfl, rfl, rfl, rfl, rfl, rfl, rfl⟩

/-- The statements on `users` name columns of the schema. -/
theorem users_named : (users letters).Named :=
  Repository.named (show (SqlUserRepository.schema.map Column.name).Nodup by decide)
    (fun _ => ⟨rfl, rfl⟩) fun _ => ⟨show List.Sublist [_, _, _, _, _, _] (SqlUserRepository.schema.map Column.name) by decide, rfl⟩

/-- The columns of `users` take a user that is in their ranges. -/
theorem users_take (user : User) (h : FitsUser letters user) :
    ∀ c ∈ (users letters).schema, c.Takes (((users letters).create user).bound c.name) := by
  have hMail : plain (letters.toLowerCase user.email) = true := by rw [h.email, h.mail]
  exact List.forall_iff_forall_mem.mp ⟨takes_string h.id rfl, takes_string hMail rfl,
    takes_string h.locale rfl, takes_optString h.name rfl rfl, takes_string h.passwordHash rfl,
    takes_string h.apiKey rfl, takes_bigint h.createdAt rfl, takes_bigint h.updatedAt rfl⟩

/-- Users come back from the `users` table as they were. -/
theorem users_mapsBack (letters : LetterCase) :
    (users letters).MapsBack (SafeUser letters) (FitsUser letters) ChangesUser Eq :=
  Repository.mapsBack users_named users_take rowToUser_readsBack fun _ _ => users_covers

end users

/-- In all five tables what a repository creates or updates is taken by the columns when it fits
them, and reads back as it was. -/
theorem rows_map_back (letters : LetterCase) :
    orders.MapsBack Order.Safe Order.Fits Order.Changes Order.ReadAs ∧
      refunds.MapsBack SafeRefund FitsRefund ChangesRefund Eq ∧
      subscriptions.MapsBack SafeSubscription FitsSubscription ChangesSubscription Eq ∧
      sweepJobs.MapsBack SweepJob.Safe SweepJob.Fits SweepJob.Changes Eq ∧
      (users letters).MapsBack (SafeUser letters) (FitsUser letters) ChangesUser Eq :=
  ⟨orders_mapsBack, refunds_mapsBack, subscriptions_mapsBack, sweepJobs_mapsBack, users_mapsBack letters⟩

namespace Sample

def pendingOrder : Order where
  id := "o1"
  merchantId := none
  outTradeNo := "VPN1"
  userId := "alice"
  planId := "monthly"
  method := .usdt
  currency := .USDT
  amount := 2000001
  status := .PENDING
  providerTxnId := none
  idempotencyKey := none
  createdAt := 0
  updatedAt := 0
  expiresAt := 1800000
  paidAt := none
  refundedAmount := none
  metadata := (Table.empty.put ("address", "T\"1")).put ("amount", "2.000001")

def paidOrder : Order :=
  { pendingOrder with status := .PAID, providerTxnId := some "tx1", updatedAt := 5, paidAt := some 5 }

/-- The row of the order. -/
def pendingRow (column : String) : Datum :=
  match (orders.create pendingOrder).bound column with
  | .string s => if column = "metadata" then .record pendingOrder.metadata else .text s
  | .number n => .integer n
  | _ => .null

/-- What the driver hands out for it: numbers as digits, the metadata as an object. -/
def pendingResult (column : String) : Value :=
  match pendingRow column with
  | .text s => .string s
  | .integer n => .string (toString n)
  | .record members => .object members
  | _ => .null

def pendingRefund : Refund :=
  ⟨"r1", "o1", "RF1", 500, .USDT, none, .PENDING, none, "PENDING", 6, 6⟩

def settledRefund : Refund :=
  { pendingRefund with status := .SUCCESS, providerRefundId := some "p1", rawStatus := "OK", updatedAt := 7 }

def subscription : Subscription :=
  ⟨"s1", "alice", "monthly", 5, 2592000005, 100, 3, true, ["o1"], none, 5, 5⟩

def extendedSubscription : Subscription :=
  { subscription with expiresAt := 5184000005, orderIds := ["o1", "o\n2"], updatedAt := 9 }

def pendingJob : SweepJob :=
  ⟨"j1", "o1", 4, "T1", "TC", 2000001, .PENDING, none, none, 0, none, 5, 5, 5⟩

def sweepingJob : SweepJob :=
  { pendingJob with status := .SWEEPING, sweepTxId := some "tx2", updatedAt := 8, nextAttemptAt := 30008 }

def user : User :=
  ⟨"u1", "alice@example.com", "en", none, "salt:hash", "key1", 1, 1⟩

def renamedUser : User :=
  { user with name := some "Alice", apiKey := "key2", updatedAt := 2 }

theorem pendingOrder_fits : pendingOrder.Fits := by
  constructor
  · constructor <;> simp [pendingOrder, Safe]
  all_goals decide +kernel

theorem paidOrder_fits : paidOrder.Fits := by
  constructor
  · constructor <;> simp [paidOrder, pendingOrder, Safe]
  all_goals decide +kernel

theorem refunds_fit : FitsRefund pendingRefund ∧ FitsRefund settledRefund := by
  constructor <;> constructor
  any_goals constructor
  all_goals decide +kernel

theorem subscriptions_fit : FitsSubscription subscription ∧ FitsSubscription extendedSubscription := by
  constructor <;> constructor
  any_goals constructor
  any_goals decide +kernel

theorem jobs_fit : pendingJob.Fits ∧ sweepingJob.Fits := by
  constructor <;> constructor
  any_goals constructor
  all_goals decide +kernel

/-- Texts that have no capitals. -/
def lower : LetterCase := ⟨fun s => s, fun _ => rfl⟩

theorem users_fit : FitsUser lower user ∧ FitsUser lower renamedUser := by
  constructor <;> constructor
  any_goals constructor
  all_goals decide +kernel

end Sample

/-- An order without merchant and refunds reads back with the defaults, and in each table a value
is created, read back, updated and read back again. -/
theorem rows_map_back_sample :
    ((orders.create Sample.pendingOrder).Stores orders.schema Sample.pendingRow ∧
      Reads orders.schema Sample.pendingRow Sample.pendingResult ∧
      ∃ o, rowToOrder Sample.pendingResult = some o ∧ Sample.pendingOrder.ReadAs o) ∧
    orders.Survives Order.ReadAs Sample.pendingOrder Sample.paidOrder ∧
    refunds.Survives Eq Sample.pendingRefund Sample.settledRefund ∧
    subscriptions.Survives Eq Sample.subscription Sample.extendedSubscription ∧
    sweepJobs.Survives Eq Sample.pendingJob Sample.sweepingJob ∧
    (users Sample.lower).Survives Eq Sample.user Sample.renamedUser := by
  obtain ⟨hOrders, hRefunds, hSubscriptions, hJobs, hUsers⟩ := rows_map_back Sample.lower
  have hMetadata : (jsonb "metadata").store (.string (stringifyRecord Sample.pendingOrder.metadata)) =
      some (.record Sample.pendingOrder.metadata) := by
    rw [store_record _ rfl, if_pos Sample.pendingOrder_fits.metadata]
  have hStored : (orders.create Sample.pendingOrder).Stores orders.schema Sample.pendingRow :=
    ⟨orders_named.create _, List.forall_iff_forall_mem.mp ⟨rfl, rfl, rfl, rfl, rfl, rfl, rfl, rfl, rfl, rfl,
      rfl, rfl, rfl, rfl, rfl, rfl, hMetadata⟩⟩
  have hReads : Reads orders.schema Sample.pendingRow Sample.pendingResult :=
    List.forall_iff_forall_mem.mp ⟨.text _, .text _, .text _, .text _, .text _, .text _, .text _,
      .bigint _ rfl, .text _, .null, .null, .bigint _ rfl, .bigint _ rfl, .bigint _ rfl, .null,
      .bigint _ rfl, .record _ _ fun _ => rfl⟩
  have hPending := Sample.pendingOrder_fits
  have hPaid := Sample.paidOrder_fits
  obtain ⟨hRefund, hRefund'⟩ := Sample.refunds_fit
  obtain ⟨hSubscription, hSubscription'⟩ := Sample.subscriptions_fit
  obtain ⟨hJob, hJob'⟩ := Sample.jobs_fit
  obtain ⟨hUser, hUser'⟩ := Sample.users_fit
  refine ⟨⟨hStored, hReads, hOrders.created _ _ _ hPending.toSafe hStored hReads⟩, ?_, ?_, ?_, ?_, ?_⟩
  · exact hOrders.survives hPending.toSafe hPending hPaid.toSafe hPaid ⟨_, _, _, _, _, _, rfl⟩
  · exact hRefunds.survives hRefund.toSafeRefund hRefund hRefund'.toSafeRefund hRefund'
      ⟨_, _, _, _, rfl⟩
  · exact hSubscriptions.survives hSubscription.toSafeSubscription hSubscription
      hSubscription'.toSafeSubscription hSubscription' ⟨_, _, _, _, _, _, _, _, _, rfl⟩
  · exact hJobs.survives hJob.toSafe hJob hJob'.toSafe hJob'
      ⟨_, _, _, _, _, _, _, _, _, _, _, rfl⟩
  · exact hUsers.survives hUser.toSafeUser hUser hUser'.toSafeUser hUser' ⟨_, _, _, _, _, _, rfl⟩

end VpnPayment.Sql
