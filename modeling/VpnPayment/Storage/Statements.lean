import VpnPayment.Services.World
import VpnPayment.Storage.OrderQueries
import VpnPayment.Storage.SqlRecords

/-! The statements behind the calls of the SQL repositories, and which of them PostgreSQL
refuses because a column does not take what is bound to it. -/
namespace VpnPayment

open Collections
open Sql (plain text bigint)

section metadata

def RenderAs.name : RenderAs → String
  | qrcode => "qrcode"
  | address => "address"
  | redirect => "redirect"

/-- `JSON.stringify(payInfo)` -/
def CreatePaymentResult.stringify (payInfo : CreatePaymentResult) : String :=
  String.ofList ('{' :: ([','].intercalate [Json.member ("method", payInfo.method.name),
    Json.member ("payTarget", payInfo.payTarget), Json.member ("renderAs", payInfo.renderAs.name),
    Json.quote "extra" ++ ':' :: '{' :: ([','].intercalate (payInfo.extra.map Json.member) ++ ['}'])] ++
      ['}']))

/-- The entries as the payment service writes them. -/
def Metadata.record (m : Metadata) : Json.Record :=
  let entries := [("depositAddress", m.depositAddress), ("depositIndex", m.depositIndex),
    ("payInfo", m.payInfo.map CreatePaymentResult.stringify)]
  entries.foldl (fun record entry => entry.2.elim record fun value => record.put (entry.1, value)) .empty

/-- The order with the metadata as a record. -/
def Order.toSql (o : Order) : Sql.Order :=
  { o with metadata := o.metadata.record }

end metadata

namespace Sql

variable (schema : List Column)

/-- Each column takes what is bound to it. -/
def Insert.taken (s : Insert) : Bool :=
  schema.all fun c => (c.store (s.bound c.name)).isSome

/-- As for an insertion. The id is compared with a TEXT column. -/
def Update.taken (s : Update) : Bool :=
  (s.params.head?.all fun id => ((text "id").store id).isSome) &&
    schema.all fun c => (s.bound c.name).all fun v => (c.store v).isSome

end Sql

/-- A parameter that is compared with a TEXT column. -/
def comparesText (s : String) : Bool :=
  ((text "key").store (.string s)).isSome

/-- A parameter that is compared with a BIGINT column. A limit and an offset are BIGINT, too. -/
def comparesBigint (n : Int) : Bool :=
  ((bigint "key").store (.number n)).isSome

/-- PostgreSQL takes the parameters of the statement that the call makes at this time. -/
def Call.taken (clock : Int) : Call → Bool
  | .ordersCreate o => (Sql.orders.create o.toSql).taken Sql.orders.schema
  | .ordersUpdate o => (Sql.orders.update o.toSql).taken Sql.orders.schema
  | .ordersFindById key | .ordersFindByOutTradeNo key | .ordersFindByIdempotencyKey key
  | .refundsFindByOutRefundNo key | .refundsFindByOrder key
  | .subscriptionsFindActiveByUser key => comparesText key
  | .ordersFindPendingByMethod method => comparesText method.name
  | .refundsCreate r => (Sql.refunds.create r).taken Sql.refunds.schema
  | .refundsUpdate r => (Sql.refunds.update r).taken Sql.refunds.schema
  | .subscriptionsCreate sub => (Sql.subscriptions.create sub).taken Sql.subscriptions.schema
  | .subscriptionsUpdate sub => (Sql.subscriptions.update sub).taken Sql.subscriptions.schema
  | .markIfNew eventId =>
      comparesText eventId && ((bigint "created_at").store (.number clock)).isSome
  | .sweep olderThanMs => comparesBigint (clock - olderThanMs)
  | _ => true

/-- PostgreSQL takes what the conditions of a query for orders compare with. -/
def OrderQueryFilter.taken (filter : OrderQueryFilter) : Bool :=
  (truthy filter.merchantId).all comparesText &&
  (filter.status.all fun status => comparesText status.name) &&
  (filter.method.all fun method => comparesText method.name) &&
  filter.createdFrom.all comparesBigint && filter.createdTo.all comparesBigint

example : Call.taken 0 (.ordersFindById "o1") = true := by decide +kernel
example : Call.taken 0 (.ordersFindById "o\x001") = false := by decide +kernel
example : Call.taken (2 ^ 63) (.markIfNew "e1") = false := by decide +kernel

/-- What is handed to the repositories has no character NUL, its times and amounts are safe
integers, and the traffic and the devices of a subscription have at most 32 bits. -/
def Storable (clock : Int) : Call → Prop
  | .ordersCreate o | .ordersUpdate o => o.toSql.Fits
  | .refundsCreate r | .refundsUpdate r => Sql.FitsRefund r
  | .subscriptionsCreate sub | .subscriptionsUpdate sub => Sql.FitsSubscription sub
  | .ordersFindById key | .ordersFindByOutTradeNo key | .ordersFindByIdempotencyKey key
  | .refundsFindByOutRefundNo key | .refundsFindByOrder key
  | .subscriptionsFindActiveByUser key => plain key = true
  | .markIfNew eventId => plain eventId = true ∧ Sql.Safe clock
  | .sweep olderThanMs => Sql.Safe (clock - olderThanMs)
  | _ => True

/-- The merchant has no character NUL, and the times are safe integers. -/
structure OrderQueryFilter.Storable (filter : OrderQueryFilter) : Prop where
  merchantId : filter.merchantId.all plain = true
  createdFrom : ∀ time, filter.createdFrom = some time → Sql.Safe time
  createdTo : ∀ time, filter.createdTo = some time → Sql.Safe time

section taken

variable {Record : Type} {t : Sql.Repository Record} {x : Record} {c : Sql.Column} {v : Sql.Value}

theorem isSome_of_takes (h : c.Takes v) : (c.store v).isSome = true :=
  Option.isSome_iff_exists.mpr h

theorem create_taken (h : ∀ c ∈ t.schema, c.Takes ((t.create x).bound c.name)) :
    (t.create x).taken t.schema = true :=
  List.all_eq_true.mpr fun c hMem => isSome_of_takes (h c hMem)

/-- An update binds what a creation would bind. -/
theorem update_taken (hCovers : t.Covers x x) {id : String}
    (hId : (t.update x).params.head? = some (.string id)) (hPlain : plain id = true)
    (h : ∀ c ∈ t.schema, c.Takes ((t.create x).bound c.name)) :
    (t.update x).taken t.schema = true := by
  rw [Sql.Update.taken, Bool.and_eq_true, hId]
  refine ⟨isSome_of_takes (Sql.takes_string hPlain rfl), List.all_eq_true.mpr fun c hMem => ?_⟩
  have hSame := hCovers.bound c hMem
  cases hBound : (t.update x).bound c.name with
  | none => rfl
  | some v =>
      rw [hBound, Option.getD_some] at hSame
      exact isSome_of_takes (hSame ▸ h c hMem)

theorem comparesText_of_plain {s : String} (h : plain s = true) : comparesText s = true :=
  isSome_of_takes (Sql.takes_string h rfl)

theorem comparesBigint_of_safe {n : Int} (h : Sql.Safe n) : comparesBigint n = true :=
  isSome_of_takes (Sql.takes_bigint h rfl)

theorem OrderQueryFilter.taken_of_storable {filter : OrderQueryFilter} (h : filter.Storable) :
    filter.taken = true := by
  simp only [OrderQueryFilter.taken, Bool.and_eq_true, Option.all_eq_true]
  refine ⟨⟨⟨⟨fun merchant hMerchant => ?_, fun status _ => ?_⟩, fun method _ => ?_⟩,
    fun time hTime => comparesBigint_of_safe (h.createdFrom time hTime)⟩,
    fun time hTime => comparesBigint_of_safe (h.createdTo time hTime)⟩
  · have hGiven := (Option.filter_eq_some_iff.mp hMerchant).1
    exact comparesText_of_plain ((Option.all_eq_true _ _).mp h.merchantId merchant hGiven)
  · exact comparesText_of_plain (Sql.plain_orderStatus status)
  · exact comparesText_of_plain (Sql.plain_method method)

/-- PostgreSQL refuses nothing that is storable. -/
theorem taken_of_storable {clock : Int} {c : Call} (h : Storable clock c) : c.taken clock = true := by
  cases c with
  | ordersCreate o => exact create_taken (Sql.orders_take _ h)
  | ordersUpdate o =>
      exact update_taken (Sql.orders_covers ⟨_, _, _, _, _, _, rfl⟩) rfl h.id (Sql.orders_take _ h)
  | refundsCreate r => exact create_taken (Sql.refunds_take _ h)
  | refundsUpdate r =>
      exact update_taken (Sql.refunds_covers ⟨_, _, _, _, rfl⟩) rfl h.id (Sql.refunds_take _ h)
  | subscriptionsCreate sub => exact create_taken (Sql.subscriptions_take _ h)
  | subscriptionsUpdate sub =>
      exact update_taken (Sql.subscriptions_covers ⟨_, _, _, _, _, _, _, _, _, rfl⟩) rfl h.id
        (Sql.subscriptions_take _ h)
  | markIfNew eventId =>
      rw [Call.taken, comparesText_of_plain h.1, Bool.true_and]
      exact isSome_of_takes (Sql.takes_bigint h.2 rfl)
  | sweep olderThanMs => exact comparesBigint_of_safe h
  | ordersFindPendingByMethod method => exact comparesText_of_plain (Sql.plain_method method)
  | ordersFindById | ordersFindByOutTradeNo | ordersFindByIdempotencyKey | refundsFindByOutRefundNo
  | refundsFindByOrder | subscriptionsFindActiveByUser => exact comparesText_of_plain h
  | _ => rfl

end taken

end VpnPayment
