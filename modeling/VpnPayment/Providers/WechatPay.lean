import VpnPayment.Domain.Types

/-! What `WechatPayProvider` reads off an authentic notification and off the answer
to a query. -/
namespace VpnPayment.WechatPayProvider

/-- A field of a JSON body that should hold a number. -/
inductive Field
  | undefined
  | null
  | value (n : JsNumber)
deriving DecidableEq

namespace Field

/-- `a ?? b` -/
def orElse : Field → Field → Field
  | value n, _ => value n
  | _, other => other

/-- The number the field is used as. -/
def toNumber : Field → JsNumber
  | undefined => ⟨.nan, "undefined"⟩
  | null => ⟨.finite 0, "null"⟩
  | value n => n

/-- What a later `??` sees of the field. -/
def toOption : Field → Option JsNumber
  | value n => some n
  | _ => none

end Field

structure Amount where
  total : Field
  payer_total : Field
deriving DecidableEq

/-- `amount?.payer_total ?? amount?.total` -/
def paidAmount (amount : Option Amount) : Field :=
  ((amount.map Amount.payer_total).getD .undefined).orElse ((amount.map Amount.total).getD .undefined)

/-- The decrypted resource of any notification. Which fields are there depends on
what it is about. -/
structure Resource where
  out_trade_no : Option String
  transaction_id : Option String
  trade_state : Option String
  out_refund_no : Option String
  refund_id : Option String
  refund_status : Option String
  amount : Option Amount
deriving DecidableEq

/-- What a missing field prints as. -/
def printed (field : Option String) : String :=
  field.getD "undefined"

/-- `verifyCallback` once the signature is checked and the resource decrypted, whatever it is
about. -/
def readPayment (eventId : String) (d : Resource) : Except AppError CallbackResult :=
  match d.amount with
  | none => .error ⟨.plain, "Cannot read properties of undefined (reading 'payer_total')"⟩
  | some amount => .ok {
      outTradeNo := printed d.out_trade_no
      providerTxnId := printed d.transaction_id
      paid := d.trade_state = some "SUCCESS"
      paidAmount := (paidAmount amount).toNumber
      currency := .CNY
      eventId := eventId
      rawStatus := printed d.trade_state }

/-- The decrypted resource of a payment notification. -/
structure Notification where
  out_trade_no : String
  transaction_id : String
  trade_state : String
  amount : Option Amount
deriving DecidableEq

def Notification.resource (d : Notification) : Resource :=
  ⟨some d.out_trade_no, some d.transaction_id, some d.trade_state, none, none, none, d.amount⟩

/-- `verifyCallback` for the notification of a payment. -/
def verifyCallback (eventId : String) (d : Notification) : Except AppError CallbackResult :=
  readPayment eventId d.resource

/-- The body of an answer to a query. -/
structure Transaction where
  transaction_id : Option String
  trade_state : String
  amount : Option Amount
deriving DecidableEq

/-- `queryPayment` once the answer is there. -/
def queryPayment (status : Nat) (data : Transaction) : Except AppError QueryResult :=
  if status ≠ 200 then .error ⟨.provider, s!"wechat query failed ({status})"⟩
  else .ok {
    paid := data.trade_state = "SUCCESS"
    providerTxnId := data.transaction_id
    paidAmount := (paidAmount data.amount).toOption
    rawStatus := data.trade_state }

/-- A URL, with the path that a request to it has. -/
structure Location where
  origin : String
  path : String
deriving DecidableEq

/-- What `refund` reads of the configuration. -/
structure WechatConfig where
  notifyUrl : Location
deriving DecidableEq

structure RefundAmount where
  refund : Int
  total : Int
  currency : Currency
deriving DecidableEq

/-- The body of a refund request. -/
structure RefundBody where
  out_trade_no : String
  out_refund_no : String
  reason : Option String
  notify_url : Location
  amount : RefundAmount
deriving DecidableEq

def refundBody (cfg : WechatConfig) (order : Order) (req : RefundRequest) : RefundBody where
  out_trade_no := order.outTradeNo
  out_refund_no := req.outRefundNo
  reason := req.reason
  notify_url := cfg.notifyUrl
  amount := ⟨req.amount, req.totalAmount, .CNY⟩

/-- The body of an answer to a refund request. -/
structure RefundAnswer where
  refund_id : Option String
  status : Option String
deriving DecidableEq

/-- `refund` once the answer is there. -/
def refund (status : Nat) (data : RefundAnswer) : Except AppError RefundResult :=
  if status ≠ 200 then .error ⟨.provider, s!"wechat refund failed ({status})"⟩
  else .ok {
    providerRefundId := data.refund_id
    status :=
      if data.status = some "SUCCESS" then .SUCCESS
      else if data.status = some "PROCESSING" then .PENDING
      else .FAILED
    rawStatus := data.status.getD "UNKNOWN" }

/-- `verifyRefundCallback` for any resource. -/
def readRefund (eventId : String) (d : Resource) : RefundCallbackResult where
  outRefundNo := printed d.out_refund_no
  outTradeNo := printed d.out_trade_no
  providerRefundId := printed d.refund_id
  status := if d.refund_status = some "SUCCESS" then .SUCCESS else .FAILED
  eventId := eventId
  rawStatus := printed d.refund_status

/-- The decrypted resource of a refund notification. It has no trade state. -/
structure RefundNotification where
  out_trade_no : String
  transaction_id : String
  out_refund_no : String
  refund_id : String
  refund_status : String
  amount : Option Amount
deriving DecidableEq

def RefundNotification.resource (d : RefundNotification) : Resource :=
  ⟨some d.out_trade_no, some d.transaction_id, none, some d.out_refund_no, some d.refund_id,
    some d.refund_status, d.amount⟩

/-- The parser of payments takes a refund notification for an unpaid order. -/
theorem readPayment_refund (eventId : String) (d : RefundNotification) :
    (∃ e, readPayment eventId d.resource = .error e) ∨
      ∃ result, readPayment eventId d.resource = .ok result ∧ result.paid = false := by
  obtain ⟨outTradeNo, transactionId, outRefundNo, refundId, refundStatus, amount⟩ := d
  cases amount with
  | none => exact .inl ⟨_, rfl⟩
  | some amount => exact .inr ⟨_, rfl, rfl⟩

end VpnPayment.WechatPayProvider
