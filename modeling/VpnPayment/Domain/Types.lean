import Mathlib.Data.Rat.Defs
import Mathlib.Algebra.Order.Ring.Unbundled.Rat

/-! The domain types of the payment backend. Money is an integer number of minor
units and a time is an integer number of epoch milliseconds. -/
namespace VpnPayment

inductive Currency
  | CNY
  | USDT
deriving DecidableEq

inductive PaymentMethod
  | wechat
  | alipay
  | usdt
deriving DecidableEq

namespace PaymentMethod

def name : PaymentMethod → String
  | wechat => "wechat"
  | alipay => "alipay"
  | usdt => "usdt"

end PaymentMethod

def Currency.name : Currency → String
  | .CNY => "CNY"
  | .USDT => "USDT"

/-- What a JavaScript number compares as. -/
inductive Magnitude
  | nan
  | negInf
  | finite (q : Rat)
  | posInf
deriving DecidableEq

/-- A number from outside the program: what it compares as and what it prints as.
A provider's missing amount is one too, as it compares as `NaN`. -/
structure JsNumber where
  value : Magnitude
  text : String
deriving DecidableEq

namespace JsNumber

def ofInt (n : Int) : JsNumber :=
  ⟨.finite n, toString n⟩

/-- `a < n`. Every comparison with `NaN` is false. -/
def ltInt (a : JsNumber) (n : Int) : Bool :=
  match a.value with
  | .nan => false
  | .negInf => true
  | .finite q => decide (q < n)
  | .posInf => false

/-- `Number.isInteger`, with the integer. -/
def toInt? (a : JsNumber) : Option Int :=
  match a.value with
  | .finite q => if q.den = 1 then some q.num else none
  | _ => none

@[simp] theorem ltInt_ofInt (m n : Int) : (ofInt m).ltInt n = decide (m < n) := by
  exact decide_eq_decide.mpr Rat.intCast_lt_intCast

@[simp] theorem toInt?_ofInt (n : Int) : (ofInt n).toInt? = some n := by
  simp [toInt?, ofInt]

end JsNumber

/-- The lifecycle of an order. Which changes are allowed is the business of the
order state machine. -/
inductive OrderStatus
  | PENDING
  | PAID
  | FULFILLED
  | EXPIRED
  | CANCELLED
  | REFUNDED
  | FAILED
deriving DecidableEq

def OrderStatus.name : OrderStatus → String
  | PENDING => "PENDING"
  | PAID => "PAID"
  | FULFILLED => "FULFILLED"
  | EXPIRED => "EXPIRED"
  | CANCELLED => "CANCELLED"
  | REFUNDED => "REFUNDED"
  | FAILED => "FAILED"

/-- A purchasable VPN plan. -/
structure Plan where
  id : String
  name : String
  durationDays : Int
  trafficGb : Int
  deviceLimit : Int
  priceCnyFen : Int
  priceUsdtMicro : Int
  enabled : Bool
deriving DecidableEq

inductive RenderAs
  | qrcode
  | address
  | redirect
deriving DecidableEq

/-- Result of asking a provider to create a payment intent. -/
structure CreatePaymentResult where
  method : PaymentMethod
  payTarget : String
  renderAs : RenderAs
  extra : List (String × String)
deriving DecidableEq

/-- The entries that the backend keeps in the metadata of an order. The pay info
is stored as its JSON text and always read back with `JSON.parse`. -/
structure Metadata where
  depositAddress : Option String
  depositIndex : Option String
  payInfo : Option CreatePaymentResult
deriving DecidableEq

def Metadata.empty : Metadata := ⟨none, none, none⟩

/-- An order placed by a user for a plan. -/
structure Order where
  id : String
  merchantId : Option String
  outTradeNo : String
  userId : String
  planId : String
  method : PaymentMethod
  currency : Currency
  amount : Int
  status : OrderStatus
  providerTxnId : Option String
  idempotencyKey : Option String
  createdAt : Int
  updatedAt : Int
  expiresAt : Int
  paidAt : Option Int
  refundedAmount : Option Int
  metadata : Metadata
deriving DecidableEq

/-- A user's VPN subscription, produced when an order is fulfilled. -/
structure Subscription where
  id : String
  userId : String
  planId : String
  startsAt : Int
  expiresAt : Int
  trafficGb : Int
  deviceLimit : Int
  active : Bool
  orderIds : List String
  expiryNotifiedAt : Option Int
  createdAt : Int
  updatedAt : Int
deriving DecidableEq

/-- Normalised outcome of verifying a provider callback. -/
structure CallbackResult where
  outTradeNo : String
  providerTxnId : String
  paid : Bool
  paidAmount : JsNumber
  currency : Currency
  eventId : String
  rawStatus : String
deriving DecidableEq

/-- Outcome of actively querying a provider for an order's status. -/
structure QueryResult where
  paid : Bool
  providerTxnId : Option String
  paidAmount : Option JsNumber
  rawStatus : String
deriving DecidableEq

/-- Lifecycle of a refund. -/
inductive RefundStatus
  | PENDING
  | SUCCESS
  | FAILED
  | MANUAL
deriving DecidableEq

def RefundStatus.name : RefundStatus → String
  | PENDING => "PENDING"
  | SUCCESS => "SUCCESS"
  | FAILED => "FAILED"
  | MANUAL => "MANUAL"

/-- A refund issued against a paid order. -/
structure Refund where
  id : String
  orderId : String
  outRefundNo : String
  amount : Int
  currency : Currency
  reason : Option String
  status : RefundStatus
  providerRefundId : Option String
  rawStatus : String
  createdAt : Int
  updatedAt : Int
deriving DecidableEq

/-- What a provider needs to perform a refund. -/
structure RefundRequest where
  outRefundNo : String
  amount : Int
  totalAmount : Int
  currency : Currency
  reason : Option String
deriving DecidableEq

/-- Normalised result of a provider refund call. -/
structure RefundResult where
  providerRefundId : Option String
  status : RefundStatus
  rawStatus : String
deriving DecidableEq

/-- The two ways an asynchronous refund settles. -/
inductive RefundOutcome
  | SUCCESS
  | FAILED
deriving DecidableEq

def RefundOutcome.status : RefundOutcome → RefundStatus
  | SUCCESS => .SUCCESS
  | FAILED => .FAILED

/-- Normalised result of verifying an asynchronous refund notification. -/
structure RefundCallbackResult where
  outRefundNo : String
  outTradeNo : String
  providerRefundId : String
  status : RefundOutcome
  eventId : String
  rawStatus : String
deriving DecidableEq

/-- A raw inbound HTTP request as seen by a webhook handler. -/
structure RawCallback where
  rawBody : String
  headers : List (String × String)
deriving DecidableEq

/-- The HTTP response a provider expects to its callback. -/
structure Ack where
  status : Nat
  contentType : String
  body : String
deriving DecidableEq

/-- The implicit tenant of single-tenant deployments and legacy rows. -/
def DEFAULT_MERCHANT_ID : String := "default"

/-- The classes of the error hierarchy. Any other thrown value is `plain`. -/
inductive ErrorClass
  | notFound
  | validation
  | signature
  | invalidState
  | amountMismatch
  | provider
  | config
  | plain
deriving DecidableEq

structure AppError where
  kind : ErrorClass
  message : String
deriving DecidableEq

namespace AppError

def code (e : AppError) : String :=
  match e.kind with
  | .notFound => "NOT_FOUND"
  | .validation => "VALIDATION_ERROR"
  | .signature => "SIGNATURE_ERROR"
  | .invalidState => "INVALID_STATE"
  | .amountMismatch => "AMOUNT_MISMATCH"
  | .provider => "PROVIDER_ERROR"
  | .config => "CONFIG_ERROR"
  | .plain => "INTERNAL"

def httpStatus (e : AppError) : Nat :=
  match e.kind with
  | .notFound => 404
  | .validation => 400
  | .signature => 401
  | .invalidState => 409
  | .amountMismatch => 409
  | .provider => 502
  | .config => 500
  | .plain => 500

end AppError

/-- One value of an audit record's metadata or of a published payload. -/
inductive Scalar
  | text (s : String)
  | number (n : JsNumber)
  | undefined
deriving DecidableEq

end VpnPayment
