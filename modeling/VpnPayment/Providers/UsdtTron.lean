import VpnPayment.Services.Payment

/-! `UsdtTronProvider`. A query looks the incoming transfers through for the first one
that fits the order. -/
namespace VpnPayment

/-- A normalised incoming TRC20 transfer, with its value in micro-USDT. -/
structure Trc20Transfer where
  txId : String
  to_ : String
  from_ : String
  valueMicro : Int
  timestampMs : Int
  /-- Whether the transfer has reached the required confirmations. -/
  confirmed : Bool
deriving DecidableEq

/-- The configuration that the provider reads. -/
structure UsdtConfig where
  addressMode : UsdtAddressMode
  receivingAddress : String
deriving DecidableEq

/-- The tolerance for clock differences between the backend and the chain. -/
def Order.earliest (order : Order) : Int :=
  order.createdAt - 5 * 60000

/-- Match an order against a list of confirmed transfers by exact amount. -/
def matchTransfer (order : Order) (transfers : List Trc20Transfer) (receivingAddress : String)
    (claimedTxIds : List String) : Option Trc20Transfer :=
  transfers.find? fun t => t.confirmed && t.to_ = receivingAddress && t.valueMicro = order.amount &&
    order.earliest ≤ t.timestampMs && !claimedTxIds.contains t.txId

/-- Match an order by the deposit address of its own. -/
def matchByAddress (order : Order) (transfers : List Trc20Transfer) (depositAddress : String)
    (claimedTxIds : List String) : Option Trc20Transfer :=
  transfers.find? fun t => t.confirmed && t.to_ = depositAddress && order.amount ≤ t.valueMicro &&
    order.earliest ≤ t.timestampMs && !claimedTxIds.contains t.txId

namespace UsdtTronProvider

def perOrder (cfg : UsdtConfig) : Bool :=
  cfg.addressMode = .perOrder

def watchAddress (cfg : UsdtConfig) (order : Order) : String :=
  if perOrder cfg then order.metadata.depositAddress.getD "" else cfg.receivingAddress

/-- The transfer that a query finds. The claimed ids are always empty. -/
def matched (cfg : UsdtConfig) (order : Order) (transfers : List Trc20Transfer) :
    Option Trc20Transfer :=
  if perOrder cfg then matchByAddress order transfers (watchAddress cfg order) []
  else matchTransfer order transfers (watchAddress cfg order) []

/-- `queryPayment`, when the chain client answers with `transfers`. -/
def queryPayment (cfg : UsdtConfig) (order : Order) (transfers : List Trc20Transfer) : QueryResult :=
  if perOrder cfg ∧ watchAddress cfg order = "" then ⟨false, none, none, "NO_ADDRESS"⟩
  else match matched cfg order transfers with
    | none => ⟨false, none, none, "NO_MATCH"⟩
    | some t => ⟨true, some t.txId, some (.ofInt t.valueMicro), "CONFIRMED"⟩

/-- The matching predicate: a confirmed transfer to the watched address, of the
right amount, not earlier than the tolerance allows. -/
structure Fits (cfg : UsdtConfig) (order : Order) (t : Trc20Transfer) : Prop where
  confirmed : t.confirmed = true
  watched : t.to_ = watchAddress cfg order
  value : if perOrder cfg then order.amount ≤ t.valueMicro else t.valueMicro = order.amount
  inTime : order.earliest ≤ t.timestampMs

instance (cfg : UsdtConfig) (order : Order) (t : Trc20Transfer) : Decidable (Fits cfg order t) :=
  decidable_of_iff (t.confirmed = true ∧ t.to_ = watchAddress cfg order ∧
    (if perOrder cfg then order.amount ≤ t.valueMicro else t.valueMicro = order.amount) ∧
    order.earliest ≤ t.timestampMs)
    ⟨fun ⟨confirmed, watched, value, inTime⟩ => ⟨confirmed, watched, value, inTime⟩,
      fun ⟨confirmed, watched, value, inTime⟩ => ⟨confirmed, watched, value, inTime⟩⟩

variable {cfg : UsdtConfig} {order order' : Order} {transfers : List Trc20Transfer} {t : Trc20Transfer}

/-- A query finds the first transfer that fits. -/
theorem matched_eq_find : matched cfg order transfers = transfers.find? fun t => Fits cfg order t := by
  unfold matched matchByAddress matchTransfer
  split
  all_goals
    next hMode =>
      congr 1
      funext t
      rw [Bool.eq_iff_iff]
      simp only [List.contains_nil, Bool.not_false, Bool.and_true, Bool.and_eq_true, decide_eq_true_eq]
      constructor
      · rintro ⟨⟨⟨hConfirmed, hTo⟩, hValue⟩, hTime⟩
        exact ⟨hConfirmed, hTo, by simpa [hMode] using hValue, hTime⟩
      · rintro ⟨hConfirmed, hTo, hValue, hTime⟩
        exact ⟨⟨⟨hConfirmed, hTo⟩, by simpa [hMode] using hValue⟩, hTime⟩

theorem matched_eq_some (h : matched cfg order transfers = some t) :
    t ∈ transfers ∧ Fits cfg order t := by
  rw [matched_eq_find] at h
  exact ⟨List.mem_of_find?_eq_some h, by simpa using List.find?_some h⟩

/-- A query that reports a payment has found a transfer. -/
theorem queryPayment_paid (h : (queryPayment cfg order transfers).paid = true) :
    ∃ t, matched cfg order transfers = some t ∧
      queryPayment cfg order transfers = ⟨true, some t.txId, some (.ofInt t.valueMicro), "CONFIRMED"⟩ := by
  unfold queryPayment at h ⊢
  split at h
  · cases h
  · next hAddress =>
      cases hMatch : matched cfg order transfers with
      | none => simp [hMatch] at h
      | some t => exact ⟨t, rfl, by simp [hAddress]⟩

/-- What fits an order is a matter of its terms. -/
theorem Fits.of_terms (h : Fits cfg order t) (hCreated : order.createdAt = order'.createdAt)
    (hAmount : order.amount = order'.amount)
    (hDeposit : order.metadata.depositAddress = order'.metadata.depositAddress) :
    Fits cfg order' t where
  confirmed := h.confirmed
  watched := by
    rw [h.watched]
    unfold watchAddress
    rw [hDeposit]
  value := hAmount ▸ h.value
  inTime := by
    rw [Order.earliest, ← hCreated]
    exact h.inTime

end UsdtTronProvider
end VpnPayment
