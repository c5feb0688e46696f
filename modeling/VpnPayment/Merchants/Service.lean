import VpnPayment.Async.Machine
import VpnPayment.Services.World

/-! `MerchantService` and the repositories that keep the merchants. -/
namespace VpnPayment

open Async Collections

inductive MerchantStatus
  | active
  | suspended
deriving DecidableEq

structure Merchant where
  id : String
  name : String
  status : MerchantStatus
  apiKey : String
  apiKeyPrevious : Option String
  usdtHdPath : Option String
  createdAt : Int
  updatedAt : Int
deriving DecidableEq

/-- The keys that are accepted, the current one first. -/
def Merchant.keys (merchant : Merchant) : List String :=
  merchant.apiKey :: merchant.apiKeyPrevious.toList

abbrev MerchantTable := Table Merchant Merchant.id

namespace MerchantTable

/-- The first row with the key as its current or previous one. -/
def findByApiKey (t : MerchantTable) (apiKey : String) : Option Merchant :=
  t.rows.find? fun m => m.apiKey = apiKey || m.apiKeyPrevious = some apiKey

/-- Another row has the same current key. -/
def keyTaken (t : MerchantTable) (merchant : Merchant) : Bool :=
  t.rows.any fun row => row.apiKey = merchant.apiKey && row.id ≠ merchant.id

end MerchantTable

namespace MemoryMerchantRepository

def create (t : MerchantTable) (merchant : Merchant) : Except AppError MerchantTable :=
  if t.has merchant.id then .error (plainError s!"duplicate merchant: {merchant.id}")
  else .ok (t.put merchant)

def update (t : MerchantTable) (merchant : Merchant) : Except AppError MerchantTable :=
  if t.has merchant.id then .ok (t.put merchant)
  else .error (plainError s!"unknown merchant: {merchant.id}")

end MemoryMerchantRepository

namespace SqlMerchantRepository

def create (t : MerchantTable) (merchant : Merchant) : Except AppError MerchantTable :=
  if t.has merchant.id then .error (uniqueViolation "merchants_pkey")
  else if t.keyTaken merchant then .error (uniqueViolation "merchants_api_key_key")
  else .ok (t.put merchant)

/-- The columns an `UPDATE` sets. -/
def setColumns (row merchant : Merchant) : Merchant :=
  { merchant with id := row.id, createdAt := row.createdAt }

def update (t : MerchantTable) (merchant : Merchant) : Except AppError MerchantTable :=
  match t.get? merchant.id with
  | none => .ok t
  | some row =>
      if t.keyTaken merchant then .error (uniqueViolation "merchants_api_key_key")
      else .ok (t.put (setColumns row merchant))

end SqlMerchantRepository

namespace MerchantTable

def create : Backend → MerchantTable → Merchant → Except AppError MerchantTable
  | .memory => MemoryMerchantRepository.create
  | .sql => SqlMerchantRepository.create

def update : Backend → MerchantTable → Merchant → Except AppError MerchantTable
  | .memory => MemoryMerchantRepository.update
  | .sql => SqlMerchantRepository.update

variable {b : Backend} {t t' : MerchantTable} {merchant row : Merchant}

theorem create_ok (h : t.create b merchant = .ok t') :
    t.get? merchant.id = none ∧ t' = t.put merchant := by
  cases b with
  | memory =>
      simp only [create, MemoryMerchantRepository.create] at h
      split at h
      · cases h
      · next hNew =>
          cases h
          exact ⟨by simpa [Table.has] using hNew, rfl⟩
  | sql =>
      simp only [create, SqlMerchantRepository.create] at h
      split at h
      · cases h
      · next hNew =>
          split at h
          · cases h
          · cases h
            exact ⟨by simpa [Table.has] using hNew, rfl⟩

/-- An update that keeps the time of creation writes the merchant as it is. -/
theorem update_ok (hRow : t.get? merchant.id = some row) (hCreated : merchant.createdAt = row.createdAt)
    (h : t.update b merchant = .ok t') : t' = t.put merchant := by
  cases b with
  | memory =>
      simp only [update, MemoryMerchantRepository.update] at h
      split at h
      · cases h
        rfl
      · cases h
  | sql =>
      simp only [update, SqlMerchantRepository.update, hRow] at h
      split at h
      · cases h
      · cases h
        have hId : row.id = merchant.id := Table.key_of_get? hRow
        rw [SqlMerchantRepository.setColumns, hId, ← hCreated]

end MerchantTable

structure CreateMerchantInput where
  name : String
  id : Option String
  usdtHdPath : Option String
deriving DecidableEq

/-- The methods of the service that are called. -/
inductive MerchantRequest
  | ensureDefault
  | create (input : CreateMerchantInput)
  | authenticate (apiKey : String)
  | rotateKey (id : String)
  | setStatus (id : String) (status : MerchantStatus)
deriving DecidableEq

/-- The methods that write a merchant they have read. -/
inductive MerchantMethod
  | rotateKey
  | setStatus
deriving DecidableEq

/-- What the service awaits, with the sources of time and randomness. `invoke` puts
the call of a method on record, and a key says which merchant it is drawn for. -/
inductive MerchantCall
  | invoke (request : MerchantRequest)
  | findById (id : String)
  | findByApiKey (apiKey : String)
  | create (merchant : Merchant)
  | update (caller : MerchantMethod) (merchant : Merchant)
  | newMerchantApiKey (forMerchant : String)
  | uuid
  | now
  | auditRecord (input : AuditInput)
deriving DecidableEq

abbrev MerchantAns : MerchantCall → Type
  | .findById _ => Option Merchant
  | .findByApiKey _ => Option Merchant
  | .create _ => Merchant
  | .update _ _ => Merchant
  | .newMerchantApiKey _ => String
  | .uuid => String
  | .now => Int
  | _ => Unit

/-- What the environment decides about one call. -/
inductive MerchantReply
  | normal
  | throws (applied : Bool) (e : AppError)
  | text (s : String)
  | time (t : Int)

/-- One settled call, and whether it acted on the stored merchants. -/
structure MerchantEvent where
  task : Nat
  call : MerchantCall
  answer : Except AppError (MerchantAns call)
  applied : Bool

/-- The stored merchants and the calls settled so far, newest first. -/
structure MerchantWorld where
  merchants : MerchantTable
  trace : List MerchantEvent

namespace MerchantWorld

def empty : MerchantWorld := ⟨.empty, []⟩

def log (w : MerchantWorld) (event : MerchantEvent) : MerchantWorld :=
  { w with trace := event :: w.trace }

def merchant (w : MerchantWorld) (id : String) : Option Merchant :=
  w.merchants.get? id

end MerchantWorld

/-- The key a settled call drew, and the merchant it was drawn for. -/
def MerchantCall.drew : (c : MerchantCall) → Except AppError (MerchantAns c) →
    Option (String × String)
  | .newMerchantApiKey forMerchant, .ok key => some (forMerchant, key)
  | _, _ => none

/-- The keys drawn so far. -/
def MerchantWorld.drawn (w : MerchantWorld) : List (String × String) :=
  w.trace.filterMap fun e => e.call.drew e.answer

/-- The effect of a repository call on the stored merchants. -/
def merchantEffect (b : Backend) : (c : MerchantCall) →
    Option (MerchantTable → Except AppError (MerchantAns c × MerchantTable))
  | .findById id => some fun t => .ok (t.get? id, t)
  | .findByApiKey apiKey => some fun t => .ok (t.findByApiKey apiKey, t)
  | .create merchant => some fun t => (t.create b merchant).map fun t' => (merchant, t')
  | .update _ merchant => some fun t => (t.update b merchant).map fun t' => (merchant, t')
  | _ => none

/-- What the other calls answer. Random keys are not empty, and never drawn twice. -/
def merchantAnswer (w : MerchantWorld) : (c : MerchantCall) → MerchantReply →
    Option (MerchantAns c)
  | .invoke _, .normal => some ()
  | .newMerchantApiKey _, .text s =>
      if s = "" ∨ s ∈ w.drawn.map Prod.snd then none else some s
  | .uuid, .text s => some s
  | .now, .time t => some t
  | .auditRecord _, .normal => some ()
  | _, _ => none

/-- Outside the repository only the audit log can fail. -/
def MerchantCall.mayThrow : MerchantCall → Bool
  | .auditRecord _ => true
  | _ => false

/-- Settle one call of task `i`. -/
def merchantExec (b : Backend) (i : Nat) (c : MerchantCall) (reply : MerchantReply)
    (w : MerchantWorld) : Option (Except AppError (MerchantAns c) × MerchantWorld) :=
  match merchantEffect b c with
  | some effect =>
      match reply with
      | .normal => match effect w.merchants with
          | .ok (a, t) => some (.ok a, { w with merchants := t }.log ⟨i, c, .ok a, true⟩)
          | .error e => some (.error e, w.log ⟨i, c, .error e, false⟩)
      | .throws false e => some (.error e, w.log ⟨i, c, .error e, false⟩)
      | .throws true e => match effect w.merchants with
          | .ok (_, t) => some (.error e, { w with merchants := t }.log ⟨i, c, .error e, true⟩)
          | .error _ => none
      | _ => none
  | none =>
      match reply with
      | .throws _ e =>
          if c.mayThrow then some (.error e, w.log ⟨i, c, .error e, false⟩) else none
      | _ => (merchantAnswer w c reply).map fun a => (.ok a, w.log ⟨i, c, .ok a, false⟩)

section exec

variable {b : Backend} {i : Nat} {c : MerchantCall} {reply : MerchantReply} {w w' : MerchantWorld}
  {answer : Except AppError (MerchantAns c)}

/-- A repository call takes its effect or leaves the merchants alone. -/
theorem merchantExec_store {effect : MerchantTable → Except AppError (MerchantAns c × MerchantTable)}
    (h : merchantExec b i c reply w = some (answer, w')) (hEffect : merchantEffect b c = some effect) :
    (∃ e, answer = .error e ∧ w' = w.log ⟨i, c, .error e, false⟩ ∧
      (effect w.merchants = .error e ∨ reply = .throws false e)) ∨
    (∃ a t, effect w.merchants = .ok (a, t) ∧ w' = { w with merchants := t }.log ⟨i, c, answer, true⟩ ∧
      (answer = .ok a ∧ reply = .normal ∨ ∃ e, answer = .error e ∧ reply = .throws true e)) := by
  simp only [merchantExec, hEffect] at h
  split at h
  · split at h
    · next a t hOk =>
        cases h
        exact .inr ⟨a, t, hOk, rfl, .inl ⟨rfl, rfl⟩⟩
    · next e hError =>
        cases h
        exact .inl ⟨e, rfl, rfl, .inl hError⟩
  · cases h
    exact .inl ⟨_, rfl, rfl, .inr rfl⟩
  · split at h
    · next a t hOk =>
        cases h
        exact .inr ⟨a, t, hOk, rfl, .inr ⟨_, rfl, rfl⟩⟩
    · cases h
  · cases h

/-- The other calls leave the merchants alone. -/
theorem merchantExec_outside (h : merchantExec b i c reply w = some (answer, w'))
    (hEffect : merchantEffect b c = none) :
    w' = w.log ⟨i, c, answer, false⟩ ∧
      ((∃ e, answer = .error e ∧ c.mayThrow = true) ∨
        ∃ a, merchantAnswer w c reply = some a ∧ answer = .ok a) := by
  simp only [merchantExec, hEffect] at h
  split at h
  · split at h
    · next hMay =>
        cases h
        exact ⟨rfl, .inl ⟨_, rfl, hMay⟩⟩
    · cases h
  · obtain ⟨a, hAnswer, hEq⟩ := Option.map_eq_some_iff.mp h
    cases hEq
    exact ⟨rfl, .inr ⟨a, hAnswer, rfl⟩⟩

/-- What one settled call does: it is logged, and it leaves the merchants alone,
creates one or updates one. -/
theorem merchantExec_cases (h : merchantExec b i c reply w = some (answer, w')) :
    ∃ applied, w'.trace = ⟨i, c, answer, applied⟩ :: w.trace ∧
      ((w'.merchants = w.merchants ∧
          (applied = true → (∀ x, c ≠ .create x) ∧ ∀ caller x, c ≠ .update caller x)) ∨
        (∃ x, c = .create x ∧ applied = true ∧ w.merchants.create b x = .ok w'.merchants) ∨
        (∃ caller x, c = .update caller x ∧ applied = true ∧
          w.merchants.update b x = .ok w'.merchants)) := by
  cases hEffect : merchantEffect b c with
  | none =>
      obtain ⟨rfl, -⟩ := merchantExec_outside h hEffect
      exact ⟨false, rfl, .inl ⟨rfl, nofun⟩⟩
  | some effect =>
      obtain ⟨e, rfl, rfl, -⟩ | ⟨a, t, hOk, rfl, -⟩ := merchantExec_store h hEffect
      · exact ⟨false, rfl, .inl ⟨rfl, nofun⟩⟩
      · refine ⟨true, rfl, ?_⟩
        cases c with
        | create x =>
            cases hEffect
            dsimp only at hOk
            cases hCreate : w.merchants.create b x with
            | error e =>
                rw [hCreate] at hOk
                cases hOk
            | ok t' =>
                rw [hCreate] at hOk
                cases hOk
                exact .inr (.inl ⟨x, rfl, rfl, hCreate⟩)
        | update caller x =>
            cases hEffect
            dsimp only at hOk
            cases hUpdate : w.merchants.update b x with
            | error e =>
                rw [hUpdate] at hOk
                cases hOk
            | ok t' =>
                rw [hUpdate] at hOk
                cases hOk
                exact .inr (.inr ⟨caller, x, rfl, rfl, hUpdate⟩)
        | findById id =>
            cases hEffect
            cases hOk
            exact .inl ⟨rfl, fun _ => ⟨nofun, nofun⟩⟩
        | findByApiKey apiKey =>
            cases hEffect
            cases hOk
            exact .inl ⟨rfl, fun _ => ⟨nofun, nofun⟩⟩
        | _ => cases hEffect

end exec

/-- An asynchronous method of the service. It takes no locks. -/
abbrev MerchantAction (α : Type) := Prog Unit MerchantCall MerchantAns AppError α

namespace MerchantService

open Prog (perform)

def DEFAULT_MERCHANT_ID : String := "default"

def notFound (id : String) : AppError :=
  ⟨.notFound, s!"merchant not found: {id}"⟩

/-- A merchant as it is provisioned. -/
def newMerchant (id name apiKey : String) (usdtHdPath : Option String) (now : Int) : Merchant where
  id := id
  name := name
  status := .active
  apiKey := apiKey
  apiKeyPrevious := none
  usdtHdPath := usdtHdPath
  createdAt := now
  updatedAt := now

/-- Ensure the implicit default tenant exists. -/
def ensureDefault : MerchantAction Merchant := do
  let existing ← perform (MerchantCall.findById DEFAULT_MERCHANT_ID)
  match existing with
  | some existing => pure existing
  | none => do
      let now ← perform MerchantCall.now
      let apiKey ← perform (MerchantCall.newMerchantApiKey DEFAULT_MERCHANT_ID)
      perform (MerchantCall.create (newMerchant DEFAULT_MERCHANT_ID "Default" apiKey none now))

/-- `await this.audit?.record(...)` -/
def record (audit : Bool) (input : AuditInput) : MerchantAction Unit :=
  if audit then perform (MerchantCall.auditRecord input) else pure ()

/-- Provision a merchant under an id that is given or drawn. -/
def provision (audit : Bool) (input : CreateMerchantInput) (now : Int) (id : String) :
    MerchantAction Merchant := do
  let apiKey ← perform (MerchantCall.newMerchantApiKey id)
  let created ← perform (MerchantCall.create (newMerchant id input.name apiKey input.usdtHdPath now))
  record audit ⟨"merchant.created", none, some created.id, [("name", .text created.name)]⟩
  pure created

def create (audit : Bool) (input : CreateMerchantInput) : MerchantAction Merchant := do
  let now ← perform MerchantCall.now
  match input.id with
  | some id => provision audit input now id
  | none => do
      let id ← perform MerchantCall.uuid
      provision audit input now id

/-- Resolve the active merchant for a key, current or previous. -/
def authenticate (apiKey : String) : MerchantAction (Option Merchant) :=
  if apiKey = "" then pure none
  else do
    let merchant ← perform (MerchantCall.findByApiKey apiKey)
    pure (merchant.filter fun merchant => merchant.status = .active)

/-- The merchant with a new key, the old one as the previous. -/
def rotated (merchant : Merchant) (apiKey : String) (now : Int) : Merchant :=
  { merchant with apiKeyPrevious := some merchant.apiKey, apiKey := apiKey, updatedAt := now }

/-- Rotate the key, keeping the old one valid during the grace window. -/
def rotateKey (audit : Bool) (id : String) : MerchantAction Merchant := do
  let merchant ← perform (MerchantCall.findById id)
  match merchant with
  | none => throw (notFound id)
  | some merchant => do
      let apiKey ← perform (MerchantCall.newMerchantApiKey id)
      let now ← perform MerchantCall.now
      let saved ← perform (MerchantCall.update .rotateKey (rotated merchant apiKey now))
      record audit ⟨"merchant.key_rotated", none, some id, []⟩
      pure saved

/-- The text of a status. -/
def statusName : MerchantStatus → String
  | .active => "active"
  | .suspended => "suspended"

def setStatus (audit : Bool) (id : String) (status : MerchantStatus) : MerchantAction Merchant := do
  let merchant ← perform (MerchantCall.findById id)
  match merchant with
  | none => throw (notFound id)
  | some merchant => do
      let now ← perform MerchantCall.now
      let saved ← perform (MerchantCall.update .setStatus
        { merchant with status := status, updatedAt := now })
      record audit ⟨"merchant.status_changed", none, some id, [("status", .text (statusName status))]⟩
      pure saved

/-- A method, by the request for it. -/
def serve (audit : Bool) : MerchantRequest → MerchantAction (Option Merchant)
  | .ensureDefault => do
      let merchant ← ensureDefault
      pure (some merchant)
  | .create input => do
      let merchant ← create audit input
      pure (some merchant)
  | .authenticate apiKey => authenticate apiKey
  | .rotateKey id => do
      let merchant ← rotateKey audit id
      pure (some merchant)
  | .setStatus id status => do
      let merchant ← setStatus audit id status
      pure (some merchant)

end MerchantService

/-- Instances of the service that share one repository. -/
def merchantSystem (b : Backend) (audit : Bool) :
    System Unit MerchantCall MerchantAns AppError (Option Merchant) MerchantWorld MerchantReply
      MerchantRequest where
  exec := merchantExec b
  entry request := do
    let _ ← Prog.perform (MerchantCall.invoke request)
    MerchantService.serve audit request

abbrev Merchants := Machine Unit MerchantCall MerchantAns AppError (Option Merchant) MerchantWorld

end VpnPayment
