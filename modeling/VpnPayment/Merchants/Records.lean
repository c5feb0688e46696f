import VpnPayment.Async.History
import VpnPayment.Async.Snapshot
import VpnPayment.Merchants.Service

/-! What each method of `MerchantService` has done when it writes a merchant and when
it returns. -/
namespace VpnPayment

open Async Collections

/-- What a task has done. -/
abbrev MerchantPast := History MerchantCall MerchantAns AppError

def MerchantCall.request : MerchantCall → Option MerchantRequest
  | .invoke request => some request
  | _ => none

/-- The merchant a call stores. -/
def MerchantCall.stored : MerchantCall → Option Merchant
  | .create x => some x
  | .update _ x => some x
  | _ => none

/-- The merchant that a settled call found under an id. -/
def merchantRead (h : Σ c : MerchantCall, Except AppError (MerchantAns c)) (id : String) :
    Option Merchant :=
  match h with
  | ⟨.findById id', .ok found⟩ => if id' = id then found else none
  | _ => none

namespace MerchantPast

/-- The methods the task was called as. -/
def requests (past : MerchantPast) : List MerchantRequest :=
  past.filterMap fun h => h.1.request

/-- The newest call was a lookup by key. -/
def lookedUp : MerchantPast → Bool
  | ⟨.findByApiKey _, _⟩ :: _ => true
  | _ => false

def lastRead (past : MerchantPast) (id : String) : Option Merchant :=
  past.findSome? fun h => merchantRead h id

/-- The newest call that stored a merchant. -/
def lastStored (past : MerchantPast) : Option (Σ c : MerchantCall, Except AppError (MerchantAns c)) :=
  past.find? fun h => h.1.stored.isSome

/-- What a method writes is made from the merchant it has read last. -/
def Prepared (past : MerchantPast) (x : Merchant) : MerchantMethod → Prop
  | .rotateKey => ∃ r key now, past.lastRead r.id = some r ∧
      x = MerchantService.rotated r key now ∧ ⟨.newMerchantApiKey r.id, .ok key⟩ ∈ past
  | .setStatus => ∃ r now, past.lastRead r.id = some r ∧
      x = { r with status := x.status, updatedAt := now } ∧ past.requests = [.setStatus r.id x.status]

/-- What a task may call after what it has done. -/
def Admits (past : MerchantPast) : MerchantCall → Prop
  | .invoke _ => past = []
  | .update caller x => past.lookedUp = false ∧ past.Prepared x caller
  | .create x => past.lookedUp = false ∧
      ∃ key, x.keys = [key] ∧ ⟨.newMerchantApiKey x.id, .ok key⟩ ∈ past
  | _ => past.lookedUp = false

end MerchantPast

/-- What the answers of the repository are like. A method starts without failing. -/
def merchantAnswers : (c : MerchantCall) → Except AppError (MerchantAns c) → Prop
  | .invoke _, .error _ => False
  | .findById id, .ok (some found) => (found : Merchant).id = id
  | .update _ x, .ok saved => saved = x
  | _, _ => True

/-- What a method that has returned has done. -/
def MerchantRequest.Done : MerchantRequest → Except AppError (Option Merchant) → MerchantPast → Prop
  | .rotateKey id, .ok saved, past =>
      ∃ x, saved = some x ∧ x.id = id ∧ past.lastStored = some ⟨.update .rotateKey x, .ok x⟩
  | .setStatus id status, .ok _, past =>
      ∃ x, x.id = id ∧ x.status = status ∧ past.lastStored = some ⟨.update .setStatus x, .ok x⟩
  | _, _, _ => True

namespace MerchantPast

/-- A lookup by key is answered as it came out, an active merchant only. -/
def Resolved (result : Except AppError (Option Merchant)) : MerchantPast → Prop
  | ⟨.findByApiKey _, .ok found⟩ :: _ =>
      result = .ok (found.filter fun merchant => merchant.status = .active)
  | ⟨.findByApiKey _, .error e⟩ :: _ => result = .error e
  | _ => True

/-- The one method a task was called as has done its work. -/
def Returns (result : Except AppError (Option Merchant)) (past : MerchantPast) : Prop :=
  (∃ request, past.requests = [request] ∧ request.Done result past) ∧ past.Resolved result

end MerchantPast

namespace MerchantService

open Prog (perform follows_perform follows_bind follows_mono follows_ofExcept)

/-- The program does what is admitted, and is done when it returns. -/
abbrev Serves (p : MerchantAction (Option Merchant)) (past : MerchantPast) : Prop :=
  p.Follows merchantAnswers MerchantPast.Admits MerchantPast.Returns past

/-- The same for a method that returns a merchant. -/
abbrev ServesMerchant (p : MerchantAction Merchant) (past : MerchantPast) : Prop :=
  p.Follows merchantAnswers MerchantPast.Admits
    (fun result past' => MerchantPast.Returns (result.map some) past') past

variable {audit : Bool} {past : MerchantPast} {request : MerchantRequest}

theorem serves_of_servesMerchant {p : MerchantAction Merchant} (h : ServesMerchant p past) :
    Serves (do
      let merchant ← p
      pure (some merchant)) past := by
  apply follows_bind
  apply follows_mono (fun _ _ => id) _ h
  intro result past' hReturns
  cases result <;> exact hReturns

/-- The audit record comes last. -/
theorem serves_record {input : AuditInput} {saved : Merchant}
    {c : MerchantCall} {answer : Except AppError (MerchantAns c)}
    (hLast : MerchantPast.lookedUp (⟨c, answer⟩ :: past) = false)
    (hRequests : MerchantPast.requests (⟨c, answer⟩ :: past) = [request])
    (hDone : ∀ past', MerchantPast.lastStored past' = MerchantPast.lastStored (⟨c, answer⟩ :: past) →
      request.Done (.ok (some saved)) past')
    (hFailed : ∀ e past', request.Done (.error e) past') :
    ServesMerchant (do
      record audit input
      pure saved) (⟨c, answer⟩ :: past) := by
  unfold record
  split
  · apply follows_perform hLast
    · intro a _
      exact ⟨⟨request, hRequests, hDone _ rfl⟩, trivial⟩
    · intro e _
      exact ⟨⟨request, hRequests, hFailed e _⟩, trivial⟩
  · apply And.intro ⟨request, hRequests, hDone _ rfl⟩
    cases c <;> trivial

/-- A call that fails ends the method. -/
theorem returns_of_error {c : MerchantCall} {e e' : AppError}
    (hLast : MerchantPast.lookedUp (⟨c, .error e⟩ :: past) = false)
    (hRequests : MerchantPast.requests (⟨c, .error e⟩ :: past) = [request])
    (hFailed : ∀ past', request.Done (.error e') past') :
    MerchantPast.Returns (.error e') (⟨c, .error e⟩ :: past) := by
  apply And.intro ⟨request, hRequests, hFailed _⟩
  cases c <;> trivial

theorem serves_rotateKey (id : String) :
    ServesMerchant (rotateKey audit id) [⟨.invoke (.rotateKey id), .ok ()⟩] := by
  apply follows_perform rfl
  · intro found hFound
    cases found with
    | none => exact ⟨⟨.rotateKey id, rfl, trivial⟩, trivial⟩
    | some r =>
        have hId : r.id = id := hFound
        apply follows_perform rfl
        · intro key _
          apply follows_perform rfl
          · intro now _
            apply follows_perform
            · refine ⟨rfl, r, key, now, ?_, rfl, ?_⟩
              · simp [MerchantPast.lastRead, merchantRead, hId]
              · simp [hId]
            · intro saved hSaved
              cases hSaved
              apply serves_record rfl rfl
              · intro past' hLast
                exact ⟨_, rfl, hId, hLast⟩
              · exact fun _ _ => trivial
            · exact fun _ _ => returns_of_error rfl rfl fun _ => trivial
          · exact fun _ _ => returns_of_error rfl rfl fun _ => trivial
        · exact fun _ _ => returns_of_error rfl rfl fun _ => trivial
  · exact fun _ _ => returns_of_error rfl rfl fun _ => trivial

theorem serves_setStatus (id : String) (status : MerchantStatus) :
    ServesMerchant (setStatus audit id status) [⟨.invoke (.setStatus id status), .ok ()⟩] := by
  apply follows_perform rfl
  · intro found hFound
    cases found with
    | none => exact ⟨⟨.setStatus id status, rfl, trivial⟩, trivial⟩
    | some r =>
        have hId : r.id = id := hFound
        apply follows_perform rfl
        · intro now _
          apply follows_perform
          · refine ⟨rfl, r, now, ?_, rfl, ?_⟩
            · simp [MerchantPast.lastRead, merchantRead, hId]
            · simp [MerchantPast.requests, MerchantCall.request, hId]
          · intro saved hSaved
            cases hSaved
            apply serves_record rfl rfl
            · intro past' hLast
              exact ⟨{ r with status := status, updatedAt := now }, hId, rfl, hLast⟩
            · exact fun _ _ => trivial
          · exact fun _ _ => returns_of_error rfl rfl fun _ => trivial
        · exact fun _ _ => returns_of_error rfl rfl fun _ => trivial
  · exact fun _ _ => returns_of_error rfl rfl fun _ => trivial

theorem serves_ensureDefault :
    ServesMerchant ensureDefault [⟨.invoke .ensureDefault, .ok ()⟩] := by
  apply follows_perform rfl
  · intro found _
    cases found with
    | some existing => exact ⟨⟨.ensureDefault, rfl, trivial⟩, trivial⟩
    | none =>
        apply follows_perform rfl
        · intro now _
          apply follows_perform rfl
          · intro key _
            apply And.intro ⟨rfl, key, rfl, by simp [newMerchant]⟩
            intro answer _
            cases answer <;> exact ⟨⟨.ensureDefault, rfl, trivial⟩, trivial⟩
          · exact fun _ _ => returns_of_error rfl rfl fun _ => trivial
        · exact fun _ _ => returns_of_error rfl rfl fun _ => trivial
  · exact fun _ _ => returns_of_error rfl rfl fun _ => trivial

theorem serves_provision {input : CreateMerchantInput} {now : Int} (id : String)
    (hLooked : past.lookedUp = false) (hRequests : past.requests = [.create input]) :
    ServesMerchant (provision audit input now id) past := by
  apply follows_perform hLooked
  · intro key _
    apply follows_perform
    · exact ⟨rfl, key, rfl, by simp [newMerchant]⟩
    · intro created _
      apply serves_record rfl
      · exact hRequests
      · exact fun _ _ => trivial
      · exact fun _ _ => trivial
    · intro e _
      apply returns_of_error rfl
      · exact hRequests
      · exact fun _ => trivial
  · intro e _
    apply returns_of_error rfl
    · exact hRequests
    · exact fun _ => trivial

theorem serves_create (input : CreateMerchantInput) :
    ServesMerchant (create audit input) [⟨.invoke (.create input), .ok ()⟩] := by
  apply follows_perform rfl
  · intro now _
    cases input.id with
    | some id => exact serves_provision id rfl rfl
    | none =>
        apply follows_perform rfl
        · exact fun id _ => serves_provision id rfl rfl
        · exact fun _ _ => returns_of_error rfl rfl fun _ => trivial
  · exact fun _ _ => returns_of_error rfl rfl fun _ => trivial

theorem serves_authenticate (apiKey : String) :
    Serves (authenticate apiKey) [⟨.invoke (.authenticate apiKey), .ok ()⟩] := by
  unfold authenticate
  split
  · exact ⟨⟨.authenticate apiKey, rfl, trivial⟩, trivial⟩
  · apply follows_perform rfl
    · exact fun found _ => ⟨⟨.authenticate apiKey, rfl, trivial⟩, rfl⟩
    · exact fun e _ => ⟨⟨.authenticate apiKey, rfl, trivial⟩, rfl⟩

theorem serves_serve (request : MerchantRequest) :
    Serves (serve audit request) [⟨.invoke request, .ok ()⟩] := by
  cases request with
  | ensureDefault => exact serves_of_servesMerchant serves_ensureDefault
  | create input => exact serves_of_servesMerchant (serves_create input)
  | authenticate apiKey => exact serves_authenticate apiKey
  | rotateKey id => exact serves_of_servesMerchant (serves_rotateKey id)
  | setStatus id status => exact serves_of_servesMerchant (serves_setStatus id status)

/-- What holds of every task, from its start on. -/
theorem serves_entry (b : Backend) (request : MerchantRequest) :
    Serves ((merchantSystem b audit).entry request) [] := by
  apply follows_perform rfl
  · exact fun _ _ => serves_serve request
  · exact fun _ hNever => hNever.elim

end MerchantService
end VpnPayment
