import Mathlib.Logic.Relation
import VpnPayment.Domain.Types

/-! The order state machine. -/
namespace VpnPayment

def TRANSITIONS : OrderStatus → List OrderStatus
  | .PENDING => [.PAID, .EXPIRED, .CANCELLED, .FAILED]
  | .PAID => [.FULFILLED, .REFUNDED]
  | .FULFILLED => [.REFUNDED]
  | .EXPIRED => []
  | .CANCELLED => []
  | .REFUNDED => []
  | .FAILED => []

def canTransition (source target : OrderStatus) : Bool :=
  (TRANSITIONS source).contains target

def isTerminal (status : OrderStatus) : Bool :=
  (TRANSITIONS status).length = 0

/-- Validate a transition and answer its target. Applying the same state again
is accepted. -/
def assertTransition (source target : OrderStatus) : Except AppError OrderStatus :=
  if source = target then .ok target
  else if canTransition source target then .ok target
  else .error ⟨.invalidState, s!"cannot transition order from {source.name} to {target.name}"⟩

/-- One write moves an order along an edge or leaves its status alone. -/
def Edge (source target : OrderStatus) : Prop :=
  target = source ∨ canTransition source target = true

instance (source target : OrderStatus) : Decidable (Edge source target) :=
  inferInstanceAs (Decidable (_ ∨ _))

/-- What any number of allowed writes can do to a status. -/
def Follows : OrderStatus → OrderStatus → Prop :=
  Relation.ReflTransGen Edge

theorem assertTransition_ok {source target result : OrderStatus}
    (h : assertTransition source target = .ok result) : result = target ∧ Edge source target := by
  unfold assertTransition at h
  split at h
  · next hEq => exact ⟨(Except.ok.inj h).symm, .inl hEq.symm⟩
  · split at h
    · next hCan => exact ⟨(Except.ok.inj h).symm, .inr hCan⟩
    · cases h

theorem assertTransition_of_edge {source target : OrderStatus} (h : Edge source target) :
    assertTransition source target = .ok target := by
  unfold assertTransition
  split
  · rfl
  · next hNe => rw [if_pos (h.resolve_left (Ne.symm hNe))]

/-- Nothing leads back to PENDING. -/
theorem edge_to_pending {source : OrderStatus} (h : Edge source .PENDING) : source = .PENDING := by
  cases source <;> revert h <;> decide

theorem follows_to_pending {source target : OrderStatus} (h : Follows source target)
    (hTarget : target = .PENDING) : source = .PENDING := by
  induction h with
  | refl => exact hTarget
  | tail _ hEdge ih =>
      subst hTarget
      exact ih (edge_to_pending hEdge)

/-- An order leaves a terminal state only by staying in it. -/
theorem edge_of_isTerminal {source target : OrderStatus} (hTerminal : isTerminal source = true)
    (h : Edge source target) : target = source := by
  cases source <;> cases target <;> revert hTerminal h <;> decide

theorem follows_of_isTerminal {source target : OrderStatus} (hTerminal : isTerminal source = true)
    (h : Follows source target) : target = source := by
  induction h with
  | refl => rfl
  | tail _ hEdge ih => exact edge_of_isTerminal (ih ▸ hTerminal) (ih ▸ hEdge) |>.trans ih

/-- A fulfilled order can only be refunded. -/
theorem edge_from_fulfilled {source target : OrderStatus}
    (hSource : source = .FULFILLED ∨ source = .REFUNDED) (h : Edge source target) :
    target = .FULFILLED ∨ target = .REFUNDED := by
  rcases hSource with rfl | rfl <;> cases target <;> revert h <;> decide

theorem follows_from_fulfilled {target : OrderStatus} (h : Follows .FULFILLED target) :
    target = .FULFILLED ∨ target = .REFUNDED := by
  induction h with
  | refl => exact .inl rfl
  | tail _ hEdge ih => exact edge_from_fulfilled ih hEdge

end VpnPayment
