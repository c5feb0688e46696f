import VpnPayment.Services.System

/-! How calls act on the stored subscriptions. -/
namespace VpnPayment

open Async Collections

namespace SubscriptionStore

/-- The store with a subscription written to it. The memory backend keeps its
index of active subscriptions. -/
def write (b : Backend) (s : SubscriptionStore) (sub : Subscription) : SubscriptionStore :=
  match b with
  | .memory => MemorySubscriptionRepository.update s sub
  | .sql => { s with byId := s.byId.put sub }

variable {b : Backend} {s s' : SubscriptionStore} {sub row : Subscription}

@[simp] theorem byId_write : (s.write b sub).byId = s.byId.put sub := by
  cases b <;> rfl

/-- A new active subscription is written, unless the unique index objects. -/
theorem create_eq (hNew : s.byId.get? sub.id = none) (hActive : sub.active = true) :
    s.create b sub =
      if b = .sql ∧ SqlSubscriptionRepository.violatesActiveUser s sub = true then
        .error (uniqueViolation "idx_subscriptions_active_user")
      else .ok (s.write b sub) := by
  cases b with
  | memory => simp [create, write, MemorySubscriptionRepository.create,
      MemorySubscriptionRepository.update, hActive]
  | sql => simp [create, write, SqlSubscriptionRepository.create, Table.has, hNew]

/-- An update of a stored subscription writes it, unless the unique index objects. -/
theorem update_eq (hRow : s.byId.get? sub.id = some row)
    (hSame : SqlSubscriptionRepository.setColumns row sub = sub) :
    s.update b sub =
      if b = .sql ∧ SqlSubscriptionRepository.violatesActiveUser s sub = true then
        .error (uniqueViolation "idx_subscriptions_active_user")
      else .ok (s.write b sub) := by
  cases b with
  | memory => simp [update, write]
  | sql => simp [update, write, SqlSubscriptionRepository.update, hRow, hSame]

/-- The index objects to an active row only if another row of the user is active. -/
theorem violatesActiveUser_eq_false
    (h : sub.active = true → ∀ r ∈ s.byId.rows, r.active = true → r.userId = sub.userId →
      r.id = sub.id) : SqlSubscriptionRepository.violatesActiveUser s sub = false := by
  unfold SqlSubscriptionRepository.violatesActiveUser
  rw [Bool.and_eq_false_iff]
  by_cases hActive : sub.active = true
  · apply Or.inr
    rw [List.any_eq_false]
    intro r hr hOther
    simp only [Bool.and_eq_true, decide_eq_true_eq] at hOther
    exact hOther.2 (h hActive r hr hOther.1.1 hOther.1.2)
  · exact .inl (by simpa using hActive)

end SubscriptionStore

/-- The subscription a call writes. -/
def Call.writesSubscription : Call → Option Subscription
  | .subscriptionsCreate sub => some sub
  | .subscriptionsUpdate sub => some sub
  | _ => none

section exec

variable {b : Backend} {i : Nat} {c : Call} {reply : Reply} {w w' : World}
  {answer : Except AppError (Ans c)}

/-- Other calls leave the subscriptions alone, and only `tick` moves the clock. -/
theorem exec_subscriptions (hNone : c.writesSubscription = none)
    (hExec : exec b i c reply w = some (answer, w')) :
    w'.store.subscriptions = w.store.subscriptions ∧ (c ≠ .tick → w'.clock = w.clock) := by
  cases hEffect : storeEffect b w.clock c with
  | none =>
      obtain ⟨e, -, rfl, -, -⟩ | ⟨a, hAnswer, -, rfl⟩ := exec_outside hExec hEffect
      · exact ⟨rfl, fun _ => rfl⟩
      · unfold noted
        split
        · exact ⟨rfl, fun _ => rfl⟩
        · exact ⟨rfl, fun hTick => absurd rfl hTick⟩
        · exact ⟨rfl, fun _ => rfl⟩
  | some effect =>
      obtain ⟨e, -, rfl, -⟩ | ⟨a, s, hOk, rfl, -⟩ := exec_store hExec hEffect
      · exact ⟨rfl, fun _ => rfl⟩
      · refine ⟨?_, fun _ => rfl⟩
        cases c <;> simp only [storeEffect, Option.some.injEq, reduceCtorEq] at hEffect <;>
          subst hEffect <;> simp only [Call.writesSubscription, reduceCtorEq] at hNone <;>
          try (cases hOk; rfl)
        all_goals
          obtain ⟨t, -, hEq⟩ := map_eq_ok_iff.mp hOk
          cases hEq
          rfl

/-- What the reads that matter to subscriptions answer. -/
def Reads (b : Backend) : (c : Call) → Ans c → World → Prop
  | .now, a, w => a = w.clock
  | .subscriptionsFindActiveByUser u, a, w => a = w.store.subscriptions.findActiveByUser b u
  | .subscriptionsListActive, a, w => a = w.store.subscriptions.activeRows
  | .uuid, a, w => w.store.subscriptions.byId.get? a = none ∧ a ≠ ""
  | _, _, _ => True

theorem exec_reads {a : Ans c} (hExec : exec b i c reply w = some (.ok a, w')) :
    Reads b c a w' := by
  cases c with
  | now =>
      obtain ⟨e, hEq, -⟩ | ⟨t, hAnswer, hEq, rfl⟩ := exec_outside hExec rfl
      · cases hEq
      · cases hEq
        cases reply <;> cases hAnswer
        rfl
  | uuid =>
      obtain ⟨e, hEq, -⟩ | ⟨s, hAnswer, hEq, rfl⟩ := exec_outside hExec rfl
      · cases hEq
      · cases hEq
        cases reply <;> simp only [outsideAnswer, reduceCtorEq] at hAnswer
        obtain ⟨hUnused, hEq⟩ := Option.ite_none_right_eq_some.mp hAnswer
        cases hEq
        exact hUnused.2.2.2
  | subscriptionsFindActiveByUser u =>
      obtain ⟨e, hEq, -⟩ | ⟨a', s, hOk, rfl, hEq | ⟨e, hEq, -⟩⟩ := exec_store hExec rfl
      · cases hEq
      · cases hOk
        cases hEq
        rfl
      · cases hEq
  | subscriptionsListActive =>
      obtain ⟨e, hEq, -⟩ | ⟨a', s, hOk, rfl, hEq | ⟨e, hEq, -⟩⟩ := exec_store hExec rfl
      · cases hEq
      · cases hOk
        cases hEq
        exact SubscriptionStore.listActive_eq b _
      · cases hEq
  | _ => trivial

/-- A write that the repository accepts stores the subscription, unless it throws
before it takes effect. -/
theorem exec_writes {sub : Subscription} {s : SubscriptionStore}
    (hAccepted : c = .subscriptionsCreate sub ∧ w.store.subscriptions.create b sub = .ok s ∨
      c = .subscriptionsUpdate sub ∧ w.store.subscriptions.update b sub = .ok s)
    (hExec : exec b i c reply w = some (answer, w')) :
    w'.clock = w.clock ∧ (w'.store.subscriptions = w.store.subscriptions ∨
      w'.store.subscriptions = s) := by
  rcases hAccepted with ⟨rfl, hOk⟩ | ⟨rfl, hOk⟩
  · obtain ⟨e, -, rfl, -⟩ | ⟨a, store, hEffect, rfl, -⟩ := exec_store hExec rfl
    · exact ⟨rfl, .inl rfl⟩
    · obtain ⟨t, hCreate, hEq⟩ := map_eq_ok_iff.mp hEffect
      cases hEq
      exact ⟨rfl, .inr (Except.ok.inj (hCreate.symm.trans hOk))⟩
  · obtain ⟨e, -, rfl, -⟩ | ⟨a, store, hEffect, rfl, -⟩ := exec_store hExec rfl
    · exact ⟨rfl, .inl rfl⟩
    · obtain ⟨t, hUpdate, hEq⟩ := map_eq_ok_iff.mp hEffect
      cases hEq
      exact ⟨rfl, .inr (Except.ok.inj (hUpdate.symm.trans hOk))⟩

end exec
end VpnPayment
