import VpnPayment.Async.Successive
import VpnPayment.Subscriptions.OneActive

/-! What a user has paid for, and the subscription the in-memory repository
finds. Each fulfilment adds the plan's duration to what is left of the time the
user has, and requests do not overlap. -/
namespace VpnPayment

open Async Collections
open Prog (perform)

/-- The end of the time a user has paid for, after another fulfilment at `t`. -/
def extend (E : Option Int) (t : Int) (plan : Plan) : Int :=
  (match E with
    | some e => max e t
    | none => t) + plan.durationDays * 86400000

/-- Until when each user has paid, once a request has settled. -/
def paidUntil (deps : Deps) (E : String → Option Int) (w : World) :
    Except AppError Outcome → String → Option Int
  | .ok (.fulfilled order _) =>
      match PlanCatalog.getPlan deps.plans order.planId with
      | some plan => Function.update E order.userId (some (extend (E order.userId) w.clock plan))
      | none => E
  | _ => E

theorem addMs_eq (plan : Plan) : SubscriptionService.addMs plan = plan.durationDays * 86400000 := by
  unfold SubscriptionService.addMs
  omega

section store

variable {s : SubscriptionStore} {sub r : Subscription} {u : String}

/-- Every entry of the index leads to a row of the user. -/
def Leads (s : SubscriptionStore) : Prop :=
  ∀ u e, s.activeByUser.get? u = some e → e.2 ≠ "" ∧
    ∃ r, s.byId.get? e.2 = some r ∧ r.userId = u

theorem Leads.write (h : Leads s) (hId : sub.id ≠ "")
    (hUser : ∀ old, s.byId.get? sub.id = some old → old.userId = sub.userId) :
    Leads (s.write .memory sub) := by
  intro u e hEntry
  have hOld : s.activeByUser.get? u = some e → e.2 ≠ "" ∧
      ∃ r, (s.write .memory sub).byId.get? e.2 = some r ∧ r.userId = u := by
    intro hBefore
    obtain ⟨hName, r, hGet, hOwner⟩ := h u e hBefore
    refine ⟨hName, ?_⟩
    rw [SubscriptionStore.byId_write, Table.get?_put]
    split
    · next hEq =>
        rw [← hEq] at hGet
        exact ⟨sub, rfl, (hUser r hGet).symm.trans hOwner⟩
    · exact ⟨r, hGet, hOwner⟩
  rw [OneActive.index_write] at hEntry
  split at hEntry
  · next hEq =>
      split at hEntry
      · cases hEntry
        exact ⟨hId, sub, by simp, hEq.symm⟩
      · exact hOld (Option.filter_eq_some_iff.mp hEntry).1
  · exact hOld hEntry

theorem Leads.owner (h : Leads s) (hFind : s.findActiveByUser .memory u = some r) :
    r.userId = u := by
  obtain ⟨e, hEntry, -, hGet⟩ := findActiveByUser_eq_some_iff.mp hFind
  obtain ⟨-, r', hGet', hOwner⟩ := h u e hEntry
  cases hGet.symm.trans hGet'
  exact hOwner

/-- What a write does to the lookup by user. -/
theorem Leads.find_write (h : Leads s) (hId : sub.id ≠ "")
    (hUser : ∀ old, s.byId.get? sub.id = some old → old.userId = sub.userId) (u : String) :
    (s.write .memory sub).findActiveByUser .memory u =
      if u = sub.userId then
        if sub.active then some sub
        else (s.findActiveByUser .memory u).filter fun r => r.id ≠ sub.id
      else s.findActiveByUser .memory u := by
  ext r
  rw [findActiveByUser_eq_some_iff, SubscriptionStore.byId_write]
  simp only [OneActive.index_write, Table.get?_put]
  split
  · split
    · constructor
      · rintro ⟨e, hEntry, -, hGet⟩
        cases hEntry
        simpa using hGet
      · intro hEq
        cases hEq
        exact ⟨_, rfl, hId, by simp⟩
    · simp only [Option.filter_eq_some_iff, findActiveByUser_eq_some_iff]
      constructor
      · rintro ⟨e, ⟨hEntry, hNe⟩, hName, hGet⟩
        have hNe : e.2 ≠ sub.id := by simpa using hNe
        rw [if_neg (Ne.symm hNe)] at hGet
        exact ⟨⟨e, hEntry, hName, hGet⟩, by simpa [Table.key_of_get? hGet] using hNe⟩
      · rintro ⟨⟨e, hEntry, hName, hGet⟩, hNe⟩
        have hNe : e.2 ≠ sub.id := by simpa [Table.key_of_get? hGet] using hNe
        exact ⟨e, ⟨hEntry, by simpa using hNe⟩, hName, by rw [if_neg (Ne.symm hNe)]; exact hGet⟩
  · next hOther =>
      rw [findActiveByUser_eq_some_iff]
      apply exists_congr
      intro e
      apply and_congr_right
      intro hEntry
      obtain ⟨-, row, hGet, hOwner⟩ := h u e hEntry
      have hNe : sub.id ≠ e.2 := by
        intro hEq
        rw [← hEq] at hGet
        exact hOther (hOwner.symm.trans (hUser row hGet))
      rw [if_neg hNe]

end store

/-- The lookup agrees with what users have paid for, and every other active row
has run out. -/
structure Entitled (E : String → Option Int) (w : World) : Prop where
  named : ∀ r ∈ w.store.subscriptions.byId.rows, r.id ≠ ""
  leads : Leads w.store.subscriptions
  found : ∀ u r, w.store.subscriptions.findActiveByUser .memory u = some r →
    r ∈ w.store.subscriptions.byId.rows ∧ E u = some r.expiresAt
  running : ∀ u t, E u = some t → w.clock < t →
    (w.store.subscriptions.findActiveByUser .memory u).isSome = true
  current : ∀ r ∈ w.store.subscriptions.byId.rows, r.active = true → w.clock < r.expiresAt →
    w.store.subscriptions.findActiveByUser .memory r.userId = some r

namespace Entitled

variable {E : String → Option Int} {w w' : World} {sub r : Subscription}

theorem same (h : Entitled E w) (hStore : w'.store.subscriptions = w.store.subscriptions)
    (hClock : w.clock ≤ w'.clock) : Entitled E w' := by
  constructor
  · rw [hStore]
    exact h.named
  · rw [hStore]
    exact h.leads
  · rw [hStore]
    exact h.found
  · intro u t hE hLater
    rw [hStore]
    exact h.running u t hE (lt_of_le_of_lt hClock hLater)
  · intro r hr hActive hLater
    rw [hStore] at hr ⊢
    exact h.current r hr hActive (lt_of_le_of_lt hClock hLater)

/-- Writing an active subscription next to which every other active one of the
user has run out. -/
theorem write_active (h : Entitled E w) (hId : sub.id ≠ "") (hActive : sub.active = true)
    (hUser : ∀ old, w.store.subscriptions.byId.get? sub.id = some old → old.userId = sub.userId)
    (hOthers : ∀ r ∈ w.store.subscriptions.byId.rows, r.active = true → r.userId = sub.userId →
      r.id ≠ sub.id → r.expiresAt ≤ w.clock)
    (hStore : w'.store.subscriptions = w.store.subscriptions.write .memory sub)
    (hClock : w'.clock = w.clock) :
    Entitled (Function.update E sub.userId (some sub.expiresAt)) w' := by
  have hFind := h.leads.find_write hId hUser
  constructor
  · intro r hr
    rw [hStore, SubscriptionStore.byId_write, Table.mem_put_iff] at hr
    rcases hr with rfl | ⟨hr, -⟩
    · exact hId
    · exact h.named r hr
  · rw [hStore]
    exact h.leads.write hId hUser
  · intro u r hLookup
    rw [hStore, hFind] at hLookup
    rw [hStore, SubscriptionStore.byId_write, Table.mem_put_iff]
    split at hLookup
    · next hEq =>
        simp only [Option.some.injEq] at hLookup
        exact ⟨.inl hLookup.symm, by simp [hEq, hLookup]⟩
    · next hNe =>
        obtain ⟨hr, hE⟩ := h.found u r hLookup
        have hKey : r.id ≠ sub.id := by
          intro hEq
          have hOwner := hUser r (hEq ▸ Table.get?_of_mem hr)
          exact hNe ((h.leads.owner hLookup).symm.trans hOwner)
        exact ⟨.inr ⟨hr, hKey⟩, by rw [Function.update_of_ne hNe, hE]⟩
  · intro u t hE hLater
    rw [hStore, hFind]
    split
    · rfl
    · next hNe =>
        rw [Function.update_of_ne hNe] at hE
        exact h.running u t hE (hClock ▸ hLater)
  · intro r hr hrActive hLater
    rw [hClock] at hLater
    rw [hStore, SubscriptionStore.byId_write, Table.mem_put_iff] at hr
    rw [hStore, hFind]
    rcases hr with rfl | ⟨hr, hNe⟩
    · simp [hrActive]
    · by_cases hSame : r.userId = sub.userId
      · exact absurd (hOthers r hr hrActive hSame hNe) (not_le.mpr hLater)
      · rw [if_neg hSame]
        exact h.current r hr hrActive hLater

/-- Writing back a stored subscription that has run out as inactive. -/
theorem write_inactive (h : Entitled E w) (old : Subscription) (hActive : sub.active = false)
    (hOld : w.store.subscriptions.byId.get? sub.id = some old)
    (hUser : old.userId = sub.userId) (hExpired : old.expiresAt ≤ w.clock)
    (hStore : w'.store.subscriptions = w.store.subscriptions.write .memory sub)
    (hClock : w'.clock = w.clock) : Entitled E w' := by
  have hId : sub.id ≠ "" := Table.key_of_get? hOld ▸ h.named old (Table.mem_of_get? hOld)
  have hUsers : ∀ old', w.store.subscriptions.byId.get? sub.id = some old' →
      old'.userId = sub.userId := by
    intro old' hOld'
    cases hOld.symm.trans hOld'
    exact hUser
  have hFind := h.leads.find_write hId hUsers
  -- the row written is never the one that is running
  have hOther : ∀ r ∈ w.store.subscriptions.byId.rows, w.clock < r.expiresAt → r.id ≠ sub.id := by
    intro r hr hLater hEq
    have hGet := Table.get?_of_mem hr
    rw [hEq, hOld] at hGet
    cases hGet
    exact absurd hExpired (not_le.mpr hLater)
  have hKept : ∀ u r, w.store.subscriptions.findActiveByUser .memory u = some r →
      w.clock < r.expiresAt → w'.store.subscriptions.findActiveByUser .memory u = some r := by
    intro u r hLookup hLater
    rw [hStore, hFind, hLookup]
    split
    · simp [hActive, Option.filter, hOther r (h.found u r hLookup).1 hLater]
    · rfl
  constructor
  · intro r hr
    rw [hStore, SubscriptionStore.byId_write, Table.mem_put_iff] at hr
    rcases hr with rfl | ⟨hr, -⟩
    · exact hId
    · exact h.named r hr
  · rw [hStore]
    exact h.leads.write hId hUsers
  · intro u r hLookup
    have hBefore : w.store.subscriptions.findActiveByUser .memory u = some r ∧ r.id ≠ sub.id := by
      rw [hStore, hFind] at hLookup
      split at hLookup
      · simpa [hActive, Option.filter_eq_some_iff] using hLookup
      · next hNe =>
          refine ⟨hLookup, fun hEq => hNe ?_⟩
          have hOwner := hUsers r (hEq ▸ Table.get?_of_mem (h.found u r hLookup).1)
          exact (h.leads.owner hLookup).symm.trans hOwner
    obtain ⟨hr, hE⟩ := h.found u r hBefore.1
    rw [hStore, SubscriptionStore.byId_write, Table.mem_put_iff]
    exact ⟨.inr ⟨hr, hBefore.2⟩, hE⟩
  · intro u t hE hLater
    rw [hClock] at hLater
    obtain ⟨r, hLookup⟩ := Option.isSome_iff_exists.mp (h.running u t hE hLater)
    obtain rfl : t = r.expiresAt := Option.some.inj (hE.symm.trans (h.found u r hLookup).2)
    rw [hKept u r hLookup hLater]
    rfl
  · intro r hr hrActive hLater
    rw [hClock] at hLater
    rw [hStore, SubscriptionStore.byId_write, Table.mem_put_iff] at hr
    rcases hr with rfl | ⟨hr, -⟩
    · rw [hActive] at hrActive
      cases hrActive
    · exact hKept r.userId r (h.current r hr hrActive hLater) hLater

/-- At most one active subscription of a user has yet to run out. -/
theorem length_le_one (h : Entitled E w) (u : String) :
    (w.store.subscriptions.byId.rows.filter fun r =>
      r.active && r.userId = u && w.clock < r.expiresAt).length ≤ 1 := by
  have hAll : ∀ r ∈ w.store.subscriptions.byId.rows.filter (fun r =>
      r.active && r.userId = u && w.clock < r.expiresAt),
      w.store.subscriptions.findActiveByUser .memory u = some r := by
    intro r hr
    obtain ⟨hMem, hKind⟩ := List.mem_filter.mp hr
    simp only [Bool.and_eq_true, decide_eq_true_eq] at hKind
    obtain ⟨⟨hActive, rfl⟩, hLater⟩ := hKind
    exact h.current r hMem hActive hLater
  apply length_le_one_of_nodup (w.store.subscriptions.byId.nodup.of_map.filter _)
  intro r hr r' hr'
  exact Option.some.inj ((hAll r hr).symm.trans (hAll r' hr'))

end Entitled

section programs

variable {deps : Deps} {i : Nat} {c : Call} {α β : Type} {w : World} {E : String → Option Int}
  {Q : Except AppError β → World → Prop}

/-- The in-memory repository does not throw, and the clock does not go back. -/
def repliesInMemory (c : Call) (w : World) : Reply → Bool
  | .throws _ _ => !c.reachesStore
  | .time t => w.clock ≤ t
  | _ => true

/-- Calls on the in-memory repository. -/
def execInMemory (i : Nat) : Executor Call Ans AppError World Reply :=
  fun c reply w => if repliesInMemory c w reply then exec .memory i c reply w else none

theorem exec_of_execInMemory {reply : Reply} {answer : Except AppError (Ans c)} {w' : World}
    (h : execInMemory i c reply w = some (answer, w')) :
    repliesInMemory c w reply = true ∧ exec .memory i c reply w = some (answer, w') := by
  unfold execInMemory at h
  split at h
  · next hReply => exact ⟨hReply, h⟩
  · cases h

/-- Run alone, the program keeps the lookup in step with what has been paid, and
settles in `Q`. -/
abbrev Keeps (i : Nat) (E : String → Option Int) (Q : Except AppError β → World → Prop)
    (p : Action String β) (w : World) : Prop :=
  p.Until (execInMemory i) (Entitled E) Q w

theorem keeps_quiet {f : Ans c → Action String β} (hNone : c.writesSubscription = none)
    (hInv : Entitled E w) (hError : ∀ e w', Entitled E w' → Q (.error e) w')
    (hRest : ∀ a w', Entitled E w' → w'.store.subscriptions = w.store.subscriptions →
      (c ≠ .tick → w'.clock = w.clock) → Reads .memory c a w' → Keeps i E Q (f a) w') :
    Keeps i E Q (perform c >>= f) w := by
  apply Prog.until_perform_bind hInv
  intro reply answer w' hCall
  obtain ⟨hReply, hExec⟩ := exec_of_execInMemory hCall
  obtain ⟨hSame, hClock⟩ := exec_subscriptions hNone hExec
  have hLater : w.clock ≤ w'.clock := by
    by_cases hTick : c = .tick
    · subst hTick
      obtain ⟨e, -, rfl, -⟩ | ⟨a, hAnswer, -, rfl⟩ := exec_outside hExec rfl
      · exact le_rfl
      · cases reply <;> cases hAnswer
        exact of_decide_eq_true hReply
    · exact (hClock hTick).ge
  have hInv' := hInv.same hSame hLater
  cases answer with
  | error e => exact hError e w' hInv'
  | ok a => exact hRest a w' hInv' hSame hClock (exec_reads hExec)

/-- What `fulfillOrder` reads is there to be read. -/
def Call.answers : Call → Bool
  | .now | .uuid | .subscriptionsFindActiveByUser _ => true
  | _ => false

theorem execInMemory_answers {reply : Reply} {answer : Except AppError (Ans c)} {w' : World}
    (hAnswers : c.answers = true) (h : execInMemory i c reply w = some (answer, w')) :
    ∃ a, answer = .ok a := by
  obtain ⟨hReply, hExec⟩ := exec_of_execInMemory h
  cases c with
  | now =>
      obtain ⟨e, -, -, hMay, -⟩ | ⟨a, -, hOk, -⟩ := exec_outside hExec rfl
      · cases hMay
      · exact ⟨a, hOk⟩
  | uuid =>
      obtain ⟨e, -, -, hMay, -⟩ | ⟨a, -, hOk, -⟩ := exec_outside hExec rfl
      · cases hMay
      · exact ⟨a, hOk⟩
  | subscriptionsFindActiveByUser u =>
      obtain ⟨e, -, -, hEq | rfl⟩ | ⟨a, s, -, -, hOk | ⟨e, -, rfl⟩⟩ := exec_store hExec rfl
      · cases hEq
      · cases hReply
      · exact ⟨a, hOk⟩
      · cases hReply
  | _ => cases hAnswers

theorem keeps_read {f : Ans c → Action String β} (hNone : c.writesSubscription = none)
    (hAnswers : c.answers = true) (hInv : Entitled E w)
    (hRest : ∀ a w', Entitled E w' → w'.store.subscriptions = w.store.subscriptions →
      w'.clock = w.clock → Reads .memory c a w' → Keeps i E Q (f a) w') :
    Keeps i E Q (perform c >>= f) w := by
  apply Prog.until_perform_bind hInv
  intro reply answer w' hCall
  obtain ⟨a, rfl⟩ := execInMemory_answers hAnswers hCall
  have hExec := (exec_of_execInMemory hCall).2
  obtain ⟨hSame, hClock⟩ := exec_subscriptions hNone hExec
  have hClock : w'.clock = w.clock := by
    apply hClock
    rintro rfl
    cases hAnswers
  exact hRest a w' (hInv.same hSame hClock.ge) hSame hClock (exec_reads hExec)

/-- A subscription is written to the in-memory repository. -/
theorem execInMemory_writes {reply : Reply} {answer : Except AppError (Ans c)} {w' : World}
    {sub : Subscription} (hWrite : (c = .subscriptionsCreate sub ∧ sub.active = true ∧
      w.store.subscriptions.byId.get? sub.id = none) ∨ c = .subscriptionsUpdate sub)
    (h : execInMemory i c reply w = some (answer, w')) :
    (∃ a, answer = .ok a) ∧ w'.clock = w.clock ∧
      w'.store.subscriptions = w.store.subscriptions.write .memory sub := by
  obtain ⟨hReply, hExec⟩ := exec_of_execInMemory h
  have hStored : ∀ effect, storeEffect .memory w.clock c = some effect →
      (∃ a, effect w.store = .ok (a, { w.store with
        subscriptions := w.store.subscriptions.write .memory sub })) →
      c.reachesStore = true → (∃ a, answer = .ok a) ∧ w'.clock = w.clock ∧
        w'.store.subscriptions = w.store.subscriptions.write .memory sub := by
    intro effect hEffect hWritten hStore
    obtain ⟨a, hWritten⟩ := hWritten
    obtain ⟨e, -, -, hEq | rfl⟩ | ⟨a', s, hOk, rfl, rfl | ⟨e, -, rfl⟩⟩ := exec_store hExec hEffect
    · rw [hWritten] at hEq
      cases hEq
    · simp [repliesInMemory, hStore] at hReply
    · rw [hWritten] at hOk
      cases hOk
      exact ⟨⟨a, rfl⟩, rfl, rfl⟩
    · simp [repliesInMemory, hStore] at hReply
  rcases hWrite with ⟨rfl, hActive, hNew⟩ | rfl
  · apply hStored _ rfl _ rfl
    exact ⟨sub, by simp [SubscriptionStore.create_eq hNew hActive, Except.map]⟩
  · apply hStored _ rfl _ rfl
    exact ⟨sub, rfl⟩

theorem keeps_write {sub : Subscription} {f : Ans c → Action String β} (hInv : Entitled E w)
    (hWrite : (c = .subscriptionsCreate sub ∧ sub.active = true ∧
      w.store.subscriptions.byId.get? sub.id = none) ∨ c = .subscriptionsUpdate sub)
    (hRest : ∀ a w', w'.clock = w.clock →
      w'.store.subscriptions = w.store.subscriptions.write .memory sub → Keeps i E Q (f a) w') :
    Keeps i E Q (perform c >>= f) w := by
  apply Prog.until_perform_bind hInv
  intro reply answer w' hCall
  obtain ⟨⟨a, rfl⟩, hClock, hStore⟩ := execInMemory_writes hWrite hCall
  exact hRest a w' hClock hStore

namespace Entitled

/-- Next to the subscription that the lookup finds, all others of the user have
run out. -/
theorem others (h : Entitled E w) {u : String} {sub r : Subscription}
    (hFind : w.store.subscriptions.findActiveByUser .memory u = some sub)
    (hr : r ∈ w.store.subscriptions.byId.rows) (hActive : r.active = true) (hUser : r.userId = u)
    (hNe : r.id ≠ sub.id) : r.expiresAt ≤ w.clock := by
  apply le_of_not_gt
  intro hLater
  have hLookup := h.current r hr hActive hLater
  rw [hUser, hFind] at hLookup
  cases hLookup
  exact hNe rfl

/-- If no running subscription is found, all the user's have run out. -/
theorem none_running (h : Entitled E w) {u : String}
    (hNone : (w.store.subscriptions.findActiveByUser .memory u).filter
      (fun e => w.clock < e.expiresAt) = none) :
    (∀ r ∈ w.store.subscriptions.byId.rows, r.active = true → r.userId = u →
      r.expiresAt ≤ w.clock) ∧ ∀ t, E u = some t → t ≤ w.clock := by
  rw [Option.filter_eq_none_iff] at hNone
  constructor
  · intro r hr hActive hUser
    apply le_of_not_gt
    intro hLater
    have hLookup := h.current r hr hActive hLater
    rw [hUser] at hLookup
    exact hNone r hLookup (decide_eq_true hLater)
  · intro t hE
    apply le_of_not_gt
    intro hLater
    obtain ⟨r, hLookup⟩ := Option.isSome_iff_exists.mp (h.running u t hE hLater)
    obtain rfl : t = r.expiresAt := Option.some.inj (hE.symm.trans (h.found u r hLookup).2)
    exact hNone r hLookup (decide_eq_true hLater)

end Entitled

/-- The write that `fulfillOrder` makes for an order of a plan. -/
theorem keeps_writeSubscription {order : Order} {plan : Plan} {now : Int}
    {existing : Option Subscription} {Q : Except AppError Subscription → World → Prop}
    (hInv : Entitled E w) (hNow : now = w.clock)
    (hFound : existing = w.store.subscriptions.findActiveByUser .memory order.userId)
    (hRest : ∀ sub w', w'.clock = w.clock →
      Entitled (Function.update E order.userId (some (extend (E order.userId) w.clock plan))) w' →
      Q (.ok sub) w') :
    Keeps i E Q (SubscriptionService.writeSubscription plan order now existing) w := by
  subst hNow
  unfold SubscriptionService.writeSubscription
  cases hFilter : existing.filter fun e => e.expiresAt > w.clock with
  | some running =>
      obtain ⟨hStored, hLater⟩ := Option.filter_eq_some_iff.mp hFilter
      have hLater : w.clock < running.expiresAt := of_decide_eq_true hLater
      rw [hFound] at hStored
      obtain ⟨hMem, hE⟩ := hInv.found _ _ hStored
      have hUser := hInv.leads.owner hStored
      have hEnd : extend (E order.userId) w.clock plan =
          (SubscriptionService.extended running plan order w.clock).expiresAt := by
        rw [hE]
        simp only [extend, max_eq_left hLater.le, SubscriptionService.extended, addMs_eq]
      apply keeps_write hInv (.inr rfl)
      intro a w' hClock hStore
      apply hRest _ w' hClock
      rw [hEnd, ← hUser]
      apply hInv.write_active _ _ _ _ hStore hClock
      · exact hInv.named running hMem
      · rfl
      · intro old hOld
        cases (Table.get?_of_mem hMem).symm.trans hOld
        rfl
      · intro r hr hActive hSame hNe
        exact hInv.others hStored hr hActive (hSame.trans hUser) hNe
  | none =>
      rw [hFound] at hFilter
      obtain ⟨hExpired, hPaid⟩ := hInv.none_running hFilter
      have hEnd : ∀ id, extend (E order.userId) w.clock plan =
          (SubscriptionService.started id plan order w.clock).expiresAt := by
        intro id
        simp only [extend, SubscriptionService.started, addMs_eq]
        cases hE : E order.userId with
        | none => rfl
        | some t => simp [max_eq_right (hPaid t hE)]
      apply keeps_read rfl rfl hInv
      intro id w₁ hInv₁ hSame hClock₁ hFresh
      apply keeps_write hInv₁ (.inl ⟨rfl, rfl, hFresh.1⟩)
      intro a w' hClock' hStore
      apply hRest _ w' (hClock'.trans hClock₁)
      rw [hEnd id]
      apply hInv₁.write_active _ _ _ _ hStore hClock'
      · exact hFresh.2
      · rfl
      · intro old hOld
        cases hFresh.1.symm.trans hOld
      · intro r hr hActive hUser _
        rw [hSame] at hr
        rw [hClock₁]
        exact hExpired r hr hActive hUser

/-- `fulfillOrder` of a paid order for an enabled plan. -/
theorem keeps_fulfillOrder {order : Order} {plan : Plan}
    {Q : Except AppError (Order × Subscription) → World → Prop} (hInv : Entitled E w)
    (hPaid : order.status = .PAID)
    (hPlan : PlanCatalog.getPlan deps.plans order.planId = some plan)
    (hRest : ∀ fulfilled sub w', fulfilled.userId = order.userId →
      fulfilled.planId = order.planId →
      Entitled (Function.update E order.userId (some (extend (E order.userId) w'.clock plan))) w' →
      Q (.ok (fulfilled, sub)) w') :
    Keeps i E Q (SubscriptionService.fulfillOrder deps order) w := by
  unfold SubscriptionService.fulfillOrder SubscriptionService.grant
  rw [if_neg (by simp [hPaid]), hPlan]
  apply keeps_read rfl rfl hInv
  intro now w₁ hInv₁ _ _ hNow
  apply keeps_read rfl rfl hInv₁
  intro existing w₂ hInv₂ _ hClock hFound
  apply Prog.until_bind
  apply keeps_writeSubscription hInv₂ (hNow.trans hClock.symm) hFound
  intro sub w₃ hClock₃ hInv₃
  have hTransition : assertTransition order.status .FULFILLED = .ok .FULFILLED := by
    rw [hPaid]
    rfl
  rw [← hClock₃] at hInv₃
  simp only [Prog.afterOk, hTransition, Prog.ofExcept_ok_bind]
  exact hRest _ sub w₃ rfl rfl hInv₃

/-- Such an order is fulfilled, never rejected. -/
theorem fulfillOrder_fulfils {order : Order} {plan : Plan} (hInv : Entitled E w)
    (hPaid : order.status = .PAID)
    (hPlan : PlanCatalog.getPlan deps.plans order.planId = some plan) :
    Keeps i E (fun result _ => ∃ fulfilled, result = .ok fulfilled)
      (SubscriptionService.fulfillOrder deps order) w :=
  keeps_fulfillOrder hInv hPaid hPlan fun fulfilled sub _ _ _ _ => ⟨(fulfilled, sub), rfl⟩

/-- By induction on the subscriptions the reminder pass has yet to visit. -/
theorem keeps_remindEach {now : Int} {subs : List Subscription} {sent : Nat}
    {Q : Except AppError Nat → World → Prop} (hInv : Entitled E w) (hUnvisited : Unvisited w subs)
    (hNow : now = w.clock) (hDone : ∀ result w', Entitled E w' → Q result w') :
    Keeps i E Q (ExpiryService.remindEach deps now subs sent) w := by
  induction subs generalizing sent w with
  | nil => exact hDone _ w hInv
  | cons sub rest ih =>
      unfold ExpiryService.remindEach
      split
      · next hDue =>
          obtain ⟨hActive, hGet⟩ := hUnvisited.2 sub List.mem_cons_self
          have hMem := Table.mem_of_get? hGet
          have hLater : w.clock < sub.expiresAt := by
            simp only [ExpiryService.dueForReminder, Bool.and_eq_true, decide_eq_true_eq] at hDue
            exact hNow ▸ hDue.1.1
          have hFind := hInv.current sub hMem hActive hLater
          have hE := (hInv.found _ _ hFind).2
          apply keeps_quiet rfl hInv fun e w' hInv' => hDone _ w' hInv'
          intro _ w₁ hInv₁ hSame hClock _
          have hClock₁ : w₁.clock = w.clock := hClock (by intro hEq; cases hEq)
          apply keeps_write hInv₁ (.inr rfl)
          intro _ w₂ hClock₂ hStore
          have hInv₂ : Entitled E w₂ := by
            rw [← Function.update_eq_self sub.userId E, hE]
            apply hInv₁.write_active _ _ _ _ hStore hClock₂
            · exact hInv.named sub hMem
            · exact hActive
            · intro old hOld
              rw [hSame, hGet] at hOld
              cases hOld
              rfl
            · intro r hr hrActive hUser hNe
              rw [hSame] at hr
              rw [hClock₁]
              exact hInv.others hFind hr hrActive hUser hNe
          apply ih hInv₂ _ (hNow.trans (hClock₂.trans hClock₁).symm)
          apply hUnvisited.rest
          intro k hk
          rw [hStore, SubscriptionStore.byId_write, Table.get?_put, if_neg (Ne.symm hk), hSame]
      · exact ih hInv (hUnvisited.rest fun _ _ => rfl) hNow

/-- By induction on the subscriptions the deactivation pass has yet to visit. -/
theorem keeps_deactivateEach {now : Int} {subs : List Subscription} {count : Nat}
    {Q : Except AppError Nat → World → Prop} (hInv : Entitled E w) (hUnvisited : Unvisited w subs)
    (hNow : now = w.clock) (hDone : ∀ result w', Entitled E w' → Q result w') :
    Keeps i E Q (ExpiryService.deactivateEach now subs count) w := by
  induction subs generalizing count w with
  | nil => exact hDone _ w hInv
  | cons sub rest ih =>
      unfold ExpiryService.deactivateEach
      split
      · exact ih hInv (hUnvisited.rest fun _ _ => rfl) hNow
      · next hExpired =>
          obtain ⟨hActive, hGet⟩ := hUnvisited.2 sub List.mem_cons_self
          apply keeps_write hInv (.inr rfl)
          intro _ w₁ hClock₁ hStore
          have hInv₁ : Entitled E w₁ := by
            apply hInv.write_inactive sub _ _ _ _ hStore hClock₁
            · rfl
            · exact hGet
            · rfl
            · exact hNow ▸ le_of_not_gt hExpired
          have hUnvisited₁ : Unvisited w₁ rest := by
            apply hUnvisited.rest
            intro k hk
            rw [hStore, SubscriptionStore.byId_write, Table.get?_put, if_neg (Ne.symm hk)]
          apply keeps_quiet rfl hInv₁ fun e w' hInv' => hDone _ w' hInv'
          intro _ w₂ hInv₂ hSame hClock₂ _
          apply ih hInv₂ _ (hNow.trans ((hClock₂ (by intro hEq; cases hEq)).trans hClock₁).symm)
          simpa only [Unvisited, hSame] using hUnvisited₁

end programs

section runs

variable {deps : Deps} {store : Store} {clock : Int} {m : Deployment String}
  {E : String → Option Int}

/-- Requests about subscriptions, one after the other. Only paid orders are
fulfilled, the clock never goes back, and the repository does not throw. -/
def oneByOne (m : Deployment String) (label : Label Reply (Unit × Request)) : Bool :=
  oneAtATime m label && noFailure Call.reachesStore m label && match label with
    | .spawn (_, .fulfillOrder order) => order.status = .PAID
    | _ => true

theorem keeps_entry {request : Unit × Request} {i : Nat}
    (hAllowed : oneByOne m (.spawn request) = true) (hInv : Entitled E m.world) :
    Keeps i E (fun result w => Entitled (paidUntil deps E w result) w)
      ((singleInstance deps).entry request) m.world := by
  obtain ⟨⟨⟩, request⟩ := request
  simp only [oneByOne, Bool.and_eq_true] at hAllowed
  obtain ⟨⟨hKind, -⟩, hPaid⟩ := hAllowed
  have hSubs : request.onSubscriptions = true := (Bool.and_eq_true_iff.mp hKind).2
  -- a pass settles with a count or an error, which pays for nothing
  have hCount : ∀ (result : Except AppError Nat) w, Entitled E w →
      Keeps i E (fun result w => Entitled (paidUntil deps E w result) w)
        (Prog.afterOk (fun count => pure (.count count)) result) w := by
    intro result w hInv
    cases result <;> exact hInv
  cases request with
  | fulfillOrder order =>
      have hPaid : order.status = .PAID := of_decide_eq_true hPaid
      apply Prog.until_bind
      cases hPlan : PlanCatalog.getPlan deps.plans order.planId with
      | none =>
          unfold SubscriptionService.fulfillOrder SubscriptionService.grant
          rw [if_neg (by simp [hPaid]), hPlan]
          exact hInv
      | some plan =>
          apply keeps_fulfillOrder hInv hPaid hPlan
          intro fulfilled sub w hUser hPlanId hInv'
          show Entitled (paidUntil deps E w (.ok (.fulfilled fulfilled sub))) w
          simp only [paidUntil, hPlanId, hPlan, hUser]
          exact hInv'
  | sendExpiryReminders =>
      apply Prog.until_bind
      apply keeps_quiet rfl hInv fun e w hInv => hCount (.error e) w hInv
      intro now w₁ hInv₁ _ _ hNow
      apply keeps_quiet rfl hInv₁ fun e w hInv => hCount (.error e) w hInv
      intro subs w₂ hInv₂ _ hClock hListed
      have hListed : subs = w₂.store.subscriptions.activeRows := hListed
      subst hListed
      exact keeps_remindEach hInv₂ (unvisited_activeRows w₂) (hNow.trans (hClock nofun).symm) hCount
  | deactivateExpired =>
      apply Prog.until_bind
      apply keeps_quiet rfl hInv fun e w hInv => hCount (.error e) w hInv
      intro now w₁ hInv₁ _ _ hNow
      apply keeps_quiet rfl hInv₁ fun e w hInv => hCount (.error e) w hInv
      intro subs w₂ hInv₂ _ hClock hListed
      have hListed : subs = w₂.store.subscriptions.activeRows := hListed
      subst hListed
      exact keeps_deactivateEach hInv₂ (unvisited_activeRows w₂) (hNow.trans (hClock nofun).symm)
        hCount
  | tick =>
      apply keeps_quiet rfl hInv fun e w hInv => hInv
      exact fun _ w hInv _ _ _ => hInv
  | _ => cases hSubs

theorem entitled_empty {w : World} (hEmpty : w.store.subscriptions = Store.empty.subscriptions) :
    Entitled (fun _ => none) w := by
  constructor
  · intro r hr
    rw [hEmpty] at hr
    cases hr
  · intro u e hEntry
    rw [hEmpty] at hEntry
    cases hEntry
  · intro u r hFind
    rw [hEmpty] at hFind
    cases hFind
  · intro u t hE
    cases hE
  · intro r hr
    rw [hEmpty] at hr
    cases hr

/-- In every state of a run, what the lookup finds ends when the paid time does,
it finds something while paid time is left, and no two active subscriptions of a
user are running. -/
theorem entitlement (hMemory : deps.backend = .memory)
    (hEmpty : store.subscriptions = Store.empty.subscriptions)
    (hRun : (singleInstance deps).Folds (fun m label => oneByOne m label = true) (paidUntil deps)
      (Deployment.start store clock) (fun _ => none) m E) (u : String) :
    (∀ sub, m.world.store.subscriptions.findActiveByUser .memory u = some sub →
      E u = some sub.expiresAt) ∧
    (∀ t, E u = some t → m.world.clock < t →
      (m.world.store.subscriptions.findActiveByUser .memory u).isSome = true) ∧
    (m.world.store.subscriptions.byId.rows.filter fun r =>
      r.active && r.userId = u && m.world.clock < r.expiresAt).length ≤ 1 := by
  have hInv : Entitled E m.world := by
    have hSuccessive : Successive execInMemory (paidUntil deps) Entitled m E := by
      apply Successive.run _ _ _ (successive_start (entitled_empty hEmpty)) hRun
      · intro m request hAllowed
        simp only [oneByOne, oneAtATime, Bool.and_eq_true] at hAllowed
        exact hAllowed.1.1.1
      · intro m request E hAllowed hInv i
        exact keeps_entry hAllowed hInv
      · intro m i reply c hAllowed hCall
        simp only [oneByOne, Bool.and_eq_true] at hAllowed
        obtain ⟨⟨hTime, hHealthy⟩, -⟩ := hAllowed
        have hReply : repliesInMemory c m.world reply = true := by
          cases reply with
          | throws applied e => simpa [repliesInMemory, noFailure, Reply.fails, hCall] using hHealthy
          | time t => exact hTime
          | _ => rfl
        simp only [execInMemory, hReply, if_true]
        rw [← hMemory]
        rfl
    exact hSuccessive.holds
  exact ⟨fun sub hFind => (hInv.found u sub hFind).2, hInv.running u, hInv.length_le_one u⟩

end runs

/-- A month that is paid for, runs out and is deactivated, and another two months
bought at once. -/
theorem entitlement_sample : ∃ (m : Deployment String) (E : String → Option Int),
    (singleInstance (Sample.deps .memory)).Folds (fun m label => oneByOne m label = true)
      (paidUntil (Sample.deps .memory)) (Deployment.start Store.empty 0) (fun _ => none) m E ∧
    (∀ sub, m.world.store.subscriptions.findActiveByUser .memory "alice" = some sub →
      E "alice" = some sub.expiresAt) ∧
    m.world.store.subscriptions.findActiveByUser .memory "alice" ≠ none := by
  obtain ⟨m, hRun, hFound⟩ := System.exists_reaches (singleInstance (Sample.deps .memory)) oneByOne
    (Deployment.start Store.empty 0)
    (Sample.fulfils 0 Sample.paid "s1" ++ [.spawn ((), .tick), .step 1 (.time Sample.later)] ++
      [.spawn ((), .deactivateExpired)] ++ Sample.steps 2 4 ++
      Sample.fulfils 3 { Sample.paid with id := "o2" } "s2" ++
      [.spawn ((), .fulfillOrder { Sample.paid with id := "o3" })] ++ Sample.steps 4 3)
    (fun m => m.settled &&
      (m.world.store.subscriptions.findActiveByUser .memory "alice").isSome) (by decide +kernel)
  obtain ⟨E, hFolds⟩ := System.exists_folds _ oneByOne (paidUntil (Sample.deps .memory))
    (fun _ => none) hRun
  have hFound := (Bool.and_eq_true_iff.mp hFound).2
  refine ⟨m, E, hFolds, (entitlement rfl rfl hFolds "alice").1, ?_⟩
  exact Option.isSome_iff_ne_none.mp hFound

end VpnPayment
