import VpnPayment.Async.Sequential
import VpnPayment.Settlement.ExactlyOnce
import VpnPayment.Subscriptions.Writes

/-! At most one active subscription per user, when requests do not overlap and
nobody pays after the stored subscription has run out unnoticed. -/
namespace VpnPayment

open Async Collections
open Prog (perform)

/-- The in-memory lookup follows the index entry of the user. -/
theorem findActiveByUser_eq_some_iff {s : SubscriptionStore} {u : String} {r : Subscription} :
    s.findActiveByUser .memory u = some r ↔
      ∃ e, s.activeByUser.get? u = some e ∧ e.2 ≠ "" ∧ s.byId.get? e.2 = some r := by
  simp only [SubscriptionStore.findActiveByUser, MemorySubscriptionRepository.findActiveByUser,
    truthy]
  cases s.activeByUser.get? u with
  | none => simp
  | some e =>
      by_cases hEmpty : e.2 = "" <;> simp [Option.filter, hEmpty]

/-- The lookup by user finds the user's only active row, and nothing else. -/
structure OneActive (b : Backend) (s : SubscriptionStore) : Prop where
  named : ∀ r ∈ s.byId.rows, r.id ≠ ""
  indexed : ∀ u e, s.activeByUser.get? u = some e → s.byId.has e.2 = true
  found : ∀ r ∈ s.byId.rows, r.active = true → s.findActiveByUser b r.userId = some r
  owner : ∀ u r, s.findActiveByUser b u = some r →
    r ∈ s.byId.rows ∧ r.userId = u ∧ r.active = true

namespace OneActive

variable {b : Backend} {s s' : SubscriptionStore} {sub r r' : Subscription}

theorem unique (h : OneActive b s) (hr : r ∈ s.byId.rows) (hr' : r' ∈ s.byId.rows)
    (hActive : r.active = true) (hActive' : r'.active = true) (hUser : r.userId = r'.userId) :
    r = r' := by
  have hFound := h.found r hr hActive
  rw [hUser, h.found r' hr' hActive'] at hFound
  exact (Option.some.inj hFound).symm

/-- Each user has at most one active row. -/
theorem length_le_one (h : OneActive b s) (u : String) :
    (s.byId.rows.filter fun r => r.active && r.userId = u).length ≤ 1 := by
  apply length_le_one_of_nodup (s.byId.nodup.of_map.filter _)
  intro r hr r' hr'
  simp only [List.mem_filter, Bool.and_eq_true, decide_eq_true_eq] at hr hr'
  exact h.unique hr.1 hr'.1 hr.2.1 hr'.2.1 (hr.2.2.trans hr'.2.2.symm)

/-- For the SQL backend the lookup finds what there is to find. -/
theorem of_unique (hNamed : ∀ r ∈ s.byId.rows, r.id ≠ "")
    (hIndexed : ∀ u e, s.activeByUser.get? u = some e → s.byId.has e.2 = true)
    (hUnique : ∀ r ∈ s.byId.rows, ∀ r' ∈ s.byId.rows, r.active = true → r'.active = true →
      r.userId = r'.userId → r = r') : OneActive .sql s where
  named := hNamed
  indexed := hIndexed
  found r hr hActive := by
    have hSome : (s.byId.rows.find? fun row => row.userId = r.userId && row.active).isSome := by
      rw [List.find?_isSome]
      exact ⟨r, hr, by simp [hActive]⟩
    obtain ⟨r', hFind⟩ := Option.isSome_iff_exists.mp hSome
    have hr' := List.mem_of_find?_eq_some hFind
    have hProp := List.find?_some hFind
    simp only [Bool.and_eq_true, decide_eq_true_eq] at hProp
    rw [hUnique r hr r' hr' hActive hProp.2 hProp.1.symm]
    exact hProp.1 ▸ hFind
  owner u r hFind := by
    have hProp := List.find?_some hFind
    simp only [Bool.and_eq_true, decide_eq_true_eq] at hProp
    exact ⟨List.mem_of_find?_eq_some hFind, hProp⟩

section write

/-- What an in-memory write does to the index entries. -/
theorem index_write (s : SubscriptionStore) (sub : Subscription) (u : String) :
    (s.write .memory sub).activeByUser.get? u =
      if u = sub.userId then
        if sub.active then some (sub.userId, sub.id)
        else (s.activeByUser.get? u).filter fun e => e.2 ≠ sub.id
      else s.activeByUser.get? u := by
  unfold SubscriptionStore.write MemorySubscriptionRepository.update
  by_cases hActive : sub.active = true
  · by_cases hUser : u = sub.userId
    · simp [hActive, hUser]
    · simp [hActive, hUser, Ne.symm hUser]
  · simp only [hActive, Bool.false_eq_true, if_false]
    by_cases hUser : u = sub.userId
    · subst hUser
      cases hEntry : s.activeByUser.get? sub.userId with
      | none => simp [hEntry]
      | some e =>
          by_cases hId : e.2 = sub.id <;> simp [hEntry, hId, Option.filter]
    · split <;> simp [Ne.symm hUser]

/-- Every index entry still leads to a row. -/
theorem indexed_write (h : OneActive b s) (u : String) (e : String × String)
    (hEntry : (s.write b sub).activeByUser.get? u = some e) :
    (s.write b sub).byId.has e.2 = true := by
  have hHas : s.byId.has e.2 = true ∨ e.2 = sub.id := by
    cases b with
    | sql => exact .inl (h.indexed u e hEntry)
    | memory =>
        rw [index_write] at hEntry
        split at hEntry
        · split at hEntry
          · exact .inr (by rw [← Option.some.inj hEntry])
          · exact .inl (h.indexed u e (Option.filter_eq_some_iff.mp hEntry).1)
        · exact .inl (h.indexed u e hEntry)
  rw [SubscriptionStore.byId_write, Table.has, Table.get?_put]
  split
  · rfl
  · next hNe => exact hHas.resolve_right (Ne.symm hNe)

theorem named_write (h : OneActive b s) (hId : sub.id ≠ "") :
    ∀ r ∈ (s.write b sub).byId.rows, r.id ≠ "" := by
  intro r hr
  rw [SubscriptionStore.byId_write, Table.mem_put_iff] at hr
  rcases hr with rfl | hr
  · exact hId
  · exact h.named r hr.1

theorem write_sql (h : OneActive .sql s) (hId : sub.id ≠ "")
    (hOnly : sub.active = true → ∀ r ∈ s.byId.rows, r.active = true → r.userId = sub.userId →
      r.id = sub.id) : OneActive .sql (s.write .sql sub) := by
  apply of_unique (h.named_write hId) h.indexed_write
  intro r hr r' hr' hActive hActive' hSame
  rw [SubscriptionStore.byId_write, Table.mem_put_iff] at hr hr'
  rcases hr with rfl | ⟨hr, hNe⟩
  · rcases hr' with rfl | ⟨hr', hNe'⟩
    · rfl
    · exact absurd (hOnly hActive r' hr' hActive' hSame.symm) hNe'
  · rcases hr' with rfl | ⟨hr', -⟩
    · exact absurd (hOnly hActive' r hr hActive hSame) hNe
    · exact h.unique hr hr' hActive hActive' hSame

theorem write_memory (h : OneActive .memory s) (hId : sub.id ≠ "")
    (hUser : ∀ old, s.byId.get? sub.id = some old → old.userId = sub.userId)
    (hOnly : sub.active = true → ∀ r ∈ s.byId.rows, r.active = true → r.userId = sub.userId →
      r.id = sub.id) : OneActive .memory (s.write .memory sub) := by
  refine ⟨h.named_write hId, h.indexed_write, ?_, ?_⟩
  · intro r hr hActive
    rw [SubscriptionStore.byId_write, Table.mem_put_iff] at hr
    rw [findActiveByUser_eq_some_iff]
    rcases hr with rfl | ⟨hr, hNe⟩
    · exact ⟨(r.userId, r.id), by simp [index_write, hActive], hId, by simp⟩
    · obtain ⟨e, hEntry, hName, hGet⟩ := findActiveByUser_eq_some_iff.mp (h.found r hr hActive)
      have hKey : e.2 ≠ sub.id := Table.key_of_get? hGet ▸ hNe
      refine ⟨e, ?_, hName, by simp [Ne.symm hKey, hGet]⟩
      rw [index_write]
      split
      · next hEq =>
          split
          · next hSub => exact absurd (hOnly hSub r hr hActive hEq) hNe
          · simp [hEntry, Option.filter, hKey]
      · exact hEntry
  · intro u r hFind
    obtain ⟨e, hEntry, hName, hGet⟩ := findActiveByUser_eq_some_iff.mp hFind
    rw [index_write] at hEntry
    rw [SubscriptionStore.byId_write, Table.get?_put] at hGet
    rw [SubscriptionStore.byId_write, Table.mem_put_iff]
    -- an entry that was there before leads to the row it led to before
    have hOld : s.activeByUser.get? u = some e → (u = sub.userId → e.2 ≠ sub.id) →
        (r = sub ∨ r ∈ s.byId.rows ∧ r.id ≠ sub.id) ∧ r.userId = u ∧ r.active = true := by
      intro hBefore hOther
      split at hGet
      · next hEq =>
          obtain ⟨old, hStored⟩ := Option.isSome_iff_exists.mp (h.indexed u e hBefore)
          have hOwner := (h.owner u old (findActiveByUser_eq_some_iff.mpr
            ⟨e, hBefore, hName, hStored⟩)).2.1
          exact absurd hEq.symm (hOther (hOwner.symm.trans (hUser old (hEq ▸ hStored))))
      · next hNe =>
          obtain ⟨hr, hOwner⟩ := h.owner u r (findActiveByUser_eq_some_iff.mpr
            ⟨e, hBefore, hName, hGet⟩)
          exact ⟨.inr ⟨hr, Table.key_of_get? hGet ▸ Ne.symm hNe⟩, hOwner⟩
    split at hEntry
    · next hEq =>
        split at hEntry
        · next hSub =>
            cases hEntry
            simp only [if_true, Option.some.injEq] at hGet
            exact ⟨.inl hGet.symm, hGet ▸ hEq.symm, hGet ▸ hSub⟩
        · obtain ⟨hBefore, hNe⟩ := Option.filter_eq_some_iff.mp hEntry
          exact hOld hBefore fun _ => by simpa using hNe
    · next hNe => exact hOld hEntry fun hEq => absurd hEq hNe

/-- Writing a subscription keeps the rows in order if no other row of the user is
active next to it. -/
theorem write (h : OneActive b s) (hId : sub.id ≠ "")
    (hUser : ∀ old, s.byId.get? sub.id = some old → old.userId = sub.userId)
    (hOnly : sub.active = true → ∀ r ∈ s.byId.rows, r.active = true → r.userId = sub.userId →
      r.id = sub.id) : OneActive b (s.write b sub) := by
  cases b with
  | memory => exact h.write_memory hId hUser hOnly
  | sql => exact h.write_sql hId hOnly

end write

end OneActive

section programs

variable {Key α β : Type} {deps : Deps} {i : Nat} {w : World} {f : α → Action Key β}

/-- The repository accepts a subscription that is about to be written. -/
def Accepted (b : Backend) (c : Call) (w : World) : Prop :=
  (∀ sub, c = .subscriptionsCreate sub → ∃ s, w.store.subscriptions.create b sub = .ok s) ∧
    ∀ sub, c = .subscriptionsUpdate sub → ∃ s, w.store.subscriptions.update b sub = .ok s

/-- Run alone, the program keeps at most one active subscription per user, and
its writes are accepted. -/
abbrev Steady (deps : Deps) (i : Nat) (p : Action Key α) (w : World) : Prop :=
  p.Always (exec deps.backend i) (fun w => OneActive deps.backend w.store.subscriptions)
    (Accepted deps.backend) (fun _ _ => True) w

theorem steady_quiet {c : Call} {f : Ans c → Action Key β} (hNone : c.writesSubscription = none)
    (hInv : OneActive deps.backend w.store.subscriptions)
    (hRest : ∀ a w', w'.store.subscriptions = w.store.subscriptions →
      (c ≠ .tick → w'.clock = w.clock) → Reads deps.backend c a w' → Steady deps i (f a) w') :
    Steady deps i (perform c >>= f) w := by
  apply Prog.always_perform_bind
  · constructor
    · rintro sub rfl
      cases hNone
    · rintro sub rfl
      cases hNone
  · intro reply answer w' hExec
    obtain ⟨hSame, hClock⟩ := exec_subscriptions hNone hExec
    constructor
    · rw [hSame]
      exact hInv
    · cases answer with
      | ok a => exact hRest a w' hSame hClock (exec_reads hExec)
      | error e => trivial

/-- Writing a subscription next to which no other one of the user is active. -/
theorem steady_write {c : Call} {f : Ans c → Action Key β} (sub : Subscription)
    (hInv : OneActive deps.backend w.store.subscriptions) (hId : sub.id ≠ "")
    (hWrite : c = .subscriptionsCreate sub ∧ w.store.subscriptions.byId.get? sub.id = none ∧
        sub.active = true ∨
      c = .subscriptionsUpdate sub ∧ ∃ row, w.store.subscriptions.byId.get? sub.id = some row ∧
        SqlSubscriptionRepository.setColumns row sub = sub)
    (hOnly : sub.active = true → ∀ r ∈ w.store.subscriptions.byId.rows, r.active = true →
      r.userId = sub.userId → r.id = sub.id)
    (hRest : ∀ a w', OneActive deps.backend w'.store.subscriptions →
      (∀ k, k ≠ sub.id →
        w'.store.subscriptions.byId.get? k = w.store.subscriptions.byId.get? k) →
      Steady deps i (f a) w') :
    Steady deps i (perform c >>= f) w := by
  have hNoViolation := SubscriptionStore.violatesActiveUser_eq_false hOnly
  have hAccepted : c = .subscriptionsCreate sub ∧ w.store.subscriptions.create deps.backend sub =
        .ok (w.store.subscriptions.write deps.backend sub) ∨
      c = .subscriptionsUpdate sub ∧ w.store.subscriptions.update deps.backend sub =
        .ok (w.store.subscriptions.write deps.backend sub) := by
    rcases hWrite with ⟨hc, hNew, hActive⟩ | ⟨hc, row, hRow, hSame⟩
    · refine .inl ⟨hc, ?_⟩
      rw [SubscriptionStore.create_eq hNew hActive]
      simp [hNoViolation]
    · refine .inr ⟨hc, ?_⟩
      rw [SubscriptionStore.update_eq hRow hSame]
      simp [hNoViolation]
  have hUser : ∀ old, w.store.subscriptions.byId.get? sub.id = some old →
      old.userId = sub.userId := by
    intro old hOld
    rcases hWrite with ⟨-, hNew, -⟩ | ⟨-, row, hRow, hSame⟩
    · rw [hNew] at hOld
      cases hOld
    · rw [hRow] at hOld
      cases hOld
      have hEq := congrArg Subscription.userId hSame
      exact hEq
  have hWritten := hInv.write hId hUser hOnly
  apply Prog.always_perform_bind
  · rcases hAccepted with ⟨rfl, hOk⟩ | ⟨rfl, hOk⟩
    · exact ⟨fun sub' hEq => by cases hEq; exact ⟨_, hOk⟩, nofun⟩
    · exact ⟨nofun, fun sub' hEq => by cases hEq; exact ⟨_, hOk⟩⟩
  · intro reply answer w' hExec
    have hStore := (exec_writes hAccepted hExec).2
    have hInv' : OneActive deps.backend w'.store.subscriptions := by
      rcases hStore with hStore | hStore <;> rw [hStore]
      · exact hInv
      · exact hWritten
    refine ⟨hInv', ?_⟩
    cases answer with
    | error e => trivial
    | ok a =>
        apply hRest a w' hInv'
        intro k hk
        rcases hStore with hStore | hStore <;> rw [hStore]
        rw [SubscriptionStore.byId_write, Table.get?_put, if_neg (Ne.symm hk)]

theorem steady_bind {p : Action Key α} (hInv : OneActive deps.backend w.store.subscriptions)
    (hFirst : Steady deps i p w)
    (hRest : ∀ a w', OneActive deps.backend w'.store.subscriptions → Steady deps i (f a) w') :
    Steady deps i (p >>= f) w :=
  Prog.always_bind hInv hFirst hRest fun _ _ _ => trivial

/-- `fulfillOrder` while every stored active subscription of the user is running. -/
theorem steady_fulfillOrder {order : Order}
    (hInv : OneActive deps.backend w.store.subscriptions)
    (hRunning : ∀ r ∈ w.store.subscriptions.byId.rows, r.active = true → r.userId = order.userId →
      w.clock < r.expiresAt) :
    Steady deps i (SubscriptionService.fulfillOrder deps order : Action Key _) w := by
  have hGrant : ∀ w' : World, w'.store.subscriptions = w.store.subscriptions →
      w'.clock = w.clock → Steady deps i (SubscriptionService.grant deps order : Action Key _) w' := by
    intro w' hSame hClock
    unfold SubscriptionService.grant
    cases PlanCatalog.getPlan deps.plans order.planId with
    | none => trivial
    | some plan =>
        apply steady_quiet rfl (hSame ▸ hInv)
        intro now w₁ hSame₁ hClock₁ hNow
        apply steady_quiet rfl (hSame₁ ▸ hSame ▸ hInv)
        intro existing w₂ hSame₂ hClock₂ hFound
        have hSubs : w₂.store.subscriptions = w.store.subscriptions :=
          hSame₂.trans (hSame₁.trans hSame)
        have hNowEq : now = w.clock := hNow.trans ((hClock₁ nofun).trans hClock)
        have hInv₂ : OneActive deps.backend w₂.store.subscriptions := hSubs ▸ hInv
        have hFound : existing = w₂.store.subscriptions.findActiveByUser deps.backend order.userId :=
          hFound
        apply steady_bind hInv₂
        · unfold SubscriptionService.writeSubscription
          cases hFilter : existing.filter fun e => e.expiresAt > now with
          | some running =>
              have hStored := (Option.filter_eq_some_iff.mp hFilter).1
              rw [hFound] at hStored
              obtain ⟨hMem, hUser, hActive⟩ := hInv₂.owner _ _ hStored
              apply steady_write (SubscriptionService.extended running plan order now) hInv₂
                (hInv₂.named running hMem) (.inr ⟨rfl, running, Table.get?_of_mem hMem, rfl⟩)
              · intro _ r hr hrActive hrUser
                have hEq : r = running := hInv₂.unique hr hMem hrActive hActive hrUser
                rw [hEq]
                rfl
              · intro a w₃ _ _
                trivial
          | none =>
              have hNone : ∀ r ∈ w₂.store.subscriptions.byId.rows, r.active = true →
                  r.userId ≠ order.userId := by
                intro r hr hActive hUser
                have hLookup := hInv₂.found r hr hActive
                rw [hUser, ← hFound] at hLookup
                have hLater : w.clock < r.expiresAt := hRunning r (hSubs ▸ hr) hActive hUser
                rw [hLookup, hNowEq] at hFilter
                simp [Option.filter, hLater] at hFilter
              apply steady_quiet rfl hInv₂
              intro subId w₃ hSame₃ _ hFresh
              apply steady_write (SubscriptionService.started subId plan order now)
                (hSame₃ ▸ hInv₂) hFresh.2 (.inl ⟨rfl, hFresh.1, rfl⟩)
              · intro _ r hr hActive hUser
                exact absurd hUser (hNone r (hSame₃ ▸ hr) hActive)
              · intro a w₄ _ _
                trivial
        · intro subscription w₃ _
          cases assertTransition order.status .FULFILLED <;> trivial
  unfold SubscriptionService.fulfillOrder
  split
  · apply steady_quiet rfl hInv
    intro existing w₁ hSame hClock _
    cases existing with
    | some existing => trivial
    | none => exact hGrant w₁ hSame (hClock nofun)
  · exact hGrant w rfl rfl

/-- The subscriptions a pass has yet to visit are stored as it read them. -/
def Unvisited (w : World) (subs : List Subscription) : Prop :=
  (subs.map Subscription.id).Nodup ∧
    ∀ sub ∈ subs, sub.active = true ∧ w.store.subscriptions.byId.get? sub.id = some sub

theorem unvisited_activeRows (w : World) : Unvisited w w.store.subscriptions.activeRows := by
  constructor
  · exact w.store.subscriptions.byId.nodup.sublist (List.filter_sublist.map Subscription.id)
  · intro sub hSub
    obtain ⟨hMem, hActive⟩ := List.mem_filter.mp hSub
    exact ⟨hActive, Table.get?_of_mem hMem⟩

/-- Writing the first of the subscriptions leaves the others as they were read. -/
theorem Unvisited.rest {w w' : World} {sub : Subscription} {rest : List Subscription}
    (h : Unvisited w (sub :: rest))
    (hOthers : ∀ k, k ≠ sub.id →
      w'.store.subscriptions.byId.get? k = w.store.subscriptions.byId.get? k) :
    Unvisited w' rest := by
  obtain ⟨hNodup, hStored⟩ := h
  rw [List.map_cons, List.nodup_cons] at hNodup
  refine ⟨hNodup.2, fun other hMem => ?_⟩
  have hNe : other.id ≠ sub.id := fun hEq => hNodup.1 (hEq ▸ List.mem_map_of_mem hMem)
  obtain ⟨hActive, hGet⟩ := hStored other (List.mem_cons_of_mem _ hMem)
  exact ⟨hActive, (hOthers other.id hNe).trans hGet⟩

/-- Writing back the first subscription a pass visits, with some fields changed. -/
theorem steady_visit {sub sub' : Subscription} {rest : List Subscription}
    {f : Subscription → Action Key β} (hInv : OneActive deps.backend w.store.subscriptions)
    (hUnvisited : Unvisited w (sub :: rest)) (hId : sub'.id = sub.id)
    (hUser : sub'.userId = sub.userId) (hSame : SqlSubscriptionRepository.setColumns sub sub' = sub')
    (hRest : ∀ a w', OneActive deps.backend w'.store.subscriptions → Unvisited w' rest →
      Steady deps i (f a) w') :
    Steady deps i (perform (Call.subscriptionsUpdate sub') >>= f) w := by
  obtain ⟨hActive, hGet⟩ := hUnvisited.2 sub List.mem_cons_self
  have hMem := Table.mem_of_get? hGet
  apply steady_write sub' hInv (hId ▸ hInv.named sub hMem) (.inr ⟨rfl, sub, hId.symm ▸ hGet, hSame⟩)
  · intro _ r hr hrActive hrUser
    rw [hId]
    exact congrArg Subscription.id (hInv.unique hr hMem hrActive hActive (hrUser.trans hUser))
  · intro a w' hInv' hOthers
    exact hRest a w' hInv' (hUnvisited.rest fun k hk => hOthers k (hId.symm ▸ hk))

/-- By induction on the subscriptions the reminder pass has yet to visit. -/
theorem steady_remindEach (now : Int) (subs : List Subscription) (sent : Nat)
    (hInv : OneActive deps.backend w.store.subscriptions) (hUnvisited : Unvisited w subs) :
    Steady deps i (ExpiryService.remindEach deps now subs sent : Action Key Nat) w := by
  induction subs generalizing sent w with
  | nil => trivial
  | cons sub rest ih =>
      unfold ExpiryService.remindEach
      split
      · apply steady_quiet rfl hInv
        intro _ w₁ hSame _ _
        have hUnvisited₁ : Unvisited w₁ (sub :: rest) := by
          simpa only [Unvisited, hSame] using hUnvisited
        apply steady_visit (hSame ▸ hInv) hUnvisited₁
        · rfl
        · rfl
        · rfl
        · intro _ w₂ hInv₂ hUnvisited₂
          exact ih (sent + 1) hInv₂ hUnvisited₂
      · exact ih sent hInv (hUnvisited.rest fun _ _ => rfl)

/-- By induction on the subscriptions the deactivation pass has yet to visit. -/
theorem steady_deactivateEach (now : Int) (subs : List Subscription) (count : Nat)
    (hInv : OneActive deps.backend w.store.subscriptions) (hUnvisited : Unvisited w subs) :
    Steady deps i (ExpiryService.deactivateEach now subs count : Action Key Nat) w := by
  induction subs generalizing count w with
  | nil => trivial
  | cons sub rest ih =>
      unfold ExpiryService.deactivateEach
      split
      · exact ih count hInv (hUnvisited.rest fun _ _ => rfl)
      · apply steady_visit hInv hUnvisited
        · rfl
        · rfl
        · rfl
        · intro _ w₁ hInv₁ hUnvisited₁
          apply steady_quiet rfl hInv₁
          intro _ w₂ hSame _ _
          have hUnvisited₂ : Unvisited w₂ rest := by
            simpa only [Unvisited, hSame] using hUnvisited₁
          exact ih (count + 1) (hSame ▸ hInv₁) hUnvisited₂

end programs

section runs

variable {deps : Deps} {store : Store} {clock : Int} {m : Deployment String}

/-- The requests that concern subscriptions, and time passing. -/
def Request.onSubscriptions : Request → Bool
  | .fulfillOrder _ | .sendExpiryReminders | .deactivateExpired | .tick => true
  | _ => false

/-- Requests do not overlap, and the clock never goes back. -/
def oneAtATime (m : Deployment String) : Label Reply (Unit × Request) → Bool
  | .spawn request => m.settled && request.2.onSubscriptions
  | .step _ (.time t) => m.world.clock ≤ t
  | .step _ _ => true

/-- When `fulfillOrder` starts, every subscription stored as active for the user
is still running. -/
def fulfilsWhileRunning (m : Deployment String) : Label Reply (Unit × Request) → Bool
  | .spawn (_, .fulfillOrder order) => m.world.store.subscriptions.byId.rows.all fun r =>
      !(r.active && r.userId = order.userId) || m.world.clock < r.expiresAt
  | _ => true

theorem steady_entry {request : Unit × Request} {i : Nat}
    (hKind : oneAtATime m (.spawn request) = true)
    (hRunning : fulfilsWhileRunning m (.spawn request) = true)
    (hInv : OneActive deps.backend m.world.store.subscriptions) :
    Steady deps i ((singleInstance deps).entry request) m.world := by
  obtain ⟨⟨⟩, request⟩ := request
  have hSubs : request.onSubscriptions = true := (Bool.and_eq_true_iff.mp hKind).2
  cases request with
  | fulfillOrder order =>
      apply steady_bind hInv
      · apply steady_fulfillOrder hInv
        intro r hr hActive hUser
        simpa [hActive, hUser] using List.all_eq_true.mp hRunning r hr
      · exact fun _ _ _ => trivial
  | sendExpiryReminders =>
      apply steady_bind hInv
      · apply steady_quiet rfl hInv
        intro now w₁ hSame₁ _ _
        apply steady_quiet rfl (hSame₁ ▸ hInv)
        intro subs w₂ hSame₂ _ hSubs
        have hSubs : subs = w₂.store.subscriptions.activeRows := hSubs
        exact steady_remindEach now subs 0 (hSame₂ ▸ hSame₁ ▸ hInv)
          (hSubs ▸ unvisited_activeRows w₂)
      · exact fun _ _ _ => trivial
  | deactivateExpired =>
      apply steady_bind hInv
      · apply steady_quiet rfl hInv
        intro now w₁ hSame₁ _ _
        apply steady_quiet rfl (hSame₁ ▸ hInv)
        intro subs w₂ hSame₂ _ hSubs
        have hSubs : subs = w₂.store.subscriptions.activeRows := hSubs
        exact steady_deactivateEach now subs 0 (hSame₂ ▸ hSame₁ ▸ hInv)
          (hSubs ▸ unvisited_activeRows w₂)
      · exact fun _ _ _ => trivial
  | tick =>
      apply steady_quiet rfl hInv
      exact fun _ _ _ _ _ => trivial
  | _ => cases hSubs

/-- One active subscription per user in every state, as long as nobody's order is
fulfilled while a subscription that has run out is still stored as active. Then
the unique index never objects either. -/
theorem one_active_while_running (hStart : OneActive deps.backend store.subscriptions)
    (hRun : (singleInstance deps).Reaches
      (fun m label => (oneAtATime m label && fulfilsWhileRunning m label) = true)
      (Deployment.start store clock) m) :
    (∀ u, (m.world.store.subscriptions.byId.rows.filter fun r =>
      r.active && r.userId = u).length ≤ 1) ∧
    ∀ i sub, (m.nextCall i = some (.subscriptionsCreate sub) →
        ∃ s, m.world.store.subscriptions.create deps.backend sub = .ok s) ∧
      (m.nextCall i = some (.subscriptionsUpdate sub) →
        ∃ s, m.world.store.subscriptions.update deps.backend sub = .ok s) := by
  have hAlone : Alone (singleInstance deps)
      (fun w => OneActive deps.backend w.store.subscriptions) (Accepted deps.backend) m := by
    refine Alone.run ?_ ?_ (alone_start hStart) hRun
    · intro m request hAllowed
      exact (Bool.and_eq_true_iff.mp (Bool.and_eq_true_iff.mp hAllowed).1).1
    · intro m request hAllowed hInv i
      obtain ⟨hKind, hRunning⟩ := Bool.and_eq_true_iff.mp hAllowed
      exact steady_entry hKind hRunning hInv
  refine ⟨hAlone.inv.length_le_one, fun i sub => ⟨fun hCall => ?_, fun hCall => ?_⟩⟩
  · exact (hAlone.nextCall hCall).1 sub rfl
  · exact (hAlone.nextCall hCall).2 sub rfl

end runs

namespace Sample

def paid : Order :=
  { order with status := .PAID, providerTxnId := some "txn1", paidAt := some 0 }

/-- A task fulfils a paid order with a new subscription, or tries to. -/
def fulfils (task : Nat) (order : Order) (subscriptionId : String) :
    List (Label Reply (Unit × Request)) :=
  List.flatten [[.spawn ((), .fulfillOrder order)], steps task 2,
    [.step task (.text subscriptionId)], steps task 1]

/-- A month and a day later. -/
def later : Int := 31 * 24 * 60 * 60 * 1000

theorem oneActive_empty (b : Backend) : OneActive b Store.empty.subscriptions := by
  constructor
  · intro r hr
    cases hr
  · intro u e hEntry
    cases hEntry
  · intro r hr
    cases hr
  · intro u r hFind
    cases b <;> cases hFind

def insertsSubscription : Call → Bool
  | .subscriptionsCreate _ => true
  | _ => false

/-- The user pays a second time while the subscription runs. It is extended, it runs out, and a
pass deactivates it. Then the third order is about to get a new one. -/
def paysAgain : List (Label Reply (Unit × Request)) :=
  List.flatten [fulfils 0 paid "s1", [.spawn ((), .fulfillOrder { paid with id := "o2" })],
    steps 1 3, [.spawn ((), .tick), .step 2 (.time (2 * later)), .spawn ((), .deactivateExpired)],
    steps 3 4, [.spawn ((), .fulfillOrder { paid with id := "o3" })], steps 4 2,
    [.step 4 (.text "s2")]]

end Sample

/-- Three fulfilments: of a new subscription, of a running one, and of one after a deactivation
pass, whose insertion the index accepts. -/
theorem one_active_sample : ∃ m m' : Deployment String, ∃ sub,
    (singleInstance (Sample.deps .sql)).Reaches
      (fun m label => (oneAtATime m label && fulfilsWhileRunning m label) = true)
      (Deployment.start Store.empty 0) m ∧
    (singleInstance (Sample.deps .sql)).Reaches
      (fun m label => (oneAtATime m label && fulfilsWhileRunning m label) = true) m m' ∧
    m.world.store.subscriptions.byId.rows.map Subscription.orderIds = [["o1", "o2"]] ∧
    m.nextCall 4 = some (.subscriptionsCreate sub) ∧
    (∃ s, m.world.store.subscriptions.create .sql sub = .ok s) ∧
    m'.world.store.subscriptions.byId.rows.map Subscription.active = [false, true] ∧
    (m'.world.store.subscriptions.byId.rows.filter fun r =>
      r.active && r.userId = "alice").length ≤ 1 := by
  obtain ⟨m, m', hRun, hMore, hCheck⟩ := System.exists_reaches_then (singleInstance (Sample.deps .sql))
    (fun m label => oneAtATime m label && fulfilsWhileRunning m label)
    (Deployment.start Store.empty 0) Sample.paysAgain (Sample.steps 4 1)
    (fun m m' => m.world.store.subscriptions.byId.rows.map Subscription.orderIds = [["o1", "o2"]] &&
      (m.nextCall 4).any Sample.insertsSubscription &&
      m'.world.store.subscriptions.byId.rows.map Subscription.active = [false, true])
    (by decide +kernel)
  simp only [Bool.and_eq_true, decide_eq_true_eq, Option.any_eq_true] at hCheck
  obtain ⟨⟨hOrders, c, hCall, hCreates⟩, hActive⟩ := hCheck
  have hStart := Sample.oneActive_empty .sql
  cases c with
  | subscriptionsCreate sub =>
      have hAccepted := ((one_active_while_running hStart hRun).2 4 sub).1 hCall
      exact ⟨m, m', sub, hRun, hMore, hOrders, hCall, hAccepted, hActive,
        (one_active_while_running hStart (hRun.trans hMore)).1 "alice"⟩
  | _ => cases hCreates

/-- A user pays again after the subscription ran out and before a deactivation
pass. In memory there are then two active subscriptions. With the SQL backend
the unique index rejects the second one, and the order stays unfulfilled. -/
theorem two_active_after_expiry :
    (∃ m : Deployment String, (singleInstance (Sample.deps .memory)).Reaches
      (fun m label => oneAtATime m label = true) (Deployment.start Store.empty 0) m ∧
      (m.world.store.subscriptions.byId.rows.filter fun r =>
        r.active && r.userId = "alice").length = 2) ∧
    ∃ m : Deployment String, (singleInstance (Sample.deps .sql)).Reaches
      (fun m label => (oneAtATime m label && noFailure Call.reachesStore m label) = true)
      (Deployment.start Store.empty 0) m ∧
      m.rejection 2 = some (uniqueViolation "idx_subscriptions_active_user") := by
  constructor
  · obtain ⟨m, hRun, hCheck⟩ := System.exists_reaches (singleInstance (Sample.deps .memory))
      oneAtATime (Deployment.start Store.empty 0)
      (Sample.fulfils 0 Sample.paid "s1" ++ [.spawn ((), .tick), .step 1 (.time Sample.later)] ++
        Sample.fulfils 2 { Sample.paid with id := "o2" } "s2")
      (fun m => (m.world.store.subscriptions.byId.rows.filter fun r =>
        r.active && r.userId = "alice").length = 2) (by decide +kernel)
    exact ⟨m, hRun, of_decide_eq_true hCheck⟩
  · obtain ⟨m, hRun, hCheck⟩ := System.exists_reaches (singleInstance (Sample.deps .sql))
      (fun m label => oneAtATime m label && noFailure Call.reachesStore m label)
      (Deployment.start Store.empty 0)
      (Sample.fulfils 0 Sample.paid "s1" ++ [.spawn ((), .tick), .step 1 (.time Sample.later)] ++
        Sample.fulfils 2 { Sample.paid with id := "o2" } "s2")
      (fun m => m.rejection 2 = some (uniqueViolation "idx_subscriptions_active_user"))
      (by decide +kernel)
    exact ⟨m, hRun, of_decide_eq_true hCheck⟩

end VpnPayment
