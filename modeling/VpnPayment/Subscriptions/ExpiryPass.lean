import VpnPayment.Async.Sequential
import VpnPayment.Services.Subscription
import VpnPayment.Settlement.ExactlyOnce

/-! `ExpiryWatcher`, and what one of its passes gets done when every dependency
but the notifier does its work. -/
namespace VpnPayment

open Async Collections
open Prog (perform runsTo_bind)

namespace ExpiryWatcher

variable {Key : Type}

def runOnce (deps : Deps) (maintenance : Option (Action Key Nat)) : Action Key (Nat × Nat) := do
  let reminders ← ExpiryService.sendExpiryReminders deps
  let deactivated ← ExpiryService.deactivateExpired
  match maintenance with
  | some sweep => do
      let _ ← sweep
      pure (reminders, deactivated)
  | none => pure (reminders, deactivated)

/-- The maintenance that the container passes to its watcher. -/
def sweepProcessed (processedEventTtlMs : Int) : Action Key Nat :=
  perform (Call.sweep processedEventTtlMs)

end ExpiryWatcher

namespace SubscriptionStore

/-- What the unique index on active rows says of the contents of an SQL store. -/
def Indexed (b : Backend) (s : SubscriptionStore) : Prop :=
  b = .sql → ∀ r ∈ s.byId.rows, ∀ r' ∈ s.byId.rows, r.active = true → r'.active = true →
    r.userId = r'.userId → r = r'

/-- A rewriting of rows that neither the key nor the unique index can object to. -/
structure Harmless (f : Subscription → Subscription) : Prop where
  id : ∀ r, (f r).id = r.id
  userId : ∀ r, (f r).userId = r.userId
  createdAt : ∀ r, (f r).createdAt = r.createdAt
  active : ∀ r, (f r).active = true → r.active = true

/-- The rows after `f` has rewritten those with the given identifiers. -/
def rewritten (f : Subscription → Subscription) (ids : List String) (rows : List Subscription) :
    List Subscription :=
  rows.map fun r => if r.id ∈ ids then f r else r

variable {b : Backend} {s s' : SubscriptionStore} {f : Subscription → Subscription}
  {row : Subscription} {ids : List String}

theorem rewritten_nil (rows : List Subscription) : rewritten f [] rows = rows := by
  simp [rewritten]

/-- The rows after the rewriting are the old ones, those selected rewritten. -/
theorem mem_rewritten (f : Subscription → Subscription) (ids : List String)
    {rows : List Subscription} {r : Subscription} (hMem : r ∈ rows) :
    (if r.id ∈ ids then f r else r) ∈ rewritten f ids rows :=
  List.mem_map.mpr ⟨r, hMem, rfl⟩

/-- The lookup of a row after the rewriting. -/
theorem Harmless.get? (hf : Harmless f) {rows : List Subscription} {r : Subscription}
    (hRows : s.byId.rows = rewritten f ids rows) (hMem : r ∈ rows) :
    s.byId.get? r.id = some (if r.id ∈ ids then f r else r) := by
  have hId : (if r.id ∈ ids then f r else r).id = r.id := by
    split
    · exact hf.id r
    · rfl
  have hGet := Table.get?_of_mem (hRows ▸ mem_rewritten f ids hMem)
  rwa [hId] at hGet

/-- A rewriting that takes no subscription from its user keeps the index. -/
theorem Harmless.indexed (hf : Harmless f) (h : s.Indexed b)
    (hRows : s'.byId.rows = rewritten f ids s.byId.rows) : s'.Indexed b := by
  intro hSql r hr r' hr' hActive hActive' hUser
  rw [hRows] at hr hr'
  obtain ⟨r₀, hMem, rfl⟩ := List.mem_map.mp hr
  obtain ⟨r₁, hMem', rfl⟩ := List.mem_map.mp hr'
  have hSame : r₀ = r₁ := by
    apply h hSql r₀ hMem r₁ hMem'
    · split at hActive
      · exact hf.active r₀ hActive
      · exact hActive
    · split at hActive'
      · exact hf.active r₁ hActive'
      · exact hActive'
    · have hKeeps : ∀ r : Subscription, (if r.id ∈ ids then f r else r).userId = r.userId := by
        intro r
        split
        · exact hf.userId r
        · rfl
      rwa [hKeeps, hKeeps] at hUser
  rw [hSame]

/-- Writing back a row that was rewritten harmlessly succeeds on both backends. -/
theorem Harmless.update (hf : Harmless f) (h : s.Indexed b)
    (hGet : s.byId.get? row.id = some row) :
    ∃ s', s.update b (f row) = .ok s' ∧ s'.byId.rows = rewritten f [row.id] s.byId.rows := by
  have hPut : (s.byId.put (f row)).rows = rewritten f [row.id] s.byId.rows := by
    have hOld : s.byId.get? (f row).id = some row := by rw [hf.id, hGet]
    rw [Table.rows_put_of_get? hOld]
    apply List.map_congr_left
    intro r hr
    simp only [hf.id, List.mem_singleton]
    split
    · next hEq =>
        have hSame := Table.get?_of_mem hr
        rw [hEq, hGet] at hSame
        rw [Option.some.inj hSame]
    · rfl
  cases b with
  | memory => exact ⟨_, rfl, hPut⟩
  | sql =>
      have hColumns : SqlSubscriptionRepository.setColumns row (f row) = f row := by
        have hId := hf.id row
        have hUser := hf.userId row
        have hCreated := hf.createdAt row
        cases hRow : f row
        simp_all [SqlSubscriptionRepository.setColumns]
      have hFree : SqlSubscriptionRepository.violatesActiveUser s (f row) = false := by
        refine Bool.eq_false_iff.mpr fun hViolates => ?_
        simp only [SqlSubscriptionRepository.violatesActiveUser, Bool.and_eq_true,
          List.any_eq_true, decide_eq_true_eq, ne_eq] at hViolates
        obtain ⟨hActive, r, hr, ⟨hOther, hUser⟩, hNe⟩ := hViolates
        have hEq := h rfl r hr row (Table.mem_of_get? hGet) hOther (hf.active row hActive)
          (hUser.trans (hf.userId row))
        exact hNe (hEq ▸ (hf.id row).symm)
      refine ⟨⟨s.byId.put (f row), s.activeByUser⟩, ?_, hPut⟩
      simp [SubscriptionStore.update, SqlSubscriptionRepository.update, hf.id, hGet, hColumns, hFree]

end SubscriptionStore

/-- What the notifier answers to the `k`-th notice of a pass: it delivers the
notice or throws. -/
abbrev Notifier := Nat → NotificationEvent → Option AppError

def Call.isNotice : Call → Bool
  | .notify _ => true
  | _ => false

namespace World

/-- The notices handed to the notifier so far. -/
def notices (w : World) : Nat :=
  w.trace.countP fun e => e.call.isNotice

/-- How often the clock has been read so far. -/
def readings (w : World) : Nat :=
  w.trace.countP fun e => e.call = .now

/-- The notice was handed to the notifier, whether or not it was delivered. -/
def Attempted (w : World) (event : NotificationEvent) : Prop :=
  ∃ answer, ⟨0, .notify event, answer, false⟩ ∈ w.trace

/-- The notifier delivered the notice. -/
def Notified (w : World) (event : NotificationEvent) : Prop :=
  ⟨0, .notify event, .ok (), false⟩ ∈ w.trace

/-- The maintenance sweep was made. -/
def Swept (w : World) : Prop :=
  ∃ olderThanMs answer, ⟨0, .sweep olderThanMs, answer, true⟩ ∈ w.trace

end World

/-- Every dependency but the notifier does its work. -/
def passReply (notifier : Notifier) (w : World) : Call → Reply
  | .notify event => match notifier w.notices event with
      | none => .normal
      | some e => .throws false e
  | _ => .normal

/-- How the calls of a pass settle. The clock shows `clock k` at its `k`-th reading. -/
def passExec (b : Backend) (clock : Nat → Int) (notifier : Notifier) :
    Executor Call Ans AppError World Unit :=
  fun c _ w => exec b 0 c (passReply notifier w c) { w with clock := clock w.readings }

open ExpiryService SubscriptionStore

/-- The notices that the contents of the store call for, in the order of a pass. -/
def agenda (deps : Deps) (clock : Nat → Int) (s : SubscriptionStore) : List NotificationEvent :=
  (s.activeRows.filter (dueForReminder deps (clock 0))).map
      (fun sub => expiryEvent .subscription_expiring sub (clock 0)) ++
    (s.activeRows.filter fun sub => sub.expiresAt ≤ clock 1).map
      fun sub => expiryEvent .subscription_expired sub (clock 1)

/-- What a pass is for: the first reading of the clock decides which reminders are
due, the second which subscriptions have expired. -/
structure PassDone (deps : Deps) (clock : Nat → Int) (before after : World) : Prop where
  deactivated : ∀ sub ∈ before.store.subscriptions.activeRows, sub.expiresAt ≤ clock 1 →
    ∃ row, after.store.subscriptions.byId.get? sub.id = some row ∧ row.active = false
  attempted : ∀ sub ∈ before.store.subscriptions.activeRows,
    dueForReminder deps (clock 0) sub = true →
    after.Attempted (expiryEvent .subscription_expiring sub (clock 0))
  marked : ∀ sub ∈ before.store.subscriptions.byId.rows, ∃ row,
    after.store.subscriptions.byId.get? sub.id = some row ∧
    (after.Notified (expiryEvent .subscription_expiring sub (clock 0)) →
      row.expiryNotifiedAt = some (clock 0)) ∧
    (¬ after.Notified (expiryEvent .subscription_expiring sub (clock 0)) →
      row.expiryNotifiedAt = sub.expiryNotifiedAt)
  maintained : after.Swept

/-- A loop of the pass has rewritten the selected rows and sent a notice for each. -/
structure LoopDone (f : Subscription → Subscription) (event : Subscription → NotificationEvent)
    (selected : List Subscription) (w w' : World) : Prop where
  rows : w'.store.subscriptions.byId.rows =
    rewritten f (selected.map Subscription.id) w.store.subscriptions.byId.rows
  notified : ∀ e, w'.Notified e ↔ w.Notified e ∨ e ∈ selected.map event
  notices : w'.notices = w.notices + selected.length
  readings : w'.readings = w.readings
  swept : w'.Swept ↔ w.Swept

/-- A notice of the loop was refused. -/
def Refused (notifier : Notifier) (event : Subscription → NotificationEvent)
    (selected : List Subscription) (w : World) : Prop :=
  ∃ k e, (selected.map event)[k]? = some e ∧ notifier (w.notices + k) e ≠ none

namespace LoopDone

variable {f : Subscription → Subscription} {event : Subscription → NotificationEvent}
  {selected : List Subscription} {sub : Subscription} {w w₁ w' : World} {notifier : Notifier}

theorem refl (w : World) : LoopDone f event [] w w where
  rows := (rewritten_nil _).symm
  notified e := by simp
  notices := rfl
  readings := rfl
  swept := .rfl

/-- One more row before the loop over the others. -/
theorem cons (hf : Harmless f) (hNew : sub.id ∉ selected.map Subscription.id)
    (hFirst : LoopDone f event [sub] w w₁) (hRest : LoopDone f event selected w₁ w') :
    LoopDone f event (sub :: selected) w w' where
  rows := by
    rw [hRest.rows, hFirst.rows, rewritten, rewritten, rewritten, List.map_map]
    apply List.map_congr_left
    intro r _
    by_cases hEq : r.id = sub.id
    · simp only [List.map_cons, List.map_nil, List.mem_cons, hEq, true_or, if_true,
        Function.comp_apply, hf.id, hNew, if_false]
    · simp [hEq]
  notified e := by
    rw [hRest.notified, hFirst.notified]
    simp [or_assoc]
  notices := by
    rw [hRest.notices, hFirst.notices, List.length_singleton, List.length_cons]
    omega
  readings := hRest.readings.trans hFirst.readings
  swept := hRest.swept.trans hFirst.swept

end LoopDone

/-- The first one selected is refused by the notifier as it stands. -/
theorem Refused.head {notifier : Notifier} {event : Subscription → NotificationEvent}
    {selected : List Subscription} {sub : Subscription} {w : World}
    (h : notifier w.notices (event sub) ≠ none) : Refused notifier event (sub :: selected) w :=
  ⟨0, event sub, rfl, h⟩

/-- A later one is refused by the notifier as it stands after the first. -/
theorem refused_cons_iff {notifier : Notifier} {event : Subscription → NotificationEvent}
    (selected : List Subscription) {sub : Subscription} {w w₁ : World}
    (h : notifier w.notices (event sub) = none) (hCount : w₁.notices = w.notices + 1) :
    Refused notifier event (sub :: selected) w ↔ Refused notifier event selected w₁ := by
  constructor
  · rintro ⟨k, e, hGet, hRefused⟩
    cases k with
    | zero =>
        obtain rfl : event sub = e := by simpa using hGet
        exact absurd h hRefused
    | succ k =>
        refine ⟨k, e, by simpa using hGet, ?_⟩
        rwa [hCount, Nat.add_assoc, Nat.add_comm 1 k]
  · rintro ⟨k, e, hGet, hRefused⟩
    refine ⟨k + 1, e, by simpa using hGet, ?_⟩
    rwa [hCount, Nat.add_assoc, Nat.add_comm 1 k] at hRefused

section calls

variable (b : Backend) (clock : Nat → Int) (notifier : Notifier) {w : World}
  {event : NotificationEvent}

theorem passExec_now : ∃ w', passExec b clock notifier .now () w = some (.ok (clock w.readings), w') ∧
    w'.store = w.store ∧ w'.trace = ⟨0, .now, .ok (clock w.readings), false⟩ :: w.trace :=
  ⟨_, rfl, rfl, rfl⟩

theorem passExec_listActive : ∃ w', passExec b clock notifier .subscriptionsListActive () w =
      some (.ok w.store.subscriptions.activeRows, w') ∧ w'.store = w.store ∧
    w'.trace = ⟨0, .subscriptionsListActive, .ok w.store.subscriptions.activeRows, true⟩ :: w.trace := by
  rw [← SubscriptionStore.listActive_eq b]
  exact ⟨_, rfl, rfl, rfl⟩

theorem passExec_sweep (olderThanMs : Int) : ∃ answer w',
    passExec b clock notifier (.sweep olderThanMs) () w = some (.ok answer, w') ∧
    w'.store.subscriptions = w.store.subscriptions ∧
    w'.trace = ⟨0, .sweep olderThanMs, .ok answer, true⟩ :: w.trace :=
  ⟨_, _, rfl, rfl, rfl⟩

/-- A notice that is taken is recorded. -/
theorem passExec_delivered (h : notifier w.notices event = none) : ∃ w',
    passExec b clock notifier (.notify event) () w = some (.ok (), w') ∧ w'.store = w.store ∧
    w'.trace = ⟨0, .notify event, .ok (), false⟩ :: w.trace := by
  refine ⟨{ w with clock := clock w.readings }.log ⟨0, .notify event, .ok (), false⟩, ?_, rfl, rfl⟩
  simp [passExec, passReply, h, exec, storeEffect, outsideAnswer, noted]

/-- A notice that is refused is an error. -/
theorem passExec_refused {e : AppError} (h : notifier w.notices event = some e) : ∃ w',
    passExec b clock notifier (.notify event) () w = some (.error e, w') ∧
    w'.trace = ⟨0, .notify event, .error e, false⟩ :: w.trace := by
  refine ⟨{ w with clock := clock w.readings }.log ⟨0, .notify event, .error e, false⟩, ?_, rfl⟩
  simp [passExec, passReply, h, exec, storeEffect, mayThrow]

/-- An update of a stored subscription rewrites its row. -/
theorem passExec_update {f : Subscription → Subscription} {row : Subscription} (hf : Harmless f)
    (hIndexed : w.store.subscriptions.Indexed b) (hMem : row ∈ w.store.subscriptions.byId.rows) :
    ∃ w', passExec b clock notifier (.subscriptionsUpdate (f row)) () w = some (.ok (f row), w') ∧
      w'.store.subscriptions.byId.rows = rewritten f [row.id] w.store.subscriptions.byId.rows ∧
      w'.trace = ⟨0, .subscriptionsUpdate (f row), .ok (f row), true⟩ :: w.trace := by
  obtain ⟨s', hUpdate, hRows⟩ := hf.update hIndexed (Table.get?_of_mem hMem)
  refine ⟨{ w with clock := clock w.readings, store := { w.store with subscriptions := s' } }.log
    ⟨0, .subscriptionsUpdate (f row), .ok (f row), true⟩, ?_, hRows, rfl⟩
  simp [passExec, passReply, exec, storeEffect, hUpdate, Except.map]

end calls

section loops

variable {Key : Type} {deps : Deps} {b : Backend} {clock : Nat → Int} {notifier : Notifier}
  {w : World} {now : Int} {subs : List Subscription} {sub : Subscription}

/-- The row that the loop of `sendExpiryReminders` writes back. -/
def reminded (now : Int) (sub : Subscription) : Subscription :=
  { sub with expiryNotifiedAt := some now }

/-- The row that the loop of `deactivateExpired` writes back. -/
def deactivated (now : Int) (sub : Subscription) : Subscription :=
  { sub with active := false, updatedAt := now }

theorem harmless_reminded (now : Int) : Harmless (reminded now) :=
  ⟨fun _ => rfl, fun _ => rfl, fun _ => rfl, fun _ h => h⟩

theorem harmless_deactivated (now : Int) : Harmless (deactivated now) :=
  ⟨fun _ => rfl, fun _ => rfl, fun _ => rfl, fun _ h => by cases h⟩

/-- The rows still to come are untouched by the row just written. -/
theorem mem_rows_of_rewritten {f : Subscription → Subscription} {w' : World}
    (hNodup : ((sub :: subs).map Subscription.id).Nodup)
    (hMem : ∀ x ∈ sub :: subs, x ∈ w.store.subscriptions.byId.rows)
    (hRows : w'.store.subscriptions.byId.rows =
      rewritten f [sub.id] w.store.subscriptions.byId.rows) :
    ∀ x ∈ subs, x ∈ w'.store.subscriptions.byId.rows := by
  intro x hx
  rw [List.map_cons, List.nodup_cons] at hNodup
  have hNe : x.id ∉ [sub.id] := by
    intro hEq
    exact hNodup.1 (List.mem_singleton.mp hEq ▸ List.mem_map_of_mem hx)
  have hKept := mem_rewritten f [sub.id] (hMem x (List.mem_cons_of_mem _ hx))
  rwa [if_neg hNe, ← hRows] at hKept

/-- How a loop of the pass ends that selects `selected`: it gets through, or a
refused notice ends the pass. -/
def LoopEnds (b : Backend) (clock : Nat → Int) (notifier : Notifier)
    (f : Subscription → Subscription) (event : Subscription → NotificationEvent)
    (selected : List Subscription) (loop : Nat → Action Key Nat) (w : World) : Prop :=
  ∀ count, (∃ w', (loop count).RunsTo (passExec b clock notifier) w
      (.ok (count + selected.length)) w' ∧ LoopDone f event selected w w' ∧
      ¬ Refused notifier event selected w) ∨
    ∃ e w', (loop count).RunsTo (passExec b clock notifier) w (.error e) w' ∧
      (w'.Swept ↔ w.Swept) ∧ Refused notifier event selected w

/-- A row whose notice is delivered, before the loop over the others. -/
theorem LoopEnds.cons {f : Subscription → Subscription} {event : Subscription → NotificationEvent}
    {selected : List Subscription} {loop rest : Nat → Action Key Nat} {w₁ : World}
    (hf : Harmless f) (hNew : sub.id ∉ selected.map Subscription.id)
    (hNotify : notifier w.notices (event sub) = none) (hFirst : LoopDone f event [sub] w w₁)
    (hRuns : ∀ count result w', (rest (count + 1)).RunsTo (passExec b clock notifier) w₁ result w' →
      (loop count).RunsTo (passExec b clock notifier) w result w')
    (h : LoopEnds b clock notifier f event selected rest w₁) :
    LoopEnds b clock notifier f event (sub :: selected) loop w := by
  intro count
  have hRefused := refused_cons_iff selected hNotify hFirst.notices
  obtain ⟨w', hRest, hDone, hNone⟩ | ⟨e, w', hRest, hSwept, hSome⟩ := h (count + 1)
  · refine .inl ⟨w', ?_, .cons hf hNew hFirst hDone, fun hSome => hNone (hRefused.mp hSome)⟩
    rw [List.length_cons, Nat.add_comm selected.length 1, ← Nat.add_assoc]
    exact hRuns count _ w' hRest
  · exact .inr ⟨e, w', hRuns count _ w' hRest, hSwept.trans hFirst.swept, hRefused.mpr hSome⟩

theorem loopEnds_nil {f : Subscription → Subscription} {event : Subscription → NotificationEvent}
    {loop : Nat → Action Key Nat} (hLoop : ∀ count, loop count = pure count) :
    LoopEnds b clock notifier f event [] loop w := by
  intro count
  refine .inl ⟨w, ?_, .refl w, ?_⟩
  · rw [hLoop]
    exact ⟨rfl, rfl⟩
  · rintro ⟨k, e, hGet, -⟩
    cases hGet

/-- The row just handled, whether its notice was delivered before or after the write. -/
theorem loopDone_single {f : Subscription → Subscription} {event : Subscription → NotificationEvent}
    {w' : World} {answer : Except AppError Subscription}
    (hRows : w'.store.subscriptions.byId.rows =
      rewritten f [sub.id] w.store.subscriptions.byId.rows)
    (hTrace : List.Perm w'.trace (⟨0, .subscriptionsUpdate (f sub), answer, true⟩ ::
      ⟨0, .notify (event sub), .ok (), false⟩ :: w.trace)) :
    LoopDone f event [sub] w w' := by
  refine ⟨hRows, fun e => ?_, ?_, ?_, ?_⟩
  · simp [World.Notified, hTrace.mem_iff, or_comm]
  · simp [World.notices, hTrace.countP_eq, Call.isNotice]
  · simp [World.readings, hTrace.countP_eq]
  · simp [World.Swept, hTrace.mem_iff]

variable (Key deps clock notifier now) in
/-- By induction on the rows the loop goes over. -/
theorem remindEach_ends (hIndexed : w.store.subscriptions.Indexed b)
    (hMem : ∀ x ∈ subs, x ∈ w.store.subscriptions.byId.rows)
    (hNodup : (subs.map Subscription.id).Nodup) :
    LoopEnds b clock notifier (reminded now)
      (fun sub => expiryEvent .subscription_expiring sub now)
      (subs.filter (dueForReminder deps now)) (@remindEach Key deps now subs) w := by
  induction subs generalizing w with
  | nil => exact loopEnds_nil fun _ => rfl
  | cons sub rest ih =>
      have hNew := List.nodup_cons.mp hNodup
      by_cases hDue : dueForReminder deps now sub = true
      · rw [List.filter_cons_of_pos hDue]
        have hLoop : ∀ count, @remindEach Key deps now (sub :: rest) count =
            (perform (.notify (expiryEvent .subscription_expiring sub now)) >>= fun _ =>
              perform (.subscriptionsUpdate (reminded now sub)) >>= fun _ =>
                remindEach deps now rest (count + 1)) := by
          intro count
          rw [remindEach, if_pos hDue]
          rfl
        cases hNotify : notifier w.notices (expiryEvent .subscription_expiring sub now) with
        | some e =>
            obtain ⟨w₁, hRefused, hTrace⟩ := passExec_refused b clock notifier hNotify
            intro count
            rw [hLoop]
            refine .inr ⟨e, w₁, ⟨(), _, _, hRefused, rfl, rfl⟩, ?_, .head ?_⟩
            · simp [World.Swept, hTrace]
            · simp [hNotify]
        | none =>
            obtain ⟨w₁, hTold, hStore, hTrace⟩ := passExec_delivered b clock notifier hNotify
            obtain ⟨w₂, hWrite, hRows, hTrace'⟩ := passExec_update b clock notifier (harmless_reminded now) (hStore ▸ hIndexed)
              (hStore ▸ hMem sub List.mem_cons_self)
            rw [hStore] at hRows
            have hFirst : LoopDone (reminded now)
                (fun sub => expiryEvent .subscription_expiring sub now) [sub] w w₂ :=
              loopDone_single hRows (.of_eq (hTrace'.trans (by rw [hTrace])))
            apply LoopEnds.cons (harmless_reminded now) ?_ hNotify hFirst (fun count result w' hRest => ?_)
              (ih ?_ (mem_rows_of_rewritten hNodup hMem hRows) hNew.2)
            · intro hIn
              exact hNew.1 ((List.filter_sublist.map Subscription.id).subset hIn)
            · exact (harmless_reminded now).indexed hIndexed hRows
            · rw [hLoop]
              exact ⟨(), _, _, hTold, (), _, _, hWrite, hRest⟩
      · rw [List.filter_cons_of_neg hDue]
        intro count
        rw [remindEach, if_neg hDue]
        exact ih hIndexed (fun x hx => hMem x (List.mem_cons_of_mem _ hx)) hNew.2 count

variable (Key clock notifier now) in
/-- By induction on the rows the loop goes over. -/
theorem deactivateEach_ends (hIndexed : w.store.subscriptions.Indexed b)
    (hMem : ∀ x ∈ subs, x ∈ w.store.subscriptions.byId.rows)
    (hNodup : (subs.map Subscription.id).Nodup) :
    LoopEnds b clock notifier (deactivated now)
      (fun sub => expiryEvent .subscription_expired sub now)
      (subs.filter fun sub => sub.expiresAt ≤ now) (@deactivateEach Key now subs) w := by
  induction subs generalizing w with
  | nil => exact loopEnds_nil fun _ => rfl
  | cons sub rest ih =>
      have hNew := List.nodup_cons.mp hNodup
      by_cases hExpired : sub.expiresAt ≤ now
      · rw [List.filter_cons_of_pos (by simpa using hExpired)]
        have hLoop : ∀ count, @deactivateEach Key now (sub :: rest) count =
            (perform (.subscriptionsUpdate (deactivated now sub)) >>= fun _ =>
              perform (.notify (expiryEvent .subscription_expired sub now)) >>= fun _ =>
                deactivateEach now rest (count + 1)) := by
          intro count
          rw [deactivateEach, if_neg (by omega)]
          rfl
        obtain ⟨w₁, hWrite, hRows, hTrace⟩ := passExec_update b clock notifier (harmless_deactivated now) hIndexed (hMem sub List.mem_cons_self)
        have hCount : w₁.notices = w.notices := by simp [World.notices, hTrace, Call.isNotice]
        cases hNotify : notifier w.notices (expiryEvent .subscription_expired sub now) with
        | some e =>
            obtain ⟨w₂, hRefused, hTrace'⟩ := passExec_refused b clock notifier
              (hCount ▸ hNotify)
            intro count
            rw [hLoop]
            refine .inr ⟨e, w₂, ⟨(), _, _, hWrite, (), _, _, hRefused, rfl, rfl⟩, ?_, .head ?_⟩
            · simp [World.Swept, hTrace', hTrace]
            · simp [hNotify]
        | none =>
            obtain ⟨w₂, hTold, hStore, hTrace'⟩ := passExec_delivered b clock notifier
              (hCount ▸ hNotify)
            rw [← hStore] at hRows
            have hFirst : LoopDone (deactivated now)
                (fun sub => expiryEvent .subscription_expired sub now) [sub] w w₂ :=
              loopDone_single hRows ((List.Perm.of_eq (hTrace'.trans (by rw [hTrace]))).trans (.swap ..))
            apply LoopEnds.cons (harmless_deactivated now) ?_ hNotify hFirst
              (fun count result w' hRest => ?_)
              (ih ?_ (mem_rows_of_rewritten hNodup hMem hRows) hNew.2)
            · intro hIn
              exact hNew.1 ((List.filter_sublist.map Subscription.id).subset hIn)
            · exact (harmless_deactivated now).indexed hIndexed hRows
            · rw [hLoop]
              exact ⟨(), _, _, hWrite, (), _, _, hTold, hRest⟩
      · rw [List.filter_cons_of_neg (by simpa using hExpired)]
        intro count
        rw [deactivateEach, if_pos (by omega)]
        exact ih hIndexed (fun x hx => hMem x (List.mem_cons_of_mem _ hx)) hNew.2 count

end loops

section passes

variable {Key : Type} {deps : Deps} {b : Backend} {clock : Nat → Int} {notifier : Notifier}
  {w w' : World} {s : SubscriptionStore}

/-- The rows that a loop over the active ones goes over are rows of the table. -/
theorem mem_rows_of_activeRows : ∀ sub ∈ s.activeRows, sub ∈ s.byId.rows :=
  fun _ hMem => (List.mem_filter.mp hMem).1

/-- No subscription is selected twice. -/
theorem nodup_activeRows (s : SubscriptionStore) : (s.activeRows.map Subscription.id).Nodup :=
  s.byId.nodup.sublist (List.filter_sublist.map _)

/-- Reminders change nothing about which rows have run out, nor their notices. -/
theorem expired_of_rewritten (now t : Int) (ids : List String) (rows : List Subscription) :
    (((rewritten (reminded now) ids rows).filter Subscription.active).filter fun sub =>
        sub.expiresAt ≤ t).map (fun sub => expiryEvent .subscription_expired sub t) =
      ((rows.filter Subscription.active).filter fun sub => sub.expiresAt ≤ t).map
        fun sub => expiryEvent .subscription_expired sub t := by
  induction rows with
  | nil => rfl
  | cons r rest ih =>
      have hRow : ∃ r', rewritten (reminded now) ids (r :: rest) =
          r' :: rewritten (reminded now) ids rest ∧ r'.active = r.active ∧
          r'.expiresAt = r.expiresAt ∧
          expiryEvent .subscription_expired r' t = expiryEvent .subscription_expired r t := by
        refine ⟨if r.id ∈ ids then reminded now r else r, rfl, ?_⟩
        split
        · exact ⟨rfl, rfl, rfl⟩
        · exact ⟨rfl, rfl, rfl⟩
      obtain ⟨r', hEq, hActive, hExpires, hEvent⟩ := hRow
      rw [hEq]
      by_cases hOn : r.active = true
      · by_cases hPast : r.expiresAt ≤ t
        · simpa [List.filter_cons, hActive, hOn, hExpires, hPast, hEvent] using ih
        · simpa [List.filter_cons, hActive, hOn, hExpires, hPast] using ih
      · simpa [List.filter_cons, hActive, hOn] using ih

variable (b clock notifier) in
/-- What both parts of a pass begin with: they read the clock and list the active rows. -/
theorem runsTo_reads {α : Type} (body : Int → List Subscription → Action Key α) (w : World) :
    ∃ w₁ : World, w₁.store = w.store ∧ w₁.notices = w.notices ∧ w₁.readings = w.readings + 1 ∧
      (∀ e, w₁.Notified e ↔ w.Notified e) ∧ (w₁.Swept ↔ w.Swept) ∧
      ∀ result w', (body (clock w.readings) w.store.subscriptions.activeRows).RunsTo
          (passExec b clock notifier) w₁ result w' →
        (perform .now >>= fun now => perform .subscriptionsListActive >>= fun active =>
          body now active).RunsTo (passExec b clock notifier) w result w' := by
  obtain ⟨w₀, hNow, hStore, hTrace⟩ := passExec_now b clock notifier (w := w)
  obtain ⟨w₁, hList, hStore', hTrace'⟩ := passExec_listActive b clock notifier (w := w₀)
  rw [hStore] at hList hTrace'
  refine ⟨w₁, hStore'.trans hStore, ?_, ?_, fun e => ?_, ?_, fun result w' hBody => ?_⟩
  · simp [World.notices, hTrace', hTrace, Call.isNotice]
  · simp [World.readings, hTrace', hTrace]
  · simp [World.Notified, hTrace', hTrace]
  · simp [World.Swept, hTrace', hTrace]
  · exact ⟨(), _, _, hNow, (), _, _, hList, hBody⟩

/-- What is left of a pass whose loops have got through. -/
theorem passDone_of_rows {t₀ t₁ : Int} (ht₀ : clock 0 = t₀) (ht₁ : clock 1 = t₁)
    {rows : List Subscription}
    (hRows : rows = rewritten (reminded t₀)
      ((w.store.subscriptions.activeRows.filter (dueForReminder deps t₀)).map Subscription.id)
      w.store.subscriptions.byId.rows)
    (hRows' : w'.store.subscriptions.byId.rows = rewritten (deactivated t₁)
      (((rows.filter Subscription.active).filter fun sub => sub.expiresAt ≤ t₁).map Subscription.id)
      rows)
    (hNotified : ∀ e, w'.Notified e ↔
      e ∈ (w.store.subscriptions.activeRows.filter (dueForReminder deps t₀)).map
        (fun sub => expiryEvent .subscription_expiring sub t₀) ∨
      e ∈ ((rows.filter Subscription.active).filter fun sub => sub.expiresAt ≤ t₁).map
        fun sub => expiryEvent .subscription_expired sub t₁)
    (hSwept : w'.Swept) : PassDone deps clock w w' := by
  subst ht₀ ht₁
  have hReminded : ∀ sub ∈ w.store.subscriptions.byId.rows,
      (w'.Notified (expiryEvent .subscription_expiring sub (clock 0)) ↔ sub.id ∈
        (w.store.subscriptions.activeRows.filter
          (dueForReminder deps (clock 0))).map Subscription.id) := by
    intro sub hSub
    rw [hNotified, List.mem_map, List.mem_map, List.mem_map]
    constructor
    · rintro (⟨x, hx, hEq⟩ | ⟨x, -, hEq⟩)
      · exact ⟨x, hx, (NotificationEvent.mk.inj hEq).2.2.1⟩
      · cases (NotificationEvent.mk.inj hEq).1
    · rintro ⟨x, hx, hId⟩
      have hGet := Table.get?_of_mem (mem_rows_of_activeRows x (List.mem_filter.mp hx).1)
      rw [hId, Table.get?_of_mem hSub] at hGet
      exact .inl ⟨x, hx, by rw [Option.some.inj hGet]⟩
  -- the row that the pass leaves for a subscription, through both loops
  have hRow : ∀ sub ∈ w.store.subscriptions.byId.rows, ∃ mid row, mid ∈ rows ∧ mid.id = sub.id ∧
      mid = (if sub.id ∈ (w.store.subscriptions.activeRows.filter
        (dueForReminder deps (clock 0))).map Subscription.id then reminded (clock 0) sub else sub) ∧
      w'.store.subscriptions.byId.get? sub.id = some row ∧
      row = if mid.id ∈ ((rows.filter Subscription.active).filter fun sub =>
        sub.expiresAt ≤ clock 1).map Subscription.id then deactivated (clock 1) mid else mid := by
    intro sub hSub
    have hId : ∀ ids : List String,
        (if sub.id ∈ ids then reminded (clock 0) sub else sub).id = sub.id := by
      intro ids
      split
      · rfl
      · rfl
    have hMid := hRows ▸ mem_rewritten (reminded (clock 0)) _ hSub
    have hGet := (harmless_deactivated (clock 1)).get? hRows' hMid
    exact ⟨_, _, hMid, hId _, rfl, (congrArg _ (hId _).symm).trans hGet, rfl⟩
  refine ⟨fun sub hSub hPast => ?_, fun sub hSub hDue => ?_, fun sub hSub => ?_, hSwept⟩
  · obtain ⟨mid, row, hMid, hId, hMidEq, hGet, hRowEq⟩ := hRow sub (mem_rows_of_activeRows sub hSub)
    have hActive : mid.active = true := by
      rw [hMidEq]
      split
      · exact (List.mem_filter.mp hSub).2
      · exact (List.mem_filter.mp hSub).2
    have hExpires : mid.expiresAt ≤ clock 1 := by
      rw [hMidEq]
      split
      · exact hPast
      · exact hPast
    refine ⟨row, hGet, ?_⟩
    rw [hRowEq, if_pos (List.mem_map_of_mem (by simp [hMid, hActive, hExpires]))]
    rfl
  · refine ⟨.ok (), (hReminded sub (mem_rows_of_activeRows sub hSub)).mpr ?_⟩
    exact List.mem_map_of_mem (List.mem_filter.mpr ⟨hSub, hDue⟩)
  · obtain ⟨mid, row, -, -, hMidEq, hGet, hRowEq⟩ := hRow sub hSub
    have hSame : row.expiryNotifiedAt = mid.expiryNotifiedAt := by
      rw [hRowEq]
      split
      · rfl
      · rfl
    refine ⟨row, hGet, fun hTold => ?_, fun hTold => ?_⟩
    · rw [hSame, hMidEq, if_pos ((hReminded sub hSub).mp hTold)]
      rfl
    · rw [hSame, hMidEq, if_neg fun hIn => hTold ((hReminded sub hSub).mpr hIn)]

/-- Some notice of two lists, one sent after the other, is refused. -/
theorem refused_append_iff {first second : List NotificationEvent} :
    (∃ k e, (first ++ second)[k]? = some e ∧ notifier k e ≠ none) ↔
      (∃ k e, first[k]? = some e ∧ notifier k e ≠ none) ∨
      ∃ k e, second[k]? = some e ∧ notifier (first.length + k) e ≠ none := by
  constructor
  · rintro ⟨k, e, hGet, hRefused⟩
    rw [List.getElem?_append] at hGet
    split at hGet
    · exact .inl ⟨k, e, hGet, hRefused⟩
    · next hLe => exact .inr ⟨k - first.length, e, hGet, by rwa [Nat.add_sub_cancel' (by omega)]⟩
  · rintro (⟨k, e, hGet, hRefused⟩ | ⟨k, e, hGet, hRefused⟩)
    · refine ⟨k, e, ?_, hRefused⟩
      rw [List.getElem?_append_left (List.getElem?_eq_some_iff.mp hGet).1, hGet]
    · refine ⟨first.length + k, e, ?_, hRefused⟩
      rw [List.getElem?_append_right (Nat.le_add_right _ _), Nat.add_sub_cancel_left, hGet]

variable (Key clock notifier) in
/-- The second half of a pass: it ends with the sweep, or with a refused notice. -/
theorem deactivateExpired_ends {selected : List Subscription}
    (hIndexed : w.store.subscriptions.Indexed b)
    (hSelected : selected = w.store.subscriptions.activeRows.filter fun sub =>
      sub.expiresAt ≤ clock w.readings) (reminders : Nat) (processedEventTtlMs : Int) :
    (∃ w', (@deactivateExpired Key >>= fun deactivated =>
          ExpiryWatcher.sweepProcessed processedEventTtlMs >>= fun _ =>
            pure (reminders, deactivated)).RunsTo (passExec b clock notifier) w
        (.ok (reminders, selected.length)) w' ∧
      w'.store.subscriptions.byId.rows = rewritten (deactivated (clock w.readings))
        (selected.map Subscription.id) w.store.subscriptions.byId.rows ∧
      (∀ e, w'.Notified e ↔ w.Notified e ∨
        e ∈ selected.map fun sub => expiryEvent .subscription_expired sub (clock w.readings)) ∧
      w'.Swept ∧ ¬ Refused notifier
        (fun sub => expiryEvent .subscription_expired sub (clock w.readings)) selected w) ∨
    ∃ e w', (@deactivateExpired Key >>= fun deactivated =>
          ExpiryWatcher.sweepProcessed processedEventTtlMs >>= fun _ =>
            pure (reminders, deactivated)).RunsTo (passExec b clock notifier) w (.error e) w' ∧
      (w'.Swept ↔ w.Swept) ∧ Refused notifier
        (fun sub => expiryEvent .subscription_expired sub (clock w.readings)) selected w := by
  subst hSelected
  obtain ⟨w₁, hStore, hNotices, -, hNotified, hSwept, hRun⟩ := runsTo_reads b clock notifier
    (fun now active => @deactivateEach Key now active 0) w
  have hRefused : ∀ event selected, Refused notifier event selected w₁ ↔
      Refused notifier event selected w := by
    intro event selected
    rw [Refused, Refused, hNotices]
  obtain ⟨w₂, hRun', hDone, hNone⟩ | ⟨e, w₂, hRun', hSwept', hSome⟩ :=
    deactivateEach_ends Key clock notifier (clock w.readings) (b := b) (w := w₁)
      (hStore ▸ hIndexed) (hStore ▸ mem_rows_of_activeRows)
      (nodup_activeRows w.store.subscriptions) 0
  · obtain ⟨removed, w₃, hSweep, hSame, hTrace⟩ := passExec_sweep b clock notifier
      (w := w₂) processedEventTtlMs
    refine .inl ⟨w₃, runsTo_bind.mpr (.inl ⟨_, w₂, hRun _ _ hRun', ?_⟩), ?_, fun e => ?_, ?_, ?_⟩
    · rw [Nat.zero_add]
      exact ⟨(), _, _, hSweep, rfl, rfl⟩
    · rw [hSame, hDone.rows, hStore]
    · rw [World.Notified, hTrace, List.mem_cons, or_iff_right (by simp)]
      exact (hDone.notified e).trans (or_congr_left (hNotified e))
    · exact ⟨processedEventTtlMs, .ok removed, by simp [hTrace]⟩
    · rwa [← hRefused]
  · refine .inr ⟨e, w₂, runsTo_bind.mpr (.inr ⟨e, hRun _ _ hRun', rfl⟩), ?_, ?_⟩
    · exact hSwept'.trans hSwept
    · rwa [← hRefused]

variable (Key deps clock notifier) in
/-- A pass gets everything done, or a refused notice ends it before the sweep. -/
theorem runOnce_ends (hIndexed : w.store.subscriptions.Indexed b) (hTrace : w.trace = [])
    (processedEventTtlMs : Int) : ∃ result w', (@ExpiryWatcher.runOnce Key deps
        (some (ExpiryWatcher.sweepProcessed processedEventTtlMs))).RunsTo
      (passExec b clock notifier) w result w' ∧
    ((PassDone deps clock w w' ∧ ¬ ∃ k event,
        (agenda deps clock w.store.subscriptions)[k]? = some event ∧ notifier k event ≠ none) ∨
      (¬ w'.Swept ∧ ∃ k event,
        (agenda deps clock w.store.subscriptions)[k]? = some event ∧ notifier k event ≠ none)) := by
  have hNotices : w.notices = 0 := by simp [World.notices, hTrace]
  have hReadings : w.readings = 0 := by simp [World.readings, hTrace]
  have hUnswept : ¬ w.Swept := by simp [World.Swept, hTrace]
  rw [agenda, refused_append_iff, List.length_map]
  obtain ⟨w₁, hStore₁, hNotices₁, hReadings₁, hNotified₁, hSwept₁, hRun₁⟩ := runsTo_reads
    b clock notifier (fun now active => @remindEach Key deps now active 0) w
  rw [hReadings] at hRun₁
  obtain ⟨w₂, hRun₂, hDone₂, hNone₂⟩ | ⟨e, w₂, hRun₂, hSwept₂, k, event, hGet, hRefused⟩ :=
    remindEach_ends Key deps clock notifier (clock 0) (b := b) (w := w₁)
      (hStore₁ ▸ hIndexed) (hStore₁ ▸ mem_rows_of_activeRows)
      (nodup_activeRows w.store.subscriptions) 0
  · have hIndexed₂ := (harmless_reminded (clock 0)).indexed (hStore₁ ▸ hIndexed) hDone₂.rows
    have hReadings₂ : w₂.readings = 1 := by rw [hDone₂.readings, hReadings₁, hReadings]
    have hRows₂ : w₂.store.subscriptions.byId.rows = rewritten (reminded (clock 0))
        ((w.store.subscriptions.activeRows.filter
          (dueForReminder deps (clock 0))).map Subscription.id)
        w.store.subscriptions.byId.rows := by rw [hDone₂.rows, hStore₁]
    have hNotified₂ : ∀ e, w₂.Notified e ↔
        e ∈ (w.store.subscriptions.activeRows.filter (dueForReminder deps (clock 0))).map fun sub =>
          expiryEvent .subscription_expiring sub (clock 0) := by
      intro e
      rw [hDone₂.notified, hNotified₁, or_iff_right (by simp [World.Notified, hTrace])]
    have hCalm : ¬ ∃ k e, ((w.store.subscriptions.activeRows.filter
        (dueForReminder deps (clock 0))).map fun sub =>
          expiryEvent .subscription_expiring sub (clock 0))[k]? = some e ∧ notifier k e ≠ none := by
      rintro ⟨k, e, hGet, hRefused⟩
      exact hNone₂ ⟨k, e, hGet, by rwa [hNotices₁, hNotices, Nat.zero_add]⟩
    -- the notices of the second loop are those of the rows as they were at first
    have hRest : (∃ k e, ((w.store.subscriptions.activeRows.filter fun sub =>
          sub.expiresAt ≤ clock 1).map fun sub =>
            expiryEvent .subscription_expired sub (clock 1))[k]? = some e ∧
          notifier ((w.store.subscriptions.activeRows.filter
            (dueForReminder deps (clock 0))).length + k) e ≠ none) ↔
        Refused notifier (fun sub => expiryEvent .subscription_expired sub (clock 1))
          (w₂.store.subscriptions.activeRows.filter fun sub => sub.expiresAt ≤ clock 1) w₂ := by
      rw [Refused, hDone₂.notices, hNotices₁, hNotices, Nat.zero_add]
      simp only [SubscriptionStore.activeRows, hRows₂]
      rw [expired_of_rewritten]
    rw [hRest, or_iff_right hCalm]
    obtain ⟨w₃, hRun₃, hRows₃, hNotified₃, hSwept₃, hNone₃⟩ | ⟨e, w₃, hRun₃, hSwept₃, hSome₃⟩ :=
      deactivateExpired_ends Key clock notifier hIndexed₂ rfl
        (0 + (w.store.subscriptions.activeRows.filter (dueForReminder deps (clock 0))).length)
        processedEventTtlMs
    · rw [hReadings₂] at hRows₃ hNotified₃ hNone₃
      refine ⟨_, w₃, runsTo_bind.mpr (.inl ⟨_, w₂, hRun₁ _ _ hRun₂, hRun₃⟩), .inl ⟨?_, hNone₃⟩⟩
      refine passDone_of_rows rfl rfl hRows₂ hRows₃ (fun e => ?_) hSwept₃
      rw [hNotified₃, hNotified₂]
      rfl
    · rw [hReadings₂] at hSome₃
      refine ⟨_, w₃, runsTo_bind.mpr (.inl ⟨_, w₂, hRun₁ _ _ hRun₂, hRun₃⟩), .inr ⟨?_, hSome₃⟩⟩
      rwa [hSwept₃, hDone₂.swept, hSwept₁]
  · have hRun := hRun₁ _ _ hRun₂
    refine ⟨.error e, w₂, runsTo_bind.mpr (.inr ⟨e, hRun, rfl⟩), .inr ⟨?_, .inl ⟨k, event, hGet, ?_⟩⟩⟩
    · rwa [hSwept₂, hSwept₁]
    · rwa [hNotices₁, hNotices, Nat.zero_add] at hRefused

/-- A pass does all that it is for if and only if the notifier throws at none of the
notices that the contents of the store call for. -/
theorem runOnce_done_iff (deps : Deps) (store : Store) (startedAt : Int) (clock : Nat → Int)
    (notifier : Notifier) (processedEventTtlMs : Int)
    (hIndexed : store.subscriptions.Indexed deps.backend) :
    (∃ result w', (@ExpiryWatcher.runOnce Key deps
        (some (ExpiryWatcher.sweepProcessed processedEventTtlMs))).RunsTo
      (passExec deps.backend clock notifier) (World.start store startedAt) result w') ∧
    ∀ result w', (@ExpiryWatcher.runOnce Key deps
        (some (ExpiryWatcher.sweepProcessed processedEventTtlMs))).RunsTo
      (passExec deps.backend clock notifier) (World.start store startedAt) result w' →
      (PassDone deps clock (World.start store startedAt) w' ↔
        ∀ k event, (agenda deps clock store.subscriptions)[k]? = some event →
          notifier k event = none) := by
  obtain ⟨result, w', hRun, hEnd⟩ := runOnce_ends Key deps clock notifier
    (w := World.start store startedAt) hIndexed rfl processedEventTtlMs
  refine ⟨⟨result, w', hRun⟩, fun result₂ w₂ hRun₂ => ?_⟩
  obtain ⟨-, rfl⟩ := Prog.runsTo_unique (fun _ _ _ _ => rfl) hRun hRun₂
  obtain ⟨hDone, hNone⟩ | ⟨hUnswept, k, event, hGet, hRefused⟩ := hEnd
  · refine ⟨fun _ k event hGet => ?_, fun _ => hDone⟩
    exact Classical.byContradiction fun hRefused => hNone ⟨k, event, hGet, hRefused⟩
  · refine ⟨fun h => absurd h.maintained hUnswept, fun h => ?_⟩
    exact absurd (h k event hGet) hRefused

end passes

/-! Two subscriptions of which one is due for a reminder and one has run out. -/
namespace Sample

def expiring : Subscription where
  id := "s1"
  userId := "alice"
  planId := "monthly"
  startsAt := 0
  expiresAt := 1500
  trafficGb := 200
  deviceLimit := 3
  active := true
  orderIds := ["o1"]
  expiryNotifiedAt := none
  createdAt := 0
  updatedAt := 0

def expired : Subscription :=
  { expiring with id := "s2", userId := "bob", expiresAt := 900, orderIds := ["o2"] }

def subscribed : Store :=
  { Store.empty with subscriptions := ⟨(Table.empty.put expiring).put expired,
      (Table.empty.put ("alice", "s1")).put ("bob", "s2")⟩ }

/-- The mail server is down. -/
def unreachable : Notifier := fun _ _ => some ⟨.plain, "connect ECONNREFUSED"⟩

end Sample

/-- A notifier that delivers everything. -/
theorem runOnce_done_sample : ∃ result w', (@ExpiryWatcher.runOnce String
      (Sample.deps .sql) (some (ExpiryWatcher.sweepProcessed 0))).RunsTo
    (passExec .sql (fun _ => 1000) fun _ _ => none) (World.start Sample.subscribed 0) result w' ∧
    PassDone (Sample.deps .sql) (fun _ => 1000) (World.start Sample.subscribed 0) w' := by
  have hIndexed : Sample.subscribed.subscriptions.Indexed (Sample.deps .sql).backend := by
    intro _
    decide
  obtain ⟨⟨result, w', hRun⟩, hIff⟩ := @runOnce_done_iff String (Sample.deps .sql)
    Sample.subscribed 0 (fun _ => 1000) (fun _ _ => none) 0 hIndexed
  exact ⟨result, w', hRun, (hIff result w' hRun).mpr fun _ _ _ => rfl⟩

/-- The reminder that cannot be sent leaves bob's subscription active after its end,
and nothing is swept. -/
theorem runOnce_cut_short : ¬ ∀ (deps : Deps) (store : Store) (clock : Nat → Int)
    (notifier : Notifier) (result : Except AppError (Nat × Nat)) (w' : World),
    store.subscriptions.Indexed deps.backend →
    (@ExpiryWatcher.runOnce String deps
      (some (ExpiryWatcher.sweepProcessed 0))).RunsTo (passExec deps.backend clock notifier)
        (World.start store 0) result w' →
    PassDone deps clock (World.start store 0) w' := by
  intro h
  have hDone := h (Sample.deps .memory) Sample.subscribed (fun _ => 1000) Sample.unreachable _ _
    (fun hSql => by cases hSql) ⟨(), _, _, rfl, (), _, _, rfl, (), _, _, rfl, rfl, rfl⟩
  obtain ⟨row, hGet, hActive⟩ := hDone.deactivated Sample.expired (by decide) (by decide)
  obtain rfl : Sample.expired = row := Option.some.inj hGet
  cases hActive

end VpnPayment
