import Mathlib.Data.List.Perm.Subperm
import VpnPayment.Api.RedisRateLimiter

/-! What the decisions of the Redis limiter are worth. The counter of a clock window
outlives the window, and the window end that a denial reports is the end of the counter. -/
namespace VpnPayment.RedisRateLimiter

open Async Collections
open Prog (perform)

/-- Where a check stands, with the key, the time it read first, its count, and the time
to live it reports. -/
inductive Stage
  | called (key : String)
  | counting (key : String) (t : Int)
  | expiring (key : String) (t count : Int)
  | asking (key : String) (t count : Int)
  | reapplying (key : String) (t count : Int)
  | reporting (key : String) (t count ttl : Int)
  | reported (key : String) (t count ttl now : Int)
  | failed (message : String)

namespace Stage

variable (max windowMs : Int)

def named (key : String) (p : RedisAction RateLimitDecision) :
    RedisAction (String × RateLimitDecision) := do
  let told ← p
  pure (key, told)

def prog : Stage → RedisAction (String × RateLimitDecision)
  | called key => named key (check max windowMs key)
  | counting key t => named key (countIn max windowMs (bucketKey key (t / windowMs)))
  | expiring key t count => named key do
      let _ ← perform (RedisCall.pexpire (bucketKey key (t / windowMs)) windowMs)
      askTtl max windowMs (bucketKey key (t / windowMs)) count
  | asking key t count => named key (askTtl max windowMs (bucketKey key (t / windowMs)) count)
  | reapplying key t count => named key do
      let _ ← perform (RedisCall.pexpire (bucketKey key (t / windowMs)) windowMs)
      report max count windowMs
  | reporting key _ count ttl => named key (report max count ttl)
  | reported key _ count ttl now => .ret (.ok (key, decision max count ttl now))
  | failed message => .ret (.error message)

/-- The call a check waits for. -/
def call : Stage → Option RedisCall
  | called _ => some .now
  | counting key t => some (.incr (bucketKey key (t / windowMs)))
  | expiring key t _ => some (.pexpire (bucketKey key (t / windowMs)) windowMs)
  | asking key t _ => some (.pttl (bucketKey key (t / windowMs)))
  | reapplying key t _ => some (.pexpire (bucketKey key (t / windowMs)) windowMs)
  | reporting _ _ _ _ => some .now
  | reported _ _ _ _ _ => none
  | failed _ => none

/-- Where a check stands once its call has settled. -/
def after : Stage → Except String Int → Stage
  | _, .error message => failed message
  | called key, .ok t => counting key t
  | counting key t, .ok count => if count = 1 then expiring key t count else asking key t count
  | expiring key t count, .ok _ => asking key t count
  | asking key t count, .ok ttl =>
      if ttl < 0 then reapplying key t count else reporting key t count ttl
  | reapplying key t count, .ok _ => reporting key t count windowMs
  | reporting key t count ttl, .ok now => reported key t count ttl now
  | s, .ok _ => s

/-- The counter a check has counted in, and its count there. -/
def counted : Stage → Option (String × Int)
  | expiring key t count | asking key t count | reapplying key t count
  | reporting key t count _ | reported key t count _ _ =>
      some (bucketKey key (t / windowMs), count)
  | _ => none

variable {max windowMs}

/-- The program of a check is its stage. -/
theorem prog_of_call {s : Stage} {c : RedisCall} (h : s.call windowMs = some c) :
    s.prog max windowMs = .call c fun answer => (s.after windowMs answer).prog max windowMs := by
  cases s with
  | called key =>
      cases h
      refine congrArg (Prog.call _) (funext fun answer => ?_)
      cases answer with
      | error e => rfl
      | ok t => rfl
  | counting key t =>
      cases h
      refine congrArg (Prog.call _) (funext fun answer => ?_)
      cases answer with
      | error e => rfl
      | ok count =>
          by_cases hFirst : count = 1
          · subst hFirst
            rfl
          · rw [after, if_neg hFirst]
            change ((if count = 1 then _ else _) : RedisAction RateLimitDecision).onReturn _ = _
            rw [if_neg hFirst]
            rfl
  | expiring key t count =>
      cases h
      refine congrArg (Prog.call _) (funext fun answer => ?_)
      cases answer with
      | error e => rfl
      | ok _ => rfl
  | asking key t count =>
      cases h
      refine congrArg (Prog.call _) (funext fun answer => ?_)
      cases answer with
      | error e => rfl
      | ok ttl =>
          by_cases hNone : ttl < 0
          · rw [after, if_pos hNone]
            change ((if ttl < 0 then _ else _) : RedisAction RateLimitDecision).onReturn _ = _
            rw [if_pos hNone]
            rfl
          · rw [after, if_neg hNone]
            change ((if ttl < 0 then _ else _) : RedisAction RateLimitDecision).onReturn _ = _
            rw [if_neg hNone]
            rfl
  | reapplying key t count =>
      cases h
      refine congrArg (Prog.call _) (funext fun answer => ?_)
      cases answer with
      | error e => rfl
      | ok _ => rfl
  | reporting key t count ttl =>
      cases h
      refine congrArg (Prog.call _) (funext fun answer => ?_)
      cases answer with
      | error e => rfl
      | ok _ => rfl
  | reported key t count ttl now => cases h
  | failed message => cases h

theorem ret_of_call_none {s : Stage} (h : s.call windowMs = none) :
    ∃ result, s.prog max windowMs = .ret result := by
  cases s with
  | reported key t count ttl now => exact ⟨_, rfl⟩
  | failed message => exact ⟨_, rfl⟩
  | _ => cases h

end Stage

/-- The stages of the checks in flight. -/
def Tracks (max windowMs : Int) (m : Checking) (stages : List Stage) : Prop :=
  m.tasks = stages.map fun s => ⟨s.prog max windowMs, none⟩

section steps

variable {max windowMs : Int} {m m' : Checking} {stages : List Stage}

/-- What a task calls next is told by its stage. -/
theorem Tracks.nextCall {i : Nat} {s : Stage} (h : Tracks max windowMs m stages)
    (hs : stages[i]? = some s) : m.nextCall i = s.call windowMs := by
  rw [Machine.nextCall, h, List.getElem?_map, hs, Option.map_some, Option.bind_some]
  cases hCall : s.call windowMs with
  | none =>
      obtain ⟨result, hProg⟩ := @Stage.ret_of_call_none max windowMs s hCall
      rw [hProg]
  | some c => rw [Stage.prog_of_call hCall]

/-- A step is a new check, or one call of a check that settles. -/
theorem Tracks.step (h : Tracks max windowMs m stages) {label : Label RedisReply String}
    (hStep : (redisSystem max windowMs).step m label = some m') :
    (∃ key, label = .spawn key ∧ m'.world = m.world ∧
      Tracks max windowMs m' (stages ++ [.called key])) ∨
    ∃ i reply s c answer, label = .step i reply ∧ stages[i]? = some s ∧
      s.call windowMs = some c ∧ redisExec i c reply m.world = some (answer, m'.world) ∧
      Tracks max windowMs m' (stages.set i (s.after windowMs answer)) := by
  cases label with
  | spawn key =>
      cases hStep
      refine .inl ⟨key, rfl, rfl, ?_⟩
      rw [Tracks, List.map_append, ← h]
      rfl
  | step i reply =>
      obtain ⟨t, ht, hTask⟩ := Option.bind_eq_some_iff.mp hStep
      rw [h, List.getElem?_map] at ht
      obtain ⟨s, hs, rfl⟩ := Option.map_eq_some_iff.mp ht
      cases hCall : s.call windowMs with
      | none =>
          obtain ⟨result, hProg⟩ := @Stage.ret_of_call_none max windowMs s hCall
          simp [System.stepTask, hProg] at hTask
      | some c =>
          simp only [System.stepTask, Stage.prog_of_call hCall, Option.map_eq_some_iff] at hTask
          obtain ⟨⟨answer, world⟩, hExec, rfl⟩ := hTask
          refine .inr ⟨i, reply, s, c, answer, rfl, hs, hCall, hExec, ?_⟩
          rw [Tracks, List.map_set, ← h]

end steps

/-- The checks that have counted in a counter, newest first. -/
def incrs (w : RedisWorld) (key : String) : List Nat :=
  (w.log.filter fun e => e.call = .incr key).map Settled.task

/-- The time of the last call of a check that took effect. -/
def lastTime (w : RedisWorld) (i : Nat) : Option Int :=
  (w.log.find? fun e => e.task = i).map Settled.time

/-- No command reaches a counter that has expired. -/
def InTime (w : RedisWorld) (c : RedisCall) (t : Int) : Prop :=
  ∀ key, c.key? = some key → ∀ counter, w.counters.get? key = some counter → counter.alive t = true

section world

variable {windowMs : Int} {w w' : RedisWorld} {i j : Nat} {c : RedisCall} {reply : RedisReply}
  {answer : Except String Int}

/-- A call takes effect, or it fails before. -/
theorem exec_cases (h : redisExec i c reply w = some (answer, w')) :
    w.clock ≤ reply.time ∧
      ((w' = { w with clock := reply.time } ∧ ∃ message, answer = .error message) ∨
        (w' = w.settle i c reply.time ∧ (answer = .ok (c.act w.counters reply.time).1 ∨
          ∃ message, answer = .error message))) := by
  unfold redisExec at h
  split at h
  · cases h
  · next hClock =>
      refine ⟨by omega, ?_⟩
      cases reply with
      | answers t =>
          cases h
          exact .inr ⟨rfl, .inl rfl⟩
      | lost t message =>
          dsimp only at h
          split at h
          · cases h
          · cases h
            exact .inr ⟨rfl, .inr ⟨message, rfl⟩⟩
      | fails t message =>
          dsimp only at h
          split at h
          · cases h
          · cases h
            exact .inl ⟨rfl, message, rfl⟩

/-- A command in time finds its counter. -/
theorem live?_of_inTime {key : String} {t : Int} (hKey : c.key? = some key) (h : InTime w c t) :
    live? w.counters t key = w.counters.get? key := by
  rw [live?]
  cases hGet : w.counters.get? key with
  | none => rfl
  | some counter => rw [Option.filter_some, if_pos (h key hKey counter hGet)]

/-- A counter goes on counting, and lives at least as long. -/
structure Counter.Extends (c c' : Counter) : Prop where
  count : c.count ≤ c'.count
  expiry : ∀ e, c.expiresAt = some e → ∃ e', c'.expiresAt = some e' ∧ e ≤ e'

theorem Counter.Extends.refl (c : Counter) : c.Extends c :=
  ⟨le_refl _, fun e he => ⟨e, he, le_refl e⟩⟩

/-- What a command in time does to the counters. -/
theorem get?_settle (hWindow : ∀ key ms, c = .pexpire key ms → ms = windowMs)
    (hTime : InTime w c reply.time) (key : String) :
    (w.settle i c reply.time).counters.get? key =
      if c = .incr key then
        some (match w.counters.get? key with
          | some counter => { counter with count := counter.count + 1 }
          | none => ⟨key, 1, none⟩)
      else if c = .pexpire key windowMs then
        (w.counters.get? key).map fun counter =>
          { counter with expiresAt := some (reply.time + windowMs) }
      else w.counters.get? key := by
  cases c with
  | now => simp [RedisWorld.settle, RedisCall.act]
  | pttl k =>
      rw [RedisWorld.settle, RedisCall.act]
      cases live? w.counters reply.time k with
      | none => simp
      | some counter =>
          cases hExpiry : counter.expiresAt with
          | none => simp [hExpiry]
          | some e => simp [hExpiry]
  | incr k =>
      rw [RedisWorld.settle, RedisCall.act, live?_of_inTime rfl hTime]
      cases hGet : w.counters.get? k with
      | none =>
          dsimp only
          rw [Table.get?_put]
          by_cases hKey : k = key
          · subst hKey
            simp [hGet]
          · simp [hKey]
      | some counter =>
          dsimp only
          rw [Table.get?_put]
          change (if counter.key = key then _ else _) = _
          rw [Table.key_of_get? hGet]
          by_cases hKey : k = key
          · subst hKey
            simp [hGet, Table.key_of_get? hGet]
          · simp [hKey]
  | pexpire k ms =>
      have hMs := hWindow k ms rfl
      subst hMs
      rw [RedisWorld.settle, RedisCall.act, live?_of_inTime rfl hTime]
      cases hGet : w.counters.get? k with
      | none =>
          by_cases hKey : k = key
          · subst hKey
            simp [hGet]
          · simp [hKey]
      | some counter =>
          dsimp only
          rw [Table.get?_put]
          change (if counter.key = key then _ else _) = _
          rw [Table.key_of_get? hGet]
          by_cases hKey : k = key
          · subst hKey
            simp [hGet, Table.key_of_get? hGet]
          · simp [hKey]

variable {stages : List Stage} {lag max : Int}

/-- What the log and the counters say about a check that has counted. -/
structure Counts (windowMs : Int) (w : RedisWorld) (i : Nat) (key : String) (t count : Int) :
    Prop where
  reading : began w i = some t
  past : t ≤ w.clock
  logged : i ∈ incrs w (bucketKey key (t / windowMs))
  counter : ∃ counter, w.counters.get? (bucketKey key (t / windowMs)) = some counter ∧
    1 ≤ count ∧ count ≤ counter.count

/-- The counter lives at least until `t`. -/
def LivesUntil (w : RedisWorld) (key : String) (t : Int) : Prop :=
  ∃ counter e, w.counters.get? key = some counter ∧ counter.expiresAt = some e ∧ t ≤ e

/-- What is known of a check at its stage. -/
def Placed (windowMs lag : Int) (w : RedisWorld) (i : Nat) : Stage → Prop
  | .called _ => ∀ e ∈ w.log, e.task ≠ i
  | .counting _ t => began w i = some t ∧ t ≤ w.clock ∧ ∀ key, i ∉ incrs w key
  | .expiring key t count | .asking key t count | .reapplying key t count =>
      Counts windowMs w i key t count
  | .reporting key t count ttl => Counts windowMs w i key t count ∧
      ∃ p, lastTime w i = some p ∧ LivesUntil w (bucketKey key (t / windowMs)) (p + ttl)
  | .reported key t count ttl now => Counts windowMs w i key t count ∧
      LivesUntil w (bucketKey key (t / windowMs)) (now + ttl - lag)
  | .failed _ => True

/-- The counters count what the log has. -/
structure Ledger (windowMs : Int) (w : RedisWorld) : Prop where
  counts : ∀ key counter, w.counters.get? key = some counter →
    counter.count = (incrs w key).length
  expiry : ∀ key counter e, w.counters.get? key = some counter → counter.expiresAt = some e →
    e ≤ w.clock + windowMs
  fresh : ∀ key, w.counters.get? key = none → incrs w key = []
  once : ∀ key, (incrs w key).Nodup

/-- Every check stands where the log says, and no two checks have one count. -/
structure Sound (windowMs lag : Int) (w : RedisWorld) (stages : List Stage) : Prop
    extends Ledger windowMs w where
  tasks : ∀ e ∈ w.log, e.task < stages.length
  placed : ∀ i s, stages[i]? = some s → Placed windowMs lag w i s
  distinct : ∀ (i j : Nat) (s s' : Stage) n, stages[i]? = some s → stages[j]? = some s' →
    s.counted windowMs = some n → s'.counted windowMs = some n → i = j

/-- What a step makes of the world that other checks rely on. -/
structure Continues (w w' : RedisWorld) : Prop where
  clock : w.clock ≤ w'.clock
  counters : ∀ key counter, w.counters.get? key = some counter →
    ∃ counter', w'.counters.get? key = some counter' ∧ counter.Extends counter'

/-- Counters go on counting, and live on. -/
theorem continues_of_exec (hWindow : ∀ key ms, c = .pexpire key ms → ms = windowMs)
    (hTime : InTime w c reply.time)
    (hExpiry : ∀ key counter e, w.counters.get? key = some counter →
      counter.expiresAt = some e → e ≤ w.clock + windowMs)
    (h : redisExec i c reply w = some (answer, w')) : Continues w w' := by
  obtain ⟨hClock, hCases⟩ := exec_cases h
  cases hCases with
  | inl hFails =>
      obtain ⟨rfl, -⟩ := hFails
      exact ⟨hClock, fun key counter hGet => ⟨counter, hGet, .refl counter⟩⟩
  | inr hSettled =>
      obtain ⟨rfl, -⟩ := hSettled
      refine ⟨hClock, fun key counter hGet => ?_⟩
      rw [get?_settle hWindow hTime, hGet]
      by_cases hIncr : c = .incr key
      · rw [if_pos hIncr]
        exact ⟨_, rfl, by dsimp only; omega, fun e he => ⟨e, he, le_refl e⟩⟩
      · rw [if_neg hIncr]
        by_cases hExpire : c = .pexpire key windowMs
        · rw [if_pos hExpire]
          refine ⟨_, rfl, le_refl _, fun e he => ⟨_, rfl, ?_⟩⟩
          have hOld := hExpiry key counter e hGet he
          omega
        · rw [if_neg hExpire]
          exact ⟨counter, rfl, .refl counter⟩

theorem LivesUntil.continues {key : String} {t : Int} (hNext : Continues w w')
    (h : LivesUntil w key t) : LivesUntil w' key t := by
  obtain ⟨counter, e, hGet, hExpiry, hLe⟩ := h
  obtain ⟨counter', hGet', hExtends⟩ := hNext.counters key counter hGet
  obtain ⟨e', hExpiry', hLe'⟩ := hExtends.expiry e hExpiry
  exact ⟨counter', e', hGet', hExpiry', hLe.trans hLe'⟩

/-- The log of a step: nothing, or the call of one check. -/
theorem log_of_exec (h : redisExec i c reply w = some (answer, w')) :
    w'.log = w.log ∨ w'.log = ⟨i, c, reply.time⟩ :: w.log := by
  obtain ⟨-, hCases⟩ := exec_cases h
  cases hCases with
  | inl hFails =>
      obtain ⟨rfl, -⟩ := hFails
      exact .inl rfl
  | inr hSettled =>
      obtain ⟨rfl, -⟩ := hSettled
      exact .inr rfl

/-- A call leaves the times of other checks. -/
theorem began_of_ne (h : redisExec i c reply w = some (answer, w')) (hNe : i ≠ j) :
    began w' j = began w j ∧ lastTime w' j = lastTime w j := by
  cases log_of_exec h with
  | inl hSame => simp only [began, lastTime, hSame, and_self]
  | inr hCons => simp [began, lastTime, hCons, hNe]

/-- What was counted stays counted. -/
theorem mem_incrs_mono {key : String} (h : redisExec i c reply w = some (answer, w'))
    (hMem : j ∈ incrs w key) : j ∈ incrs w' key := by
  cases log_of_exec h with
  | inl hSame => simpa only [incrs, hSame] using hMem
  | inr hCons =>
      rw [incrs, hCons, List.filter_cons]
      split
      · exact List.mem_cons_of_mem _ hMem
      · exact hMem

/-- A call counts its own check only. -/
theorem mem_incrs_of_ne {key : String} (h : redisExec i c reply w = some (answer, w')) (hNe : i ≠ j)
    (hMem : j ∈ incrs w' key) : j ∈ incrs w key := by
  cases log_of_exec h with
  | inl hSame => simpa only [incrs, hSame] using hMem
  | inr hCons =>
      rw [incrs, hCons, List.filter_cons] at hMem
      split at hMem
      · exact (List.mem_cons.mp hMem).resolve_left (Ne.symm hNe)
      · exact hMem

theorem Counts.continues {key : String} {t count : Int} (hNext : Continues w w')
    (hLog : ∀ key, j ∈ incrs w key → j ∈ incrs w' key) (hBegan : began w' j = began w j)
    (h : Counts windowMs w j key t count) : Counts windowMs w' j key t count := by
  obtain ⟨counter, hGet, hOne, hCount⟩ := h.counter
  obtain ⟨counter', hGet', hExtends⟩ := hNext.counters _ counter hGet
  exact ⟨hBegan.trans h.reading, h.past.trans hNext.clock, hLog _ h.logged, counter', hGet', hOne,
    hCount.trans hExtends.count⟩

/-- Another check stands where it stood. -/
theorem placed_of_ne {s : Stage} (hNext : Continues w w')
    (h : redisExec i c reply w = some (answer, w')) (hNe : i ≠ j)
    (hPlaced : Placed windowMs lag w j s) : Placed windowMs lag w' j s := by
  obtain ⟨hBegan, hLast⟩ := began_of_ne h hNe
  have hCounts : ∀ {key t count}, Counts windowMs w j key t count →
      Counts windowMs w' j key t count :=
    Counts.continues hNext (fun key => mem_incrs_mono h) hBegan
  cases s with
  | called key =>
      intro e he
      cases log_of_exec h with
      | inl hSame => exact hPlaced e (hSame ▸ he)
      | inr hCons =>
          rw [hCons] at he
          cases he with
          | head => exact hNe
          | tail _ hMem => exact hPlaced e hMem
  | counting key t =>
      exact ⟨hBegan.trans hPlaced.1, hPlaced.2.1.trans hNext.clock,
        fun key hMem => hPlaced.2.2 key (mem_incrs_of_ne h hNe hMem)⟩
  | expiring key t count => exact hCounts hPlaced
  | asking key t count => exact hCounts hPlaced
  | reapplying key t count => exact hCounts hPlaced
  | reporting key t count ttl =>
      obtain ⟨hOwn, p, hp, hLives⟩ := hPlaced
      exact ⟨hCounts hOwn, p, hLast.trans hp, hLives.continues hNext⟩
  | reported key t count ttl now => exact ⟨hCounts hPlaced.1, hPlaced.2.continues hNext⟩
  | failed message => trivial

/-- A check begins once. -/
theorem began_settle {t time : Int} (h : began w i = some t) :
    began (w.settle i c time) i = some t := by
  rw [began, Option.map_eq_some_iff] at h ⊢
  obtain ⟨e, hLast, hTime⟩ := h
  refine ⟨e, ?_, hTime⟩
  have hSome : w.log.filter (fun e => e.task = i) ≠ [] := by
    intro hNil
    rw [hNil] at hLast
    cases hLast
  rw [RedisWorld.settle, List.filter_cons_of_pos (by simp), List.getLast?_cons, hLast]
  rfl

theorem lastTime_settle (time : Int) : lastTime (w.settle i c time) i = some time := by
  simp [lastTime, RedisWorld.settle]

/-- Only `incr` counts. -/
theorem incrs_settle (key : String) (time : Int) :
    incrs (w.settle i c time) key = if c = .incr key then i :: incrs w key else incrs w key := by
  rw [incrs, RedisWorld.settle, List.filter_cons]
  by_cases hIncr : c = .incr key
  · simp [hIncr, incrs]
  · simp [hIncr, incrs]

theorem LivesUntil.mono {key : String} {t t' : Int} (h : LivesUntil w key t) (hLe : t' ≤ t) :
    LivesUntil w key t' := by
  obtain ⟨counter, e, hGet, hExpiry, hLives⟩ := h
  exact ⟨counter, e, hGet, hExpiry, hLe.trans hLives⟩

/-- The limiter sets no other time to live than the window. -/
theorem pexpire_of_call {s : Stage} (hCall : s.call windowMs = some c) (key : String) (ms : Int)
    (h : c = .pexpire key ms) : ms = windowMs := by
  subst h
  cases s with
  | expiring k t count => cases hCall; rfl
  | reapplying k t count => cases hCall; rfl
  | _ => cases hCall

/-- The counter that a check has just counted in. -/
theorem counts_of_incr {key : String} {t : Int} (hSound : Sound windowMs lag w stages)
    (hTime : InTime w (.incr (bucketKey key (t / windowMs))) reply.time)
    (hBegan : began w i = some t) (hPast : t ≤ reply.time) :
    Counts windowMs (w.settle i (.incr (bucketKey key (t / windowMs))) reply.time) i key t
        (RedisCall.act w.counters reply.time (.incr (bucketKey key (t / windowMs)))).1 ∧
      ∀ old, w.counters.get? (bucketKey key (t / windowMs)) = some old →
        (RedisCall.act w.counters reply.time (.incr (bucketKey key (t / windowMs)))).1 =
          old.count + 1 := by
  have hGet := @get?_settle windowMs w i (.incr (bucketKey key (t / windowMs))) reply
    (fun _ _ h => (nomatch h)) hTime (bucketKey key (t / windowMs))
  rw [if_pos rfl] at hGet
  have hLogged : i ∈ incrs (w.settle i (.incr (bucketKey key (t / windowMs))) reply.time)
      (bucketKey key (t / windowMs)) := by
    rw [incrs_settle, if_pos rfl]
    exact List.mem_cons_self
  rw [RedisCall.act, live?_of_inTime rfl hTime]
  cases hOld : w.counters.get? (bucketKey key (t / windowMs)) with
  | none =>
      rw [hOld] at hGet
      exact ⟨⟨began_settle hBegan, hPast, hLogged, _, hGet, le_refl _, le_refl _⟩,
        fun old h => (nomatch h)⟩
  | some old =>
      rw [hOld] at hGet
      have hCount := hSound.counts _ old hOld
      refine ⟨⟨began_settle hBegan, hPast, hLogged, _, hGet, ?_, le_refl _⟩, ?_⟩
      · change 1 ≤ old.count + 1
        omega
      · intro old' hOld'
        cases hOld'
        rfl

/-- A check that has read the clock first of all. -/
theorem placed_called {key : String} (hPlaced : Placed windowMs lag w i (.called key)) :
    Placed windowMs lag (w.settle i .now reply.time) i
      (.counting key (RedisCall.act w.counters reply.time .now).1) := by
  have hNone : w.log.filter (fun e => e.task = i) = [] := by
    apply List.filter_eq_nil_iff.mpr
    intro e he
    simpa using hPlaced e he
  refine ⟨?_, le_refl _, fun k hMem => ?_⟩
  · simp [began, RedisWorld.settle, hNone, RedisCall.act]
  · rw [incrs_settle, if_neg (by simp)] at hMem
    obtain ⟨e, he, hTask⟩ := List.mem_map.mp hMem
    exact hPlaced e (List.mem_of_mem_filter he) hTask

/-- A time to live that is not negative is that of a counter with an end. -/
theorem lives_of_pttl {key : String} {t count : Int} (hCounts : Counts windowMs w i key t count)
    (hTime : InTime w (.pttl (bucketKey key (t / windowMs))) reply.time)
    (hLeft : ¬(RedisCall.act w.counters reply.time (.pttl (bucketKey key (t / windowMs)))).1 < 0) :
    LivesUntil w (bucketKey key (t / windowMs)) (reply.time +
      (RedisCall.act w.counters reply.time (.pttl (bucketKey key (t / windowMs)))).1) := by
  obtain ⟨counter, hGet, -⟩ := hCounts.counter
  have hAct : (RedisCall.act w.counters reply.time (.pttl (bucketKey key (t / windowMs)))).1 =
      (counter.expiresAt.map fun e => e - reply.time).getD (-1) := by
    rw [RedisCall.act, live?_of_inTime rfl hTime, hGet]
    cases hExpiry : counter.expiresAt with
    | none => simp [hExpiry]
    | some e => simp [hExpiry]
  rw [hAct] at hLeft ⊢
  cases hExpiry : counter.expiresAt with
  | none =>
      rw [hExpiry] at hLeft
      have hNegative : (-1 : Int) < 0 := by decide
      exact absurd hNegative hLeft
  | some e => exact ⟨counter, e, hGet, hExpiry, by simp⟩

/-- One case for each stage: a check stands where its answer takes it. -/
theorem placed_after {s : Stage} (hSound : Sound windowMs lag w stages)
    (hs : stages[i]? = some s) (hCall : s.call windowMs = some c) (hTime : InTime w c reply.time)
    (hSlow : c = .now → ∀ p, lastTime w i = some p → reply.time ≤ p + lag)
    (h : redisExec i c reply w = some (answer, w')) :
    Placed windowMs lag w' i (s.after windowMs answer) := by
  have hNext := continues_of_exec (pexpire_of_call hCall) hTime hSound.expiry h
  have hPlaced := hSound.placed i s hs
  obtain ⟨hClock, hCases⟩ := exec_cases h
  have hFailed : (∃ message, answer = .error message) →
      Placed windowMs lag w' i (s.after windowMs answer) := by
    intro hError
    obtain ⟨message, rfl⟩ := hError
    cases s <;> trivial
  rcases hCases with ⟨-, hError⟩ | ⟨rfl, rfl | hError⟩
  · exact hFailed hError
  · have hOwn : ∀ {key t count}, Counts windowMs w i key t count →
        Counts windowMs (w.settle i c reply.time) i key t count := by
      intro key t count hCounts
      refine hCounts.continues hNext (fun key hMem => mem_incrs_mono h hMem) ?_
      rw [hCounts.reading, began_settle hCounts.reading]
    cases s with
    | called key =>
        cases hCall
        exact placed_called hPlaced
    | counting key t =>
        cases hCall
        have hCounts := (counts_of_incr hSound hTime hPlaced.1 (hPlaced.2.1.trans hClock)).1
        rw [Stage.after]
        split
        · exact hCounts
        · exact hCounts
    | expiring key t count => exact hOwn hPlaced
    | asking key t count =>
        cases hCall
        rw [Stage.after]
        split
        · exact hOwn hPlaced
        · next hLeft =>
            exact ⟨hOwn hPlaced, reply.time, lastTime_settle reply.time,
              (lives_of_pttl hPlaced hTime hLeft).continues hNext⟩
    | reapplying key t count =>
        have hMs := pexpire_of_call hCall
        cases hCall
        obtain ⟨counter, hGet, -⟩ := hPlaced.counter
        refine ⟨hOwn hPlaced, reply.time, lastTime_settle reply.time, ?_⟩
        have hSettled := @get?_settle windowMs w i _ reply hMs hTime
          (bucketKey key (t / windowMs))
        rw [if_neg (by simp), if_pos rfl, hGet] at hSettled
        exact ⟨_, _, hSettled, rfl, le_refl _⟩
    | reporting key t count ttl =>
        cases hCall
        obtain ⟨hCounts, p, hp, hLives⟩ := hPlaced
        refine ⟨hOwn hCounts, (hLives.continues hNext).mono ?_⟩
        have hSoon := hSlow rfl p hp
        change reply.time + ttl - lag ≤ p + ttl
        omega
    | reported key t count ttl now => cases hCall
    | failed message => cases hCall
  · exact hFailed hError

/-- A count is kept, or it is the answer of `incr`. -/
theorem counted_after {s : Stage} {n : String × Int}
    (h : (s.after windowMs answer).counted windowMs = some n) :
    s.counted windowMs = some n ∨
      ∃ key t, s = .counting key t ∧ n.1 = bucketKey key (t / windowMs) ∧ answer = .ok n.2 := by
  cases answer with
  | error message =>
      cases s <;> cases h
  | ok v =>
      cases s with
      | called key => cases h
      | counting key t =>
          refine .inr ⟨key, t, rfl, ?_⟩
          rw [Stage.after] at h
          split at h
          · cases h
            exact ⟨rfl, rfl⟩
          · cases h
            exact ⟨rfl, rfl⟩
      | expiring key t count => exact .inl h
      | asking key t count =>
          rw [Stage.after] at h
          split at h
          · exact .inl h
          · exact .inl h
      | reapplying key t count => exact .inl h
      | reporting key t count ttl => exact .inl h
      | reported key t count ttl now => exact .inl h
      | failed message => cases h

/-- A count that a check has is at most what its counter shows. -/
theorem counts_of_counted {s : Stage} {n : String × Int} (hPlaced : Placed windowMs lag w j s)
    (h : s.counted windowMs = some n) : ∃ key t, n.1 = bucketKey key (t / windowMs) ∧
      Counts windowMs w j key t n.2 := by
  cases s with
  | expiring key t count =>
      cases h
      exact ⟨key, t, rfl, hPlaced⟩
  | asking key t count =>
      cases h
      exact ⟨key, t, rfl, hPlaced⟩
  | reapplying key t count =>
      cases h
      exact ⟨key, t, rfl, hPlaced⟩
  | reporting key t count ttl =>
      cases h
      exact ⟨key, t, rfl, hPlaced.1⟩
  | reported key t count ttl now =>
      cases h
      exact ⟨key, t, rfl, hPlaced.1⟩
  | called key => cases h
  | counting key t => cases h
  | failed message => cases h

/-- Time passes. -/
theorem Ledger.later (h : Ledger windowMs w) {t : Int} (hClock : w.clock ≤ t) :
    Ledger windowMs { w with clock := t } where
  counts := h.counts
  expiry key counter e hGet hExpiry := by
    have hBound := h.expiry key counter e hGet hExpiry
    change e ≤ t + windowMs
    omega
  fresh := h.fresh
  once := h.once

/-- `now` and `pttl` only read. -/
theorem Ledger.read (h : Ledger windowMs w) {t : Int} (hClock : w.clock ≤ t)
    (hSame : (c.act w.counters t).2 = w.counters) (hRead : ∀ key, c ≠ .incr key) :
    Ledger windowMs (w.settle i c t) := by
  have hCounters : (w.settle i c t).counters = w.counters := hSame
  have hLog : ∀ key, incrs (w.settle i c t) key = incrs w key := by
    intro key
    rw [incrs_settle, if_neg (hRead key)]
  constructor
  · intro key counter hGet
    rw [hCounters] at hGet
    rw [hLog]
    exact h.counts key counter hGet
  · intro key counter e hGet hExpiry
    rw [hCounters] at hGet
    exact (h.later hClock).expiry key counter e hGet hExpiry
  · intro key hNone
    rw [hCounters] at hNone
    rw [hLog]
    exact h.fresh key hNone
  · intro key
    rw [hLog]
    exact h.once key

/-- `incr` counts one check more, which has not counted before. -/
theorem Ledger.incr {key : String} (h : Ledger windowMs w)
    (hTime : InTime w (.incr key) reply.time) (hClock : w.clock ≤ reply.time)
    (hNew : i ∉ incrs w key) : Ledger windowMs (w.settle i (.incr key) reply.time) := by
  have hCounters := @get?_settle windowMs w i (.incr key) reply (fun _ _ h => (nomatch h)) hTime
  constructor
  · intro k counter hGet
    rw [hCounters] at hGet
    rw [incrs_settle]
    by_cases hKey : RedisCall.incr key = .incr k
    · rw [if_pos hKey] at hGet ⊢
      cases hOld : w.counters.get? k with
      | none =>
          rw [hOld] at hGet
          cases hGet
          rw [h.fresh k hOld]
          rfl
      | some old =>
          rw [hOld] at hGet
          cases hGet
          change old.count + 1 = _
          rw [h.counts k old hOld, List.length_cons]
          rfl
    · rw [if_neg hKey, if_neg (by simp)] at hGet
      rw [if_neg hKey]
      exact h.counts k counter hGet
  · intro k counter e hGet hExpiry
    rw [hCounters] at hGet
    by_cases hKey : RedisCall.incr key = .incr k
    · rw [if_pos hKey] at hGet
      cases hOld : w.counters.get? k with
      | none =>
          rw [hOld] at hGet
          cases hGet
          cases hExpiry
      | some old =>
          rw [hOld] at hGet
          cases hGet
          exact (h.later hClock).expiry k old e hOld hExpiry
    · rw [if_neg hKey, if_neg (by simp)] at hGet
      exact (h.later hClock).expiry k counter e hGet hExpiry
  · intro k hNone
    rw [hCounters] at hNone
    by_cases hKey : RedisCall.incr key = .incr k
    · rw [if_pos hKey] at hNone
      cases hNone
    · rw [if_neg hKey, if_neg (by simp)] at hNone
      rw [incrs_settle, if_neg hKey]
      exact h.fresh k hNone
  · intro k
    rw [incrs_settle]
    by_cases hKey : RedisCall.incr key = .incr k
    · rw [if_pos hKey]
      cases hKey
      exact List.nodup_cons.mpr ⟨hNew, h.once key⟩
    · rw [if_neg hKey]
      exact h.once k

/-- `pexpire` moves the end of a counter, and counts nothing. -/
theorem Ledger.pexpire {key : String} (h : Ledger windowMs w)
    (hTime : InTime w (.pexpire key windowMs) reply.time) (hClock : w.clock ≤ reply.time) :
    Ledger windowMs (w.settle i (.pexpire key windowMs) reply.time) := by
  have hCounters := @get?_settle windowMs w i (.pexpire key windowMs) reply
    (fun _ _ h => by cases h; rfl) hTime
  have hLog : ∀ k, incrs (w.settle i (.pexpire key windowMs) reply.time) k = incrs w k := by
    intro k
    rw [incrs_settle, if_neg (by simp)]
  constructor
  · intro k counter hGet
    rw [hCounters, if_neg (by simp)] at hGet
    rw [hLog]
    split at hGet
    · obtain ⟨old, hOld, rfl⟩ := Option.map_eq_some_iff.mp hGet
      exact h.counts k old hOld
    · exact h.counts k counter hGet
  · intro k counter e hGet hExpiry
    rw [hCounters, if_neg (by simp)] at hGet
    split at hGet
    · obtain ⟨old, -, rfl⟩ := Option.map_eq_some_iff.mp hGet
      cases hExpiry
      exact le_refl _
    · exact (h.later hClock).expiry k counter e hGet hExpiry
  · intro k hNone
    rw [hCounters, if_neg (by simp)] at hNone
    rw [hLog]
    split at hNone
    · exact h.fresh k (Option.map_eq_none_iff.mp hNone)
    · exact h.fresh k hNone
  · intro k
    rw [hLog]
    exact h.once k

/-- One case for each command. -/
theorem Ledger.exec {s : Stage} (h : Ledger windowMs w) (hCall : s.call windowMs = some c)
    (hTime : InTime w c reply.time) (hNew : ∀ key, c = .incr key → i ∉ incrs w key)
    (hExec : redisExec i c reply w = some (answer, w')) : Ledger windowMs w' := by
  obtain ⟨hClock, ⟨rfl, -⟩ | ⟨rfl, -⟩⟩ := exec_cases hExec
  · exact h.later hClock
  · cases c with
    | now => exact h.read hClock rfl fun _ => RedisCall.noConfusion
    | pttl key =>
        refine h.read hClock ?_ fun _ => RedisCall.noConfusion
        rw [RedisCall.act]
        cases live? w.counters reply.time key with
        | none => rfl
        | some counter => cases hExpiry : counter.expiresAt <;> simp [hExpiry]
    | incr key => exact h.incr hTime hClock (hNew key rfl)
    | pexpire key ms =>
        obtain rfl := pexpire_of_call hCall key ms rfl
        exact h.pexpire hTime hClock

/-- A check that is about to count has not counted yet. -/
theorem Sound.uncounted {s : Stage} (hSound : Sound windowMs lag w stages)
    (hs : stages[i]? = some s) (hCall : s.call windowMs = some c) (key : String)
    (hIncr : c = .incr key) : i ∉ incrs w key := by
  subst hIncr
  have hPlaced := hSound.placed i s hs
  cases s with
  | counting k t => exact hPlaced.2.2 key
  | _ => cases hCall

/-- A new count is greater than every count of the same counter so far. -/
theorem Sound.counted_ne {s s' : Stage} {n : String × Int} (hSound : Sound windowMs lag w stages)
    (hs : stages[i]? = some s) (hCall : s.call windowMs = some c) (hTime : InTime w c reply.time)
    (h : redisExec i c reply w = some (answer, w')) (hNe : i ≠ j) (hj : stages[j]? = some s')
    (hn : s'.counted windowMs = some n) : (s.after windowMs answer).counted windowMs ≠ some n := by
  intro hAfter
  obtain ⟨hClock, hCases⟩ := exec_cases h
  cases counted_after hAfter with
  | inl hOld => exact hNe (hSound.distinct i j s s' n hs hj hOld hn)
  | inr hCounting =>
      obtain ⟨key, t, rfl, hKey, rfl⟩ := hCounting
      cases hCall
      obtain ⟨k, u, hKey', hCounts⟩ := counts_of_counted (hSound.placed j s' hj) hn
      obtain ⟨old, hOld, -, hLe⟩ := hCounts.counter
      rw [← hKey', hKey] at hOld
      have hPlaced := hSound.placed i _ hs
      have hValue := (counts_of_incr hSound hTime hPlaced.1 (hPlaced.2.1.trans hClock)).2 old hOld
      rcases hCases with ⟨-, message, hError⟩ | ⟨-, hOk | ⟨message, hError⟩⟩
      · cases hError
      · have hCount := Except.ok.inj hOk
        omega
      · cases hError

/-- A call of a check keeps the invariant. -/
theorem Sound.exec {s : Stage} (hSound : Sound windowMs lag w stages)
    (hs : stages[i]? = some s) (hCall : s.call windowMs = some c) (hTime : InTime w c reply.time)
    (hSlow : c = .now → ∀ p, lastTime w i = some p → reply.time ≤ p + lag)
    (h : redisExec i c reply w = some (answer, w')) :
    Sound windowMs lag w' (stages.set i (s.after windowMs answer)) := by
  have hNext := continues_of_exec (pexpire_of_call hCall) hTime hSound.expiry h
  have hLt : i < stages.length := (List.getElem?_eq_some_iff.mp hs).1
  have hGet : ∀ {j s'}, (stages.set i (s.after windowMs answer))[j]? = some s' →
      (j = i ∧ s' = s.after windowMs answer) ∨ (i ≠ j ∧ stages[j]? = some s') := by
    intro j s' hj
    by_cases hNe : i = j
    · subst hNe
      rw [List.getElem?_set_self hLt] at hj
      exact .inl ⟨rfl, (Option.some.inj hj).symm⟩
    · rw [List.getElem?_set_ne hNe] at hj
      exact .inr ⟨hNe, hj⟩
  refine ⟨hSound.toLedger.exec hCall hTime (hSound.uncounted hs hCall) h, ?_, ?_, ?_⟩
  · intro e he
    rw [List.length_set]
    cases log_of_exec h with
    | inl hSame => exact hSound.tasks e (hSame ▸ he)
    | inr hCons =>
        rw [hCons] at he
        cases he with
        | head => exact hLt
        | tail _ hMem => exact hSound.tasks e hMem
  · intro j s' hj
    rcases hGet hj with ⟨rfl, rfl⟩ | ⟨hNe, hOld⟩
    · exact placed_after hSound hs hCall hTime hSlow h
    · exact placed_of_ne hNext h hNe (hSound.placed j s' hOld)
  · intro a b sa sb n ha hb hna hnb
    rcases hGet ha with ⟨rfl, rfl⟩ | ⟨hNeA, hOldA⟩
    · rcases hGet hb with ⟨rfl, rfl⟩ | ⟨hNeB, hOldB⟩
      · rfl
      · exact absurd hna (hSound.counted_ne hs hCall hTime h hNeB hOldB hnb)
    · rcases hGet hb with ⟨rfl, rfl⟩ | ⟨hNeB, hOldB⟩
      · exact absurd hnb (hSound.counted_ne hs hCall hTime h hNeA hOldA hna)
      · exact hSound.distinct a b sa sb n hOldA hOldB hna hnb

end world

section runs

variable {max windowMs lag : Int} {m m' : Checking} {stages : List Stage}

/-- Every command reaches its counter before it has expired, every check reads the clock
at most `lag` after its last answer, and no check begins in a later clock window before
the counters of the key that are over the limit have been gone for `lag`. -/
def Apart (max windowMs lag : Int) (m : Checking) : Label RedisReply String → Prop
  | .spawn _ => True
  | .step i reply => ∀ c, m.nextCall i = some c → InTime m.world c reply.time ∧
      (c = .now → (∀ p, lastTime m.world i = some p → reply.time ≤ p + lag) ∧
        ∀ key, m.tasks[i]?.map Task.prog = some ((redisSystem max windowMs).entry key) →
          ∀ bucket counter e, bucket < reply.time / windowMs →
            m.world.counters.get? (bucketKey key bucket) = some counter →
            max < counter.count → counter.expiresAt = some e → e + lag ≤ reply.time)

/-- A new check has counted nowhere. -/
theorem Sound.spawn {w : RedisWorld} (hSound : Sound windowMs lag w stages) (key : String) :
    Sound windowMs lag w (stages ++ [.called key]) := by
  have hGet : ∀ {j s}, (stages ++ [Stage.called key])[j]? = some s →
      stages[j]? = some s ∨ (j = stages.length ∧ s = .called key) := by
    intro j s hj
    rcases Nat.lt_or_ge j stages.length with hLt | hGe
    · rw [List.getElem?_append_left hLt] at hj
      exact .inl hj
    · rw [List.getElem?_append_right hGe] at hj
      obtain ⟨hZero, hEq⟩ := List.getElem?_eq_some_iff.mp hj
      simp only [List.length_singleton] at hZero
      refine .inr ⟨by omega, ?_⟩
      rw [← hEq, List.getElem_singleton]
  refine { hSound with tasks := ?_, placed := ?_, distinct := ?_ }
  · intro e he
    rw [List.length_append]
    exact Nat.lt_add_right _ (hSound.tasks e he)
  · intro j s hj
    rcases hGet hj with hOld | ⟨rfl, rfl⟩
    · exact hSound.placed j s hOld
    · intro e he
      exact Nat.ne_of_lt (hSound.tasks e he)
  · intro a b sa sb n ha hb hna hnb
    rcases hGet ha with hOldA | ⟨rfl, rfl⟩
    · rcases hGet hb with hOldB | ⟨rfl, rfl⟩
      · exact hSound.distinct a b sa sb n hOldA hOldB hna hnb
      · cases hnb
    · cases hna

/-- What `Apart` says of the next call. -/
theorem Tracks.slow {i : Nat} {s : Stage} {c : RedisCall} {reply : RedisReply}
    (hTracks : Tracks max windowMs m stages) (hs : stages[i]? = some s)
    (hCall : s.call windowMs = some c) (hApart : Apart max windowMs lag m (.step i reply)) :
    InTime m.world c reply.time ∧
      (c = .now → ∀ p, lastTime m.world i = some p → reply.time ≤ p + lag) := by
  obtain ⟨hTime, hNow⟩ := hApart c ((hTracks.nextCall hs).trans hCall)
  exact ⟨hTime, fun hc => (hNow hc).1⟩

theorem sound_step (hTracks : Tracks max windowMs m stages)
    (hSound : Sound windowMs lag m.world stages) {label : Label RedisReply String}
    (hApart : Apart max windowMs lag m label)
    (hStep : (redisSystem max windowMs).step m label = some m') :
    ∃ stages', Tracks max windowMs m' stages' ∧ Sound windowMs lag m'.world stages' := by
  rcases hTracks.step hStep with ⟨key, rfl, hWorld, hNext⟩ |
    ⟨i, reply, s, c, answer, rfl, hs, hCall, hExec, hNext⟩
  · exact ⟨_, hNext, hWorld ▸ hSound.spawn key⟩
  · obtain ⟨hTime, hSlow⟩ := hTracks.slow hs hCall hApart
    exact ⟨_, hNext, hSound.exec hs hCall hTime hSlow hExec⟩

/-- The invariant holds in every run that keeps apart. -/
theorem sound_of_reaches
    (hRun : (redisSystem max windowMs).Reaches (Apart max windowMs lag) (.start .empty) m) :
    ∃ stages, Tracks max windowMs m stages ∧ Sound windowMs lag m.world stages := by
  refine hRun.invariant (P := fun m => ∃ stages, Tracks max windowMs m stages ∧
    Sound windowMs lag m.world stages) ?_ ?_
  · intro m label m' hApart hStep h
    obtain ⟨stages, hTracks, hSound⟩ := h
    exact sound_step hTracks hSound hApart hStep
  · refine ⟨[], rfl, ⟨?_, ?_, fun _ _ => rfl, fun _ => List.nodup_nil⟩, ?_, ?_, ?_⟩
    · intro key counter hGet
      cases hGet
    · intro key counter e hGet
      cases hGet
    · intro e he
      cases he
    · intro i s hs
      cases hs
    · intro i j s s' n hs
      cases hs

/-- A check of the key that began before `promised` was, or will be, denied: it counts in the
window of the bucket, or has a count over the limit. -/
def Stage.Refused (max windowMs : Int) (key : String) (bucket promised : Int) : Stage → Prop
  | .called _ => True
  | .counting k t => k = key → promised ≤ t ∨ t / windowMs = bucket
  | .expiring k t count | .asking k t count | .reapplying k t count | .reporting k t count _
  | .reported k t count _ _ => k = key → promised ≤ t ∨ max < count
  | .failed _ => True

/-- After a denial in the clock window `bucket` that reported `promised`. -/
structure Denied (max windowMs lag : Int) (known : Nat) (key : String) (bucket promised : Int)
    (w : RedisWorld) (stages : List Stage) : Prop where
  counter : ∃ counter e, w.counters.get? (bucketKey key bucket) = some counter ∧
    max < counter.count ∧ counter.expiresAt = some e ∧ promised ≤ e + lag
  past : ∃ t, t ≤ w.clock ∧ t / windowMs = bucket
  later : ∀ j s, known ≤ j → stages[j]? = some s → s.Refused max windowMs key bucket promised

variable {known : Nat} {key : String} {bucket promised : Int}

/-- A check that begins after a denial counts in the same window, or in a later one, and then the
counter of the denial has ended. -/
theorem refused_called (hWindow : 0 < windowMs) {i : Nat} {k : String} {reply : RedisReply}
    (hTracks : Tracks max windowMs m stages)
    (hDenied : Denied max windowMs lag known key bucket promised m.world stages)
    (hs : stages[i]? = some (.called k)) (hApart : Apart max windowMs lag m (.step i reply))
    (hClock : m.world.clock ≤ reply.time) :
    (Stage.counting k reply.time).Refused max windowMs key bucket promised := by
  intro hKey
  subst hKey
  obtain ⟨counter, e, hGet, hOver, hExpiry, hUntil⟩ := hDenied.counter
  obtain ⟨t₀, hPast, hBucket⟩ := hDenied.past
  obtain ⟨-, hNow⟩ := hApart .now (hTracks.nextCall hs)
  by_cases hLater : bucket < reply.time / windowMs
  · have hProg : m.tasks[i]?.map Task.prog = some ((redisSystem max windowMs).entry k) := by
      rw [hTracks, List.getElem?_map, hs]
      rfl
    have hGone := (hNow rfl).2 k hProg bucket counter e hLater hGet hOver hExpiry
    exact .inl (by omega)
  · have hFrom : t₀ / windowMs ≤ reply.time / windowMs :=
      Int.ediv_le_ediv hWindow (hPast.trans hClock)
    exact .inr (by omega)

/-- A check that counts in the window of a denial gets a count over the limit. -/
theorem refused_counting {i : Nat} {k : String} {t : Int} {reply : RedisReply}
    (hSound : Sound windowMs lag m.world stages)
    (hDenied : Denied max windowMs lag known key bucket promised m.world stages)
    (hs : stages[i]? = some (.counting k t)) (hKnown : known ≤ i)
    (hTime : InTime m.world (.incr (bucketKey k (t / windowMs))) reply.time)
    (hClock : m.world.clock ≤ reply.time) : k = key → promised ≤ t ∨ max <
      (RedisCall.act m.world.counters reply.time (.incr (bucketKey k (t / windowMs)))).1 := by
  intro hKey
  subst hKey
  obtain ⟨counter, e, hGet, hOver, -⟩ := hDenied.counter
  have hPlaced := hSound.placed i _ hs
  have hCount := (counts_of_incr hSound hTime hPlaced.1 (hPlaced.2.1.trans hClock)).2
  cases hDenied.later i _ hKnown hs rfl with
  | inl hLate => exact .inl hLate
  | inr hSame =>
      rw [hSame] at hCount ⊢
      have hStep := hCount counter hGet
      exact .inr (by omega)

/-- One case for each stage: after a denial, a check of the key is late or refused. -/
theorem Denied.exec (hWindow : 0 < windowMs) {i : Nat} {s : Stage} {c : RedisCall}
    {reply : RedisReply} {answer : Except String Int} (hTracks : Tracks max windowMs m stages)
    (hSound : Sound windowMs lag m.world stages)
    (hDenied : Denied max windowMs lag known key bucket promised m.world stages)
    (hs : stages[i]? = some s) (hCall : s.call windowMs = some c)
    (hApart : Apart max windowMs lag m (.step i reply))
    (hExec : redisExec i c reply m.world = some (answer, m'.world)) :
    Denied max windowMs lag known key bucket promised m'.world
      (stages.set i (s.after windowMs answer)) := by
  obtain ⟨hTime, -⟩ := hApart c ((hTracks.nextCall hs).trans hCall)
  have hNext := continues_of_exec (pexpire_of_call hCall) hTime hSound.expiry hExec
  obtain ⟨hClock, hCases⟩ := exec_cases hExec
  obtain ⟨counter, e, hGet, hOver, hExpiry, hUntil⟩ := hDenied.counter
  obtain ⟨t₀, hPast, hBucket⟩ := hDenied.past
  refine ⟨?_, ⟨t₀, hPast.trans hNext.clock, hBucket⟩, ?_⟩
  · obtain ⟨counter', hGet', hExtends⟩ := hNext.counters _ counter hGet
    obtain ⟨e', hExpiry', hLe⟩ := hExtends.expiry e hExpiry
    exact ⟨counter', e', hGet', hOver.trans_le hExtends.count, hExpiry', by omega⟩
  · intro j s' hKnown hj
    have hLt : i < stages.length := (List.getElem?_eq_some_iff.mp hs).1
    by_cases hNe : i = j
    · subst hNe
      rw [List.getElem?_set_self hLt] at hj
      cases hj
      have hOld := hDenied.later i s hKnown hs
      cases answer with
      | error message => cases s <;> trivial
      | ok v =>
          have hValue : v = (c.act m.world.counters reply.time).1 := by
            rcases hCases with ⟨-, message, hError⟩ | ⟨-, hOk | ⟨message, hError⟩⟩
            · cases hError
            · exact Except.ok.inj hOk
            · cases hError
          subst hValue
          cases s with
          | called k =>
              cases hCall
              exact refused_called hWindow hTracks hDenied hs hApart hClock
          | counting k t =>
              cases hCall
              have hNew := refused_counting hSound hDenied hs hKnown hTime hClock
              rw [Stage.after]
              split
              · exact hNew
              · exact hNew
          | expiring k t count => exact hOld
          | asking k t count =>
              rw [Stage.after]
              split
              · exact hOld
              · exact hOld
          | reapplying k t count => exact hOld
          | reporting k t count ttl => exact hOld
          | reported k t count ttl now => cases hCall
          | failed message => cases hCall
    · rw [List.getElem?_set_ne hNe] at hj
      exact hDenied.later j s' hKnown hj

theorem Denied.spawn {w : RedisWorld} (hDenied : Denied max windowMs lag known key bucket promised w stages)
    (k : String) : Denied max windowMs lag known key bucket promised w (stages ++ [.called k]) := by
  refine { hDenied with later := ?_ }
  intro j s hKnown hj
  rcases Nat.lt_or_ge j stages.length with hLt | hGe
  · rw [List.getElem?_append_left hLt] at hj
    exact hDenied.later j s hKnown hj
  · rw [List.getElem?_append_right hGe] at hj
    obtain ⟨_, hEq⟩ := List.getElem?_eq_some_iff.mp hj
    rw [List.getElem_singleton] at hEq
    subst hEq
    trivial

/-- After a denial the invariant goes on with what the denial reported. -/
theorem denied_of_reaches (hWindow : 0 < windowMs)
    (hRun : (redisSystem max windowMs).Reaches (Apart max windowMs lag) m m')
    (h : ∃ stages, Tracks max windowMs m stages ∧ Sound windowMs lag m.world stages ∧
      Denied max windowMs lag known key bucket promised m.world stages) :
    ∃ stages, Tracks max windowMs m' stages ∧ Sound windowMs lag m'.world stages ∧
      Denied max windowMs lag known key bucket promised m'.world stages := by
  refine hRun.invariant (P := fun m => ∃ stages, Tracks max windowMs m stages ∧
    Sound windowMs lag m.world stages ∧
    Denied max windowMs lag known key bucket promised m.world stages) ?_ h
  intro m label m' hApart hStep hBefore
  obtain ⟨stages, hTracks, hSound, hDenied⟩ := hBefore
  rcases hTracks.step hStep with ⟨k, rfl, hWorld, hNext⟩ |
    ⟨i, reply, s, c, answer, rfl, hs, hCall, hExec, hNext⟩
  · refine ⟨_, hNext, ?_, ?_⟩
    · rw [hWorld]
      exact hSound.spawn k
    · rw [hWorld]
      exact hDenied.spawn k
  · obtain ⟨hTime, hSlow⟩ := hTracks.slow hs hCall hApart
    exact ⟨_, hNext, hSound.exec hs hCall hTime hSlow hExec,
      hDenied.exec hWindow hTracks hSound hs hCall hApart hExec⟩

/-- A check that was told something has been through all its calls. -/
theorem Tracks.reported (h : Tracks max windowMs m stages) {i : Nat} {d : RateLimitDecision}
    (hTold : told m i = some (key, d)) : ∃ t count ttl now,
      stages[i]? = some (.reported key t count ttl now) ∧ d = decision max count ttl now := by
  rw [told, h, List.getElem?_map] at hTold
  cases hs : stages[i]? with
  | none =>
      rw [hs] at hTold
      cases hTold
  | some s =>
      rw [hs] at hTold
      cases hCall : s.call windowMs with
      | some c =>
          rw [Option.map_some, Option.bind_some, Stage.prog_of_call hCall] at hTold
          cases hTold
      | none =>
          cases s with
          | reported k t count ttl now =>
              cases hTold
              exact ⟨t, count, ttl, now, rfl, rfl⟩
          | failed message => cases hTold
          | _ => cases hCall

/-- In one clock window at most the limit of checks are allowed. -/
theorem length_allowedIn_le (hMax : 1 ≤ max) (hTracks : Tracks max windowMs m stages)
    (hSound : Sound windowMs lag m.world stages) (key : String) (bucket : Int) :
    ((allowedIn windowMs m key bucket).length : Int) ≤ max := by
  have hAllowed : ∀ i ∈ allowedIn windowMs m key bucket, ∃ t count ttl now,
      stages[i]? = some (.reported key t count ttl now) ∧ t / windowMs = bucket ∧
        1 ≤ count ∧ count ≤ max := by
    intro i hi
    have hBoth := (List.mem_filter.mp hi).2
    rw [Bool.and_eq_true, Option.any_eq_true, Option.any_eq_true] at hBoth
    obtain ⟨⟨⟨k, d⟩, hTold, hKey⟩, ⟨u, hBegan, hBucket⟩⟩ := hBoth
    simp only [Bool.and_eq_true, decide_eq_true_eq] at hKey hBucket
    obtain ⟨rfl, hOk⟩ := hKey
    obtain ⟨t, count, ttl, now, hs, rfl⟩ := hTracks.reported hTold
    have hCounts := (hSound.placed i _ hs).1
    obtain ⟨counter, _, hOne, _⟩ := hCounts.counter
    have hSame : u = t := Option.some.inj (hBegan.symm.trans hCounts.reading)
    refine ⟨t, count, ttl, now, hs, hSame ▸ hBucket, hOne, ?_⟩
    simpa [decision] using hOk
  let countOf : Nat → Nat := fun i => match stages[i]? with
    | some (.reported _ _ count _ _) => count.toNat
    | _ => 0
  have hNodup : ((allowedIn windowMs m key bucket).map countOf).Nodup := by
    apply List.Nodup.map_on
    · intro i hi j hj hSame
      obtain ⟨t, count, ttl, now, hs, hBucket, hOne, -⟩ := hAllowed i hi
      obtain ⟨t', count', ttl', now', hs', hBucket', hOne', -⟩ := hAllowed j hj
      simp only [countOf, hs, hs'] at hSame
      have hCount : count = count' := by omega
      subst hCount
      apply hSound.distinct i j _ _ (bucketKey key bucket, count) hs hs'
      · rw [← hBucket]
        rfl
      · rw [← hBucket']
        rfl
    · exact List.nodup_range.filter _
  have hSubset : (allowedIn windowMs m key bucket).map countOf ⊆ List.range' 1 max.toNat := by
    intro n hn
    obtain ⟨i, hi, rfl⟩ := List.mem_map.mp hn
    obtain ⟨t, count, ttl, now, hs, -, hOne, hLe⟩ := hAllowed i hi
    simp only [countOf, hs, List.mem_range'_1]
    omega
  have hLength := (List.Nodup.subperm hNodup hSubset).length_le
  rw [List.length_map, List.length_range'] at hLength
  omega

/-- While the commands of each check are in time and no check of a key begins in a later
clock window before its full counters are gone, a window has at most the limit of allowed
checks, no check is allowed between a denial and the time it reported, and from then on a
check that is alone in its window is allowed. -/
theorem redis_contract_while_apart (hMax : 1 ≤ max) (hWindow : 0 < windowMs)
    (hFirst : (redisSystem max windowMs).Reaches (Apart max windowMs lag) (.start .empty) m)
    (hThen : (redisSystem max windowMs).Reaches (Apart max windowMs lag) m m') :
    (∀ key bucket, ((allowedIn windowMs m' key bucket).length : Int) ≤ max) ∧
    ∀ i j key d d' t, told m i = some (key, d) → d.allowed = false →
      m.tasks.length ≤ j → told m' j = some (key, d') → began m'.world j = some t →
      (t < d.resetAt → d'.allowed = false) ∧
      (d.resetAt ≤ t → (∀ i' ∈ incrs m'.world (bucketKey key (t / windowMs)), i' = j) →
        d'.allowed = true) := by
  obtain ⟨stages, hTracks, hSound⟩ := sound_of_reaches hFirst
  constructor
  · obtain ⟨stages', hTracks', hSound'⟩ := sound_of_reaches (hFirst.trans hThen)
    exact length_allowedIn_le hMax hTracks' hSound'
  · intro i j key d d' t hTold hDenied hLater hTold' hBegan
    obtain ⟨t₀, count, ttl, now, hs, rfl⟩ := hTracks.reported hTold
    have hFull : ¬count ≤ max := by simpa [decision] using hDenied
    obtain ⟨hCounts, counter, e, hGet, hExpiry, hUntil⟩ := hSound.placed i _ hs
    have hOver : max < counter.count := by
      obtain ⟨counter', hGet', -, hLe⟩ := hCounts.counter
      rw [hGet] at hGet'
      cases hGet'
      omega
    have hStart : Denied max windowMs lag m.tasks.length key (t₀ / windowMs) (now + ttl) m.world
        stages := by
      refine ⟨⟨counter, e, hGet, hOver, hExpiry, by omega⟩, ⟨t₀, hCounts.past, rfl⟩, ?_⟩
      intro j s hKnown hj
      have hLt := (List.getElem?_eq_some_iff.mp hj).1
      rw [hTracks, List.length_map] at hKnown
      omega
    obtain ⟨stages', hTracks', hSound', hEnd⟩ :=
      denied_of_reaches hWindow hThen ⟨stages, hTracks, hSound, hStart⟩
    obtain ⟨t', count', ttl', now', hs', rfl⟩ := hTracks'.reported hTold'
    have hOwn := (hSound'.placed j _ hs').1
    have hSame : t = t' := Option.some.inj (hBegan.symm.trans hOwn.reading)
    subst hSame
    constructor
    · intro hBefore
      change t < now + ttl at hBefore
      cases hEnd.later j _ hLater hs' rfl with
      | inl hLate => omega
      | inr hRefused => simpa [decision] using hRefused
    · intro _ hAlone
      obtain ⟨counter', hGet', -, hLe⟩ := hOwn.counter
      have hLength : (incrs m'.world (bucketKey key (t / windowMs))).length ≤ 1 := by
        apply Collections.length_le_one_of_nodup (hSound'.once _)
        intro a ha b hb
        rw [hAlone a ha, hAlone b hb]
      have hCount := hSound'.counts _ counter' hGet'
      have hFits : count' ≤ max := by omega
      simpa [decision] using hFits

end runs

namespace Sample

/-- A check of the key at one time, as the task of a number: the first of its counter has
one call more. -/
def checkAt (task : Nat) (t : Int) (first : Bool) : List (Label RedisReply String) :=
  .spawn "k" :: List.replicate (if first then 5 else 4) (.step task (.answers t))

/-- One request each 1000 ms. -/
def limited : System Unit RedisCall RedisAns String (String × RateLimitDecision) RedisWorld
    RedisReply String :=
  redisSystem 1 1000

def run (labels : List (Label RedisReply String)) : Option Checking :=
  limited.run (fun _ _ => true) (.start .empty) labels

end Sample

/-- Two checks late in a clock window: the second is denied until the counter ends, and a
third, begun after that in the next clock window, is allowed long before. -/
theorem check_before_reset_allowed : ∃ m m' : Checking,
    Sample.limited.Reaches (fun _ _ => True) (.start .empty) m ∧
    Sample.limited.Reaches (fun _ _ => True) m m' ∧ m.tasks.length ≤ 2 ∧
    (told m 1).map (fun r => (r.2.allowed, r.2.resetAt)) = some (false, 1500) ∧
    (told m' 2).map (fun r => r.2.allowed) = some true ∧ began m'.world 2 = some 1000 := by
  have hRun : ((Sample.run (Sample.checkAt 0 500 true ++ Sample.checkAt 1 600 false)).any fun m =>
      decide (m.tasks.length ≤ 2 ∧
        (told m 1).map (fun r => (r.2.allowed, r.2.resetAt)) = some (false, 1500)) &&
      (Sample.limited.run (fun _ _ => true) m (Sample.checkAt 2 1000 true)).any fun m' =>
        decide ((told m' 2).map (fun r => r.2.allowed) = some true ∧
          began m'.world 2 = some 1000)) = true := by
    decide +kernel
  obtain ⟨m, hFirst, hBoth⟩ := (Option.any_eq_true _ _).mp hRun
  rw [Bool.and_eq_true, decide_eq_true_eq] at hBoth
  obtain ⟨m', hThen, hLast⟩ := (Option.any_eq_true _ _).mp hBoth.2
  rw [decide_eq_true_eq] at hLast
  have hTrue : ∀ (m : Checking) label m', true = true →
      Sample.limited.step m label = some m' → True := fun _ _ _ _ _ => trivial
  exact ⟨m, m', (System.reaches_of_run hFirst).mono hTrue, (System.reaches_of_run hThen).mono hTrue,
    hBoth.1.1, hBoth.1.2, hLast.1, hLast.2⟩

section decidable

variable {max windowMs lag : Int}

/-- The program still has its first call before it, and another after that. -/
def atEntry (m : Checking) (i : Nat) : Bool :=
  m.tasks[i]?.any fun task => match task.prog with
    | .call .now next => match next (.ok 0) with
        | .call _ _ => true
        | _ => false
    | _ => false

/-- A check of the condition that looks at every counter. -/
def fine (max lag : Int) (m : Checking) : Label RedisReply String → Bool
  | .spawn _ => true
  | .step i reply => (m.nextCall i).all fun c =>
      (m.world.counters.rows.all fun counter =>
        c.key? ≠ some counter.key || counter.alive reply.time) &&
      (c ≠ .now || ((lastTime m.world i).all fun p => reply.time ≤ p + lag) &&
        (!atEntry m i || m.world.counters.rows.all fun counter =>
          counter.count ≤ max || counter.expiresAt.all fun e => e + lag ≤ reply.time))

theorem apart_of_fine {m : Checking} {label : Label RedisReply String}
    (h : fine max lag m label = true) : Apart max windowMs lag m label := by
  cases label with
  | spawn key => trivial
  | step i reply =>
      intro c hc
      rw [fine, hc, Option.all_some, Bool.and_eq_true, List.all_eq_true] at h
      constructor
      · intro key hKey counter hGet
        have hRow := h.1 counter (Table.mem_of_get? hGet)
        rw [Table.key_of_get? hGet, hKey] at hRow
        simpa using hRow
      · intro hNow
        subst hNow
        have hSecond := h.2
        simp only [ne_eq, not_true_eq_false, decide_false, Bool.false_or, Bool.and_eq_true] at hSecond
        constructor
        · intro p hp
          have hSoon := hSecond.1
          rw [hp, Option.all_some, decide_eq_true_eq] at hSoon
          exact hSoon
        · intro key hProg bucket counter e _ hGet hOver hExpiry
          have hEntry : atEntry m i = true := by
            obtain ⟨task, hTask, hIs⟩ := Option.map_eq_some_iff.mp hProg
            rw [atEntry, hTask, Option.any_some, hIs]
            rfl
          have hAll := hSecond.2
          rw [hEntry, Bool.not_true, Bool.false_or, List.all_eq_true] at hAll
          have hRow := hAll counter (Table.mem_of_get? hGet)
          rw [hExpiry, Option.all_some, Bool.or_eq_true, decide_eq_true_eq, decide_eq_true_eq] at hRow
          exact hRow.resolve_left (by omega)

end decidable

/-- A check that waits for the reported time is allowed. -/
theorem redis_contract_sample : ∃ m m' : Checking,
    Sample.limited.Reaches (Apart 1 1000 0) (.start .empty) m ∧
    Sample.limited.Reaches (Apart 1 1000 0) m m' ∧
    (told m 1).map (fun r => (r.2.allowed, r.2.resetAt)) = some (false, 1500) ∧
    began m'.world 2 = some 1500 ∧ (told m' 2).map (fun r => r.2.allowed) = some true := by
  have hRun : ((Sample.limited.run (fine 1 0) (.start .empty)
      (Sample.checkAt 0 500 true ++ Sample.checkAt 1 600 false)).any fun m =>
      decide (m.tasks.length ≤ 2 ∧ told m 1 = some ("k", decision 1 2 900 600)) &&
      (Sample.limited.run (fine 1 0) m (Sample.checkAt 2 1500 true)).any fun m' =>
        decide (((told m' 2).map (fun r => r.1) = some "k" ∧ began m'.world 2 = some 1500) ∧
          ∀ i ∈ incrs m'.world (bucketKey "k" 1), i = 2)) = true := by
    decide +kernel
  obtain ⟨m, hFirst, hBoth⟩ := (Option.any_eq_true _ _).mp hRun
  rw [Bool.and_eq_true, decide_eq_true_eq] at hBoth
  obtain ⟨m', hThen, hLast⟩ := (Option.any_eq_true _ _).mp hBoth.2
  rw [decide_eq_true_eq] at hLast
  obtain ⟨⟨hKey, hBegan⟩, hAlone⟩ := hLast
  have hApart : ∀ (m : Checking) label m', fine 1 0 m label = true →
      Sample.limited.step m label = some m' → Apart 1 1000 0 m label :=
    fun _ _ _ h _ => apart_of_fine h
  obtain ⟨⟨k, d⟩, hTold, rfl⟩ := Option.map_eq_some_iff.mp hKey
  have hReached := (System.reaches_of_run hFirst).mono hApart
  have hReached' := (System.reaches_of_run hThen).mono hApart
  have hContract := (redis_contract_while_apart (by decide) (by decide) hReached hReached').2
    1 2 "k" _ d 1500 hBoth.1.2 rfl hBoth.1.1 hTold hBegan
  refine ⟨m, m', hReached, hReached', ?_, hBegan, ?_⟩
  · rw [hBoth.1.2]
    rfl
  · rw [hTold]
    exact congrArg some (hContract.2 (by decide) hAlone)

end VpnPayment.RedisRateLimiter
