import VpnPayment.Api.RateLimiter
import VpnPayment.Async.Machine

/-! The fixed-window rate limiter over Redis, for any number of instances. A check reads
the clock, counts itself in the counter of its clock window and then asks how long that
counter will live. -/
namespace VpnPayment.RedisRateLimiter

open Async Collections

/-- What a check awaits. The clock is read at an await too, as time passes there. -/
inductive RedisCall
  | now
  | incr (key : String)
  | pexpire (key : String) (ms : Int)
  | pttl (key : String)
deriving DecidableEq

abbrev RedisAns (_ : RedisCall) : Type := Int

namespace RedisCall

/-- The counter a command is about. -/
def key? : RedisCall → Option String
  | now => none
  | incr key => some key
  | pexpire key _ => some key
  | pttl key => some key

end RedisCall

/-- A counter in Redis. One that has expired is no longer there for any command. -/
structure Counter where
  key : String
  count : Int
  expiresAt : Option Int
deriving DecidableEq

abbrev Counters : Type := Table Counter Counter.key

def Counter.alive (c : Counter) (t : Int) : Bool :=
  c.expiresAt.all fun e => t < e

def live? (counters : Counters) (t : Int) (key : String) : Option Counter :=
  (counters.get? key).filter fun c => c.alive t

/-- What a command does at a time. -/
def RedisCall.act (counters : Counters) (t : Int) : RedisCall → Int × Counters
  | .now => (t, counters)
  | .incr key =>
      match live? counters t key with
      | some c => (c.count + 1, counters.put { c with count := c.count + 1 })
      | none => (1, counters.put ⟨key, 1, none⟩)
  | .pexpire key ms =>
      match live? counters t key with
      | some c => (1, counters.put { c with expiresAt := some (t + ms) })
      | none => (0, counters)
  | .pttl key =>
      match live? counters t key with
      | some c =>
          match c.expiresAt with
          | some e => (e - t, counters)
          | none => (-1, counters)
      | none => (-2, counters)

/-- When a call takes effect, and whether its answer arrives, is lost, or the call fails
without an effect. -/
inductive RedisReply
  | answers (t : Int)
  | lost (t : Int) (message : String)
  | fails (t : Int) (message : String)

def RedisReply.time : RedisReply → Int
  | answers t => t
  | lost t _ => t
  | fails t _ => t

/-- One call that took effect. -/
structure Settled where
  task : Nat
  call : RedisCall
  time : Int

/-- The one clock of all instances and of Redis, the counters, and the calls that took
effect so far, newest first. -/
structure RedisWorld where
  clock : Int
  counters : Counters
  log : List Settled

def RedisWorld.empty : RedisWorld := ⟨0, .empty, []⟩

/-- The world after a call of task `i` took effect at `t`. -/
def RedisWorld.settle (w : RedisWorld) (i : Nat) (c : RedisCall) (t : Int) : RedisWorld :=
  ⟨t, (c.act w.counters t).2, ⟨i, c, t⟩ :: w.log⟩

/-- The clock does not go back. Only Redis can fail. -/
def redisExec (i : Nat) (c : RedisCall) (reply : RedisReply) (w : RedisWorld) :
    Option (Except String (RedisAns c) × RedisWorld) :=
  if reply.time < w.clock then none
  else
    match reply with
    | .answers t => some (.ok (c.act w.counters t).1, w.settle i c t)
    | .lost t message =>
        if c = .now then none else some (.error message, w.settle i c t)
    | .fails t message => if c = .now then none else some (.error message, { w with clock := t })

abbrev RedisAction (α : Type) := Prog Unit RedisCall RedisAns String α

open Prog (perform)

section check

variable (max windowMs : Int)

def decision (count ttl now : Int) : RateLimitDecision where
  allowed := count ≤ max
  limit := max
  remaining := Max.max 0 (max - count)
  resetAt := now + ttl
  retryAfterSec := Max.max 1 ⌈(ttl : ℚ) / 1000⌉

/-- The end of `check`. -/
def report (count ttl : Int) : RedisAction RateLimitDecision := do
  let now ← perform RedisCall.now
  pure (decision max count ttl now)

/-- `check` from `pttl` on. Without a time to live the expiry is applied again. -/
def askTtl (bucketKey : String) (count : Int) : RedisAction RateLimitDecision := do
  let ttl ← perform (RedisCall.pttl bucketKey)
  if ttl < 0 then do
    let _ ← perform (RedisCall.pexpire bucketKey windowMs)
    report max count windowMs
  else report max count ttl

/-- `check` from `incr` on. -/
def countIn (bucketKey : String) : RedisAction RateLimitDecision := do
  let count ← perform (RedisCall.incr bucketKey)
  if count = 1 then do
    let _ ← perform (RedisCall.pexpire bucketKey windowMs)
    askTtl max windowMs bucketKey count
  else askTtl max windowMs bucketKey count

def bucketKey (key : String) (bucket : Int) : String :=
  s!"rl:{key}:{bucket}"

def check (key : String) : RedisAction RateLimitDecision := do
  let now ← perform RedisCall.now
  countIn max windowMs (bucketKey key (now / windowMs))

/-- Every request is a check of a key, by some instance. -/
def redisSystem : System Unit RedisCall RedisAns String (String × RateLimitDecision) RedisWorld
    RedisReply String where
  exec := redisExec
  entry key := do
    let told ← check max windowMs key
    pure (key, told)

end check

abbrev Checking := Machine Unit RedisCall RedisAns String (String × RateLimitDecision) RedisWorld

/-- What a check that has returned was told, with its key. -/
def told (m : Checking) (i : Nat) : Option (String × RateLimitDecision) :=
  m.tasks[i]?.bind fun task => match task.prog with
    | .ret (.ok result) => some result
    | _ => none

/-- When a check began: the time of its first call. -/
def began (w : RedisWorld) (i : Nat) : Option Int :=
  ((w.log.filter fun e => e.task = i).getLast?).map Settled.time

/-- The checks of a key in one clock window that were allowed. -/
def allowedIn (windowMs : Int) (m : Checking) (key : String) (bucket : Int) : List Nat :=
  (List.range m.tasks.length).filter fun i =>
    (told m i).any (fun result => result.1 = key && result.2.allowed) &&
      (began m.world i).any fun t => t / windowMs = bucket

end VpnPayment.RedisRateLimiter
