import VpnPayment.Collections.Table

/-! `CachingSecretProvider` serves secrets from memory and refreshes them in the
background. A fetch settles at any time, and what the provider does with its result
runs in two continuations: the first writes the cache, the second takes the fetch out
of the map of fetches in flight. -/
namespace VpnPayment

open Collections

structure Secret where
  current : String
  previous : Option String
deriving DecidableEq

/-- A cached secret plus the time at which it goes stale. -/
structure CacheEntry where
  value : Secret
  expiresAt : Int
deriving DecidableEq

/-- What a fetch settles to. -/
inductive FetchResult
  | value (secret : Secret)
  | absent
  | rejected
deriving DecidableEq

/-- How far a fetch is. -/
inductive FetchPhase
  | pending
  /-- Settled, with the continuation of `then` queued. -/
  | settled (result : FetchResult)
  /-- Handed over, with the continuation of `finally` queued. -/
  | delivered (result : FetchResult)
  | done (result : FetchResult)
deriving DecidableEq

namespace FetchPhase

def result? : FetchPhase → Option FetchResult
  | pending => none
  | settled result => some result
  | delivered result => some result
  | done result => some result

/-- The promise that the callers share has not settled. -/
def isOpen : FetchPhase → Bool
  | done _ => false
  | _ => true

/-- A continuation is queued. -/
def isQueued : FetchPhase → Bool
  | settled _ => true
  | delivered _ => true
  | _ => false

/-- The provider has seen the result. -/
def isDelivered : FetchPhase → Bool
  | delivered _ => true
  | done _ => true
  | _ => false

end FetchPhase

structure Fetch where
  name : String
  phase : FetchPhase
deriving DecidableEq

structure CachingSecretProvider where
  ttlMs : Int
  cache : Table (String × CacheEntry) Prod.fst
  /-- The promise of each fetch in flight is told by its number. -/
  inFlight : Table (String × Nat) Prod.fst

/-- A provider with the fetches it has started. -/
structure SecretRuntime where
  provider : CachingSecretProvider
  fetches : List Fetch
  /-- The fetches that have settled, newest first. -/
  settled : List Nat
  /-- The fetches whose result the provider has seen, newest first. -/
  delivered : List Nat

namespace SecretRuntime

def start (ttlMs : Int) : SecretRuntime :=
  ⟨⟨ttlMs, .empty, .empty⟩, [], [], []⟩

/-- The promise is the one in flight, or that of a new fetch. -/
def refresh (m : SecretRuntime) (name : String) : SecretRuntime × Nat :=
  match m.provider.inFlight.get? name with
  | some existing => (m, existing.2)
  | none =>
      let promise := m.fetches.length
      ({ m with
          fetches := m.fetches ++ [⟨name, .pending⟩]
          provider := { m.provider with inFlight := m.provider.inFlight.put (name, promise) } },
        promise)

def backgroundRefresh (m : SecretRuntime) (name : String) : SecretRuntime :=
  (m.refresh name).1

def prime (m : SecretRuntime) (names : List String) : SecretRuntime :=
  names.foldl backgroundRefresh m

def serve (m : SecretRuntime) (name : String) (now : Int) : Option Secret × SecretRuntime :=
  match m.provider.cache.get? name with
  | none => (none, m.backgroundRefresh name)
  | some (_, entry) =>
      (some entry.value, if now ≥ entry.expiresAt then m.backgroundRefresh name else m)

def get (m : SecretRuntime) (name : String) (now : Int) : Option String × SecretRuntime :=
  let (value, m') := m.serve name now
  (value.map Secret.current, m')

def getRotating (m : SecretRuntime) (name : String) (now : Int) : Option Secret × SecretRuntime :=
  let (value, m') := m.serve name now
  (value.map fun secret => match secret.previous with
    | none => ⟨secret.current, none⟩
    | some previous => ⟨secret.current, some previous⟩, m')

/-- The callback of `then`. A rejection passes it by. -/
def onFetched (p : CachingSecretProvider) (name : String) (now : Int) :
    FetchResult → CachingSecretProvider
  | .value secret => { p with cache := p.cache.put (name, ⟨secret, now + p.ttlMs⟩) }
  | .absent => { p with cache := p.cache.delete name }
  | .rejected => p

/-- The callback of `finally`. -/
def onFinally (p : CachingSecretProvider) (name : String) : CachingSecretProvider :=
  { p with inFlight := p.inFlight.delete name }

/-- The source settles a fetch. A promise settles once. -/
def settle (m : SecretRuntime) (i : Nat) (result : FetchResult) : SecretRuntime :=
  match m.fetches[i]? with
  | some ⟨name, .pending⟩ =>
      { m with fetches := m.fetches.set i ⟨name, .settled result⟩, settled := i :: m.settled }
  | _ => m

/-- The next continuation of a fetch runs. -/
def resume (m : SecretRuntime) (i : Nat) (now : Int) : SecretRuntime :=
  match m.fetches[i]? with
  | some ⟨name, .settled result⟩ =>
      { m with
        provider := onFetched m.provider name now result
        fetches := m.fetches.set i ⟨name, .delivered result⟩
        delivered := i :: m.delivered }
  | some ⟨name, .delivered result⟩ =>
      { m with
        provider := onFinally m.provider name
        fetches := m.fetches.set i ⟨name, .done result⟩ }
  | _ => m

end SecretRuntime

/-- The calls of the provider, the source settling a fetch, and a continuation running. -/
inductive SecretEvent
  | get (name : String) (now : Int)
  | getRotating (name : String) (now : Int)
  | refresh (name : String)
  | prime (names : List String)
  | settle (fetch : Nat) (result : FetchResult)
  | resume (fetch : Nat) (now : Int)

namespace SecretRuntime

def step (m : SecretRuntime) : SecretEvent → SecretRuntime
  | .get name now => (m.get name now).2
  | .getRotating name now => (m.getRotating name now).2
  | .refresh name => (m.refresh name).1
  | .prime names => m.prime names
  | .settle fetch result => m.settle fetch result
  | .resume fetch now => m.resume fetch now

def run (m : SecretRuntime) (events : List SecretEvent) : SecretRuntime :=
  events.foldl step m

/-- The name and the result of a fetch that has settled. -/
def answer (m : SecretRuntime) (i : Nat) : Option (String × FetchResult) :=
  (m.fetches[i]?).bind fun f => f.phase.result?.map fun result => (f.name, result)

/-- What a result tells about `name`, unless it is a rejection. -/
def tells (name : String) : String × FetchResult → Option (Option Secret)
  | (n, .value secret) => if n = name then some (some secret) else none
  | (n, .absent) => if n = name then some none else none
  | (_, .rejected) => none

/-- What the newest fetch of `name` in the list that was not rejected told. -/
def latest (m : SecretRuntime) (log : List Nat) (name : String) : Option Secret :=
  (log.findSome? fun i => (m.answer i).bind (tells name)).join

/-- The fetch has been started and has not run its last continuation. -/
def Outstanding (m : SecretRuntime) (name : String) (i : Nat) : Prop :=
  ∃ f, m.fetches[i]? = some f ∧ f.name = name ∧ f.phase.isOpen = true

end SecretRuntime
end VpnPayment
