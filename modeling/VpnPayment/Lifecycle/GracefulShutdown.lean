import Mathlib.Logic.Relation
import VpnPayment.Async.Machine

/-! `GracefulShutdown` with the stoppers of `main`, around a server whose requests are
the tasks of a system. Time is counted in milliseconds. What is due happens before the
clock moves on. -/
namespace VpnPayment.Lifecycle

open Async

/-- What is closed with a closer. -/
inductive Client
  | database
  | redis
deriving DecidableEq

inductive Stopper
  | usdtWatcher
  | sweepWatcher
  | sweepAlertWatcher
  | expiryWatcher
  | webhookWatcher
  | fxProvider
  | closer (client : Client)
deriving DecidableEq

/-- The client that the stopper closes. The watchers are stopped at once, a closer settles
when it does, if ever. -/
def Stopper.client : Stopper → Option Client
  | .closer client => some client
  | _ => none

structure Settings where
  timeoutMs : Nat
  databaseUrl : Bool
  redisUrl : Bool

def closers (settings : Settings) : List Stopper :=
  (if settings.databaseUrl then [.closer .database] else []) ++
    if settings.redisUrl then [.closer .redis] else []

def stoppers (settings : Settings) : List Stopper :=
  [.usdtWatcher, .sweepWatcher, .sweepAlertWatcher, .expiryWatcher, .webhookWatcher, .fxProvider] ++
    closers settings

inductive ShutdownResult
  | clean
  | forced
deriving DecidableEq

/-- Where `shutdown` is, with the time of its call: a stopper is awaited, or the server
has been told to close and the timer is set, or it has settled. -/
inductive Phase
  | serving
  | stopping (since : Nat) (running : Stopper) (rest : List Stopper)
  | draining (since closedAt : Nat)
  | settled (since : Nat) (result : ShutdownResult)
deriving DecidableEq

namespace Phase

/-- The time of the call of `shutdown`. -/
def since : Phase → Option Nat
  | .serving => none
  | .stopping since _ _ => some since
  | .draining since _ => some since
  | .settled since _ => some since

/-- `shutdown` has settled, and `main` has exited. -/
def isSettled : Phase → Bool
  | .settled _ _ => true
  | _ => false

/-- The closer that is called when the running stopper has settled. -/
def nextCloser : Phase → Option Client
  | .stopping _ _ rest => rest.head?.bind Stopper.client
  | _ => none

end Phase

variable {Key Call : Type} {Ans : Call → Type} {Err Out World Reply Request : Type}

/-- The process: its requests, the open connections by the request they were opened for,
and the clients whose closers have been called. -/
structure Process (Key Call : Type) (Ans : Call → Type) (Err Out World : Type) where
  machine : Machine Key Call Ans Err Out World
  connections : List Nat
  clock : Nat
  phase : Phase
  closed : List Client

namespace Process

/-- Any requests in flight, before `shutdown` is called. -/
def serving (machine : Machine Key Call Ans Err Out World) (connections : List Nat) (clock : Nat) :
    Process Key Call Ans Err Out World :=
  ⟨machine, connections, clock, .serving, []⟩

/-- Call the next stopper. After the last one, close the server and set the timer. -/
def callNext (p : Process Key Call Ans Err Out World) (since : Nat) :
    List Stopper → Process Key Call Ans Err Out World
  | stopper :: rest =>
      { p with phase := .stopping since stopper rest, closed := stopper.client.toList ++ p.closed }
  | [] => { p with phase := .draining since p.clock }

/-- The server accepts connections until it is told to close. After that requests may come
in on connections that are still open. -/
def accepts (p : Process Key Call Ans Err Out World) : Bool :=
  match p.phase with
  | .serving | .stopping _ _ _ => true
  | .draining _ _ => p.connections ≠ []
  | .settled _ _ => false

/-- Nothing is due, and time may pass. -/
def idle (settings : Settings) (p : Process Key Call Ans Err Out World) : Bool :=
  match p.phase with
  | .serving | .settled _ _ => true
  | .stopping _ running _ => running.client.isSome
  | .draining _ closedAt => p.connections ≠ [] && p.clock < closedAt + settings.timeoutMs

end Process

/-- What happens next: a request comes in, a handler goes on, a connection ends, a
millisecond passes, the signal arrives, the running stopper settles, the server has
closed, or the timer fires. -/
inductive Event (Reply Request : Type)
  | request (r : Request)
  | resume (task : Nat) (reply : Reply)
  | hangUp (task : Nat)
  | tick
  | signal
  | stopped
  | serverClosed
  | timer

namespace Process

variable [DecidableEq Key] (settings : Settings)
  (sys : System Key Call Ans Err Out World Reply Request)

def step (p : Process Key Call Ans Err Out World) :
    Event Reply Request → Option (Process Key Call Ans Err Out World)
  | .request r =>
      if p.accepts then
        (sys.step p.machine (.spawn r)).map fun m =>
          { p with machine := m, connections := p.machine.tasks.length :: p.connections }
      else none
  | .resume i reply =>
      if p.phase.isSettled then none
      else (sys.step p.machine (.step i reply)).map fun m => { p with machine := m }
  | .hangUp i => some { p with connections := p.connections.filter (· ≠ i) }
  | .tick => if p.idle settings then some { p with clock := p.clock + 1 } else none
  | .signal => match p.phase with
      | .serving => some (p.callNext p.clock (stoppers settings))
      | _ => some p
  | .stopped => match p.phase with
      | .stopping since _ rest => some (p.callNext since rest)
      | _ => none
  | .serverClosed => match p.phase with
      | .draining since _ =>
          if p.connections = [] then some { p with phase := .settled since .clean } else none
      | _ => none
  | .timer => match p.phase with
      | .draining since closedAt =>
          if closedAt + settings.timeoutMs ≤ p.clock then
            some { p with connections := [], phase := .settled since .forced }
          else none
      | _ => none

/-- Runs whose every step is allowed in the state it is taken from. -/
def Reaches (allowed : Process Key Call Ans Err Out World → Event Reply Request → Prop) :
    Process Key Call Ans Err Out World → Process Key Call Ans Err Out World → Prop :=
  Relation.ReflTransGen fun p p' => ∃ event, allowed p event ∧ p.step settings sys event = some p'

/-- Follow the events while the check holds of each in the state it is taken from. -/
def run (check : Process Key Call Ans Err Out World → Event Reply Request → Bool)
    (p : Process Key Call Ans Err Out World) :
    List (Event Reply Request) → Option (Process Key Call Ans Err Out World)
  | [] => some p
  | event :: events =>
      if check p event then (p.step settings sys event).bind fun next => run check next events
      else none

variable {settings sys}

theorem reaches_of_run {check : Process Key Call Ans Err Out World → Event Reply Request → Bool}
    {start finish : Process Key Call Ans Err Out World} {events : List (Event Reply Request)}
    (hRun : start.run settings sys check events = some finish) :
    Reaches settings sys (fun p event => check p event = true) start finish := by
  induction events generalizing start with
  | nil =>
      cases hRun
      exact .refl
  | cons event events ih =>
      simp only [run] at hRun
      split at hRun
      · next hEvent =>
          obtain ⟨next, hStep, hRest⟩ := Option.bind_eq_some_iff.mp hRun
          exact Relation.ReflTransGen.head ⟨event, hEvent, hStep⟩ (ih hRest)
      · cases hRun

theorem Reaches.mono {allowed allowed' : Process Key Call Ans Err Out World → Event Reply Request → Prop}
    {start finish : Process Key Call Ans Err Out World}
    (hRun : Reaches settings sys allowed start finish)
    (hMono : ∀ p event, allowed p event → allowed' p event) :
    Reaches settings sys allowed' start finish := by
  induction hRun with
  | refl => exact .refl
  | tail _ last ih =>
      obtain ⟨event, hAllowed, hNext⟩ := last
      exact ih.tail ⟨event, hMono _ event hAllowed, hNext⟩

end Process
end VpnPayment.Lifecycle
