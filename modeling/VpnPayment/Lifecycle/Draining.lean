import VpnPayment.Lifecycle.GracefulShutdown
import VpnPayment.Settlement.ExactlyOnce

/-! When the clients are closed under no request that still needs them, and when
`shutdown` settles in time. -/
namespace VpnPayment.Lifecycle

open Async

section general

variable {Key Call : Type} {Ans : Call → Type} {Err Out World Reply Request : Type}

/-- The calls that the program makes after the one that is under way. -/
def CallsLater (C : Call → Prop) : Prog Key Call Ans Err Out → Prop
  | .call _ next => ∀ answer, (next answer).Calls C
  | prog => prog.Calls C

theorem callsLater_of_calls {C : Call → Prop} {prog : Prog Key Call Ans Err Out}
    (h : prog.Calls C) : CallsLater C prog := by
  cases prog with
  | call c next => exact h.2
  | _ => exact h

namespace Process

variable [DecidableEq Key] (settings : Settings) (uses : Call → Option Client)
  (sys : System Key Call Ans Err Out World Reply Request)

/-- The timeout has passed since `shutdown` was called. -/
def TimedOut (p : Process Key Call Ans Err Out World) : Prop :=
  ∃ since, p.phase.since = some since ∧ since + settings.timeoutMs ≤ p.clock

/-- No handler in flight will use the client. A call that is under way is not waited for. -/
def Unused (p : Process Key Call Ans Err Out World) (client : Client) : Prop :=
  ∀ t ∈ p.machine.tasks, CallsLater (fun c => uses c ≠ some client) t.prog

/-- The handler that makes its next call in this step. -/
def acting (p : Process Key Call Ans Err Out World) : Event Reply Request → Option Nat
  | .request _ => some p.machine.tasks.length
  | .resume i _ => some i
  | _ => none

/-- Until the timeout has passed, a closer is called when no request needs its client any
more, and no request that needs it comes in later. When it passes, no stopper is running,
and no connection is open if the stoppers took time. -/
def Orderly (p : Process Key Call Ans Err Out World) : Event Reply Request → Prop
  | .request r => ∀ client ∈ p.closed, p.TimedOut settings ∨
      (sys.entry r).Calls fun c => uses c ≠ some client
  | .stopped => ∀ client, p.phase.nextCloser = some client →
      p.TimedOut settings ∨ p.Unused uses client
  | .tick => match p.phase with
      | .stopping since _ _ => p.clock < since + settings.timeoutMs
      | .draining since closedAt => closedAt = since ∨ p.clock < since + settings.timeoutMs
      | _ => True
  | _ => True

/-- What holds at every moment of an orderly run. -/
structure Sound (p : Process Key Call Ans Err Out World) : Prop where
  unused : ∀ client ∈ p.closed, p.TimedOut settings ∨ p.Unused uses client
  inTime : ∀ since, p.phase.since = some since → p.phase.isSettled = false →
    p.clock ≤ since + settings.timeoutMs
  noneClosed : p.phase = .serving → p.closed = []

section step

variable {settings uses sys} {p p' : Process Key Call Ans Err Out World}
  {event : Event Reply Request}

/-- A handler that goes on does not use the client either. -/
theorem unused_of_step {m : Machine Key Call Ans Err Out World} {i : Nat} {reply : Reply}
    {client : Client} (hUnused : p.Unused uses client)
    (hStep : sys.step p.machine (.step i reply) = some m) :
    (∀ t ∈ m.tasks, CallsLater (fun c => uses c ≠ some client) t.prog) ∧
      ∀ t, m.tasks[i]? = some t → t.prog.Calls fun c => uses c ≠ some client := by
  obtain ⟨t, ht, hTask⟩ := Option.bind_eq_some_iff.mp hStep
  have hLt : i < p.machine.tasks.length := (List.getElem?_eq_some_iff.mp ht).1
  have hHere := hUnused t (List.mem_of_getElem? ht)
  have hSet : ∀ t' : Task Key Call Ans Err Out, t'.prog.Calls (fun c => uses c ≠ some client) →
      (∀ t'' ∈ p.machine.tasks.set i t', CallsLater (fun c => uses c ≠ some client) t''.prog) ∧
      ∀ t'', (p.machine.tasks.set i t')[i]? = some t'' →
        t''.prog.Calls fun c => uses c ≠ some client := by
    intro t' hNew
    constructor
    · intro t'' hMem
      rcases List.mem_or_eq_of_mem_set hMem with hOld | rfl
      · exact hUnused t'' hOld
      · exact callsLater_of_calls hNew
    · intro t'' hGet
      rw [List.getElem?_set_self hLt] at hGet
      cases hGet
      exact hNew
  obtain ⟨c, next, answer, world, hp, -, rfl⟩ | ⟨key, next, hp, -, rfl⟩ | ⟨next, hp, rfl⟩ :=
    System.stepTask_cases hTask <;> rw [hp] at hHere
  · exact hSet _ (hHere answer)
  · exact hSet _ hHere
  · exact hSet _ hHere

omit [DecidableEq Key] in
theorem TimedOut.mono (h : p.TimedOut settings) (hSince : p'.phase.since = p.phase.since)
    (hClock : p.clock ≤ p'.clock) : p'.TimedOut settings := by
  obtain ⟨since, hCalled, hPassed⟩ := h
  exact ⟨since, hSince.trans hCalled, hPassed.trans hClock⟩

omit [DecidableEq Key] in
/-- A step that changes neither the phase nor the closed clients. -/
theorem Sound.keep (h : p.Sound settings uses) (hPhase : p'.phase = p.phase)
    (hClock : p'.clock = p.clock) (hClosed : p'.closed = p.closed)
    (hUnused : ∀ client ∈ p.closed, p.Unused uses client →
      p.TimedOut settings ∨ p'.Unused uses client) : p'.Sound settings uses where
  unused client hMem := by
    rw [hClosed] at hMem
    have hLate : p.TimedOut settings → p'.TimedOut settings := fun hOut =>
      hOut.mono (by rw [hPhase]) hClock.ge
    rcases h.unused client hMem with hOut | hNone
    · exact .inl (hLate hOut)
    · exact (hUnused client hMem hNone).imp hLate id
  inTime since hSince hOpen := by
    rw [hPhase] at hSince hOpen
    rw [hClock]
    exact h.inTime since hSince hOpen
  noneClosed hServing := by
    rw [hClosed]
    exact h.noneClosed (hPhase ▸ hServing)

omit [DecidableEq Key] in
/-- Calling the next stopper, and closing the server after the last one. -/
theorem sound_callNext {since : Nat} {rest : List Stopper}
    (hUnused : ∀ client ∈ p.closed, since + settings.timeoutMs ≤ p.clock ∨ p.Unused uses client)
    (hNext : ∀ client, rest.head?.bind Stopper.client = some client →
      since + settings.timeoutMs ≤ p.clock ∨ p.Unused uses client)
    (hTime : p.clock ≤ since + settings.timeoutMs) :
    (p.callNext since rest).Sound settings uses := by
  cases rest with
  | nil =>
      refine ⟨fun client hMem => ?_, fun since' hSince _ => ?_, nofun⟩
      · exact (hUnused client hMem).imp (fun hLate => ⟨since, rfl, hLate⟩) id
      · cases hSince
        exact hTime
  | cons stopper rest =>
      refine ⟨fun client hMem => ?_, fun since' hSince _ => ?_, nofun⟩
      · have hHere : since + settings.timeoutMs ≤ p.clock ∨ p.Unused uses client := by
          rcases List.mem_append.mp hMem with hNew | hOld
          · exact hNext client (by simpa using hNew)
          · exact hUnused client hOld
        exact hHere.imp (fun hLate => ⟨since, rfl, hLate⟩) id
      · cases hSince
        exact hTime

/-- A request that comes in orderly leaves the closed clients to nobody. -/
theorem Sound.request {r : Request} {m : Machine Key Call Ans Err Out World} {connections : List Nat}
    (h : p.Sound settings uses) (hOrderly : p.Orderly settings uses sys (.request r : Event Reply Request))
    (hSpawn : sys.step p.machine (.spawn r) = some m) :
    Sound settings uses { p with machine := m, connections } := by
  cases hSpawn
  refine h.keep rfl rfl rfl fun client hMem hUnused => ?_
  refine (hOrderly client hMem).imp id fun hEntry t hTask => ?_
  rcases List.mem_append.mp hTask with hOld | hNew
  · exact hUnused t hOld
  · rw [List.mem_singleton.mp hNew]
    exact callsLater_of_calls hEntry

omit [DecidableEq Key] in
/-- Time passes up to the timeout. -/
theorem Sound.tick (h : p.Sound settings uses)
    (hOrderly : p.Orderly settings uses sys (.tick : Event Reply Request)) (hIdle : p.idle settings = true) :
    Sound settings uses { p with clock := p.clock + 1 } := by
  refine ⟨fun client hMem => ?_, fun since hSince hOpen => ?_, h.noneClosed⟩
  · exact (h.unused client hMem).imp (fun hOut => hOut.mono rfl (Nat.le_succ _)) id
  · show p.clock + 1 ≤ since + settings.timeoutMs
    cases hPhase : p.phase with
    | serving => simp [hPhase, Phase.since] at hSince
    | stopping since' running rest =>
        simp only [Orderly, hPhase] at hOrderly
        simp only [hPhase, Phase.since, Option.some.injEq] at hSince
        omega
    | draining since' closedAt =>
        simp only [Orderly, hPhase] at hOrderly
        simp only [hPhase, Phase.since, Option.some.injEq] at hSince
        simp only [idle, hPhase, Bool.and_eq_true, decide_eq_true_eq] at hIdle
        omega
    | settled since' result => simp [hPhase, Phase.isSettled] at hOpen

omit [DecidableEq Key] in
/-- The next stopper is called when the running one has settled. -/
theorem Sound.stopped (h : p.Sound settings uses)
    (hOrderly : p.Orderly settings uses sys (.stopped : Event Reply Request)) {since : Nat}
    {running : Stopper} {rest : List Stopper} (hPhase : p.phase = .stopping since running rest) :
    (p.callNext since rest).Sound settings uses := by
  have hLate : p.TimedOut settings → since + settings.timeoutMs ≤ p.clock := by
    intro hOut
    obtain ⟨since', hSince, hPassed⟩ := hOut
    simp only [hPhase, Phase.since, Option.some.injEq] at hSince
    omega
  apply sound_callNext
  · exact fun client hMem => (h.unused client hMem).imp hLate id
  · intro client hNext
    exact (hOrderly client (by rw [hPhase]; exact hNext)).imp hLate id
  · exact h.inTime since (by rw [hPhase]; rfl) (by rw [hPhase]; rfl)

omit [DecidableEq Key] in
/-- `shutdown` settles. -/
theorem Sound.settles (h : p.Sound settings uses) {since closedAt : Nat} {result : ShutdownResult}
    {connections : List Nat} (hPhase : p.phase = .draining since closedAt) :
    Sound settings uses { p with connections, phase := .settled since result } := by
  refine ⟨fun client hMem => ?_, fun _ _ hOpen => (by cases hOpen), nofun⟩
  exact (h.unused client hMem).imp (fun hOut => hOut.mono (by rw [hPhase]; rfl) (Nat.le_refl _)) id

theorem Sound.step (h : p.Sound settings uses) (hOrderly : p.Orderly settings uses sys event)
    (hStep : p.step settings sys event = some p') : p'.Sound settings uses := by
  cases event with
  | request r =>
      simp only [Process.step] at hStep
      split at hStep
      · obtain ⟨m, hSpawn, rfl⟩ := Option.map_eq_some_iff.mp hStep
        exact h.request hOrderly hSpawn
      · cases hStep
  | resume i reply =>
      simp only [Process.step] at hStep
      split at hStep
      · cases hStep
      · obtain ⟨m, hTask, rfl⟩ := Option.map_eq_some_iff.mp hStep
        exact h.keep rfl rfl rfl fun client _ hUnused => .inr (unused_of_step hUnused hTask).1
  | hangUp i =>
      cases hStep
      exact h.keep rfl rfl rfl fun client _ hUnused => .inr hUnused
  | tick =>
      simp only [Process.step] at hStep
      split at hStep
      · next hIdle =>
          cases hStep
          exact h.tick hOrderly hIdle
      · cases hStep
  | signal =>
      simp only [Process.step] at hStep
      split at hStep
      · next hServing =>
          cases hStep
          apply sound_callNext
          · intro client hMem
            rw [h.noneClosed hServing] at hMem
            cases hMem
          · intro client hFirst
            cases hFirst
          · exact Nat.le_add_right _ _
      · cases hStep
        exact h
  | stopped =>
      simp only [Process.step] at hStep
      split at hStep
      · next hPhase =>
          cases hStep
          exact h.stopped hOrderly hPhase
      · cases hStep
  | serverClosed =>
      simp only [Process.step] at hStep
      split at hStep
      · next hPhase =>
          split at hStep
          · cases hStep
            exact h.settles hPhase
          · cases hStep
      · cases hStep
  | timer =>
      simp only [Process.step] at hStep
      split at hStep
      · next hPhase =>
          split at hStep
          · cases hStep
            exact h.settles hPhase
          · cases hStep
      · cases hStep

theorem sound_of_reaches {machine : Machine Key Call Ans Err Out World} {connections : List Nat}
    {clock : Nat} (hRun : Reaches settings sys (fun p event => p.Orderly settings uses sys event)
      (serving machine connections clock) p) : p.Sound settings uses := by
  induction hRun with
  | refl => exact ⟨nofun, nofun, fun _ => rfl⟩
  | tail _ last ih =>
      obtain ⟨event, hOrderly, hStep⟩ := last
      exact ih.step hOrderly hStep

/-- A call that a handler makes uses a closed client only when the timeout has passed. -/
theorem Sound.timedOut (h : p.Sound settings uses) (hOrderly : p.Orderly settings uses sys event)
    (hStep : p.step settings sys event = some p') {i : Nat} {c : Call} {client : Client}
    (hActs : p.acting event = some i) (hCall : p'.machine.nextCall i = some c)
    (hUses : uses c = some client) (hClosed : client ∈ p.closed) : p.TimedOut settings := by
  obtain ⟨t, ht, hProg⟩ := Option.bind_eq_some_iff.mp hCall
  have hNever : ¬t.prog.Calls fun c => uses c ≠ some client := by
    intro hCalls
    cases hp : t.prog with
    | call c' next =>
        rw [hp] at hProg hCalls
        cases hProg
        exact hCalls.1 hUses
    | _ =>
        rw [hp] at hProg
        cases hProg
  cases event with
  | request r =>
      cases hActs
      simp only [Process.step] at hStep
      split at hStep
      · obtain ⟨m, hSpawn, rfl⟩ := Option.map_eq_some_iff.mp hStep
        cases hSpawn
        obtain rfl : (⟨sys.entry r, none⟩ : Task Key Call Ans Err Out) = t := by simpa using ht
        exact (hOrderly client hClosed).resolve_right hNever
      · cases hStep
  | resume j reply =>
      cases hActs
      simp only [Process.step] at hStep
      split at hStep
      · cases hStep
      · obtain ⟨m, hTask, rfl⟩ := Option.map_eq_some_iff.mp hStep
        rcases h.unused client hClosed with hOut | hUnused
        · exact hOut
        · exact absurd ((unused_of_step hUnused hTask).2 t ht) hNever
  | _ => cases hActs

end step

/-- In an orderly run no handler uses a client after its closer was called unless the
timeout has passed, and `shutdown` has settled when it has. -/
theorem drains_in_orderly_runs (settings : Settings) (uses : Call → Option Client)
    (sys : System Key Call Ans Err Out World Reply Request)
    (machine : Machine Key Call Ans Err Out World) (connections : List Nat) (clock : Nat)
    {p : Process Key Call Ans Err Out World}
    (hRun : Reaches settings sys (fun p event => p.Orderly settings uses sys event)
      (serving machine connections clock) p) :
    (∀ event p' i c client, p.Orderly settings uses sys event →
      p.step settings sys event = some p' → p.acting event = some i →
      p'.machine.nextCall i = some c → uses c = some client → client ∈ p.closed →
      p.TimedOut settings) ∧
    ∀ since, p.phase.since = some since → since + settings.timeoutMs < p.clock →
      p.phase.isSettled = true := by
  have hSound := sound_of_reaches hRun
  constructor
  · intro event p' i c client hOrderly hStep hActs hCall hUses hClosed
    exact hSound.timedOut hOrderly hStep hActs hCall hUses hClosed
  · intro since hSince hPassed
    cases hOpen : p.phase.isSettled with
    | true => rfl
    | false =>
        have hInTime := hSound.inTime since hSince hOpen
        omega

/-- Requests come in before a client is closed or after the timeout, and none is in flight
when a client is closed. -/
def calm (settings : Settings) (p : Process Key Call Ans Err Out World) :
    Event Reply Request → Bool
  | .request _ => p.closed.isEmpty ||
      p.phase.since.any fun since => since + settings.timeoutMs ≤ p.clock
  | .stopped => p.phase.nextCloser.isNone || p.machine.settled
  | .tick => match p.phase with
      | .stopping since _ _ => p.clock < since + settings.timeoutMs
      | .draining since closedAt => closedAt = since || p.clock < since + settings.timeoutMs
      | _ => true
  | _ => true

omit [DecidableEq Key] in
theorem orderly_of_calm {settings : Settings} {uses : Call → Option Client}
    {sys : System Key Call Ans Err Out World Reply Request}
    {p : Process Key Call Ans Err Out World} {event : Event Reply Request}
    (h : p.calm settings event = true) : p.Orderly settings uses sys event := by
  cases event with
  | request r =>
      intro client hClosed
      rw [calm, Bool.or_eq_true, List.isEmpty_iff, Option.any_eq_true] at h
      cases h with
      | inl hNone =>
          rw [hNone] at hClosed
          cases hClosed
      | inr hLate =>
          obtain ⟨since, hSince, hPassed⟩ := hLate
          exact .inl ⟨since, hSince, of_decide_eq_true hPassed⟩
  | stopped =>
      intro client hNext
      simp only [calm, hNext, Option.isNone_some, Bool.false_or] at h
      refine .inr fun t hMem => ?_
      obtain ⟨result, hRet⟩ := Machine.ret_of_settled h hMem
      rw [hRet]
      trivial
  | tick =>
      cases hPhase : p.phase with
      | stopping since running rest =>
          simp only [calm, hPhase, decide_eq_true_eq] at h
          simpa only [Orderly, hPhase] using h
      | draining since closedAt =>
          simp only [calm, hPhase, Bool.or_eq_true, decide_eq_true_eq] at h
          simpa only [Orderly, hPhase] using h
      | _ => simp [Orderly, hPhase]
  | _ => trivial

/-- While a closer does not settle, any time may pass. -/
theorem reaches_later {settings : Settings} {sys : System Key Call Ans Err Out World Reply Request}
    {p : Process Key Call Ans Err Out World} {since : Nat} {client : Client} {rest : List Stopper}
    (hPhase : p.phase = .stopping since (.closer client) rest) (ms : Nat) :
    Reaches settings sys (fun _ _ => True) p { p with clock := p.clock + ms } := by
  induction ms with
  | zero => exact .refl
  | succ ms ih =>
      apply ih.tail
      refine ⟨.tick, trivial, ?_⟩
      simp [Process.step, idle, hPhase, Stopper.client, Nat.add_assoc]

end Process
end general

namespace Sample

/-- A deployment on PostgreSQL. -/
def postgres (timeoutMs : Nat) : Settings where
  timeoutMs := timeoutMs
  databaseUrl := true
  redisUrl := false

/-- The statements of the repositories are made on the database. -/
def statements (c : VpnPayment.Call) : Option Client :=
  if c.reachesStore then some .database else none

abbrev shop := singleInstance (VpnPayment.Sample.deps .sql)

/-- The shop has one pending order, and no request is in flight. -/
def opened : Process String VpnPayment.Call VpnPayment.Ans AppError Outcome World :=
  .serving (Deployment.start (VpnPayment.Sample.storeOf VpnPayment.Sample.order) 0) [] 0

def resumes (count : Nat) : List (Event VpnPayment.Reply (Unit × VpnPayment.Request)) :=
  List.replicate count (.resume 0 .normal)

/-- The provider reports the payment. -/
def notified : List (Event VpnPayment.Reply (Unit × VpnPayment.Request)) :=
  [.request ((), .handleCallback .alipay ⟨"", []⟩),
    .resume 0 (.callback VpnPayment.Sample.callback)]

/-- The signal arrives, and the watchers are stopped. The database is closed next. -/
def signalled : List (Event VpnPayment.Reply (Unit × VpnPayment.Request)) :=
  .signal :: List.replicate 6 .stopped

/-- The user's app asks for the order. -/
def polled : Event VpnPayment.Reply (Unit × VpnPayment.Request) :=
  .request ((), .syncOrder "o1")

abbrev Shop := Process String VpnPayment.Call VpnPayment.Ans AppError Outcome World

/-- Orderly runs of the shop with a timeout of two milliseconds. -/
def DrainsTo (start finish : Shop) : Prop :=
  Process.Reaches (postgres 2) shop
    (fun p event => p.Orderly (postgres 2) statements shop event) start finish

def follow (start : Shop) (events : List (Event VpnPayment.Reply (Unit × VpnPayment.Request))) :
    Option Shop :=
  start.run (postgres 2) shop (Process.calm (postgres 2)) events

end Sample

open Process

/-- The signal arrives while a payment is written. The database is closed once the time is
granted. A request on the connection that is still open comes to the closed database after
the timeout, and then `shutdown` has settled. -/
theorem drains_in_orderly_runs_sample :
    ∃ q p p' r : Sample.Shop,
      Sample.DrainsTo Sample.opened q ∧ q.phase.since = some 0 ∧
      (q.machine.nextCall 0).bind Sample.statements = some .database ∧ q.closed = [] ∧
      Sample.DrainsTo q p ∧ p.closed = [.database] ∧ p.machine.world.grants "o1" = 1 ∧
      p.step (Sample.postgres 2) Sample.shop Sample.polled = some p' ∧
      (p'.machine.nextCall 1).bind Sample.statements = some .database ∧
      p.TimedOut (Sample.postgres 2) ∧
      Sample.DrainsTo p' r ∧ r.phase.isSettled = true := by
  have hCheck : ((Sample.follow Sample.opened
      (List.flatten [Sample.notified, Sample.resumes 5, [.signal]])).any fun q =>
      q.phase.since = some 0 && (q.machine.nextCall 0).bind Sample.statements = some .database &&
      q.closed = [] && (Sample.follow q (List.flatten [List.replicate 5 .stopped, Sample.resumes 3,
        [.resume 0 (.text "s1")], Sample.resumes 3, [.stopped, .stopped, .tick, .tick]])).any
      fun p => p.closed = [.database] && p.machine.world.grants "o1" = 1 &&
        calm (Sample.postgres 2) p Sample.polled &&
        (p.step (Sample.postgres 2) Sample.shop Sample.polled).any fun p' =>
          p.acting Sample.polled = some 1 &&
          (p'.machine.nextCall 1).bind Sample.statements = some .database &&
          (Sample.follow p' [.timer, .tick]).any fun r =>
            r.phase.since = some 0 && 2 < r.clock) = true := by decide +kernel
  simp only [Bool.and_eq_true, decide_eq_true_eq, Option.any_eq_true] at hCheck
  obtain ⟨q, hq, ⟨⟨hSignal, hWaits⟩, hOpen⟩, p, hp, ⟨⟨hClosed, hGranted⟩, hCalm⟩, p', hStep,
    ⟨hActs, hUses⟩, r, hr, hSince, hLate⟩ := hCheck
  have hDrains : ∀ {start finish events}, Sample.follow start events = some finish →
      Sample.DrainsTo start finish :=
    fun h => (reaches_of_run h).mono fun _ _ hCalm => orderly_of_calm hCalm
  have hReached := (hDrains hq).trans (hDrains hp)
  have hFinished := (hReached.tail ⟨_, orderly_of_calm hCalm, hStep⟩).trans (hDrains hr)
  obtain ⟨c, hCall, hUse⟩ := Option.bind_eq_some_iff.mp hUses
  have hOut : p.TimedOut (Sample.postgres 2) :=
    (drains_in_orderly_runs (Sample.postgres 2) Sample.statements Sample.shop _ _ _ hReached).1
      Sample.polled p' 1 c .database (orderly_of_calm hCalm) hStep hActs hCall hUse
      (hClosed ▸ List.mem_cons_self)
  exact ⟨q, p, p', r, hDrains hq, hSignal, hWaits, hOpen, hDrains hp, hClosed, hGranted, hStep,
    hUses, hOut, hDrains hr, (drains_in_orderly_runs (Sample.postgres 2) Sample.statements
      Sample.shop _ _ _ hFinished).2 0 hSince hLate⟩

/-- The signal arrives while a payment is written. The database is closed before the time is
granted, and the handler still calls it. A closer that does not settle keeps `shutdown`
waiting for as long as one likes. -/
theorem closed_under_a_payment :
    (∃ p p' : Process String VpnPayment.Call VpnPayment.Ans AppError Outcome World, ∃ c,
      Reaches (Sample.postgres 10000) Sample.shop (fun _ _ => True) Sample.opened p ∧
      p.step (Sample.postgres 10000) Sample.shop (.resume 0 .normal) = some p' ∧
      p'.machine.nextCall 0 = some c ∧ Sample.statements c = some .database ∧
      .database ∈ p.closed ∧ ¬p.TimedOut (Sample.postgres 10000) ∧
      (p'.machine.world.order "o1").map Order.status = some .PAID ∧
      p'.machine.world.grants "o1" = 0) ∧
    ∃ p : Process String VpnPayment.Call VpnPayment.Ans AppError Outcome World, ∃ since,
      Reaches (Sample.postgres 10000) Sample.shop (fun _ _ => True) Sample.opened p ∧
      p.phase.since = some since ∧ since + 10000 < p.clock ∧ p.phase.isSettled = false := by
  constructor
  · have hCheck : ((Sample.opened.run (Sample.postgres 10000) Sample.shop (fun _ _ => true)
        (Sample.notified ++ Sample.resumes 5 ++ Sample.signalled ++ Sample.resumes 1)).any fun p =>
        p.closed = [.database] && p.phase.since = some 0 && p.clock = 0 &&
        (p.step (Sample.postgres 10000) Sample.shop (.resume 0 .normal)).any fun p' =>
          ((p'.machine.nextCall 0).bind Sample.statements) = some .database &&
          (p'.machine.world.order "o1").map Order.status = some .PAID &&
          p'.machine.world.grants "o1" = 0) = true := by decide +kernel
    obtain ⟨p, hRun, hReached⟩ := (Option.any_eq_true _ _).mp hCheck
    simp only [Bool.and_eq_true, decide_eq_true_eq, Option.any_eq_true] at hReached
    obtain ⟨⟨⟨hClosed, hSince⟩, hClock⟩, p', hStep, ⟨hUses, hPaid⟩, hNone⟩ := hReached
    obtain ⟨c, hCall, hUse⟩ := Option.bind_eq_some_iff.mp hUses
    refine ⟨p, p', c, (reaches_of_run hRun).mono fun _ _ _ => trivial, hStep, hCall, hUse,
      by rw [hClosed]; exact List.mem_cons_self, ?_, hPaid, hNone⟩
    intro hOut
    obtain ⟨since, hCalled, hPassed⟩ := hOut
    rw [hSince] at hCalled
    cases hCalled
    rw [hClock] at hPassed
    exact absurd hPassed (by decide)
  · have hCheck : ((Sample.opened.run (Sample.postgres 10000) Sample.shop (fun _ _ => true)
        Sample.signalled).any fun p =>
        p.phase = .stopping 0 (.closer .database) [] && p.clock = 0) = true := by decide +kernel
    obtain ⟨p, hRun, hReached⟩ := (Option.any_eq_true _ _).mp hCheck
    simp only [Bool.and_eq_true, decide_eq_true_eq] at hReached
    obtain ⟨hPhase, hClock⟩ := hReached
    have hPrior := (reaches_of_run hRun).mono fun _ _ _ => trivial
    refine ⟨{ p with clock := p.clock + 10001 }, 0, hPrior.trans (reaches_later hPhase 10001), ?_, ?_, ?_⟩
    · rw [hPhase]
      rfl
    · show 0 + 10000 < p.clock + 10001
      omega
    · rw [hPhase]
      rfl

end VpnPayment.Lifecycle
