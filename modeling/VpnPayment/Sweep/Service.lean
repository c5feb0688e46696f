import VpnPayment.Services.World
import VpnPayment.Sweep.Jobs

/-! `SweepService`. A job object is changed in place before the calls that may
throw, and the error handler stores the same object. A step therefore answers
the object as it stands when the step ends, with what the step threw. -/
namespace VpnPayment

open Async Collections
open Prog (perform)

/-- Tunables for the sweep pipeline. -/
structure SweepPolicy where
  collectionAddress : String
  minSweepMicro : Int
  gasTopupSun : Int
  gasMinSun : Int
  maxAttempts : Nat
  backoffMs : Int

structure SweepDeps where
  backend : Backend
  policy : SweepPolicy
  audit : Bool

/-- The methods of the service that call the repository. -/
inductive SweepMethod
  | enqueue
  | retry
  | processDue
deriving DecidableEq

/-- What the service awaits. The method that makes a repository call and the job
that a transaction is for are named for the bookkeeping; the repository and the
treasury are not told. `tick` is time passing or a transaction seen to fail. -/
inductive SweepCall
  | create (job : SweepJob)
  | update (caller : SweepMethod) (job : SweepJob)
  | findByOrderId (caller : SweepMethod) (orderId : String)
  | due (now : Int) (limit : Nat)
  | trc20BalanceMicro (address : String)
  | trxBalanceSun (address : String)
  | fuelGas (forJob : String) (toAddress : String) (amountSun : Int)
  | sweepTrc20 (forJob : String) (depositIndex : Nat) (fromAddress toAddress : String)
      (amountMicro : Int)
  | isConfirmed (txId : String)
  | auditRecord (input : AuditInput)
  | now
  | uuid
  | tick
deriving DecidableEq

abbrev SweepAns : SweepCall → Type
  | .create _ => SweepJob
  | .update _ _ => SweepJob
  | .findByOrderId _ _ => Option SweepJob
  | .due _ _ => List SweepJob
  | .trc20BalanceMicro _ => Int
  | .trxBalanceSun _ => Int
  | .fuelGas _ _ _ => String
  | .sweepTrc20 _ _ _ _ _ => String
  | .isConfirmed _ => Bool
  | .now => Int
  | .uuid => String
  | _ => Unit

/-- What the environment decides about one call. -/
inductive SweepReply
  | normal
  | throws (applied : Bool) (e : AppError)
  | balance (n : Int)
  | txId (s : String)
  | confirmed (yes : Bool)
  | text (s : String)
  | time (t : Int)
  | seenToFail (txId : String)

/-- One settled call. -/
structure SweepEvent where
  task : Nat
  call : SweepCall
  answer : Except AppError (SweepAns call)
  applied : Bool

/-- The stored jobs and the clock, the identifiers handed out so far, each with
the task that drew it, the transactions seen to have failed on chain, and the
calls settled so far, newest first. -/
structure SweepWorld where
  jobs : SweepJobStore
  clock : Int
  issued : List (Nat × String)
  failed : List String
  trace : List SweepEvent

namespace SweepWorld

def start (jobs : SweepJobStore) (clock : Int) : SweepWorld :=
  ⟨jobs, clock, [], [], []⟩

def log (w : SweepWorld) (event : SweepEvent) : SweepWorld :=
  { w with trace := event :: w.trace }

def job (w : SweepWorld) (id : String) : Option SweepJob :=
  w.jobs.byId.get? id

theorem job_id {w : SweepWorld} {id : String} {row : SweepJob} (h : w.job id = some row) :
    row.id = id :=
  Table.key_of_get? h

/-- `randomUUID` never answers the empty text, or an identifier that is in use or
was drawn before. -/
def Unused (w : SweepWorld) (id : String) : Prop :=
  id ≠ "" ∧ (∀ entry ∈ w.issued, entry.2 ≠ id) ∧ w.job id = none

instance (w : SweepWorld) (id : String) : Decidable (w.Unused id) :=
  inferInstanceAs (Decidable (_ ∧ _ ∧ _))

end SweepWorld

/-- The effect of a repository call on the stored jobs. -/
def jobsEffect (b : Backend) : (c : SweepCall) →
    Option (SweepJobStore → Except AppError (SweepAns c × SweepJobStore))
  | .create job => some fun s => (s.create b job).map fun t => (job, t)
  | .update _ job => some fun s => (s.update b job).map fun t => (job, t)
  | .findByOrderId _ orderId => some fun s => .ok (s.findByOrderId b orderId, s)
  | .due now limit => some fun s => .ok (s.due b now limit, s)
  | _ => none

/-- What a call outside the repository answers, if the reply fits it. A
transaction id is never empty. -/
def treasuryAnswer (w : SweepWorld) : (c : SweepCall) → SweepReply → Option (SweepAns c)
  | .trc20BalanceMicro _, .balance n => some n
  | .trxBalanceSun _, .balance n => some n
  | .fuelGas _ _ _, .txId s => if s = "" then none else some s
  | .sweepTrc20 _ _ _ _ _, .txId s => if s = "" then none else some s
  | .isConfirmed _, .confirmed yes => some yes
  | .auditRecord _, .normal => some ()
  | .now, .normal => some w.clock
  | .uuid, .text s => if w.Unused s then some s else none
  | .tick, .time _ => some ()
  | .tick, .seenToFail _ => some ()
  | _, _ => none

/-- Reading the clock and drawing identifiers cannot fail. -/
def SweepCall.mayThrow : SweepCall → Bool
  | .now | .uuid | .tick => false
  | _ => true

/-- The bookkeeping of the clock, of the identifiers in use and of the failures
seen on chain. -/
def SweepWorld.noted (i : Nat) (w : SweepWorld) : SweepCall → SweepReply → SweepWorld
  | .uuid, .text s => { w with issued := (i, s) :: w.issued }
  | .tick, .time t => { w with clock := t }
  | .tick, .seenToFail txId => { w with failed := txId :: w.failed }
  | _, _ => w

/-- Settle one call of task `i`. -/
def sweepExec (b : Backend) (i : Nat) (c : SweepCall) (reply : SweepReply) (w : SweepWorld) :
    Option (Except AppError (SweepAns c) × SweepWorld) :=
  match jobsEffect b c with
  | some effect =>
      match reply with
      | .normal => match effect w.jobs with
          | .ok (a, s) => some (.ok a, { w with jobs := s }.log ⟨i, c, .ok a, true⟩)
          | .error e => some (.error e, w.log ⟨i, c, .error e, false⟩)
      | .throws false e => some (.error e, w.log ⟨i, c, .error e, false⟩)
      | .throws true e => match effect w.jobs with
          | .ok (_, s) => some (.error e, { w with jobs := s }.log ⟨i, c, .error e, true⟩)
          | .error _ => none
      | _ => none
  | none =>
      match reply with
      | .throws _ e =>
          if c.mayThrow then some (.error e, w.log ⟨i, c, .error e, false⟩) else none
      | _ => (treasuryAnswer w c reply).map fun a =>
          (.ok a, (w.noted i c reply).log ⟨i, c, .ok a, false⟩)

section exec

variable {b : Backend} {i : Nat} {c : SweepCall} {reply : SweepReply} {w w' : SweepWorld}
  {answer : Except AppError (SweepAns c)}

/-- A repository call takes its effect or leaves the jobs alone. -/
theorem sweepExec_store {effect : SweepJobStore → Except AppError (SweepAns c × SweepJobStore)}
    (h : sweepExec b i c reply w = some (answer, w')) (hEffect : jobsEffect b c = some effect) :
    (∃ e, answer = .error e ∧ w' = w.log ⟨i, c, .error e, false⟩ ∧
      (effect w.jobs = .error e ∨ reply ≠ .normal)) ∨
    (∃ a s, effect w.jobs = .ok (a, s) ∧ w' = { w with jobs := s }.log ⟨i, c, answer, true⟩ ∧
      (answer = .ok a ∨ (∃ e, answer = .error e) ∧ reply ≠ .normal)) := by
  simp only [sweepExec, hEffect] at h
  split at h
  · split at h
    · next a s hOk =>
        cases h
        exact .inr ⟨a, s, hOk, rfl, .inl rfl⟩
    · next e hError =>
        cases h
        exact .inl ⟨e, rfl, rfl, .inl hError⟩
  · cases h
    exact .inl ⟨_, rfl, rfl, .inr nofun⟩
  · split at h
    · next a s hOk =>
        cases h
        exact .inr ⟨a, s, hOk, rfl, .inr ⟨⟨_, rfl⟩, nofun⟩⟩
    · cases h
  · cases h

/-- A call outside the repository leaves the jobs alone. -/
theorem sweepExec_outside (h : sweepExec b i c reply w = some (answer, w'))
    (hEffect : jobsEffect b c = none) :
    (∃ e, answer = .error e ∧ w' = w.log ⟨i, c, .error e, false⟩ ∧ c.mayThrow = true) ∨
    (∃ a, treasuryAnswer w c reply = some a ∧ answer = .ok a ∧
      w' = (w.noted i c reply).log ⟨i, c, .ok a, false⟩) := by
  simp only [sweepExec, hEffect] at h
  split at h
  · split at h
    · next hMay =>
        cases h
        exact .inl ⟨_, rfl, rfl, hMay⟩
    · cases h
  · obtain ⟨a, hAnswer, hEq⟩ := Option.map_eq_some_iff.mp h
    cases hEq
    exact .inr ⟨a, hAnswer, rfl, rfl⟩

@[simp] theorem SweepWorld.noted_jobs : (w.noted i c reply).jobs = w.jobs := by
  unfold noted
  split <;> rfl

@[simp] theorem SweepWorld.noted_trace : (w.noted i c reply).trace = w.trace := by
  unfold noted
  split <;> rfl

theorem SweepWorld.mem_noted_failed {txId : String} (h : txId ∈ w.failed) :
    txId ∈ (w.noted i c reply).failed := by
  unfold noted
  split
  · exact h
  · exact h
  · exact List.mem_cons_of_mem _ h
  · exact h

/-- Only drawing an identifier adds to the identifiers drawn. -/
theorem SweepWorld.noted_issued (h : treasuryAnswer w c reply = some a) :
    (w.noted i c reply).issued = w.issued ∨
      ∃ s, w.Unused s ∧ (w.noted i c reply).issued = (i, s) :: w.issued := by
  unfold noted
  split
  · next s =>
      refine .inr ⟨s, ?_, rfl⟩
      simp only [treasuryAnswer, Option.ite_none_right_eq_some] at h
      exact h.1
  · exact .inl rfl
  · exact .inl rfl
  · exact .inl rfl

end exec

/-- An asynchronous method of the service. It takes no locks. -/
abbrev SweepAction (α : Type) := Prog Unit SweepCall SweepAns AppError α

/-- A job object as a step leaves it, with what the step threw. -/
abbrev Stepped := SweepJob × Option AppError

namespace SweepService

/-- Await a call in the middle of a step. A step that throws leaves `job` behind. -/
def attempt (c : SweepCall) (job : SweepJob) (next : SweepAns c → SweepAction Stepped) :
    SweepAction Stepped :=
  .call c fun
    | .ok answer => next answer
    | .error e => pure (job, some e)

/-- Store the job object, as the last thing a step does. -/
def store (job : SweepJob) : SweepAction Stepped :=
  attempt (.update .processDue job) job fun _ => pure (job, none)

variable (deps : SweepDeps)

/-- Move to a new status, clearing the error state. `job` has the caller's patch. -/
def advance (job : SweepJob) (status : SweepStatus) : SweepAction Stepped :=
  attempt .now job fun (now : Int) => store { job with
    status, attempts := 0, lastError := none, updatedAt := now
    nextAttemptAt := now + deps.policy.backoffMs }

/-- Keep the current status but poll again later. -/
def defer (job : SweepJob) : SweepAction Stepped :=
  attempt .now job fun (now : Int) => store { job with
    updatedAt := now, nextAttemptAt := now + deps.policy.backoffMs }

/-- Reach a terminal status. `job` has the caller's patch. -/
def finish (job : SweepJob) (status : SweepStatus) : SweepAction Stepped :=
  attempt .now job fun (now : Int) => store { job with
    status, updatedAt := now, nextAttemptAt := now }

/-- Broadcast the transfer of the deposit. -/
def transfer (job : SweepJob) : SweepAction Stepped :=
  attempt (.sweepTrc20 job.id job.depositIndex job.depositAddress job.collectionAddress
    job.amountMicro) job fun (sweepTxId : String) =>
      advance deps { job with sweepTxId := some sweepTxId } .SWEEPING

/-- Inspect the deposit, then either fuel gas or sweep directly. -/
def stepPending (job : SweepJob) : SweepAction Stepped :=
  attempt (.trc20BalanceMicro job.depositAddress) job fun (balance : Int) =>
    if balance < deps.policy.minSweepMicro then
      finish { job with amountMicro := balance } .EMPTY
    else
      let job := { job with amountMicro := balance }
      attempt (.trxBalanceSun job.depositAddress) job fun (trx : Int) =>
        if trx < deps.policy.gasMinSun then
          attempt (.fuelGas job.id job.depositAddress deps.policy.gasTopupSun) job
            fun (gasTxId : String) =>
              advance deps { job with gasTxId := some gasTxId } .GAS_FUELING
        else transfer deps job

/-- Wait for gas to confirm, then broadcast the TRC20 sweep. -/
def stepGasFueling (job : SweepJob) : SweepAction Stepped :=
  match truthy job.gasTxId with
  | none => defer deps job
  | some gasTxId => attempt (.isConfirmed gasTxId) job fun (confirmed : Bool) =>
      if confirmed then transfer deps job else defer deps job

/-- The audit record of a collected deposit. -/
def sweptRecord (job : SweepJob) (sweepTxId : String) : AuditInput where
  action := "usdt.swept"
  actor := none
  subjectId := some job.orderId
  metadata := [("amountMicro", .number (.ofInt job.amountMicro)),
    ("depositAddress", .text job.depositAddress),
    ("collectionAddress", .text job.collectionAddress), ("sweepTxId", .text sweepTxId)]

/-- Wait for the sweep to confirm, then mark the job collected. -/
def stepSweeping (job : SweepJob) : SweepAction Stepped :=
  match truthy job.sweepTxId with
  | none => defer deps job
  | some sweepTxId => attempt (.isConfirmed sweepTxId) job fun (confirmed : Bool) =>
      if confirmed then
        if deps.audit then
          attempt (.auditRecord (sweptRecord job sweepTxId)) job fun _ => finish job .SWEPT
        else finish job .SWEPT
      else defer deps job

/-- Advance a single job by one state transition. -/
def step (job : SweepJob) : SweepAction Stepped :=
  match job.status with
  | .PENDING => stepPending deps job
  | .GAS_FUELING => stepGasFueling deps job
  | .SWEEPING => stepSweeping deps job
  | _ => pure (job, none)

/-- The job object with a processing error recorded. -/
def withError (job : SweepJob) (message : String) (now : Int) : SweepJob :=
  if deps.policy.maxAttempts ≤ job.attempts + 1 then
    { job with
      attempts := job.attempts + 1, lastError := some message, updatedAt := now
      status := .FAILED, nextAttemptAt := now }
  else
    { job with
      attempts := job.attempts + 1, lastError := some message, updatedAt := now
      nextAttemptAt := now + deps.policy.backoffMs * ((job.attempts + 1 : Nat) : Int) }

/-- Record a processing error, backing off and failing after `maxAttempts`. -/
def onError (job : SweepJob) (err : AppError) : SweepAction Unit := do
  let now ← perform SweepCall.now
  let _ ← perform (SweepCall.update .processDue (withError deps job err.message now))
  pure ()

/-- The body of the loop of `processDue`. -/
def process (job : SweepJob) : SweepAction Unit := do
  let stepped ← step deps job
  match stepped.2 with
  | none => pure ()
  | some err => onError deps stepped.1 err

/-- The loop of `processDue`. -/
def processEach : List SweepJob → SweepAction Unit
  | [] => pure ()
  | job :: rest => do
      process deps job
      processEach rest

/-- Advance every due job by one step. -/
def processDue (limit : Nat) : SweepAction Nat := do
  let now ← perform SweepCall.now
  let due ← perform (SweepCall.due now limit)
  processEach deps due
  pure due.length

structure EnqueueInput where
  orderId : String
  depositIndex : Nat
  depositAddress : String

def newJob (id : String) (input : EnqueueInput) (now : Int) : SweepJob where
  id := id
  orderId := input.orderId
  depositIndex := input.depositIndex
  depositAddress := input.depositAddress
  collectionAddress := deps.policy.collectionAddress
  amountMicro := 0
  status := .PENDING
  gasTxId := none
  sweepTxId := none
  attempts := 0
  lastError := none
  createdAt := now
  updatedAt := now
  nextAttemptAt := now

/-- Enqueue a sweep for a settled order's deposit. -/
def enqueue (input : EnqueueInput) : SweepAction SweepJob := do
  let existing ← perform (SweepCall.findByOrderId .enqueue input.orderId)
  match existing with
  | some existing => pure existing
  | none => do
      let now ← perform SweepCall.now
      let id ← perform SweepCall.uuid
      perform (SweepCall.create (newJob deps id input now))

/-- The job object put back to the start of the pipeline. -/
def requeued (job : SweepJob) (now : Int) : SweepJob :=
  { job with status := .PENDING, attempts := 0, lastError := none, updatedAt := now
             nextAttemptAt := now }

/-- Requeue a FAILED sweep for another attempt. -/
def retry (orderId : String) : SweepAction (Option SweepJob) := do
  let job ← perform (SweepCall.findByOrderId .retry orderId)
  match job.filter fun job => job.status = .FAILED with
  | none => pure none
  | some job => do
      let now ← perform SweepCall.now
      let saved ← perform (SweepCall.update .retry (requeued job now))
      pure (some saved)

/-- What `retry` does with the job it finds. -/
def requeue (job : SweepJob) : SweepAction (Option SweepJob) := do
  let now ← perform SweepCall.now
  let saved ← perform (SweepCall.update .retry (requeued job now))
  pure (some saved)

theorem retry_eq (orderId : String) : retry orderId = (do
    let found ← perform (SweepCall.findByOrderId .retry orderId)
    match found with
    | some job => if job.status = .FAILED then requeue job else pure none
    | none => pure none) := by
  unfold retry
  congr 1
  funext found
  cases found with
  | none => rfl
  | some job =>
      by_cases hFailed : job.status = .FAILED
      · simp [Option.filter_some, hFailed, requeue]
      · simp [Option.filter_some, hFailed]

end SweepService

/-- What an instance is asked to do, and time passing. -/
inductive SweepRequest
  | enqueue (input : SweepService.EnqueueInput)
  | processDue (limit : Nat)
  | retry (orderId : String)
  | tick

inductive SweepOutcome
  | job (job : Option SweepJob)
  | count (n : Nat)
  | done

/-- Instances that share one sweep-job store. They take no locks, so a task is
all there is of an instance. -/
def sweepSystem (deps : SweepDeps) :
    System Unit SweepCall SweepAns AppError SweepOutcome SweepWorld SweepReply SweepRequest where
  exec := sweepExec deps.backend
  entry
    | .enqueue input => do
        let job ← SweepService.enqueue deps input
        pure (.job (some job))
    | .processDue limit => do
        let count ← SweepService.processDue deps limit
        pure (.count count)
    | .retry orderId => do
        let job ← SweepService.retry orderId
        pure (.job job)
    | .tick => do
        let _ ← perform SweepCall.tick
        pure .done

abbrev Sweeper := Machine Unit SweepCall SweepAns AppError SweepOutcome SweepWorld

abbrev Sweeper.start (jobs : SweepJobStore) (clock : Int) : Sweeper :=
  Machine.start (SweepWorld.start jobs clock)

end VpnPayment
