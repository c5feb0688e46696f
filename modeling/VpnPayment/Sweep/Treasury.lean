import VpnPayment.Async.Sequential
import VpnPayment.Sweep.Overlap

/-! Passes that run one after another with a treasury that answers faithfully. -/
namespace VpnPayment

open Async Collections SweepService
open Prog (perform)

/-- A treasury that answers faithfully: it tells what the addresses hold, and what
it broadcasts confirms at some time. What was broadcast before may never confirm. -/
structure FaithfulTreasury where
  usdt : SweepWorld → String → Int
  trx : SweepWorld → String → Int
  send : SweepWorld → String
  confirmsAt : String → Option Int
  named : ∀ w, send w ≠ ""
  confirms : ∀ w, (confirmsAt (send w)).isSome = true

namespace FaithfulTreasury

variable (treasury : FaithfulTreasury)

def confirmed (w : SweepWorld) (txId : String) : Bool :=
  (treasury.confirmsAt txId).any fun t => t ≤ w.clock

/-- What the environment answers when the treasury is faithful and nothing fails. -/
def reply (w : SweepWorld) : SweepCall → SweepReply
  | .trc20BalanceMicro address => .balance (treasury.usdt w address)
  | .trxBalanceSun address => .balance (treasury.trx w address)
  | .fuelGas _ _ _ | .sweepTrc20 _ _ _ _ _ => .txId (treasury.send w)
  | .isConfirmed txId => .confirmed (treasury.confirmed w txId)
  | _ => .normal

def exec (b : Backend) (i : Nat) : Executor SweepCall SweepAns AppError SweepWorld Unit :=
  fun c _ w => sweepExec b i c (treasury.reply w c) w

end FaithfulTreasury

/-- What an operator can do about the jobs. -/
inductive SweepTurn
  | pass (limit : Nat)
  | retry (orderId : String)
  | wait (until_ : Int)

/-- The turns are taken one after another, from task number `n` on, each to its
end. -/
def FaithfulTreasury.Leads (treasury : FaithfulTreasury) (deps : SweepDeps) :
    Nat → SweepWorld → List SweepTurn → SweepWorld → Prop
  | _, w, [], w' => w' = w
  | n, w, .pass limit :: rest, w' => ∃ result w₁,
      (processDue deps limit).RunsTo (treasury.exec deps.backend n) w result w₁ ∧
        treasury.Leads deps (n + 1) w₁ rest w'
  | n, w, .retry orderId :: rest, w' => ∃ result w₁,
      (retry orderId).RunsTo (treasury.exec deps.backend n) w result w₁ ∧
        treasury.Leads deps (n + 1) w₁ rest w'
  | n, w, .wait t :: rest, w' => w.clock ≤ t ∧ ∃ answer w₁,
      sweepExec deps.backend n .tick (.time t) w = some (answer, w₁) ∧
        treasury.Leads deps (n + 1) w₁ rest w'

/-- Turns after one another lead on from where the first ones end. -/
theorem FaithfulTreasury.leads_append {treasury : FaithfulTreasury} {deps : SweepDeps} {n : Nat}
    {w w₁ w' : SweepWorld} {first second : List SweepTurn}
    (hFirst : treasury.Leads deps n w first w₁)
    (hSecond : treasury.Leads deps (n + first.length) w₁ second w') :
    treasury.Leads deps n w (first ++ second) w' := by
  induction first generalizing n w with
  | nil =>
      obtain rfl : w₁ = w := hFirst
      exact hSecond
  | cons turn rest ih =>
      rw [List.length_cons, ← Nat.add_assoc, Nat.add_right_comm] at hSecond
      cases turn with
      | pass limit =>
          obtain ⟨result, w₂, hRun, hRest⟩ := hFirst
          exact ⟨result, w₂, hRun, ih hRest hSecond⟩
      | retry orderId =>
          obtain ⟨result, w₂, hRun, hRest⟩ := hFirst
          exact ⟨result, w₂, hRun, ih hRest hSecond⟩
      | wait t =>
          obtain ⟨hLe, answer, w₂, hTick, hRest⟩ := hFirst
          exact ⟨hLe, answer, w₂, hTick, ih hRest hSecond⟩

/-- Calls that transfer nothing leave the transfers. -/
theorem SweepWorld.transferCalls_log {w : SweepWorld} {e : SweepEvent} {id : String}
    (h : e.call.transfers id = false) : (w.log e).transferCalls id = w.transferCalls id := by
  simp [transferCalls, SweepWorld.log, h]

/-- Work on one job leaves the others alone. -/
structure SweepWorld.Touched (id : String) (w w' : SweepWorld) : Prop where
  clock : w'.clock = w.clock
  rows : ∀ id', id' ≠ id → w'.job id' = w.job id'
  calls : ∀ id', id' ≠ id → w'.transferCalls id' = w.transferCalls id'
  longer : w.trace <:+ w'.trace

namespace SweepWorld.Touched

variable {id : String} {w w₁ w' : SweepWorld}

/-- Steps that touch one job, after one another. -/
theorem trans (first : Touched id w w₁) (second : Touched id w₁ w') : Touched id w w' where
  clock := second.clock.trans first.clock
  rows id' hNe := (second.rows id' hNe).trans (first.rows id' hNe)
  calls id' hNe := (second.calls id' hNe).trans (first.calls id' hNe)
  longer := first.longer.trans second.longer

/-- A call that stores nothing and transfers for no other job. -/
theorem log {e : SweepEvent} (hCall : ∀ id', id' ≠ id → e.call.transfers id' = false) :
    Touched id w (w.log e) where
  clock := rfl
  rows _ _ := rfl
  calls id' hNe := transferCalls_log (hCall id' hNe)
  longer := List.suffix_cons ..

end SweepWorld.Touched

section steps

variable {treasury : FaithfulTreasury} {deps : SweepDeps} {i : Nat} {w : SweepWorld}
  {job row : SweepJob}

/-- An attempt that is answered goes on with the answer. -/
theorem runs_attempt {c : SweepCall} {next : SweepAns c → SweepAction Stepped} {a : SweepAns c}
    {result : Except AppError Stepped} {w₁ w' : SweepWorld}
    (hCall : treasury.exec deps.backend i c () w = some (.ok a, w₁))
    (hNext : (next a).RunsTo (treasury.exec deps.backend i) w₁ result w') :
    (attempt c job next).RunsTo (treasury.exec deps.backend i) w result w' :=
  ⟨(), .ok a, w₁, hCall, hNext⟩

section calls

variable (treasury : FaithfulTreasury) (b : Backend) (i : Nat) (w : SweepWorld)

theorem exec_now : treasury.exec b i .now () w =
    some (.ok w.clock, w.log ⟨i, .now, .ok w.clock, false⟩) := rfl

theorem exec_usdt (address : String) : treasury.exec b i (.trc20BalanceMicro address) () w =
    some (.ok (treasury.usdt w address),
      w.log ⟨i, .trc20BalanceMicro address, .ok (treasury.usdt w address), false⟩) := rfl

theorem exec_trx (address : String) : treasury.exec b i (.trxBalanceSun address) () w =
    some (.ok (treasury.trx w address),
      w.log ⟨i, .trxBalanceSun address, .ok (treasury.trx w address), false⟩) := rfl

theorem exec_isConfirmed (txId : String) : treasury.exec b i (.isConfirmed txId) () w =
    some (.ok (treasury.confirmed w txId),
      w.log ⟨i, .isConfirmed txId, .ok (treasury.confirmed w txId), false⟩) := rfl

theorem exec_audit (input : AuditInput) : treasury.exec b i (.auditRecord input) () w =
    some (.ok (), w.log ⟨i, .auditRecord input, .ok (), false⟩) := rfl

/-- A broadcast is answered with a transaction that will confirm. -/
theorem exec_transfer (forJob : String) (depositIndex : Nat) (fromAddress toAddress : String)
    (amount : Int) :
    treasury.exec b i (.sweepTrc20 forJob depositIndex fromAddress toAddress amount) () w =
      some (.ok (treasury.send w), w.log
        ⟨i, .sweepTrc20 forJob depositIndex fromAddress toAddress amount, .ok (treasury.send w),
          false⟩) := by
  simp [FaithfulTreasury.exec, FaithfulTreasury.reply, sweepExec, jobsEffect, treasuryAnswer,
    treasury.named w, SweepWorld.noted]

theorem exec_fuel (forJob toAddress : String) (amountSun : Int) :
    treasury.exec b i (.fuelGas forJob toAddress amountSun) () w =
      some (.ok (treasury.send w), w.log
        ⟨i, .fuelGas forJob toAddress amountSun, .ok (treasury.send w), false⟩) := by
  simp [FaithfulTreasury.exec, FaithfulTreasury.reply, sweepExec, jobsEffect, treasuryAnswer,
    treasury.named w, SweepWorld.noted]

/-- An update of a job that has a row works. -/
theorem exec_update (caller : SweepMethod) {job row : SweepJob} (hRow : w.job job.id = some row) :
    ∃ w', treasury.exec b i (.update caller job) () w = some (.ok job, w') ∧
      w.Touched job.id w' ∧ w'.transferCalls job.id = w.transferCalls job.id ∧
      w'.job job.id = some (SweepJobStore.written b row job) := by
  have hEq := SweepJobStore.update_eq (b := b) hRow
  have hId : (SweepJobStore.written b row job).id = job.id := by
    cases b with
    | memory => rfl
    | sql =>
        change row.id = job.id
        exact SweepWorld.job_id hRow
  generalize SweepJobStore.written b row job = saved at hEq hId ⊢
  let w' := SweepWorld.log { w with jobs := { w.jobs with byId := w.jobs.byId.put saved } }
    ⟨i, .update caller job, .ok job, true⟩
  have hCalls : ∀ id, w'.transferCalls id = w.transferCalls id := fun id =>
    SweepWorld.transferCalls_log rfl
  refine ⟨w', ?_, ⟨rfl, ?_, fun id' _ => hCalls id', List.suffix_cons ..⟩, hCalls _, ?_⟩
  · simp [FaithfulTreasury.exec, FaithfulTreasury.reply, sweepExec, jobsEffect, hEq, Except.map, w']
  · intro id' hNe
    simp [w', SweepWorld.job, SweepWorld.log, Table.get?_put, hId, Ne.symm hNe]
  · simp [w', SweepWorld.job, SweepWorld.log, Table.get?_put, hId]

end calls

/-- The step runs to its end without throwing, does no work on another job, and
leaves `job` as an object that has `P`. -/
def Steps (treasury : FaithfulTreasury) (deps : SweepDeps) (i : Nat) (w : SweepWorld)
    (job row : SweepJob) (p : SweepAction Stepped) (P : SweepJob → Prop) : Prop :=
  ∃ job' w', p.RunsTo (treasury.exec deps.backend i) w (.ok (job', none)) w' ∧
    w.Touched job.id w' ∧ w'.job job.id = some (SweepJobStore.written deps.backend row job') ∧
    (job'.id = job.id ∧ job'.orderId = job.orderId ∧ job'.createdAt = job.createdAt) ∧ P job'

/-- A reading leaves the job as it was. -/
theorem steps_read {c : SweepCall} {a : SweepAns c} {next : SweepAns c → SweepAction Stepped}
    {patched : SweepJob} {P : SweepJob → Prop} {e : SweepEvent}
    (hCall : treasury.exec deps.backend i c () w = some (.ok a, w.log e))
    (hOther : ∀ id', id' ≠ job.id → e.call.transfers id' = false)
    (hNext : Steps treasury deps i (w.log e) job row (next a) P) :
    Steps treasury deps i w job row (attempt c patched next) P := by
  obtain ⟨job', w', hRun, hTouched, hRest⟩ := hNext
  exact ⟨job', w', runs_attempt hCall hRun, (SweepWorld.Touched.log hOther).trans hTouched, hRest⟩

/-- A step ends by storing the job with the time. -/
theorem steps_stamp {patch : Int → SweepJob} {patched : SweepJob} {P : SweepJob → Prop}
    (hSame : ∀ now, (patch now).id = job.id ∧ (patch now).orderId = job.orderId ∧
      (patch now).createdAt = job.createdAt) (hRow : w.job job.id = some row)
    (hP : P (patch w.clock)) :
    Steps treasury deps i w job row (attempt .now patched fun now => store (patch now)) P := by
  refine steps_read (exec_now treasury deps.backend i w) (fun _ _ => rfl) ?_
  have hId := (hSame w.clock).1
  have hRow' : (w.log ⟨i, .now, .ok w.clock, false⟩).job (patch w.clock).id = some row := by
    rw [hId]
    exact hRow
  obtain ⟨w', hUpdate, hTouched, -, hStored⟩ :=
    exec_update treasury deps.backend i _ .processDue hRow'
  rw [hId] at hTouched hStored
  exact ⟨patch w.clock, w', runs_attempt hUpdate ⟨rfl, rfl⟩, hTouched, hStored, hSame w.clock, hP⟩

/-- A transaction that will confirm. -/
def FaithfulTreasury.Sent (treasury : FaithfulTreasury) (txId : Option String) : Prop :=
  ∃ s, truthy txId = some s ∧ (treasury.confirmsAt s).isSome = true

theorem FaithfulTreasury.sent_send (treasury : FaithfulTreasury) (w : SweepWorld) :
    treasury.Sent (some (treasury.send w)) :=
  ⟨treasury.send w, by simp [truthy, Option.filter, treasury.named w], treasury.confirms w⟩

/-- The transfer is broadcast, and its transaction is stored. -/
theorem steps_transfer {patched : SweepJob} {P : SweepJob → Prop}
    (hSame : patched.id = job.id ∧ patched.orderId = job.orderId ∧
      patched.createdAt = job.createdAt) (hRow : w.job job.id = some row)
    (hP : ∀ job', job'.status = .SWEEPING → treasury.Sent job'.sweepTxId → P job') :
    Steps treasury deps i w job row (transfer deps patched) P := by
  refine steps_read (exec_transfer treasury deps.backend i w _ _ _ _ _) (fun id' hNe => ?_)
    (steps_stamp (fun _ => hSame) hRow (hP _ rfl (treasury.sent_send w)))
  simp [SweepCall.transfers, hSame.1, Ne.symm hNe]

/-- A job that is EMPTY, or that waits for a transaction that never confirms. -/
def FaithfulTreasury.Stranded (treasury : FaithfulTreasury) (job : SweepJob) : Prop :=
  job.status = .EMPTY ∨
  (job.status = .GAS_FUELING ∧
    ∀ txId, truthy job.gasTxId = some txId → treasury.confirmsAt txId = none) ∨
  (job.status = .SWEEPING ∧
    ∀ txId, truthy job.sweepTxId = some txId → treasury.confirmsAt txId = none)

/-- What is confirmed at no time is not confirmed now. -/
theorem FaithfulTreasury.not_confirmed {treasury : FaithfulTreasury} {w : SweepWorld} {txId : String}
    (h : treasury.confirmsAt txId = none) : ¬treasury.confirmed w txId = true := by
  simp [confirmed, h]

/-- What one step makes of a job, as far as it gets on. -/
structure FaithfulTreasury.Outcome (treasury : FaithfulTreasury) (policy : SweepPolicy)
    (w : SweepWorld) (job job' : SweepJob) : Prop where
  pending : job.status = .PENDING →
    policy.minSweepMicro ≤ treasury.usdt w job.depositAddress →
    (job'.status = .GAS_FUELING ∧ treasury.Sent job'.gasTxId) ∨
    (job'.status = .SWEEPING ∧ treasury.Sent job'.sweepTxId)
  fueling : job.status = .GAS_FUELING → ∀ gasTxId, truthy job.gasTxId = some gasTxId →
    treasury.confirmed w gasTxId = true →
    job'.status = .SWEEPING ∧ treasury.Sent job'.sweepTxId
  sweeping : job.status = .SWEEPING → ∀ sweepTxId, truthy job.sweepTxId = some sweepTxId →
    treasury.confirmed w sweepTxId = true → job'.status = .SWEPT
  stranded : treasury.Stranded job → job'.status = job.status ∧ treasury.Stranded job'

/-- A pending job that has gas is swept, and fueled otherwise. -/
theorem steps_pending (hPending : job.status = .PENDING) (hRow : w.job job.id = some row) :
    Steps treasury deps i w job row (stepPending deps job) (treasury.Outcome deps.policy w job) := by
  have hOnly : ∀ s, job.status = s → s = .PENDING := fun s h => h.symm.trans hPending
  have hOutcome : ∀ job', (deps.policy.minSweepMicro ≤ treasury.usdt w job.depositAddress →
      (job'.status = .GAS_FUELING ∧ treasury.Sent job'.gasTxId) ∨
      (job'.status = .SWEEPING ∧ treasury.Sent job'.sweepTxId)) →
      treasury.Outcome deps.policy w job job' := by
    intro job' h
    refine ⟨fun _ => h, fun h => (nomatch hOnly _ h), fun h => (nomatch hOnly _ h), ?_⟩
    rintro (hEmpty | ⟨hFueling, -⟩ | ⟨hSweeping, -⟩)
    · cases hOnly _ hEmpty
    · cases hOnly _ hFueling
    · cases hOnly _ hSweeping
  refine steps_read (exec_usdt treasury deps.backend i w _) (fun _ _ => rfl) ?_
  split
  · next hLow =>
      exact steps_stamp (fun _ => ⟨rfl, rfl, rfl⟩) hRow
        (hOutcome _ fun hEnough => absurd hEnough (Int.not_le.mpr hLow))
  · refine steps_read (exec_trx treasury deps.backend i _ _) (fun _ _ => rfl) ?_
    split
    · exact steps_read (exec_fuel treasury deps.backend i _ _ _ _) (fun _ _ => rfl)
        (steps_stamp (fun _ => ⟨rfl, rfl, rfl⟩) hRow
          (hOutcome _ fun _ => .inl ⟨rfl, treasury.sent_send _⟩))
    · exact steps_transfer ⟨rfl, rfl, rfl⟩ hRow fun _ hSweeping hSent =>
        hOutcome _ fun _ => .inr ⟨hSweeping, hSent⟩

/-- A fueled job is swept once its gas has come in. -/
theorem steps_fueling (hFueling : job.status = .GAS_FUELING) (hRow : w.job job.id = some row) :
    Steps treasury deps i w job row (stepGasFueling deps job)
      (treasury.Outcome deps.policy w job) := by
  have hOnly : ∀ s, job.status = s → s = .GAS_FUELING := fun s h => h.symm.trans hFueling
  have hWaits : ∀ w', w'.job job.id = some row →
      (∀ txId, truthy job.gasTxId = some txId → ¬treasury.confirmed w txId = true) →
      Steps treasury deps i w' job row (defer deps job) (treasury.Outcome deps.policy w job) := by
    intro w' hRow' hUnconfirmed
    refine steps_stamp (fun _ => ⟨rfl, rfl, rfl⟩) hRow' ⟨fun h => (nomatch hOnly _ h),
      fun _ txId hTx hConfirmed => absurd hConfirmed (hUnconfirmed txId hTx),
      fun h => (nomatch hOnly _ h), fun h => ⟨rfl, h⟩⟩
  unfold stepGasFueling
  split
  · next hNone => exact hWaits w hRow fun txId hTx => (nomatch hNone.symm.trans hTx)
  · next gasTxId hGas =>
      refine steps_read (exec_isConfirmed treasury deps.backend i w _) (fun _ _ => rfl) ?_
      split
      · next hConfirmed =>
          refine steps_transfer ⟨rfl, rfl, rfl⟩ hRow fun _ hSweeping hSent =>
            ⟨fun h => (nomatch hOnly _ h), fun _ _ _ _ => ⟨hSweeping, hSent⟩,
              fun h => (nomatch hOnly _ h), ?_⟩
          rintro (hEmpty | ⟨-, hDropped⟩ | ⟨hSweeping', -⟩)
          · cases hOnly _ hEmpty
          · exact absurd hConfirmed (FaithfulTreasury.not_confirmed (hDropped gasTxId hGas))
          · cases hOnly _ hSweeping'
      · next hNot =>
          refine hWaits _ hRow fun txId hTx => ?_
          obtain rfl := Option.some.inj (hGas.symm.trans hTx)
          exact hNot

/-- A swept job is finished once its transaction is confirmed. -/
theorem steps_sweeping (hSweeping : job.status = .SWEEPING) (hRow : w.job job.id = some row) :
    Steps treasury deps i w job row (stepSweeping deps job)
      (treasury.Outcome deps.policy w job) := by
  have hOnly : ∀ s, job.status = s → s = .SWEEPING := fun s h => h.symm.trans hSweeping
  have hWaits : ∀ w', w'.job job.id = some row →
      (∀ txId, truthy job.sweepTxId = some txId → ¬treasury.confirmed w txId = true) →
      Steps treasury deps i w' job row (defer deps job) (treasury.Outcome deps.policy w job) := by
    intro w' hRow' hUnconfirmed
    refine steps_stamp (fun _ => ⟨rfl, rfl, rfl⟩) hRow' ⟨fun h => (nomatch hOnly _ h),
      fun h => (nomatch hOnly _ h),
      fun _ txId hTx hConfirmed => absurd hConfirmed (hUnconfirmed txId hTx), fun h => ⟨rfl, h⟩⟩
  unfold stepSweeping
  split
  · next hNone => exact hWaits w hRow fun txId hTx => (nomatch hNone.symm.trans hTx)
  · next sweepTxId hSweep =>
      refine steps_read (exec_isConfirmed treasury deps.backend i w _) (fun _ _ => rfl) ?_
      split
      · next hConfirmed =>
          have hSwept : ∀ job', job'.status = .SWEPT → treasury.Outcome deps.policy w job job' := by
            intro job' hDone
            refine ⟨fun h => (nomatch hOnly _ h), fun h => (nomatch hOnly _ h), fun _ _ _ _ => hDone, ?_⟩
            rintro (hEmpty | ⟨hFueling, -⟩ | ⟨-, hDropped⟩)
            · cases hOnly _ hEmpty
            · cases hOnly _ hFueling
            · exact absurd hConfirmed (FaithfulTreasury.not_confirmed (hDropped sweepTxId hSweep))
          split
          · exact steps_read (exec_audit treasury deps.backend i _ _) (fun _ _ => rfl)
              (steps_stamp (fun _ => ⟨rfl, rfl, rfl⟩) hRow (hSwept _ rfl))
          · exact steps_stamp (fun _ => ⟨rfl, rfl, rfl⟩) hRow (hSwept _ rfl)
      · next hNot =>
          refine hWaits _ hRow fun txId hTx => ?_
          obtain rfl := Option.some.inj (hSweep.symm.trans hTx)
          exact hNot

/-- One step of an open job. -/
theorem steps_step (hOpen : isSweepTerminal job.status = false) (hRow : w.job job.id = some row) :
    Steps treasury deps i w job row (step deps job) (treasury.Outcome deps.policy w job) := by
  unfold step
  split
  · next h => exact steps_pending h hRow
  · next h => exact steps_fueling h hRow
  · next h => exact steps_sweeping h hRow
  · next hPending hFueling hSweeping =>
      cases hStatus : job.status with
      | PENDING => exact absurd hStatus hPending
      | GAS_FUELING => exact absurd hStatus hFueling
      | SWEEPING => exact absurd hStatus hSweeping
      | _ =>
          rw [hStatus] at hOpen
          cases hOpen

/-- The loop of a pass works on every job of its list, each as its row stands. -/
theorem runs_processEach (treasury : FaithfulTreasury) (deps : SweepDeps) (i : Nat)
    {jobs : List SweepJob} (hOpen : ∀ job ∈ jobs, isSweepTerminal job.status = false)
    (hRows : ∀ job ∈ jobs, w.job job.id = some job) (hNodup : (jobs.map SweepJob.id).Nodup) :
    ∃ w', (processEach deps jobs).RunsTo (treasury.exec deps.backend i) w (.ok ()) w' ∧
      w'.clock = w.clock ∧ w.trace <:+ w'.trace ∧
      (∀ id, (∀ job ∈ jobs, job.id ≠ id) → w'.job id = w.job id ∧
        w'.transferCalls id = w.transferCalls id) ∧
      ∀ job ∈ jobs, ∃ w₁ job', w₁.clock = w.clock ∧ w.trace <:+ w₁.trace ∧
        w₁.transferCalls job.id = w.transferCalls job.id ∧ w'.job job.id = some job' ∧
        treasury.Outcome deps.policy w₁ job job' := by
  induction jobs generalizing w with
  | nil =>
      refine ⟨w, ⟨rfl, rfl⟩, rfl, List.suffix_refl _, fun _ _ => ⟨rfl, rfl⟩, fun _ hMem => ?_⟩
      cases hMem
  | cons job rest ih =>
      simp only [List.map_cons, List.nodup_cons] at hNodup
      have hSteps : Steps treasury deps i w job job (step deps job)
          (treasury.Outcome deps.policy w job) :=
        steps_step (hOpen job (by simp)) (hRows job (by simp))
      obtain ⟨job', w₁, hRun, hTouched, hStored, ⟨hId, hOrder, hCreated⟩, hOutcome⟩ := hSteps
      rw [SweepJobStore.written_eq hId.symm hOrder.symm hCreated.symm] at hStored
      have hNe : ∀ other ∈ rest, other.id ≠ job.id := fun other hOther hEq =>
        hNodup.1 (hEq ▸ List.mem_map_of_mem hOther)
      have hRows₁ : ∀ other ∈ rest, w₁.job other.id = some other := fun other h =>
        (hTouched.rows _ (hNe other h)).trans (hRows other (by simp [h]))
      obtain ⟨w', hRest, hClock, hLonger, hFrame, hJobs⟩ :=
        ih (fun other h => hOpen other (by simp [h])) hRows₁ hNodup.2
      have hProcess : (process deps job).RunsTo (treasury.exec deps.backend i) w (.ok ()) w₁ :=
        Prog.runsTo_bind.mpr (.inl ⟨(job', none), w₁, hRun, rfl, rfl⟩)
      refine ⟨w', Prog.runsTo_bind.mpr (.inl ⟨(), w₁, hProcess, hRest⟩),
        hClock.trans hTouched.clock, hTouched.longer.trans hLonger, ?_, ?_⟩
      · intro id hOthers
        obtain ⟨hRow, hCalls⟩ := hFrame id fun other h => hOthers other (by simp [h])
        have hId' : id ≠ job.id := (hOthers job (by simp)).symm
        exact ⟨hRow.trans (hTouched.rows id hId'), hCalls.trans (hTouched.calls id hId')⟩
      · intro other hOther
        rcases List.mem_cons.mp hOther with rfl | hRestMem
        · refine ⟨w, job', rfl, List.suffix_refl _, rfl, ?_, hOutcome⟩
          exact (hFrame other.id hNe).1.trans hStored
        · obtain ⟨w₂, other', hClock₂, hLonger₂, hCalls₂, hRow₂, hOutcome₂⟩ := hJobs other hRestMem
          exact ⟨w₂, other', hClock₂.trans hTouched.clock, hTouched.longer.trans hLonger₂,
            hCalls₂.trans (hTouched.calls _ (hNe other hRestMem)), hRow₂, hOutcome₂⟩

/-- A pass runs to its end. The jobs it does not take stay as they are. -/
theorem runs_pass (treasury : FaithfulTreasury) (deps : SweepDeps) (i : Nat) (w : SweepWorld)
    (limit : Nat) :
    ∃ result w', (processDue deps limit).RunsTo (treasury.exec deps.backend i) w result w' ∧
      w'.clock = w.clock ∧ w.trace <:+ w'.trace ∧
      (∀ id, (∀ job ∈ w.jobs.due deps.backend w.clock limit, job.id ≠ id) → w'.job id = w.job id) ∧
      ∀ job ∈ w.jobs.due deps.backend w.clock limit, ∃ w₁ job', w₁.clock = w.clock ∧ w.trace <:+ w₁.trace ∧
        w₁.transferCalls job.id = w.transferCalls job.id ∧ w'.job job.id = some job' ∧
        treasury.Outcome deps.policy w₁ job job' := by
  -- Reading the clock and the queue leaves the jobs as they are.
  let w₀ := w.log ⟨i, .now, .ok w.clock, false⟩
  let jobs := w.jobs.due deps.backend w.clock limit
  let w₁ := w₀.log ⟨i, .due w.clock limit, .ok jobs, true⟩
  have hDueCall : treasury.exec deps.backend i (.due w.clock limit) () w₀ = some (.ok jobs, w₁) := rfl
  have hLong : w.trace <:+ w₁.trace := (List.suffix_cons ..).trans (List.suffix_cons ..)
  obtain ⟨w', hRun, hClock, hLonger, hFrame, hJobs⟩ := runs_processEach treasury deps i (w := w₁)
    (fun job h => (SweepJobStore.mem_due h).2.1) (fun job h => (SweepJobStore.mem_due h).1)
    (SweepJobStore.nodup_due ..)
  refine ⟨.ok jobs.length, w', ?_, hClock, hLong.trans hLonger, fun id h => (hFrame id h).1,
    fun job hMem => ?_⟩
  · refine Prog.runsTo_bind.mpr (.inl ⟨w.clock, w₀, Prog.runsTo_perform.mpr ⟨(), rfl⟩, ?_⟩)
    refine Prog.runsTo_bind.mpr (.inl ⟨jobs, w₁, Prog.runsTo_perform.mpr ⟨(), hDueCall⟩, ?_⟩)
    exact Prog.runsTo_bind.mpr (.inl ⟨(), w', hRun, rfl, rfl⟩)
  · obtain ⟨w₂, job', hClock₂, hLonger₂, hRest⟩ := hJobs job hMem
    exact ⟨w₂, job', hClock₂, hLong.trans hLonger₂, hRest⟩

end steps
end VpnPayment
