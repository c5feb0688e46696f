import VpnPayment.Sweep.Filing
import VpnPayment.Sweep.Lifecycle
import VpnPayment.Sweep.Treasury

/-! Which jobs passes and retries can bring to SWEPT. -/
namespace VpnPayment

open Async Collections SweepService

section turns

variable {treasury : FaithfulTreasury} {deps : SweepDeps} {n : Nat} {w w' : SweepWorld}
  {id : String} {job : SweepJob}

theorem exec_unit (b : Backend) (i : Nat) (c : SweepCall) (reply reply' : Unit) (w : SweepWorld) :
    treasury.exec b i c reply w = treasury.exec b i c reply' w := rfl

/-- `retry` puts the FAILED job of the order back, and writes to no other. -/
theorem runs_retry (treasury : FaithfulTreasury) (deps : SweepDeps) (n : Nat) (w : SweepWorld)
    (orderId : String) :
    ∃ result w', (retry orderId).RunsTo (treasury.exec deps.backend n) w result w' ∧
      w.trace <:+ w'.trace ∧ (∀ id, w'.transferCalls id = w.transferCalls id) ∧
      ∀ id job, w.job id = some job → w'.job id = some
        (if w.jobs.findByOrderId deps.backend orderId = some job ∧ job.status = .FAILED then
          requeued job w.clock else job) := by
  let w₁ := w.log ⟨n, .findByOrderId .retry orderId,
    .ok (w.jobs.findByOrderId deps.backend orderId), true⟩
  have hFindCall : treasury.exec deps.backend n (.findByOrderId .retry orderId) () w =
      some (.ok (w.jobs.findByOrderId deps.backend orderId), w₁) := rfl
  have hCalls₁ : ∀ id, w₁.transferCalls id = w.transferCalls id := fun _ =>
    SweepWorld.transferCalls_log rfl
  have hLong₁ : w.trace <:+ w₁.trace := List.suffix_cons ..
  rw [retry_eq]
  cases hFind : w.jobs.findByOrderId deps.backend orderId with
  | none =>
      rw [hFind] at hFindCall
      refine ⟨.ok none, w₁, ⟨(), _, _, hFindCall, rfl, rfl⟩, hLong₁, hCalls₁, fun id job hJob => ?_⟩
      rw [if_neg (by simp)]
      exact hJob
  | some found =>
      rw [hFind] at hFindCall
      by_cases hFailed : found.status = .FAILED
      · have hRow : w.job found.id = some found := SweepJobStore.get?_of_findByOrderId hFind
        let w₂ := w₁.log ⟨n, .now, .ok w.clock, false⟩
        have hRow₂ : w₂.job (requeued found w.clock).id = some found := hRow
        have hWritten : SweepJobStore.written deps.backend found (requeued found w.clock) =
            requeued found w.clock := SweepJobStore.written_eq rfl rfl rfl
        obtain ⟨w₃, hUpdate, hTouched, hCalls₃, hStored⟩ :=
          exec_update treasury deps.backend n w₂ .retry hRow₂
        rw [hWritten] at hStored
        have hCalls₂ : ∀ id, w₂.transferCalls id = w.transferCalls id := fun id =>
          (SweepWorld.transferCalls_log rfl).trans (hCalls₁ id)
        refine ⟨.ok (some (requeued found w.clock)), w₃, ⟨(), _, _, hFindCall, ?_⟩,
          (hLong₁.trans (List.suffix_cons ..)).trans hTouched.longer, fun id => ?_,
          fun id job hJob => ?_⟩
        · change (if found.status = .FAILED then requeue found else pure none).RunsTo _ _ _ _
          rw [if_pos hFailed]
          exact ⟨(), _, w₂, rfl, (), _, w₃, hUpdate, rfl, rfl⟩
        · by_cases hId : id = found.id
          · exact (hId ▸ hCalls₃).trans (hCalls₂ id)
          · exact (hTouched.calls id hId).trans (hCalls₂ id)
        · by_cases hId : id = found.id
          · obtain rfl : found = job := by
              rw [hId, hRow] at hJob
              exact Option.some.inj hJob
            rw [if_pos ⟨rfl, hFailed⟩, hId]
            exact hStored
          · rw [if_neg]
            · exact (hTouched.rows id hId).trans hJob
            · rintro ⟨hSame, -⟩
              obtain rfl := Option.some.inj hSame
              exact hId (SweepWorld.job_id hJob).symm
      · refine ⟨.ok none, w₁, ⟨(), _, _, hFindCall, ?_⟩, hLong₁, hCalls₁, fun id job hJob => ?_⟩
        · change (if found.status = .FAILED then requeue found else pure none).RunsTo _ _ _ _
          rw [if_neg hFailed]
          exact ⟨rfl, rfl⟩
        · rw [if_neg]
          · exact hJob
          · rintro ⟨hSame, hFailed'⟩
            obtain rfl := Option.some.inj hSame
            exact hFailed hFailed'

/-- What strands a job does not pass. -/
theorem stranded_stays {turns : List SweepTurn} (hLeads : treasury.Leads deps n w turns w')
    (hJob : w.job id = some job) (hStranded : treasury.Stranded job) :
    ∃ job', w'.job id = some job' ∧ job'.status = job.status ∧ treasury.Stranded job' := by
  induction turns generalizing n w job with
  | nil =>
      obtain rfl : w' = w := hLeads
      exact ⟨job, hJob, rfl, hStranded⟩
  | cons turn rest ih =>
      cases turn with
      | pass limit =>
          obtain ⟨result, w₁, hRun, hRest⟩ := hLeads
          obtain ⟨result', w₁', hRun', -, -, hFrame, hJobs⟩ := runs_pass treasury deps n w limit
          obtain ⟨-, rfl⟩ := Prog.runsTo_unique (exec_unit deps.backend n) hRun hRun'
          by_cases hTaken : ∃ x ∈ w.jobs.due deps.backend w.clock limit, x.id = id
          · obtain ⟨x, hMem, rfl⟩ := hTaken
            obtain rfl : x = job :=
              Option.some.inj ((SweepJobStore.mem_due hMem).1.symm.trans hJob)
            obtain ⟨w₂, job', -, -, -, hJob', hOutcome⟩ := hJobs x hMem
            obtain ⟨hStatus, hStranded'⟩ := hOutcome.stranded hStranded
            obtain ⟨job'', hJob'', hStatus'', hStranded''⟩ := ih hRest hJob' hStranded'
            exact ⟨job'', hJob'', hStatus''.trans hStatus, hStranded''⟩
          · refine ih hRest ((hFrame id fun x hMem hEq => hTaken ⟨x, hMem, hEq⟩).trans hJob) hStranded
      | retry orderId =>
          obtain ⟨result, w₁, hRun, hRest⟩ := hLeads
          obtain ⟨result', w₁', hRun', -, -, hJobs⟩ := runs_retry treasury deps n w orderId
          obtain ⟨-, rfl⟩ := Prog.runsTo_unique (exec_unit deps.backend n) hRun hRun'
          have hNotFailed : job.status ≠ .FAILED := by
            rcases hStranded with h | ⟨h, -⟩ | ⟨h, -⟩ <;> rw [h] <;> decide
          have hKeep := hJobs id job hJob
          rw [if_neg fun h => hNotFailed h.2] at hKeep
          exact ih hRest hKeep hStranded
      | wait t =>
          obtain ⟨-, answer, w₁, hTick, hRest⟩ := hLeads
          refine ih hRest ?_ hStranded
          rw [SweepWorld.job, sweepExec_reads hTick rfl]
          exact hJob

/-- An open job is taken one step further once enough time has passed. -/
theorem leads_visit (treasury : FaithfulTreasury) (deps : SweepDeps) (n : Nat)
    (hJob : w.job id = some job) (hOpen : isSweepTerminal job.status = false) (t : Int) :
    ∃ turns w', treasury.Leads deps n w turns w' ∧
      ∃ w₁ job', t ≤ w₁.clock ∧ w.trace <:+ w₁.trace ∧
        w₁.transferCalls id = w.transferCalls id ∧ w'.job id = some job' ∧
        treasury.Outcome deps.policy w₁ job job' := by
  let time := max (max w.clock job.nextAttemptAt) t
  let w₀ := SweepWorld.log { w with clock := time } ⟨n, .tick, .ok (), false⟩
  have hTick : sweepExec deps.backend n .tick (.time time) w = some (.ok (), w₀) := rfl
  have hJob₀ : w₀.job id = some job := hJob
  have hDue : job ∈ w₀.jobs.due deps.backend w₀.clock w₀.jobs.byId.rows.length :=
    SweepJobStore.mem_due_of hJob₀ hOpen (le_trans (le_max_right _ _) (le_max_left _ _))
  obtain ⟨result, w', hRun, -, -, -, hJobs⟩ :=
    runs_pass treasury deps (n + 1) w₀ w₀.jobs.byId.rows.length
  obtain ⟨w₁, job', hClock, hLonger, hCalls, hJob', hOutcome⟩ := hJobs job hDue
  obtain rfl := SweepWorld.job_id hJob
  refine ⟨[.wait time, .pass w₀.jobs.byId.rows.length], w',
    ⟨le_trans (le_max_left _ _) (le_max_left _ _), .ok (), w₀, hTick, result, w', hRun, rfl⟩, w₁,
    job', ?_, (List.suffix_cons ..).trans hLonger, ?_, hJob', hOutcome⟩
  · rw [hClock]
    exact le_max_right _ _
  · rw [hCalls]
    exact SweepWorld.transferCalls_log rfl

theorem confirmed_of_le {txId : String} {t : Int} (h : treasury.confirmsAt txId = some t)
    (hLe : t ≤ w.clock) : treasury.confirmed w txId = true := by
  simp [FaithfulTreasury.confirmed, h, hLe]

/-- The turns lead to a state in which the job is SWEPT. -/
def Sweepable (treasury : FaithfulTreasury) (deps : SweepDeps) (n : Nat) (w : SweepWorld)
    (id : String) : Prop :=
  ∃ turns w', treasury.Leads deps n w turns w' ∧ (w'.job id).map SweepJob.status = some .SWEPT

theorem Sweepable.after {turns : List SweepTurn} (hLeads : treasury.Leads deps n w turns w')
    (h : ∀ n, Sweepable treasury deps n w' id) : Sweepable treasury deps n w id := by
  obtain ⟨more, w'', hMore, hSwept⟩ := h (n + turns.length)
  exact ⟨turns ++ more, w'', FaithfulTreasury.leads_append hLeads hMore, hSwept⟩

theorem sweepable_of_sweeping (hJob : w.job id = some job) (hStatus : job.status = .SWEEPING)
    (hSent : treasury.Sent job.sweepTxId) (n : Nat) : Sweepable treasury deps n w id := by
  obtain ⟨txId, hTx, hConfirms⟩ := hSent
  obtain ⟨t, ht⟩ := Option.isSome_iff_exists.mp hConfirms
  obtain ⟨turns, w', hLeads, w₁, job', hTime, -, -, hJob', hOutcome⟩ :=
    leads_visit treasury deps n hJob (by rw [hStatus]; rfl) t
  have hSwept := hOutcome.sweeping hStatus txId hTx (confirmed_of_le ht hTime)
  exact ⟨turns, w', hLeads, by rw [hJob', Option.map_some, hSwept]⟩

theorem sweepable_of_fueling (hJob : w.job id = some job) (hStatus : job.status = .GAS_FUELING)
    (hSent : treasury.Sent job.gasTxId) (n : Nat) : Sweepable treasury deps n w id := by
  obtain ⟨txId, hTx, hConfirms⟩ := hSent
  obtain ⟨t, ht⟩ := Option.isSome_iff_exists.mp hConfirms
  obtain ⟨turns, w', hLeads, w₁, job', hTime, -, -, hJob', hOutcome⟩ :=
    leads_visit treasury deps n hJob (by rw [hStatus]; rfl) t
  obtain ⟨hSweeping, hSent'⟩ := hOutcome.fueling hStatus txId hTx (confirmed_of_le ht hTime)
  exact Sweepable.after hLeads (sweepable_of_sweeping hJob' hSweeping hSent')

/-- A deposit that is still there is transferred. -/
theorem sweepable_of_pending (hJob : w.job id = some job) (hStatus : job.status = .PENDING)
    (hHolds : ∀ w', w.trace <:+ w'.trace → w'.transferCalls id = w.transferCalls id →
      deps.policy.minSweepMicro ≤ treasury.usdt w' job.depositAddress) (n : Nat) :
    Sweepable treasury deps n w id := by
  obtain ⟨turns, w', hLeads, w₁, job', -, hLonger, hCalls, hJob', hOutcome⟩ :=
    leads_visit treasury deps n hJob (by rw [hStatus]; rfl) w.clock
  rcases hOutcome.pending hStatus (hHolds w₁ hLonger hCalls) with ⟨hNext, hSent⟩ | ⟨hNext, hSent⟩
  · exact Sweepable.after hLeads (sweepable_of_fueling hJob' hNext hSent)
  · exact Sweepable.after hLeads (sweepable_of_sweeping hJob' hNext hSent)

end turns

/-- The continuations of a run in which passes, retries and the clock are all that
moves, and the treasury answers faithfully. -/
def FaithfulTreasury.Continues (treasury : FaithfulTreasury) (m : Sweeper) : SweepLabel → Prop
  | .spawn (.enqueue _) => False
  | .spawn _ => True
  | .step i reply => ∃ c, m.nextCall i = some c ∧
      (reply = treasury.reply m.world c ∨ c = .tick ∧ ∃ t, m.world.clock ≤ t ∧ reply = .time t)

theorem FaithfulTreasury.continues_of_resumes {treasury : FaithfulTreasury} {i : Nat} {m : Sweeper}
    {label : SweepLabel} (h : Resumes treasury.reply i m label) : treasury.Continues m label := by
  obtain ⟨c, hCall, rfl⟩ := h
  exact ⟨c, hCall, .inl rfl⟩

/-- A method that is called when the run has come to `m` is served in the run. -/
theorem reaches_of_method {treasury : FaithfulTreasury} {deps : SweepDeps} {m : Sweeper}
    (request : SweepRequest) {α : Type} {p : SweepAction α} {f : α → SweepOutcome}
    (hRequest : treasury.Continues m (.spawn request))
    (hEntry : (sweepSystem deps).entry request = p >>= fun a => pure (f a))
    (hFree : p.Only (fun _ => True) fun _ => True) {result : Except AppError α} {w' : SweepWorld}
    (hRun : p.RunsTo (treasury.exec deps.backend m.tasks.length) m.world result w') :
    ∃ m', (sweepSystem deps).Reaches treasury.Continues m m' ∧ m'.world = w' ∧
      m'.tasks.length = m.tasks.length + 1 := by
  have hThen : ∃ result, ((sweepSystem deps).entry request).RunsTo
      (treasury.exec deps.backend m.tasks.length) m.world result w' := by
    rw [hEntry]
    cases result with
    | ok a => exact ⟨.ok (f a), Prog.runsTo_bind.mpr (.inl ⟨a, w', hRun, rfl, rfl⟩)⟩
    | error e => exact ⟨.error e, Prog.runsTo_bind.mpr (.inr ⟨e, hRun, rfl⟩)⟩
  have hFree' : ((sweepSystem deps).entry request).Only (fun _ => True) fun _ => True := by
    rw [hEntry]
    exact Prog.only_onReturn hFree fun result _ => by cases result <;> trivial
  obtain ⟨result', hRun'⟩ := hThen
  let m₁ : Sweeper := ⟨m.world, m.tasks ++ [⟨(sweepSystem deps).entry request, none⟩]⟩
  have hSpawn : (sweepSystem deps).step m (.spawn request) = some m₁ := rfl
  have hTask : m₁.tasks[m.tasks.length]? = some ⟨(sweepSystem deps).entry request, none⟩ := by
    simp [m₁]
  have hAlone : Prog.RunsTo (fun c (_ : Unit) s => (sweepSystem deps).exec m.tasks.length c
      (treasury.reply s c) s) ((sweepSystem deps).entry request) m₁.world result' w' := hRun'
  have hMore := reaches_of_runsTo hFree' hTask hAlone
  refine ⟨_, (System.Reaches.tail (.refl m) hRequest hSpawn).trans
    (hMore.mono fun _ _ _ h _ => FaithfulTreasury.continues_of_resumes h), rfl, ?_⟩
  simp [m₁]

/-- The turns are a continuation of the run. -/
theorem reaches_of_leads {treasury : FaithfulTreasury} {deps : SweepDeps} {m : Sweeper}
    {turns : List SweepTurn} {w' : SweepWorld}
    (hLeads : treasury.Leads deps m.tasks.length m.world turns w') :
    ∃ m', (sweepSystem deps).Reaches treasury.Continues m m' ∧ m'.world = w' := by
  induction turns generalizing m with
  | nil => exact ⟨m, .refl m, hLeads.symm⟩
  | cons turn rest ih =>
      cases turn with
      | pass limit =>
          obtain ⟨result, w₁, hRun, hRest⟩ := hLeads
          obtain ⟨m₁, hReach, rfl, hLength⟩ :=
            reaches_of_method (.processDue limit) trivial rfl (lockFree_processDue limit) hRun
          rw [← hLength] at hRest
          obtain ⟨m', hReach', hWorld⟩ := ih hRest
          exact ⟨m', hReach.trans hReach', hWorld⟩
      | retry orderId =>
          obtain ⟨result, w₁, hRun, hRest⟩ := hLeads
          obtain ⟨m₁, hReach, rfl, hLength⟩ :=
            reaches_of_method (.retry orderId) trivial rfl (lockFree_retry orderId) hRun
          rw [← hLength] at hRest
          obtain ⟨m', hReach', hWorld⟩ := ih hRest
          exact ⟨m', hReach.trans hReach', hWorld⟩
      | wait t =>
          obtain ⟨hLe, answer, w₁, hTick, hRest⟩ := hLeads
          let m₁ : Sweeper := ⟨m.world, m.tasks ++ [⟨(sweepSystem deps).entry .tick, none⟩]⟩
          have hSpawn : (sweepSystem deps).step m (.spawn .tick) = some m₁ := rfl
          have hCall : m₁.nextCall m.tasks.length = some .tick := by
            simp [Machine.nextCall, m₁, sweepSystem, Prog.bind_eq, Prog.perform, Prog.onReturn]
          let m₂ : Sweeper := ⟨w₁, m₁.tasks.set m.tasks.length ⟨.ret (.ok .done), none⟩⟩
          have hStep : (sweepSystem deps).step m₁ (.step m.tasks.length (.time t)) = some m₂ := by
            cases hTick
            simp [System.step, System.stepTask, m₁, m₂, sweepSystem]
            rfl
          have hLength : m₂.tasks.length = m.tasks.length + 1 := by simp [m₁, m₂]
          rw [← hLength] at hRest
          obtain ⟨m', hReach, hWorld⟩ := ih hRest
          have hTicks : treasury.Continues m₁ (.step m.tasks.length (.time t)) :=
            ⟨.tick, hCall, .inr ⟨rfl, t, hLe, rfl⟩⟩
          have hMay : treasury.Continues m (.spawn .tick) := trivial
          have hFirst : (sweepSystem deps).Reaches treasury.Continues m m₂ :=
            .tail (.tail (.refl m) hMay hSpawn) hTicks hStep
          exact ⟨m', hFirst.trans hReach, hWorld⟩

/-- From a stranded job no turns lead to SWEPT. -/
theorem not_sweepable_of_stranded {treasury : FaithfulTreasury} {deps : SweepDeps} {n : Nat}
    {w : SweepWorld} {id : String} {job : SweepJob} (hJob : w.job id = some job)
    (hStranded : treasury.Stranded job) : ¬Sweepable treasury deps n w id := by
  rintro ⟨turns, w', hLeads, hSwept⟩
  obtain ⟨job', hJob', hStatus, -⟩ := stranded_stays hLeads hJob hStranded
  rw [hJob', Option.map_some, hStatus] at hSwept
  rcases hStranded with h | ⟨h, -⟩ | ⟨h, -⟩ <;> rw [h] at hSwept <;> cases hSwept

/-- A stored job whose deposit is there can be brought to SWEPT exactly if it is
not EMPTY and does not wait for a transaction that never confirms. -/
theorem swept_unless_stranded (treasury : FaithfulTreasury) (deps : SweepDeps) {clock : Int}
    {m : Sweeper} (hRun : (sweepSystem deps).Reaches (fun _ _ => True) (Sweeper.start .empty clock) m)
    {id : String} {job : SweepJob} (hJob : m.world.job id = some job)
    (hHolds : ∀ w, m.world.trace <:+ w.trace → w.transferCalls id = m.world.transferCalls id →
      deps.policy.minSweepMicro ≤ treasury.usdt w job.depositAddress) :
    (∃ turns w', treasury.Leads deps m.tasks.length m.world turns w' ∧
      (w'.job id).map SweepJob.status = some .SWEPT) ↔ ¬treasury.Stranded job := by
  constructor
  · exact fun hSweepable hStranded => not_sweepable_of_stranded hJob hStranded hSweepable
  · intro hNot
    have hSent : ∀ txId : Option String,
        ¬(∀ s, truthy txId = some s → treasury.confirmsAt s = none) → treasury.Sent txId := by
      intro txId h
      simp only [not_forall] at h
      obtain ⟨s, hTx, hConfirms⟩ := h
      exact ⟨s, hTx, Option.isSome_iff_ne_none.mpr hConfirms⟩
    cases hStatus : job.status with
    | PENDING => exact sweepable_of_pending hJob hStatus hHolds _
    | GAS_FUELING =>
        exact sweepable_of_fueling hJob hStatus
          (hSent _ fun h => hNot (.inr (.inl ⟨hStatus, h⟩))) _
    | SWEEPING =>
        exact sweepable_of_sweeping hJob hStatus
          (hSent _ fun h => hNot (.inr (.inr ⟨hStatus, h⟩))) _
    | SWEPT => exact ⟨[], m.world, rfl, by rw [hJob, Option.map_some, hStatus]⟩
    | EMPTY => exact absurd (.inl hStatus) hNot
    | FAILED =>
        obtain ⟨result, w', hRetry, hLonger, hCalls, hJobs⟩ :=
          runs_retry treasury deps m.tasks.length m.world job.orderId
        have hRequeued := hJobs id job hJob
        rw [if_pos ⟨found_of_reaches hRun hJob, hStatus⟩] at hRequeued
        have hLeads : treasury.Leads deps m.tasks.length m.world [.retry job.orderId] w' :=
          ⟨result, w', hRetry, rfl⟩
        refine Sweepable.after hLeads (sweepable_of_pending hRequeued rfl fun w hLong hSame => ?_)
        exact hHolds w (hLonger.trans hLong) (hSame.trans (hCalls id))

namespace Sample

/-- Every address holds 2 USDT, and what is broadcast from now on confirms. Of the
transactions broadcast before none ever does. -/
def droppedTreasury : FaithfulTreasury where
  usdt _ _ := 2000000
  trx _ _ := 0
  send _ := "new"
  confirmsAt txId := if txId = "new" then some 0 else none
  named _ := by decide
  confirms _ := by decide

/-- A pass finds the balance still too low. -/
def findsNothing (task : Nat) : List SweepLabel :=
  [.spawn (.processDue 50), .step task .normal, .step task .normal, .step task (.balance 0)]

/-- A pass finds no gas and pays for it. -/
def fuelsGas (task : Nat) (txId : String) : List SweepLabel :=
  [.spawn (.processDue 50), .step task .normal, .step task .normal, .step task (.balance 2000000),
    .step task (.balance 0), .step task (.txId txId)]

end Sample

/-- A run that ends with the job as given, for a job the treasury of the sample
strands. -/
theorem stranded_of_run (status : SweepStatus) (gasTxId sweepTxId : Option String)
    (labels : List SweepLabel)
    (hStranded : ∀ job : SweepJob, job.status = status → job.gasTxId = gasTxId →
      job.sweepTxId = sweepTxId → Sample.droppedTreasury.Stranded job)
    (hRun : ((sweepSystem (Sample.sweepDeps .memory)).run (fun _ _ => true)
      (Sweeper.start .empty 0) labels).any (fun m => (m.world.job "j1").any fun job =>
        job.status = status && (job.gasTxId = gasTxId && job.sweepTxId = sweepTxId)) = true) :
    ∃ m job, (sweepSystem (Sample.sweepDeps .memory)).Reaches (fun _ _ => True)
        (Sweeper.start .empty 0) m ∧ m.world.job "j1" = some job ∧ job.status = status ∧
      ¬Sweepable Sample.droppedTreasury (Sample.sweepDeps .memory) m.tasks.length m.world "j1" := by
  obtain ⟨m, hReach, hCheck⟩ := System.exists_reaches _ _ _ _ _ hRun
  obtain ⟨job, hJob, hJobCheck⟩ := (Option.any_eq_true _ _).mp hCheck
  simp only [Bool.and_eq_true, decide_eq_true_eq] at hJobCheck
  obtain ⟨hStatus, hGas, hSweep⟩ := hJobCheck
  exact ⟨m, job, hReach.mono fun _ _ _ _ _ => trivial, hJob, hStatus,
    not_sweepable_of_stranded hJob (hStranded job hStatus hGas hSweep)⟩

/-- The deposit holds 2 USDT all the time from some point on. A job that was EMPTY
before stays EMPTY, and one whose gas payment or transfer was dropped waits for
good. -/
theorem stranded_jobs : [SweepStatus.EMPTY, .GAS_FUELING, .SWEEPING].Forall fun status =>
    ∃ m job, (sweepSystem (Sample.sweepDeps .memory)).Reaches (fun _ _ => True)
        (Sweeper.start .empty 0) m ∧ m.world.job "j1" = some job ∧ job.status = status ∧
      (∀ w, Sample.sweepPolicy.minSweepMicro ≤ Sample.droppedTreasury.usdt w job.depositAddress) ∧
      ¬∃ turns w', Sample.droppedTreasury.Leads (Sample.sweepDeps .memory) m.tasks.length m.world
          turns w' ∧ (w'.job "j1").map SweepJob.status = some .SWEPT := by
  have hHolds : ∀ (job : SweepJob) (w : SweepWorld),
      Sample.sweepPolicy.minSweepMicro ≤ Sample.droppedTreasury.usdt w job.depositAddress := by
    intro job w
    show (1000000 : Int) ≤ 2000000
    decide
  have hDropped : ∀ {txId : Option String} {sent : String}, txId = some sent → sent ≠ "new" →
      ∀ s, truthy txId = some s → Sample.droppedTreasury.confirmsAt s = none := by
    intro txId sent hTx hOld s hTruthy
    obtain rfl : sent = s := by
      rw [hTx, truthy] at hTruthy
      grind
    exact if_neg hOld
  refine List.forall_iff_forall_mem.mpr fun status hStatus => ?_
  have hRun : ∃ m job, (sweepSystem (Sample.sweepDeps .memory)).Reaches (fun _ _ => True)
        (Sweeper.start .empty 0) m ∧ m.world.job "j1" = some job ∧ job.status = status ∧
      ¬Sweepable Sample.droppedTreasury (Sample.sweepDeps .memory) m.tasks.length m.world "j1" := by
    simp only [List.mem_cons, List.not_mem_nil, or_false] at hStatus
    rcases hStatus with rfl | rfl | rfl
    · exact stranded_of_run .EMPTY none none
        (Sample.enqueues 0 ++ Sample.findsNothing 1 ++ Sample.stores 1)
        (fun job h _ _ => .inl h) (by decide +kernel)
    · exact stranded_of_run .GAS_FUELING (some "gas1") none
        (Sample.enqueues 0 ++ Sample.fuelsGas 1 "gas1" ++ Sample.stores 1)
        (fun job h hTx _ => .inr (.inl ⟨h, hDropped hTx (by decide)⟩)) (by decide +kernel)
    · exact stranded_of_run .SWEEPING none (some "tx1")
        (Sample.enqueues 0 ++ Sample.broadcasts 1 "tx1" ++ Sample.stores 1)
        (fun job h _ hTx => .inr (.inr ⟨h, hDropped hTx (by decide)⟩)) (by decide +kernel)
  obtain ⟨m, job, hReach, hJob, hIs, hNot⟩ := hRun
  exact ⟨m, job, hReach, hJob, hIs, hHolds job, hNot⟩

/-- A job that has just been filed. -/
theorem swept_unless_stranded_sample : ∃ m : Sweeper, ∃ turns w',
    (sweepSystem (Sample.sweepDeps .memory)).Reaches (fun _ _ => True) (Sweeper.start .empty 0) m ∧
      Sample.droppedTreasury.Leads (Sample.sweepDeps .memory) m.tasks.length m.world turns w' ∧
      (w'.job "j1").map SweepJob.status = some .SWEPT := by
  obtain ⟨m, hReach, hCheck⟩ := System.exists_reaches (sweepSystem (Sample.sweepDeps .memory))
    (fun _ _ => true) (Sweeper.start .empty 0) (Sample.enqueues 0)
    (fun m => (m.world.job "j1").any fun job => job.status = .PENDING) (by decide +kernel)
  obtain ⟨job, hJob, hStatus⟩ := (Option.any_eq_true _ _).mp hCheck
  have hPending : job.status = .PENDING := by simpa using hStatus
  have hRun : (sweepSystem (Sample.sweepDeps .memory)).Reaches (fun _ _ => True)
      (Sweeper.start .empty 0) m := hReach.mono fun _ _ _ _ _ => trivial
  have hFree : ¬Sample.droppedTreasury.Stranded job := by
    rintro (h | ⟨h, -⟩ | ⟨h, -⟩) <;> rw [hPending] at h <;> cases h
  obtain ⟨turns, w', hLeads, hSwept⟩ :=
    (swept_unless_stranded Sample.droppedTreasury (Sample.sweepDeps .memory) hRun hJob
      fun w _ _ => show (1000000 : Int) ≤ 2000000 by decide).mpr hFree
  exact ⟨m, turns, w', hRun, hLeads, hSwept⟩

end VpnPayment
