import VpnPayment.Sweep.Lifecycle

/-! Passes that overlap. Jobs are handed out as snapshots without a claim, so two
passes may work on one job. -/
namespace VpnPayment

open Async Collections

def SweepCall.transfers (id : String) : SweepCall → Bool
  | .sweepTrc20 forJob _ _ _ _ => forJob = id
  | _ => false

def SweepCall.fuels (id : String) : SweepCall → Bool
  | .fuelGas forJob _ _ => forJob = id
  | _ => false

/-- The number of transfers and of gas payments requested for a job. -/
def SweepWorld.transferCalls (w : SweepWorld) (id : String) : Nat :=
  w.trace.countP fun e => e.call.transfers id

def SweepWorld.fuelCalls (w : SweepWorld) (id : String) : Nat :=
  w.trace.countP fun e => e.call.fuels id

/-- How far along the pipeline a status is. -/
def SweepStatus.stage : SweepStatus → Nat
  | .PENDING => 0
  | .GAS_FUELING => 1
  | .SWEEPING => 2
  | _ => 3

def SweepReply.isThrow : SweepReply → Bool
  | .throws _ _ => true
  | _ => false

/-- The treasury does not throw. -/
def treasuryAnswers (m : Sweeper) : SweepLabel → Bool
  | .spawn _ => true
  | .step i reply => match m.nextCall i with
      | some (.trc20BalanceMicro _) | some (.trxBalanceSun _) | some (.fuelGas _ _ _)
      | some (.sweepTrc20 _ _ _ _ _) | some (.isConfirmed _) => !reply.isThrow
      | _ => true

/-- No job is requeued by an operator. -/
def nothingRequeued (m : Sweeper) : SweepLabel → Bool
  | .spawn _ => true
  | .step i _ => match m.nextCall i with
      | some (.update .retry _) => false
      | _ => true

/-- Any number of passes at once, with a treasury and a repository that work. -/
def overlappingPasses (m : Sweeper) (label : SweepLabel) : Bool :=
  nothingRequeued m label && treasuryAnswers m label && jobWritesSucceed m label

instance (trace : List SweepEvent) (i : Nat) (id : String) : Decidable (TookIn trace i id) :=
  inferInstanceAs (Decidable (∃ e ∈ trace, e.task = i ∧ ∃ job ∈ e.call.taken e.answer, job.id = id))

instance decidableUndisturbedIn (i : Nat) (id : String) :
    (trace : List SweepEvent) → Decidable (UndisturbedIn i id trace)
  | [] => isTrue trivial
  | e :: older =>
      have := decidableUndisturbedIn i id older
      inferInstanceAs (Decidable (UndisturbedIn i id older ∧
        (e.task ≠ i → (∃ job ∈ e.call.taken e.answer, job.id = id) → ¬TookIn older i id)))

/-- A pass broadcasts for a job, and stores it, only while no other pass has taken
the job after it did, and no job is handed out while another pass has a
broadcast for it yet to store. -/
def passesApart (deps : SweepDeps) (m : Sweeper) : SweepLabel → Bool
  | .spawn _ => true
  | .step i reply => (m.nextCall i).all fun c =>
      (c.about.all fun id => m.world.Undisturbed i id) &&
        (sweepExec deps.backend i c reply m.world).all fun result =>
          (c.taken result.1).all fun job => (m.world.history job.id).owes.all fun k => k = i

/-- What is not in the trace of passes that work: a broadcast that threw, and a
job that was requeued. -/
def SweepEvent.clean (e : SweepEvent) : Prop :=
  (∀ id, (e.call.transfers id = true ∨ e.call.fuels id = true) → ∀ error, e.answer ≠ .error error) ∧
    ∀ job, e.call ≠ .update .retry job

/-- Without failures and requeuing the history of a job is the count of its
calls. -/
theorem history_of_clean {id : String} {trace : List SweepEvent} (hClean : ∀ e ∈ trace, e.clean) :
    (historyOf id trace).sweeps.length = trace.countP (fun e => e.call.transfers id) ∧
    (historyOf id trace).fuels = trace.countP (fun e => e.call.fuels id) ∧
    (historyOf id trace).retries = 0 := by
  induction trace with
  | nil => exact ⟨rfl, rfl, rfl⟩
  | cons e older ih =>
      obtain ⟨hSweeps, hFuels, hRetries⟩ := ih fun e' hMem => hClean e' (List.mem_cons_of_mem _ hMem)
      obtain ⟨hOk, hNoRetry⟩ := hClean e List.mem_cons_self
      obtain ⟨i, c, answer, applied⟩ := e
      rw [List.countP_cons, List.countP_cons, ← hSweeps, ← hFuels, historyOf]
      cases c with
      | sweepTrc20 forJob depositIndex fromAddress toAddress amountMicro =>
          cases answer with
          | error e => exact absurd rfl (hOk forJob (.inl (by simp [SweepCall.transfers])) e)
          | ok txId =>
              by_cases hEq : forJob = id <;>
                simp [JobHistory.record, SweepCall.transfers, SweepCall.fuels, hEq, hRetries]
      | fuelGas forJob toAddress amountSun =>
          cases answer with
          | error e => exact absurd rfl (hOk forJob (.inr (by simp [SweepCall.fuels])) e)
          | ok txId =>
              by_cases hEq : forJob = id <;>
                simp [JobHistory.record, SweepCall.transfers, SweepCall.fuels, hEq, hRetries]
      | update caller job =>
          have hNe : caller ≠ .retry := fun hEq => hNoRetry job (hEq ▸ rfl)
          by_cases hEq : job.id = id ∧ applied = true <;>
            simp [JobHistory.record, SweepCall.transfers, SweepCall.fuels, hEq, hNe, hRetries]
      | _ => simp [JobHistory.record, SweepCall.transfers, SweepCall.fuels, hRetries]

theorem stage_of_sweepEdge {s s' : SweepStatus} (h : SweepEdge s s' = true) :
    s' = s ∨ s.stage < s'.stage := by
  cases s <;> cases s' <;> first | exact .inl rfl | exact .inr (by decide) | cases h

/-- A call outside the repository fails only if the environment says so. -/
theorem ok_of_not_isThrow {b : Backend} {i : Nat} {c : SweepCall} {reply : SweepReply}
    {w w' : SweepWorld} {answer : Except AppError (SweepAns c)}
    (hExec : sweepExec b i c reply w = some (answer, w')) (hEffect : jobsEffect b c = none)
    (hReply : reply.isThrow = false) (e : AppError) : answer ≠ .error e := by
  simp only [sweepExec, hEffect] at hExec
  split at hExec
  · cases hReply
  · obtain ⟨a, -, hEq⟩ := Option.map_eq_some_iff.mp hExec
    cases hEq
    exact fun h => by cases h

section runs

variable {deps : SweepDeps} {clock : Int} {m m' : Sweeper} {label : SweepLabel}

theorem disciplined_of_apart (hPasses : overlappingPasses m label = true)
    (hApart : passesApart deps m label = true)
    (hStep : (sweepSystem deps).step m label = some m') :
    SweepDisciplined ⟨true, false⟩ deps m label := by
  obtain ⟨-, hWrites⟩ := Bool.and_eq_true_iff.mp hPasses
  refine sweepDisciplined_of hStep ?_
  rintro i reply c rfl hCall
  simp only [passesApart, hCall, Option.all_some, Bool.and_eq_true, Option.all_eq_true,
    decide_eq_true_eq, List.all_eq_true] at hApart
  refine ⟨hApart.1, fun answer w' hExec => hApart.2 (answer, w') hExec, ?_, nofun⟩
  rintro - caller job rfl
  simp only [jobWritesSucceed, hCall] at hWrites
  cases reply with
  | normal => rfl
  | _ => cases hWrites

theorem clean_step (hPasses : overlappingPasses m label = true)
    (hStep : (sweepSystem deps).step m label = some m') (hClean : ∀ e ∈ m.world.trace, e.clean) :
    ∀ e ∈ m'.world.trace, e.clean := by
  obtain hSame | ⟨i, reply, c, answer, rfl, hCall, hExec⟩ := System.world_of_step hStep
  · rwa [hSame]
  · obtain ⟨⟨applied, hTrace⟩, -, -⟩ := sweepExec_logged hExec
    simp only [overlappingPasses, nothingRequeued, treasuryAnswers, hCall, Bool.and_eq_true]
      at hPasses
    rw [hTrace]
    intro e hMem
    rcases List.mem_cons.mp hMem with rfl | hOlder
    · constructor
      · intro id hBroadcast
        cases c with
        | sweepTrc20 forJob depositIndex fromAddress toAddress amountMicro =>
            exact ok_of_not_isThrow (b := deps.backend) hExec rfl (by simpa using hPasses.1.2)
        | fuelGas forJob toAddress amountSun =>
            exact ok_of_not_isThrow (b := deps.backend) hExec rfl (by simpa using hPasses.1.2)
        | _ => rcases hBroadcast with h | h <;> cases h
      · rintro job rfl
        cases hPasses.1.1
    · exact hClean e hOlder

/-- What the theorem about passes that keep apart is proved from. -/
theorem coherent_of_apart (hRun : (sweepSystem deps).Reaches
      (fun m label => (overlappingPasses m label && passesApart deps m label) = true)
      (Sweeper.start .empty clock) m) :
    (sweepDiscipline ⟨true, false⟩ deps).Coherent m ∧ ∀ e ∈ m.world.trace, e.clean := by
  refine hRun.invariant (P := fun m => (sweepDiscipline ⟨true, false⟩ deps).Coherent m ∧
    ∀ e ∈ m.world.trace, e.clean) ?_ ⟨sweepCoherent_start, fun e hMem => by cases hMem⟩
  rintro m label m' hLabel hStep ⟨hCoh, hClean⟩
  obtain ⟨hPasses, hApart⟩ := Bool.and_eq_true_iff.mp hLabel
  exact ⟨(SweepDisciplined.step hCoh (disciplined_of_apart hPasses hApart hStep) hStep).1,
    clean_step hPasses hStep hClean⟩

/-- One step moves a stored status forward or leaves it. -/
theorem forward_of_step (hCoh : (sweepDiscipline ⟨true, false⟩ deps).Coherent m)
    (hPasses : overlappingPasses m label = true) (hApart : passesApart deps m label = true)
    (hStep : (sweepSystem deps).step m label = some m') {id : String} {job : SweepJob}
    (hJob : m.world.job id = some job) : ∃ job', m'.world.job id = some job' ∧
      (job'.status = job.status ∨ job.status.stage < job'.status.stage) := by
  obtain hSame | ⟨i, reply, c, answer, rfl, hCall, hExec⟩ := System.world_of_step hStep
  · exact ⟨job, by rw [hSame, hJob], .inl rfl⟩
  obtain ⟨-, hSame | ⟨k, hMoves⟩⟩ :=
    SweepDisciplined.step hCoh (disciplined_of_apart hPasses hApart hStep) hStep
  · exact ⟨job, by rw [hSame, hJob], .inl rfl⟩
  obtain hKeep | ⟨job', caller, saved, hJob', hHead, -, hEdge⟩ := hMoves.rows id job hJob
  · exact ⟨job, hKeep, .inl rfl⟩
  · refine ⟨job', hJob', ?_⟩
    rcases hEdge rfl with hEdge | ⟨rfl, -, -⟩
    · exact stage_of_sweepEdge hEdge
    · obtain ⟨⟨applied, hTrace⟩, -, -⟩ := sweepExec_logged hExec
      rw [hTrace] at hHead
      obtain rfl : c = _ := Option.some.inj hHead
      simp [overlappingPasses, nothingRequeued, hCall] at hPasses

/-- As long as overlapping passes keep apart on each job, a job is fueled and
transferred at most once, and its status never moves backwards. -/
theorem sweep_once_while_apart (hRun : (sweepSystem deps).Reaches
      (fun m label => (overlappingPasses m label && passesApart deps m label) = true)
      (Sweeper.start .empty clock) m)
    (hMore : (sweepSystem deps).Reaches
      (fun m label => (overlappingPasses m label && passesApart deps m label) = true) m m')
    (id : String) :
    m.world.fuelCalls id ≤ 1 ∧ m.world.transferCalls id ≤ 1 ∧
    ∀ job, m.world.job id = some job → ∃ job', m'.world.job id = some job' ∧
      (job'.status = job.status ∨ job.status.stage < job'.status.stage) := by
  obtain ⟨hCoh, hClean⟩ := coherent_of_apart hRun
  obtain ⟨hSweeps, hFuels, hRetries⟩ := @history_of_clean id _ hClean
  rw [SweepWorld.fuelCalls, SweepWorld.transferCalls, ← hSweeps, ← hFuels]
  have hCounts : (m.world.history id).fuels ≤ 1 ∧ (m.world.history id).sweeps.length ≤ 1 := by
    cases hRow : m.world.job id with
    | none =>
        rw [(hCoh.inv.known id hRow).1]
        exact ⟨by decide, by decide⟩
    | some row =>
        have hSane := (hCoh.inv.rows id row hRow).1
        have hSent := hSane.sent
        have hFueled := hSane.fueled
        simp only [SweepWorld.history, hRetries] at hSent hFueled
        exact ⟨hFueled, hSent⟩
  refine ⟨hCounts.1, hCounts.2, fun job hJob => ?_⟩
  induction hMore with
  | refl => exact ⟨job, hJob, .inl rfl⟩
  | tail prior hLabel last ih =>
      obtain ⟨job₁, hJob₁, hForward₁⟩ := ih
      obtain ⟨hPasses, hApart⟩ := Bool.and_eq_true_iff.mp hLabel
      obtain ⟨job₂, hJob₂, hForward₂⟩ := forward_of_step (coherent_of_apart (hRun.trans prior)).1
        hPasses hApart last hJob₁
      refine ⟨job₂, hJob₂, ?_⟩
      rcases hForward₁ with hSame₁ | hLess₁
      · rwa [hSame₁] at hForward₂
      · rcases hForward₂ with hSame₂ | hLess₂
        · exact .inr (hSame₂ ▸ hLess₁)
        · exact .inr (hLess₁.trans hLess₂)

end runs

namespace Sample

/-- Pass 2 has broadcast for `j1` and looks at the deposit of `j2` when pass 4 takes `j1`. -/
def overlaps : List SweepLabel :=
  List.flatten [enqueues 0, [.spawn (.enqueue ⟨"o2", 1, "TOther"⟩), .step 1 .normal,
      .step 1 .normal, .step 1 (.text "j2"), .step 1 .normal],
    broadcasts 2 "tx1", stores 2, [.step 2 (.balance 2000000)],
    [.spawn .tick, .step 3 (.time 60000), .spawn (.processDue 1), .step 4 .normal,
      .step 4 .normal]]

/-- Both passes go on, one with each job. -/
def bothGoOn : List SweepLabel :=
  List.flatten [[.step 2 (.balance 20000000), .step 4 (.confirmed true), .step 2 (.txId "tx2")],
    stores 4, stores 2]

end Sample

/-- Two passes overlap and work on different jobs. -/
theorem sweep_once_sample : ∃ m m' : Sweeper, ∃ job,
    (sweepSystem (Sample.sweepDeps .sql)).Reaches (fun m label =>
      (overlappingPasses m label && passesApart (Sample.sweepDeps .sql) m label) = true)
      (Sweeper.start .empty 0) m ∧
    (sweepSystem (Sample.sweepDeps .sql)).Reaches (fun m label =>
      (overlappingPasses m label && passesApart (Sample.sweepDeps .sql) m label) = true) m m' ∧
    m.world.job "j1" = some job ∧ job.status = .SWEEPING ∧
    m.returned 2 = false ∧ m.returned 4 = false ∧
    (m'.world.job "j2").map SweepJob.status = some .SWEEPING ∧ m'.world.transferCalls "j1" = 1 ∧
    m.world.fuelCalls "j1" ≤ 1 ∧ m.world.transferCalls "j1" ≤ 1 ∧
    ∃ job', m'.world.job "j1" = some job' ∧
      (job'.status = job.status ∨ job.status.stage < job'.status.stage) := by
  obtain ⟨m, m', hRun, hMore, hCheck⟩ := System.exists_reaches_then
    (sweepSystem (Sample.sweepDeps .sql))
    (fun m label => overlappingPasses m label && passesApart (Sample.sweepDeps .sql) m label)
    (Sweeper.start .empty 0) Sample.overlaps Sample.bothGoOn
    (fun m m' => ((m.world.job "j1").any fun job => job.status = .SWEEPING) && !m.returned 2 &&
      !m.returned 4 && (m'.world.job "j2").map SweepJob.status = some .SWEEPING &&
      m'.world.transferCalls "j1" = 1) (by decide +kernel)
  simp only [Bool.and_eq_true, decide_eq_true_eq, Option.any_eq_true, Bool.not_eq_true'] at hCheck
  obtain ⟨⟨⟨⟨⟨job, hJob, hStatus⟩, hFirst⟩, hSecond⟩, hOther⟩, hOnce⟩ := hCheck
  obtain ⟨hFuel, hTransfer, hForward⟩ := sweep_once_while_apart hRun hMore "j1"
  exact ⟨m, m', job, hRun, hMore, hJob, hStatus, hFirst, hSecond, hOther, hOnce, hFuel, hTransfer,
    hForward job hJob⟩

/-- Pass 1 takes the PENDING job and pays for gas. Before it stores that, pass 2
takes the job too, finds gas and transfers. Pass 1 then stores GAS_FUELING over
SWEEPING, and pass 4 transfers once more. -/
theorem overlapping_passes_transfer_twice : ∃ m m' m'' : Sweeper,
    (sweepSystem (Sample.sweepDeps .sql)).Reaches
      (fun m label => overlappingPasses m label = true) (Sweeper.start .empty 0) m ∧
    (sweepSystem (Sample.sweepDeps .sql)).Reaches
      (fun m label => overlappingPasses m label = true) m m' ∧
    (sweepSystem (Sample.sweepDeps .sql)).Reaches
      (fun m label => overlappingPasses m label = true) m' m'' ∧
    (m.world.job "j1").map SweepJob.status = some .SWEEPING ∧
    (m'.world.job "j1").map SweepJob.status = some .GAS_FUELING ∧
    m''.world.transferCalls "j1" = 2 := by
  obtain ⟨m, hRun, hCheck⟩ := System.exists_reaches (sweepSystem (Sample.sweepDeps .sql))
    overlappingPasses (Sweeper.start .empty 0)
    (List.flatten [Sample.enqueues 0,
      [.spawn (.processDue 50), .step 1 .normal, .step 1 .normal, .step 1 (.balance 2000000),
        .step 1 (.balance 0), .step 1 (.txId "gas1")], Sample.broadcasts 2 "tx1",
      Sample.stores 2])
    (fun m => (m.world.job "j1").map SweepJob.status = some .SWEEPING &&
      ((sweepSystem (Sample.sweepDeps .sql)).run overlappingPasses m (Sample.stores 1)).any fun m' =>
        (m'.world.job "j1").map SweepJob.status = some .GAS_FUELING &&
        ((sweepSystem (Sample.sweepDeps .sql)).run overlappingPasses m'
          [.spawn .tick, .step 3 (.time 60000), .spawn (.processDue 50), .step 4 .normal,
            .step 4 .normal, .step 4 (.confirmed true), .step 4 (.txId "tx2")]).any fun m'' =>
          m''.world.transferCalls "j1" = 2) (by decide +kernel)
  simp only [Bool.and_eq_true, decide_eq_true_eq, Option.any_eq_true] at hCheck
  obtain ⟨hSweeping, m', hMore, hFueling, m'', hLast, hTwice⟩ := hCheck
  exact ⟨m, m', m'', hRun, System.reaches_of_run hMore, System.reaches_of_run hLast, hSweeping,
    hFueling, hTwice⟩

end VpnPayment
