import VpnPayment.Sweep.Runs

/-! The life cycle of a sweep job when the methods of the service are called one
after another. -/
namespace VpnPayment

open Async Collections

def SweepReply.isNormal : SweepReply → Bool
  | .normal => true
  | _ => false

/-- A task makes a call when every other task that has made one came before it
and has settled. Passing time does not count. -/
def callsInTurn (m : Sweeper) : SweepLabel → Bool
  | .spawn _ => true
  | .step i _ => match m.nextCall i with
      | none | some .tick => true
      | some _ => m.world.trace.all fun e =>
          e.call = .tick || e.task = i || (e.task < i && m.returned e.task)

/-- The writes of the repository succeed. -/
def jobWritesSucceed (m : Sweeper) : SweepLabel → Bool
  | .spawn _ => true
  | .step i reply => match m.nextCall i with
      | some (.create _) | some (.update _ _) => reply.isNormal
      | _ => true

/-- The sequential runs with a working repository. -/
def sequentialSweeps (m : Sweeper) (label : SweepLabel) : Bool :=
  callsInTurn m label && jobWritesSucceed m label

section runs

variable {deps : SweepDeps} {clock : Int} {m m' : Sweeper} {label : SweepLabel}

theorem others_of_callsInTurn {i : Nat} {reply : SweepReply} {c : SweepCall}
    (h : callsInTurn m (.step i reply) = true) (hCall : m.nextCall i = some c) (hNe : c ≠ .tick) :
    ∀ e ∈ m.world.trace, e.call ≠ .tick → e.task ≠ i → e.task < i ∧ m.returned e.task = true := by
  intro e hMem hTick hOther
  cases c with
  | tick => exact absurd rfl hNe
  | _ =>
      simp only [callsInTurn, hCall, List.all_eq_true] at h
      simpa [hTick, hOther] using h e hMem

/-- A task that has settled owes nothing. -/
theorem owes_ne_of_returned {mode : SweepMode} {k : Nat}
    (hCoh : (sweepDiscipline mode deps).Coherent m) (hMode : mode.strict = true)
    (hReturned : m.returned k = true) (id : String) : (m.world.history id).owes ≠ some k := by
  obtain ⟨t, result, ht, hp⟩ := Machine.returned_iff.mp hReturned
  have hWp := hCoh.wp k t ht
  rw [hp] at hWp
  exact (hWp m.world .refl hCoh.inv).2 hMode id

/-- The side condition of the discipline holds in sequential runs. -/
theorem disciplined_of_sequential
    (hCoh : (sweepDiscipline ⟨true, false⟩ deps).Coherent m) (hOrder : InOrder m.world.trace)
    (hSequential : sequentialSweeps m label = true)
    (hStep : (sweepSystem deps).step m label = some m') :
    SweepDisciplined ⟨true, false⟩ deps m label ∧ InOrder m'.world.trace := by
  obtain ⟨hTurn, hWrites⟩ := Bool.and_eq_true_iff.mp hSequential
  have hForemost : ∀ i reply c, label = .step i reply → m.nextCall i = some c → c ≠ .tick →
      Foremost m.world i := by
    rintro i reply c rfl hCall hNe e hMem hTick
    by_cases hOther : e.task = i
    · exact hOther.le
    · exact (others_of_callsInTurn hTurn hCall hNe e hMem hTick hOther).1.le
  refine ⟨sweepDisciplined_of hStep ?_, inOrder_step hOrder hStep hForemost⟩
  rintro i reply c rfl hCall
  refine ⟨fun id hAbout => ?_, fun answer w' hExec job hTaken k hOwes => ?_, ?_, nofun⟩
  · have hNe : c ≠ .tick := fun hEq => by
      subst hEq
      cases hAbout
    exact undisturbed_of_inOrder hOrder (hForemost i reply c rfl hCall hNe)
  · have hNe : c ≠ .tick := fun hEq => by
      subst hEq
      cases hTaken
    obtain ⟨e, hMem, rfl, hAbout⟩ := owes_mem hOwes
    refine Classical.byContradiction fun hOther => ?_
    have hTick : e.call ≠ .tick := fun hEq => by
      rw [hEq] at hAbout
      cases hAbout
    have hReturned := (others_of_callsInTurn hTurn hCall hNe e hMem hTick hOther).2
    exact owes_ne_of_returned hCoh rfl hReturned job.id hOwes
  · rintro - caller job rfl
    simp only [jobWritesSucceed, hCall] at hWrites
    cases reply with
    | normal => rfl
    | _ => cases hWrites

theorem coherent_of_sequential
    (hRun : (sweepSystem deps).Reaches (fun m label => sequentialSweeps m label = true)
      (Sweeper.start .empty clock) m) :
    (sweepDiscipline ⟨true, false⟩ deps).Coherent m ∧ InOrder m.world.trace := by
  refine hRun.invariant (P := fun m => (sweepDiscipline ⟨true, false⟩ deps).Coherent m ∧
    InOrder m.world.trace) ?_ ⟨sweepCoherent_start, List.Pairwise.nil⟩
  rintro m label m' hSequential hStep ⟨hCoh, hOrder⟩
  obtain ⟨hAllowed, hOrder'⟩ := disciplined_of_sequential hCoh hOrder hSequential hStep
  exact ⟨(SweepDisciplined.step hCoh hAllowed hStep).1, hOrder'⟩

/-- In every sequential run the stored jobs fit the calls made for them, and a
step changes a status only along the pipeline, or back to PENDING by `retry`. -/
theorem sweep_follows_machine (hMax : 1 ≤ deps.policy.maxAttempts)
    (hRun : (sweepSystem deps).Reaches (fun m label => sequentialSweeps m label = true)
      (Sweeper.start .empty clock) m) {id : String} {job : SweepJob}
    (hJob : m.world.job id = some job) :
    ((job.status = .GAS_FUELING → ∃ gasTxId, job.gasTxId = some gasTxId ∧ gasTxId ≠ "") ∧
      (job.status = .SWEEPING ∨ job.status = .SWEPT → ∃ sweepTxId,
        job.sweepTxId = some sweepTxId ∧ sweepTxId ≠ "" ∧
        (job.amountMicro, sweepTxId) ∈ (m.world.history id).sweeps ∧
        deps.policy.minSweepMicro ≤ job.amountMicro) ∧
      (isSweepTerminal job.status = false → job.attempts < deps.policy.maxAttempts) ∧
      (m.world.history id).sweeps.length ≤ 1 + (m.world.history id).retries) ∧
    ∀ label m', sequentialSweeps m label = true → (sweepSystem deps).step m label = some m' →
      ∃ job', m'.world.job id = some job' ∧
        (SweepEdge job.status job'.status = true ∨
          job.status = .FAILED ∧ job'.status = .PENDING ∧
            ∃ i reply saved, label = .step i reply ∧
              m.nextCall i = some (.update .retry saved)) := by
  obtain ⟨hCoh, hOrder⟩ := coherent_of_sequential hRun
  constructor
  · obtain ⟨hSane, hLeft⟩ := hCoh.inv.rows id job hJob
    refine ⟨fun hFueling => ?_, hSane.swept, hLeft hMax, by rw [Nat.add_comm]; exact hSane.sent⟩
    obtain ⟨gasTxId, hGas⟩ := Option.isSome_iff_exists.mp (hSane.gas hFueling).1
    obtain ⟨hSome, hNe⟩ := Option.filter_eq_some_iff.mp hGas
    exact ⟨gasTxId, hSome, by simpa using hNe⟩
  · intro label m' hSequential hStep
    obtain ⟨hAllowed, -⟩ := disciplined_of_sequential hCoh hOrder hSequential hStep
    obtain hSame | ⟨i, reply, c, answer, hLabel, hCall, hExec⟩ := System.world_of_step hStep
    · exact ⟨job, by rw [hSame, hJob], .inl (sweepEdge_refl _)⟩
    · obtain ⟨-, hSame | ⟨k, hMoves⟩⟩ := SweepDisciplined.step hCoh hAllowed hStep
      · exact ⟨job, by rw [hSame, hJob], .inl (sweepEdge_refl _)⟩
      · obtain hKeep | ⟨job', caller, saved, hJob', hHead, -, hEdge⟩ := hMoves.rows id job hJob
        · exact ⟨job, hKeep, .inl (sweepEdge_refl _)⟩
        · refine ⟨job', hJob', (hEdge rfl).imp_right ?_⟩
          rintro ⟨rfl, hFailed, hPending⟩
          obtain ⟨⟨applied, hTrace⟩, -, -⟩ := sweepExec_logged hExec
          rw [hTrace] at hHead
          obtain rfl : c = _ := Option.some.inj hHead
          exact ⟨hFailed, hPending, i, reply, saved, hLabel, hCall⟩

end runs

namespace Sample

def sweepPolicy : SweepPolicy := ⟨"TCollect", 1000000, 30000000, 15000000, 3, 60000⟩

def sweepDeps (b : Backend) : SweepDeps := ⟨b, sweepPolicy, false⟩

/-- A task enqueues the deposit of an order as job `j1`. -/
def enqueues (task : Nat) : List SweepLabel :=
  [.spawn (.enqueue ⟨"o1", 0, "TDeposit"⟩), .step task .normal, .step task .normal,
    .step task (.text "j1"), .step task .normal]

/-- A pass finds the job and a deposit with enough gas, and broadcasts. -/
def broadcasts (task : Nat) (txId : String) : List SweepLabel :=
  [.spawn (.processDue 50), .step task .normal, .step task .normal, .step task (.balance 2000000),
    .step task (.balance 20000000), .step task (.txId txId)]

/-- The clock is read and the job stored. -/
def stores (task : Nat) : List SweepLabel :=
  [.step task .normal, .step task .normal]

end Sample

/-- A job that has been broadcast. -/
theorem sweep_follows_sample : ∃ m : Sweeper, ∃ job,
    (sweepSystem (Sample.sweepDeps .memory)).Reaches (fun m label => sequentialSweeps m label = true)
      (Sweeper.start .empty 0) m ∧
    m.world.job "j1" = some job ∧ job.status = .SWEEPING ∧
    ∃ sweepTxId, job.sweepTxId = some sweepTxId ∧
      (job.amountMicro, sweepTxId) ∈ (m.world.history "j1").sweeps := by
  obtain ⟨m, hRun, hCheck⟩ := System.exists_reaches (sweepSystem (Sample.sweepDeps .memory))
    sequentialSweeps (Sweeper.start .empty 0)
    (Sample.enqueues 0 ++ Sample.broadcasts 1 "tx1" ++ Sample.stores 1)
    (fun m => (m.world.job "j1").any fun job => job.status = .SWEEPING) (by decide +kernel)
  obtain ⟨job, hJob, hStatus⟩ := (Option.any_eq_true _ _).mp hCheck
  have hSweeping : job.status = .SWEEPING := by simpa using hStatus
  obtain ⟨⟨-, hSwept, -, -⟩, -⟩ := sweep_follows_machine (by decide) hRun hJob
  obtain ⟨sweepTxId, hTx, -, hMem, -⟩ := hSwept (.inl hSweeping)
  exact ⟨m, job, hRun, hJob, hSweeping, sweepTxId, hTx, hMem⟩

end VpnPayment
