import VpnPayment.Sweep.Overlap

/-! Passes that stop. A task that never moves again stands for a process that has
stopped, and the tasks after it for what the restarted process does. -/
namespace VpnPayment

open Async Collections

/-- A task makes a call only if no later task has made one: an earlier task has
ended by then, or stopped for good. Passing time does not count. -/
def oneProcess (m : Sweeper) : SweepLabel → Bool
  | .spawn _ => true
  | .step i _ => match m.nextCall i with
      | none | some .tick => true
      | some _ => m.world.trace.all fun e => e.call = .tick || e.task ≤ i

/-- A job is handed out only when no earlier task has a broadcast for it yet to
store, and requeued only when its last transfer was seen to fail, if there was
one. -/
def resumesSafely (deps : SweepDeps) (m : Sweeper) : SweepLabel → Bool
  | .spawn _ => true
  | .step i reply => (m.nextCall i).all fun c =>
      ((sweepExec deps.backend i c reply m.world).all fun result =>
        (c.taken result.1).all fun job => (m.world.history job.id).owes.all fun k => k = i) &&
      match c with
      | .update .retry job => job.sweepTxId.all fun txId => txId ∈ m.world.failed
      | _ => true

/-- Task `i` is about to transfer for a job whose latest transfer was not seen to
fail. -/
def transfersAgain (m : Sweeper) (i : Nat) (id : String) : Bool :=
  ((m.nextCall i).any fun c => c.transfers id) &&
    (m.world.history id).latest.any fun txId => txId ∉ m.world.failed

section runs

variable {deps : SweepDeps} {clock : Int} {m m' : Sweeper} {label : SweepLabel}

theorem disciplined_of_resume (hOrder : InOrder m.world.trace)
    (hProcess : oneProcess m label = true) (hSafe : resumesSafely deps m label = true)
    (hStep : (sweepSystem deps).step m label = some m') :
    SweepDisciplined ⟨false, true⟩ deps m label ∧ InOrder m'.world.trace := by
  have hForemost : ∀ i reply c, label = .step i reply → m.nextCall i = some c → c ≠ .tick →
      Foremost m.world i := by
    rintro i reply c rfl hCall hNe e hMem hTick
    cases c with
    | tick => exact absurd rfl hNe
    | _ =>
        simp only [oneProcess, hCall, List.all_eq_true] at hProcess
        simpa [hTick] using hProcess e hMem
  refine ⟨sweepDisciplined_of hStep ?_, inOrder_step hOrder hStep hForemost⟩
  rintro i reply c rfl hCall
  simp only [resumesSafely, hCall, Option.all_some, Bool.and_eq_true, Option.all_eq_true,
    List.all_eq_true, decide_eq_true_eq] at hSafe
  refine ⟨fun id hAbout => ?_, fun answer w' hExec => hSafe.1 (answer, w') hExec, nofun, ?_⟩
  · have hNe : c ≠ .tick := fun hEq => by
      subst hEq
      cases hAbout
    exact undisturbed_of_inOrder hOrder (hForemost i reply c rfl hCall hNe)
  · rintro - job rfl
    simpa [Option.all_eq_true] using hSafe.2

/-- Where jobs are taken up again only once all their broadcasts are stored, and
requeued only after their transfer was seen to fail, no transfer is made while an
earlier one may still go through. -/
theorem no_transfer_while_pending
    (hRun : (sweepSystem deps).Reaches
      (fun m label => (oneProcess m label && resumesSafely deps m label) = true)
      (Sweeper.start .empty clock) m)
    {i : Nat} {reply : SweepReply}
    (hLabel : (oneProcess m (.step i reply) && resumesSafely deps m (.step i reply)) = true)
    (hStep : (sweepSystem deps).step m (.step i reply) = some m') (id : String) :
    transfersAgain m i id = false := by
  have hInv : (sweepDiscipline ⟨false, true⟩ deps).Coherent m ∧ InOrder m.world.trace := by
    refine hRun.invariant (P := fun m => (sweepDiscipline ⟨false, true⟩ deps).Coherent m ∧
      InOrder m.world.trace) ?_ ⟨sweepCoherent_start, List.Pairwise.nil⟩
    rintro m label m' hLabel hStep ⟨hCoh, hOrder⟩
    obtain ⟨hProcess, hSafe⟩ := Bool.and_eq_true_iff.mp hLabel
    obtain ⟨hAllowed, hOrder'⟩ := disciplined_of_resume hOrder hProcess hSafe hStep
    exact ⟨(SweepDisciplined.step hCoh hAllowed hStep).1, hOrder'⟩
  obtain ⟨hCoh, hOrder⟩ := hInv
  obtain ⟨hProcess, hSafe⟩ := Bool.and_eq_true_iff.mp hLabel
  obtain ⟨hAllowed, -⟩ := disciplined_of_resume hOrder hProcess hSafe hStep
  refine Bool.eq_false_iff.mpr fun hAgain => ?_
  simp only [transfersAgain, Bool.and_eq_true, Option.any_eq_true, decide_eq_true_eq] at hAgain
  obtain ⟨⟨c, hCall, hTransfers⟩, txId, hLatest, hNotFailed⟩ := hAgain
  obtain ⟨answer, hExec⟩ := System.exec_of_step hStep hCall
  obtain ⟨⟨applied, hTrace⟩, -, -⟩ := sweepExec_logged hExec
  obtain ⟨-, hSame | ⟨k, hMoves⟩⟩ := SweepDisciplined.step hCoh hAllowed hStep
  · rw [hSame] at hTrace
    exact absurd hTrace.symm (List.cons_ne_self _ _)
  · cases c with
    | sweepTrc20 forJob depositIndex fromAddress toAddress amountMicro =>
        obtain rfl : forJob = id := by simpa [SweepCall.transfers] using hTransfers
        exact hNotFailed (hMoves.fenced rfl _ _ _ _ _ (by rw [hTrace]; rfl) txId hLatest)
    | _ => cases hTransfers

end runs

namespace Sample

/-- The confirmation check throws, and the error is stored. -/
def failsToConfirm (task : Nat) : List SweepLabel :=
  [.spawn (.processDue 50), .step task .normal, .step task .normal,
    .step task (.throws false (plainError "node down")), .step task .normal, .step task .normal]

def passTime (task : Nat) (t : Int) : List SweepLabel :=
  [.spawn .tick, .step task (.time t)]

/-- The checks fail until the job is FAILED, and the operator requeues it. -/
def failsAndRetries : List SweepLabel :=
  passTime 2 60000 ++ failsToConfirm 3 ++ passTime 4 120000 ++ failsToConfirm 5 ++
    passTime 6 240000 ++ failsToConfirm 7 ++
    [.spawn (.retry "o1"), .step 8 .normal, .step 8 .normal, .step 8 .normal]

/-- A pass is about to transfer. -/
def aboutToTransfer (task : Nat) : List SweepLabel :=
  [.spawn (.processDue 50), .step task .normal, .step task .normal, .step task (.balance 2000000),
    .step task (.balance 20000000)]

end Sample

/-- The transfer was seen to fail before the operator requeued the job. -/
theorem no_transfer_while_pending_sample : ∃ m m' : Sweeper,
    (sweepSystem (Sample.sweepDeps .sql)).Reaches (fun m label =>
      (oneProcess m label && resumesSafely (Sample.sweepDeps .sql) m label) = true)
      (Sweeper.start .empty 0) m ∧
    (sweepSystem (Sample.sweepDeps .sql)).step m (.step 10 (.txId "tx2")) = some m' ∧
    (m.world.history "j1").latest = some "tx1" ∧ transfersAgain m 10 "j1" = false := by
  obtain ⟨m, hRun, hCheck⟩ := System.exists_reaches (sweepSystem (Sample.sweepDeps .sql))
    (fun m label => oneProcess m label && resumesSafely (Sample.sweepDeps .sql) m label)
    (Sweeper.start .empty 0)
    (Sample.enqueues 0 ++ Sample.broadcasts 1 "tx1" ++ Sample.stores 1 ++
      [.spawn .tick, .step 2 (.seenToFail "tx1")] ++
      (Sample.passTime 3 60000 ++ Sample.failsToConfirm 4 ++ Sample.passTime 5 120000 ++
        Sample.failsToConfirm 6 ++ Sample.passTime 7 240000 ++ Sample.failsToConfirm 8) ++
      [.spawn (.retry "o1"), .step 9 .normal, .step 9 .normal, .step 9 .normal] ++
      Sample.aboutToTransfer 10)
    (fun m => (m.world.history "j1").latest = some "tx1" &&
      (oneProcess m (.step 10 (.txId "tx2")) &&
        resumesSafely (Sample.sweepDeps .sql) m (.step 10 (.txId "tx2"))) &&
      ((sweepSystem (Sample.sweepDeps .sql)).step m (.step 10 (.txId "tx2"))).isSome)
    (by decide +kernel)
  simp only [Bool.and_eq_true, decide_eq_true_eq, Option.isSome_iff_exists] at hCheck
  obtain ⟨⟨hLatest, hLabel⟩, m', hStep⟩ := hCheck
  exact ⟨m, m', hRun, hStep, hLatest,
    no_transfer_while_pending hRun (Bool.and_eq_true_iff.mpr hLabel) hStep "j1"⟩

/-- The process stops after the broadcast and before its answer is stored. Or the
confirmation check throws until the job is FAILED, and the operator requeues it.
Either way the deposit is transferred again. -/
theorem transfers_again_after_crash_or_retry :
    (∃ m m' : Sweeper, (sweepSystem (Sample.sweepDeps .sql)).Reaches
        (fun m label => oneProcess m label = true) (Sweeper.start .empty 0) m ∧
      transfersAgain m 2 "j1" = true ∧
      (sweepSystem (Sample.sweepDeps .sql)).step m (.step 2 (.txId "tx2")) = some m') ∧
    ∃ m m' : Sweeper, (sweepSystem (Sample.sweepDeps .sql)).Reaches
        (fun m label => oneProcess m label = true) (Sweeper.start .empty 0) m ∧
      transfersAgain m 9 "j1" = true ∧
      (sweepSystem (Sample.sweepDeps .sql)).step m (.step 9 (.txId "tx2")) = some m' := by
  constructor
  · obtain ⟨m, hRun, hCheck⟩ := System.exists_reaches (sweepSystem (Sample.sweepDeps .sql))
      oneProcess (Sweeper.start .empty 0)
      (Sample.enqueues 0 ++ Sample.broadcasts 1 "tx1" ++ Sample.aboutToTransfer 2)
      (fun m => transfersAgain m 2 "j1" &&
        ((sweepSystem (Sample.sweepDeps .sql)).step m (.step 2 (.txId "tx2"))).isSome)
      (by decide +kernel)
    simp only [Bool.and_eq_true, Option.isSome_iff_exists] at hCheck
    obtain ⟨hAgain, m', hStep⟩ := hCheck
    exact ⟨m, m', hRun, hAgain, hStep⟩
  · obtain ⟨m, hRun, hCheck⟩ := System.exists_reaches (sweepSystem (Sample.sweepDeps .sql))
      oneProcess (Sweeper.start .empty 0)
      (Sample.enqueues 0 ++ Sample.broadcasts 1 "tx1" ++ Sample.stores 1 ++
        Sample.failsAndRetries ++ Sample.aboutToTransfer 9)
      (fun m => transfersAgain m 9 "j1" &&
        ((sweepSystem (Sample.sweepDeps .sql)).step m (.step 9 (.txId "tx2"))).isSome)
      (by decide +kernel)
    simp only [Bool.and_eq_true, Option.isSome_iff_exists] at hCheck
    obtain ⟨hAgain, m', hStep⟩ := hCheck
    exact ⟨m, m', hRun, hAgain, hStep⟩

end VpnPayment
