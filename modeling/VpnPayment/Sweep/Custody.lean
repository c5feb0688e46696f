import VpnPayment.Async.Discipline
import VpnPayment.Sweep.Service

/-! Who works on which job. A pass takes the jobs that `due` answers, and `retry`
the FAILED job it finds. A task is undisturbed in its work on a job as long as
no other task has taken the job after it did. -/
namespace VpnPayment

open Async Collections

/-- The jobs a settled call hands to the task that made it. -/
def SweepCall.taken : (c : SweepCall) → Except AppError (SweepAns c) → List SweepJob
  | .due _ _, .ok jobs => jobs
  | .findByOrderId .retry _, .ok (some job) => if job.status = .FAILED then [job] else []
  | _, _ => []

/-- The job a call broadcasts for or stores. -/
def SweepCall.about : SweepCall → Option String
  | .update _ job => some job.id
  | .fuelGas forJob _ _ => some forJob
  | .sweepTrc20 forJob _ _ _ _ => some forJob
  | _ => none

/-- What the settled calls say about one job: the transfers whose broadcast
returned, with amount and transaction, newest first, the number of gas
transactions that returned, the number of times the job was requeued, and the
task that broadcast for it last, while nothing was stored since. -/
structure JobHistory where
  sweeps : List (Int × String)
  fuels : Nat
  retries : Nat
  owes : Option Nat
deriving DecidableEq

namespace JobHistory

def empty : JobHistory := ⟨[], 0, 0, none⟩

/-- The history once a call of task `i` has settled. -/
def record (h : JobHistory) (id : String) (i : Nat) (applied : Bool) :
    (c : SweepCall) → Except AppError (SweepAns c) → JobHistory
  | .sweepTrc20 forJob _ _ _ amountMicro, .ok txId =>
      if forJob = id then { h with sweeps := (amountMicro, txId) :: h.sweeps, owes := some i } else h
  | .fuelGas forJob _ _, .ok _ =>
      if forJob = id then { h with fuels := h.fuels + 1, owes := some i } else h
  | .update caller job, _ =>
      if job.id = id ∧ applied = true then
        { h with owes := none, retries := h.retries + if caller = .retry then 1 else 0 }
      else h
  | _, _ => h

/-- The transaction of the latest transfer. -/
def latest (h : JobHistory) : Option String :=
  h.sweeps.head?.map Prod.snd

/-- The job is stored, and nothing is owed to it. -/
def stored (h : JobHistory) : JobHistory :=
  { h with owes := none }

variable {h : JobHistory} {id : String} {i : Nat} {applied : Bool} {c : SweepCall}
  {answer : Except AppError (SweepAns c)}

/-- Only calls about the job are recorded. -/
theorem record_eq_self (hAbout : c.about ≠ some id) : h.record id i applied c answer = h := by
  cases c with
  | sweepTrc20 forJob depositIndex fromAddress toAddress amountMicro =>
      have hNe : forJob ≠ id := fun hEq => hAbout (congrArg some hEq)
      cases answer <;> simp [record, hNe]
  | fuelGas forJob toAddress amountSun =>
      have hNe : forJob ≠ id := fun hEq => hAbout (congrArg some hEq)
      cases answer <;> simp [record, hNe]
  | update caller job =>
      have hNe : job.id ≠ id := fun hEq => hAbout (congrArg some hEq)
      simp [record, hNe]
  | _ => rfl

/-- A call makes the job owe to the task that makes it, or to nobody else than
before. -/
theorem owes_record {k : Nat} (hNe : k ≠ i)
    (hOwes : (h.record id i applied c answer).owes = some k) : h.owes = some k := by
  cases c with
  | sweepTrc20 forJob depositIndex fromAddress toAddress amountMicro =>
      cases answer with
      | error e => exact hOwes
      | ok txId =>
          simp only [record] at hOwes
          split at hOwes
          · exact absurd (Option.some.inj hOwes).symm hNe
          · exact hOwes
  | fuelGas forJob toAddress amountSun =>
      cases answer with
      | error e => exact hOwes
      | ok txId =>
          simp only [record] at hOwes
          split at hOwes
          · exact absurd (Option.some.inj hOwes).symm hNe
          · exact hOwes
  | update caller job =>
      simp only [record] at hOwes
      split at hOwes
      · cases hOwes
      · exact hOwes
  | _ => exact hOwes

end JobHistory

/-- What a list of settled calls, newest first, says about one job. -/
def historyOf (id : String) : List SweepEvent → JobHistory
  | [] => .empty
  | e :: older => (historyOf id older).record id e.task e.applied e.call e.answer

/-- A task has been handed the job. -/
def TookIn (trace : List SweepEvent) (i : Nat) (id : String) : Prop :=
  ∃ e ∈ trace, e.task = i ∧ ∃ job ∈ e.call.taken e.answer, job.id = id

/-- No other task has taken the job after task `i` did. -/
def UndisturbedIn (i : Nat) (id : String) : List SweepEvent → Prop
  | [] => True
  | e :: older => UndisturbedIn i id older ∧
      (e.task ≠ i → (∃ job ∈ e.call.taken e.answer, job.id = id) → ¬TookIn older i id)

namespace SweepWorld

abbrev history (w : SweepWorld) (id : String) : JobHistory :=
  historyOf id w.trace

abbrev Took (w : SweepWorld) (i : Nat) (id : String) : Prop :=
  TookIn w.trace i id

abbrev Undisturbed (w : SweepWorld) (i : Nat) (id : String) : Prop :=
  UndisturbedIn i id w.trace

/-- Nothing has happened to a job. -/
def Same (w w' : SweepWorld) (id : String) : Prop :=
  w'.job id = w.job id ∧ w'.history id = w.history id

end SweepWorld

/-- Two undisturbed tasks have not been handed the same job. -/
theorem UndisturbedIn.exclusive {trace : List SweepEvent} {i k : Nat} {id : String} (hNe : i ≠ k)
    (hi : UndisturbedIn i id trace) (hk : UndisturbedIn k id trace) (hTook : TookIn trace i id) :
    ¬TookIn trace k id := by
  induction trace with
  | nil =>
      obtain ⟨e, hMem, -⟩ := hTook
      cases hMem
  | cons e older ih =>
      rintro ⟨ek, hMemK, hTaskK, hJobK⟩
      obtain ⟨ei, hMemI, hTaskI, hJobI⟩ := hTook
      rcases List.mem_cons.mp hMemI with rfl | hOlderI
      · rcases List.mem_cons.mp hMemK with rfl | hOlderK
        · exact hNe (hTaskI.symm.trans hTaskK)
        · exact hk.2 (fun h => hNe (hTaskI.symm.trans h)) hJobI ⟨ek, hOlderK, hTaskK, hJobK⟩
      · rcases List.mem_cons.mp hMemK with rfl | hOlderK
        · exact hi.2 (fun h => hNe (h.symm.trans hTaskK)) hJobK ⟨ei, hOlderI, hTaskI, hJobI⟩
        · exact ih hi.1 hk.1 ⟨ei, hOlderI, hTaskI, hJobI⟩ ⟨ek, hOlderK, hTaskK, hJobK⟩

/-- Whoever owes to a job has made a call about it. -/
theorem owes_mem {id : String} {k : Nat} {trace : List SweepEvent}
    (h : (historyOf id trace).owes = some k) :
    ∃ e ∈ trace, e.task = k ∧ e.call.about = some id := by
  induction trace with
  | nil => cases h
  | cons e older ih =>
      by_cases hEvent : e.task = k ∧ e.call.about = some id
      · exact ⟨e, by simp, hEvent⟩
      · have hOlder : (historyOf id older).owes = some k := by
          by_cases hAbout : e.call.about = some id
          · exact JobHistory.owes_record (fun hEq => hEvent ⟨hEq.symm, hAbout⟩) h
          · rwa [historyOf, JobHistory.record_eq_self hAbout] at h
        obtain ⟨e', hMem, hEvent'⟩ := ih hOlder
        exact ⟨e', by simp [hMem], hEvent'⟩

/-- How the pipeline is run. `strict`: the updates of the repository do not fail.
`guarded`: only jobs are requeued whose last transfer was seen to fail. -/
structure SweepMode where
  strict : Bool
  guarded : Bool

/-- The status changes of the pipeline, standing still included. -/
def SweepEdge : SweepStatus → SweepStatus → Bool
  | .PENDING, s => s = .PENDING || s = .GAS_FUELING || s = .SWEEPING || s = .EMPTY || s = .FAILED
  | .GAS_FUELING, s => s = .GAS_FUELING || s = .SWEEPING || s = .FAILED
  | .SWEEPING, s => s = .SWEEPING || s = .SWEPT || s = .FAILED
  | s, s' => s = s'

/-- No transfer has been made for the job since it was last PENDING. -/
def SweepStatus.beforeSweep (s : SweepStatus) : Bool :=
  s = .PENDING || s = .GAS_FUELING

section sanity

variable (mode : SweepMode) (policy : SweepPolicy) (failed : List String)

/-- What holds of a job that owes nothing. -/
structure Settled (job : SweepJob) (h : JobHistory) : Prop where
  unsent : job.status.beforeSweep = true → h.sweeps.length ≤ h.retries
  unfueled : job.status = .PENDING → h.fuels ≤ h.retries
  latest : job.sweepTxId = h.latest
  seen : mode.guarded = true → job.status.beforeSweep = true →
    ∀ txId, job.sweepTxId = some txId → txId ∈ failed

/-- How a job object and the history of the job fit together. -/
structure Sane (job : SweepJob) (h : JobHistory) : Prop where
  sent : h.sweeps.length ≤ h.retries + 1
  fueled : h.fuels ≤ h.retries + 1
  gas : job.status = .GAS_FUELING →
    (truthy job.gasTxId).isSome = true ∧ policy.minSweepMicro ≤ job.amountMicro
  swept : job.status = .SWEEPING ∨ job.status = .SWEPT → ∃ txId, job.sweepTxId = some txId ∧
    txId ≠ "" ∧ (job.amountMicro, txId) ∈ h.sweeps ∧ policy.minSweepMicro ≤ job.amountMicro
  settled : h.owes = none → Settled mode failed job h

/-- A job that is not done has attempts left. -/
def AttemptsLeft (job : SweepJob) : Prop :=
  1 ≤ policy.maxAttempts → isSweepTerminal job.status = false → job.attempts < policy.maxAttempts

end sanity

/-- The invariant of the stored jobs. -/
structure SweepWorld.Sound (mode : SweepMode) (policy : SweepPolicy) (w : SweepWorld) : Prop where
  rows : ∀ id row, w.job id = some row →
    Sane mode policy w.failed row (w.history id) ∧ AttemptsLeft policy row
  known : ∀ id, w.job id = none → w.history id = .empty ∧ ∀ i, ¬w.Took i id
  distinct : (w.issued.map Prod.snd).Nodup

/-- What the other tasks, or task `i` itself in its work on the job `busy`, leave
task `i` with. -/
structure SweepWorld.Kept (i : Nat) (busy : Option String) (w w' : SweepWorld) : Prop where
  failed : ∀ txId ∈ w.failed, txId ∈ w'.failed
  issued : ∀ id, (i, id) ∈ w.issued → (i, id) ∈ w'.issued ∧ (w.job id = none → w'.job id = none)
  took : ∀ id, w.Took i id → w'.Took i id
  same : ∀ id, some id ≠ busy → w.Took i id → w'.Undisturbed i id →
    w.Undisturbed i id ∧ w.Same w' id
  debts : ∀ id, some id ≠ busy → (w'.history id).owes = some i → (w.history id).owes = some i

/-- What task `i` does in one step. -/
structure SweepWorld.Moves (mode : SweepMode) (i : Nat) (w w' : SweepWorld) : Prop where
  event : ∃ e, w'.trace = e :: w.trace ∧ e.task = i ∧
    ∀ id, e.call.about = some id → w.Took i id ∧ w.Undisturbed i id
  failed : ∀ txId ∈ w.failed, txId ∈ w'.failed
  issued : ∀ entry ∈ w.issued, entry ∈ w'.issued
  created : ∀ id, w.job id = none → w'.job id ≠ none → (i, id) ∈ w.issued
  rows : ∀ id row, w.job id = some row → w'.job id = some row ∨
    (∃ row' caller job, w'.job id = some row' ∧ w'.trace.head?.map SweepEvent.call =
      some (.update caller job) ∧ job.id = id ∧ (mode.strict = true →
        SweepEdge row.status row'.status = true ∨
          (caller = .retry ∧ row.status = .FAILED ∧ row'.status = .PENDING)))
  fenced : mode.guarded = true → ∀ forJob depositIndex fromAddress toAddress amountMicro,
    w'.trace.head?.map SweepEvent.call =
      some (.sweepTrc20 forJob depositIndex fromAddress toAddress amountMicro) →
    ∀ txId, (w.history forJob).latest = some txId → txId ∈ w.failed

namespace SweepWorld.Kept

variable {i : Nat} {busy : Option String} {w w₁ w' : SweepWorld}

theorem refl : Kept i busy w w where
  failed _ h := h
  issued _ h := ⟨h, fun hNone => hNone⟩
  took _ h := h
  same _ _ _ h := ⟨h, rfl, rfl⟩
  debts _ _ h := h

theorem trans (first : Kept i busy w w₁) (second : Kept i busy w₁ w') : Kept i busy w w' where
  failed txId h := second.failed txId (first.failed txId h)
  issued id h :=
    ⟨(second.issued id (first.issued id h).1).1,
      fun hNone => (second.issued id (first.issued id h).1).2 ((first.issued id h).2 hNone)⟩
  took id h := second.took id (first.took id h)
  same id hNe hTook hUndisturbed := by
    obtain ⟨h₁, hSame₂⟩ := second.same id hNe (first.took id hTook) hUndisturbed
    obtain ⟨h, hSame₁⟩ := first.same id hNe hTook h₁
    exact ⟨h, hSame₂.1.trans hSame₁.1, hSame₂.2.trans hSame₁.2⟩
  debts id hNe h := first.debts id hNe (second.debts id hNe h)

/-- Work on one job may be set aside. -/
theorem weaken (h : Kept i none w w') : Kept i busy w w' where
  failed := h.failed
  issued := h.issued
  took := h.took
  same id _ := h.same id (by simp)
  debts id _ := h.debts id (by simp)

end SweepWorld.Kept

section discipline

variable (mode : SweepMode) (deps : SweepDeps)

/-- The side condition under which a call of task `i` settles: the task goes on
with a job only undisturbed, it takes a job only when no other task owes to it,
and the mode of the run is kept. -/
def sweepCond (i : Nat) (c : SweepCall) (reply : SweepReply) (w : SweepWorld) : Prop :=
  (∀ id, c.about = some id → w.Undisturbed i id) ∧
  (∀ answer w', sweepExec deps.backend i c reply w = some (answer, w') →
    ∀ job ∈ c.taken answer, ∀ k, (w.history job.id).owes = some k → k = i) ∧
  (mode.strict = true → ∀ caller job, c = .update caller job → reply = .normal) ∧
  (mode.guarded = true → ∀ job, c = .update .retry job →
    ∀ txId, job.sweepTxId = some txId → txId ∈ w.failed)

/-- A task that has settled owes nothing to any job, unless updates may fail. -/
def paidUp (i : Nat) (w : SweepWorld) : Prop :=
  mode.strict = true → ∀ id, (w.history id).owes ≠ some i

/-- Steps of one task leave the others their jobs. -/
theorem SweepWorld.Moves.kept {i k : Nat} {w w' : SweepWorld} (hNe : i ≠ k)
    (hSound : w.Sound mode deps.policy) (h : w.Moves mode i w') : w.Kept k none w' := by
  obtain ⟨e, hTrace, hTask, hAbout⟩ := h.event
  have hHistory : ∀ id, w'.history id =
      (w.history id).record id e.task e.applied e.call e.answer := fun id => by
    rw [SweepWorld.history, hTrace, historyOf]
  refine ⟨h.failed, ?_, ?_, ?_, ?_⟩
  · refine fun id hIssued => ⟨h.issued _ hIssued, fun hNone => ?_⟩
    refine Classical.byContradiction fun hSome => ?_
    have hMine := h.created id hNone hSome
    exact hNe (congrArg Prod.fst (List.inj_on_of_nodup_map hSound.distinct hMine hIssued rfl))
  · rintro id ⟨e', hMem, hRest⟩
    exact ⟨e', by rw [hTrace]; exact List.mem_cons_of_mem _ hMem, hRest⟩
  · rintro id - hTook hUndisturbed
    rw [SweepWorld.Undisturbed, hTrace] at hUndisturbed
    have hNot : e.call.about ≠ some id := fun hEq =>
      (hAbout id hEq).2.exclusive hNe hUndisturbed.1 (hAbout id hEq).1 hTook
    refine ⟨hUndisturbed.1, ?_, by rw [hHistory, JobHistory.record_eq_self hNot]⟩
    cases hRow : w.job id with
    | none => exact absurd hTook ((hSound.known id hRow).2 k)
    | some row =>
        rcases h.rows id row hRow with hSame | ⟨row', caller, job, -, hCall, hId, -⟩
        · exact hSame
        · rw [hTrace] at hCall
          have hEq : e.call = .update caller job := Option.some.inj hCall
          exact absurd (by rw [hEq, ← hId]; rfl) hNot
  · rintro id - hOwes
    rw [hHistory] at hOwes
    exact JobHistory.owes_record (fun hEq => hNe (hTask.symm.trans hEq.symm)) hOwes

def sweepDiscipline : Discipline (sweepSystem deps) Unit where
  resource _ := ()
  inv w := w.Sound mode deps.policy
  own _ _ := True
  fresh i w := ∀ e ∈ w.trace, e.task ≠ i
  rely i _ w w' := w.Kept i none w'
  guar i _ _ w w' := w.Moves mode i w'
  cond i _ _ c reply w := sweepCond mode deps i c reply w
  post i _ w := paidUp mode i w
  rely_refl _ _ _ := .refl
  rely_trans h h' := h.trans h'
  guar_rely hGuar hInv _ hNe _ := hGuar.kept mode deps hNe hInv
  guar_own _ _ _ _ _ _ := trivial
  guar_fresh hGuar hNe hFresh := by
    obtain ⟨e, hTrace, hTask, -⟩ := hGuar.event
    rw [hTrace]
    rintro e' hMem
    rcases List.mem_cons.mp hMem with rfl | hOlder
    · rwa [hTask]
    · exact hFresh e' hOlder

end discipline
end VpnPayment
