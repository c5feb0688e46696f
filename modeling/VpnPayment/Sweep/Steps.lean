import VpnPayment.Sweep.Custody

/-! What one settled call of `SweepService` does to the jobs and their histories. -/
namespace VpnPayment

open Async Collections

section calls

variable {b : Backend} {i : Nat} {c : SweepCall} {reply : SweepReply} {w w' : SweepWorld}
  {answer : Except AppError (SweepAns c)}

/-- The call leaves the stored jobs alone. -/
def SweepCall.reads : SweepCall → Bool
  | .create _ | .update _ _ => false
  | _ => true

/-- Every settled call is logged, and nothing is forgotten. -/
theorem sweepExec_logged (h : sweepExec b i c reply w = some (answer, w')) :
    (∃ applied, w'.trace = ⟨i, c, answer, applied⟩ :: w.trace) ∧
    (∀ txId ∈ w.failed, txId ∈ w'.failed) ∧
    (w'.issued = w.issued ∨ ∃ s, w.Unused s ∧ w'.issued = (i, s) :: w.issued) := by
  cases hEffect : jobsEffect b c with
  | some effect =>
      obtain ⟨e, rfl, rfl, -⟩ | ⟨a, s, -, rfl, -⟩ := sweepExec_store h hEffect
      · exact ⟨⟨false, rfl⟩, fun _ hMem => hMem, .inl rfl⟩
      · exact ⟨⟨true, rfl⟩, fun _ hMem => hMem, .inl rfl⟩
  | none =>
      obtain ⟨e, rfl, rfl, -⟩ | ⟨a, hAnswer, rfl, rfl⟩ := sweepExec_outside h hEffect
      · exact ⟨⟨false, rfl⟩, fun _ hMem => hMem, .inl rfl⟩
      · refine ⟨⟨false, ?_⟩, fun txId hMem => SweepWorld.mem_noted_failed hMem,
          SweepWorld.noted_issued hAnswer⟩
        simp [SweepWorld.log]

theorem sweepExec_reads (h : sweepExec b i c reply w = some (answer, w')) (hReads : c.reads = true) :
    w'.jobs = w.jobs := by
  cases hEffect : jobsEffect b c with
  | some effect =>
      obtain ⟨e, rfl, rfl, -⟩ | ⟨a, s, hOk, rfl, -⟩ := sweepExec_store h hEffect
      · rfl
      · cases c with
        | findByOrderId caller orderId =>
            cases hEffect
            cases hOk
            rfl
        | due now limit =>
            cases hEffect
            cases hOk
            rfl
        | create job => cases hReads
        | update caller job => cases hReads
        | _ => cases hEffect
  | none =>
      obtain ⟨e, rfl, rfl, -⟩ | ⟨a, -, rfl, rfl⟩ := sweepExec_outside h hEffect
      · rfl
      · simp [SweepWorld.log]

/-- A task is handed jobs as they are stored. A pass is handed open jobs, `retry`
a FAILED one. -/
theorem sweepExec_taken (h : sweepExec b i c reply w = some (answer, w')) {job : SweepJob}
    (hTaken : job ∈ c.taken answer) :
    w.job job.id = some job ∧ ((∃ now limit, c = .due now limit) →
      isSweepTerminal job.status = false) := by
  cases c with
  | due now limit =>
      obtain ⟨e, rfl, -⟩ | ⟨a, s, hOk, -, hAnswer⟩ := sweepExec_store h rfl
      · cases hTaken
      · cases hOk
        obtain rfl | ⟨⟨e, rfl⟩, -⟩ := hAnswer
        · have hDue := SweepJobStore.mem_due hTaken
          exact ⟨hDue.1, fun _ => hDue.2.1⟩
        · cases hTaken
  | findByOrderId caller orderId =>
      obtain ⟨e, rfl, -⟩ | ⟨a, s, hOk, -, hAnswer⟩ := sweepExec_store h rfl
      · cases caller <;> cases hTaken
      · cases hOk
        obtain rfl | ⟨⟨e, rfl⟩, -⟩ := hAnswer
        · cases caller with
          | retry =>
              cases hFind : w.jobs.findByOrderId b orderId with
              | none =>
                  rw [hFind] at hTaken
                  cases hTaken
              | some found =>
                  rw [hFind] at hTaken
                  simp only [SweepCall.taken] at hTaken
                  split at hTaken
                  · obtain rfl := List.mem_singleton.mp hTaken
                    exact ⟨SweepJobStore.get?_of_findByOrderId hFind, nofun⟩
                  · cases hTaken
          | enqueue => cases hTaken
          | processDue => cases hTaken
        · cases caller <;> cases hTaken
  | _ => cases hTaken

end calls

section steps

variable {mode : SweepMode} {deps : SweepDeps} {i : Nat} {c : SweepCall} {reply : SweepReply}
  {w w' : SweepWorld} {answer : Except AppError (SweepAns c)}

theorem Settled.mono {failed failed' : List String} {job : SweepJob} {h : JobHistory}
    (hFailed : ∀ txId ∈ failed, txId ∈ failed') (hSettled : Settled mode failed job h) :
    Settled mode failed' job h :=
  { hSettled with seen := fun hMode hBefore txId hTx => hFailed _ (hSettled.seen hMode hBefore txId hTx) }

theorem Sane.mono {policy : SweepPolicy} {failed failed' : List String} {job : SweepJob}
    {h : JobHistory} (hFailed : ∀ txId ∈ failed, txId ∈ failed')
    (hSane : Sane mode policy failed job h) : Sane mode policy failed' job h :=
  { hSane with settled := fun hOwes => (hSane.settled hOwes).mono hFailed }

/-- The history once the event on top of the trace is recorded. -/
theorem history_logged {applied : Bool} (hTrace : w'.trace = ⟨i, c, answer, applied⟩ :: w.trace)
    (id : String) : w'.history id = (w.history id).record id i applied c answer := by
  rw [SweepWorld.history, hTrace, historyOf]

theorem took_logged {applied : Bool} (hTrace : w'.trace = ⟨i, c, answer, applied⟩ :: w.trace)
    {k : Nat} {id : String} :
    w'.Took k id ↔ (i = k ∧ ∃ job ∈ c.taken answer, job.id = id) ∨ w.Took k id := by
  simp only [SweepWorld.Took, TookIn, hTrace, List.mem_cons]
  constructor
  · rintro ⟨e, rfl | hMem, hTask, hJob⟩
    · exact .inl ⟨hTask, hJob⟩
    · exact .inr ⟨e, hMem, hTask, hJob⟩
  · rintro (⟨rfl, hJob⟩ | ⟨e, hMem, hTask, hJob⟩)
    · exact ⟨_, .inl rfl, rfl, hJob⟩
    · exact ⟨e, .inr hMem, hTask, hJob⟩

theorem undisturbed_logged {applied : Bool}
    (hTrace : w'.trace = ⟨i, c, answer, applied⟩ :: w.trace) {k : Nat} {id : String}
    (h : w'.Undisturbed k id) : w.Undisturbed k id := by
  rw [SweepWorld.Undisturbed, hTrace] at h
  exact h.1

theorem distinct_logged (hDistinct : (w.issued.map Prod.snd).Nodup)
    (hIssued : w'.issued = w.issued ∨ ∃ s, w.Unused s ∧ w'.issued = (i, s) :: w.issued) :
    (w'.issued.map Prod.snd).Nodup := by
  rcases hIssued with hEq | ⟨s, hUnused, hEq⟩
  · rwa [hEq]
  · rw [hEq, List.map_cons, List.nodup_cons]
    refine ⟨fun hMem => ?_, hDistinct⟩
    obtain ⟨entry, hEntry, hEq⟩ := List.mem_map.mp hMem
    exact hUnused.2.1 entry hEntry hEq

theorem issued_logged {entry : Nat × String} (hEntry : entry ∈ w.issued)
    (hIssued : w'.issued = w.issued ∨ ∃ s, w.Unused s ∧ w'.issued = (i, s) :: w.issued) :
    entry ∈ w'.issued := by
  rcases hIssued with hEq | ⟨s, -, hEq⟩
  · rwa [hEq]
  · rw [hEq]
    exact List.mem_cons_of_mem _ hEntry

/-- A call that is about no job and only reads the stored jobs. -/
theorem quiet_step (hSound : w.Sound mode deps.policy)
    (hExec : sweepExec deps.backend i c reply w = some (answer, w')) (hReads : c.reads = true)
    (hAbout : c.about = none) :
    w'.Sound mode deps.policy ∧ w.Moves mode i w' ∧ w.Kept i none w' := by
  obtain ⟨⟨applied, hTrace⟩, hFailed, hIssued⟩ := sweepExec_logged hExec
  have hJobs : ∀ id, w'.job id = w.job id := fun id => by
    rw [SweepWorld.job, sweepExec_reads hExec hReads, SweepWorld.job]
  have hHistory : ∀ id, w'.history id = w.history id := fun id => by
    rw [history_logged hTrace, JobHistory.record_eq_self (by simp [hAbout])]
  refine ⟨⟨?_, ?_, distinct_logged hSound.distinct hIssued⟩, ?_, ?_⟩
  · intro id row hRow
    obtain ⟨hSane, hLeft⟩ := hSound.rows id row (hJobs id ▸ hRow)
    rw [hHistory]
    exact ⟨hSane.mono hFailed, hLeft⟩
  · intro id hNone
    rw [hHistory]
    rw [hJobs] at hNone
    refine ⟨(hSound.known id hNone).1, fun k hTook => ?_⟩
    rcases (took_logged hTrace).mp hTook with ⟨-, job, hTaken, rfl⟩ | hOld
    · rw [(sweepExec_taken hExec hTaken).1] at hNone
      cases hNone
    · exact (hSound.known id hNone).2 k hOld
  · refine ⟨⟨_, hTrace, rfl, by simp [hAbout]⟩, hFailed, fun _ hEntry => issued_logged hEntry hIssued,
      ?_, fun id row hRow => .inl ((hJobs id).trans hRow), ?_⟩
    · intro id hNone hSome
      exact absurd ((hJobs id).trans hNone) hSome
    · rintro - forJob depositIndex fromAddress toAddress amountMicro hCall
      rw [hTrace] at hCall
      obtain rfl : c = _ := Option.some.inj hCall
      cases hAbout
  · refine ⟨hFailed, fun id hMine => ⟨issued_logged hMine hIssued, fun hNone => (hJobs id).trans hNone⟩,
      fun id hTook => (took_logged hTrace).mpr (.inr hTook), ?_, ?_⟩
    · exact fun id _ _ h => ⟨undisturbed_logged hTrace h, hJobs id, hHistory id⟩
    · rintro id - hOwes
      rwa [hHistory] at hOwes

/-- The history of a job that has just been stored. -/
def JobHistory.storedBy (h : JobHistory) (caller : SweepMethod) : JobHistory :=
  { h with owes := none, retries := h.retries + if caller = .retry then 1 else 0 }

/-- A call about one job. The job has a row before and after, and no other row
changes. -/
theorem about_step {id : String} {row row' : SweepJob} (hSound : w.Sound mode deps.policy)
    (hExec : sweepExec deps.backend i c reply w = some (answer, w')) (hAbout : c.about = some id)
    (hTook : w.Took i id) (hUndisturbed : w.Undisturbed i id)
    (hOthers : ∀ id', id' ≠ id → w'.job id' = w.job id') (hRow : w.job id = some row)
    (hRow' : w'.job id = some row') (hSane : Sane mode deps.policy w'.failed row' (w'.history id))
    (hLeft : AttemptsLeft deps.policy row')
    (hChange : row' = row ∨ (∃ caller job, c = .update caller job ∧ (mode.strict = true →
      SweepEdge row.status row'.status = true ∨
        (caller = .retry ∧ row.status = .FAILED ∧ row'.status = .PENDING))))
    (hFenced : mode.guarded = true → (∃ depositIndex fromAddress toAddress amountMicro,
      c = .sweepTrc20 id depositIndex fromAddress toAddress amountMicro) →
      ∀ txId, (w.history id).latest = some txId → txId ∈ w.failed) :
    w'.Sound mode deps.policy ∧ w.Moves mode i w' ∧ w.Kept i (some id) w' := by
  obtain ⟨⟨applied, hTrace⟩, hFailed, hIssued⟩ := sweepExec_logged hExec
  have hHistory : ∀ id', id' ≠ id → w'.history id' = w.history id' := fun id' hNe => by
    rw [history_logged hTrace, JobHistory.record_eq_self]
    intro hEq
    exact hNe (Option.some.inj (hEq.symm.trans hAbout))
  have hNothing : c.taken answer = [] := by
    cases c with
    | due now limit => cases hAbout
    | findByOrderId caller orderId => cases hAbout
    | _ => rfl
  have hTookIff : ∀ k id', w'.Took k id' ↔ w.Took k id' := fun k id' => by
    rw [took_logged hTrace, hNothing]
    simp
  refine ⟨⟨?_, ?_, distinct_logged hSound.distinct hIssued⟩, ?_, ?_⟩
  · intro id' row₁ hRow₁
    by_cases hEq : id' = id
    · subst hEq
      obtain rfl : row' = row₁ := Option.some.inj (hRow'.symm.trans hRow₁)
      exact ⟨hSane, hLeft⟩
    · rw [hOthers id' hEq] at hRow₁
      obtain ⟨hSane₁, hLeft₁⟩ := hSound.rows id' row₁ hRow₁
      rw [hHistory id' hEq]
      exact ⟨hSane₁.mono hFailed, hLeft₁⟩
  · intro id' hNone
    have hNe : id' ≠ id := fun hEq => by
      rw [hEq, hRow'] at hNone
      cases hNone
    rw [hOthers id' hNe] at hNone
    rw [hHistory id' hNe]
    exact ⟨(hSound.known id' hNone).1,
      fun k hTook' => (hSound.known id' hNone).2 k ((hTookIff k id').mp hTook')⟩
  · refine ⟨⟨_, hTrace, rfl, ?_⟩, hFailed, fun _ hEntry => issued_logged hEntry hIssued, ?_, ?_, ?_⟩
    · intro id' hAbout'
      obtain rfl : id = id' := Option.some.inj (hAbout.symm.trans hAbout')
      exact ⟨hTook, hUndisturbed⟩
    · intro id' hNone hSome
      by_cases hEq : id' = id
      · rw [hEq, hRow] at hNone
        cases hNone
      · exact absurd ((hOthers id' hEq).trans hNone) hSome
    · intro id' row₁ hRow₁
      by_cases hEq : id' = id
      · subst hEq
        obtain rfl : row = row₁ := Option.some.inj (hRow.symm.trans hRow₁)
        rcases hChange with rfl | ⟨caller, job, rfl, hEdge⟩
        · exact .inl hRow'
        · exact .inr ⟨row', caller, job, hRow', by rw [hTrace]; rfl, Option.some.inj hAbout, hEdge⟩
      · exact .inl ((hOthers id' hEq).trans hRow₁)
    · intro hMode forJob depositIndex fromAddress toAddress amountMicro hCall
      rw [hTrace] at hCall
      obtain rfl : c = _ := Option.some.inj hCall
      obtain rfl : forJob = id := Option.some.inj hAbout
      exact hFenced hMode ⟨_, _, _, _, rfl⟩
  · refine ⟨hFailed, ?_, fun id' hTook' => (hTookIff i id').mpr hTook', ?_, ?_⟩
    · intro id' hMine
      refine ⟨issued_logged hMine hIssued, fun hNone => ?_⟩
      by_cases hEq : id' = id
      · rw [hEq, hRow] at hNone
        cases hNone
      · exact (hOthers id' hEq).trans hNone
    · intro id' hBusy _ hUndisturbed'
      have hNe : id' ≠ id := fun hEq => hBusy (congrArg some hEq)
      exact ⟨undisturbed_logged hTrace hUndisturbed', hOthers id' hNe, hHistory id' hNe⟩
    · intro id' hBusy hOwes
      rwa [hHistory id' fun hEq => hBusy (congrArg some hEq)] at hOwes

/-- A task at work on a job stores it, or fails to. -/
theorem update_step {caller : SweepMethod} {job row : SweepJob}
    {answer : Except AppError (SweepAns (.update caller job))} (hSound : w.Sound mode deps.policy)
    (hExec : sweepExec deps.backend i (.update caller job) reply w = some (answer, w'))
    (hTook : w.Took i job.id) (hUndisturbed : w.Undisturbed i job.id)
    (hRow : w.job job.id = some row) (hOrder : row.orderId = job.orderId)
    (hCreated : row.createdAt = job.createdAt)
    (hSane : Sane mode deps.policy w.failed job ((w.history job.id).storedBy caller))
    (hLeft : AttemptsLeft deps.policy job)
    (hEdge : mode.strict = true → SweepEdge row.status job.status = true ∨
      (caller = .retry ∧ row.status = .FAILED ∧ job.status = .PENDING)) :
    (w'.Sound mode deps.policy ∧ w.Moves mode i w' ∧ w.Kept i (some job.id) w') ∧
    ((∃ e, answer = .error e) ∧ reply ≠ .normal ∧ w.Same w' job.id ∧ w'.failed = w.failed ∨
      w'.job job.id = some job ∧ w'.history job.id = (w.history job.id).storedBy caller ∧
        w'.failed = w.failed ∧ (answer = .ok job ∨ (∃ e, answer = .error e) ∧ reply ≠ .normal)) := by
  have hEq := SweepJobStore.update_eq (b := deps.backend) hRow
  rw [SweepJobStore.written_eq (SweepWorld.job_id hRow) hOrder hCreated] at hEq
  obtain ⟨e, rfl, rfl, hReply⟩ | ⟨a, s, hOk, rfl, hAnswer⟩ := sweepExec_store hExec rfl
  · have hHistory : (w.log ⟨i, .update caller job, .error e, false⟩).history job.id =
        w.history job.id := by
      simp [SweepWorld.history, SweepWorld.log, historyOf, JobHistory.record]
    obtain ⟨hRowSane, hRowLeft⟩ := hSound.rows job.id row hRow
    refine ⟨about_step hSound hExec rfl hTook hUndisturbed (fun _ _ => rfl) hRow hRow
      (by rw [hHistory]; exact hRowSane) hRowLeft (.inl rfl) ?_, .inl ⟨⟨e, rfl⟩, ?_, ⟨rfl, hHistory⟩, rfl⟩⟩
    · rintro - ⟨_, _, _, _, hCall⟩
      cases hCall
    · rcases hReply with hError | hReply
      · rw [hEq] at hError
        cases hError
      · exact hReply
  · rw [hEq] at hOk
    cases hOk
    set w₁ := SweepWorld.log { w with jobs := { w.jobs with byId := w.jobs.byId.put job } }
      ⟨i, .update caller job, answer, true⟩ with hw₁
    have hHistory : w₁.history job.id = (w.history job.id).storedBy caller := by
      simp [hw₁, SweepWorld.history, SweepWorld.log, historyOf, JobHistory.record,
        JobHistory.storedBy]
    have hRow₁ : w₁.job job.id = some job := by
      simp [hw₁, SweepWorld.job, SweepWorld.log]
    refine ⟨about_step hSound hExec rfl hTook hUndisturbed ?_ hRow hRow₁
      (by rw [hHistory]; exact hSane) hLeft (.inr ⟨caller, job, rfl, hEdge⟩) ?_,
      .inr ⟨hRow₁, hHistory, rfl, hAnswer⟩⟩
    · intro id' hNe
      simp [hw₁, SweepWorld.job, SweepWorld.log, Table.get?_put, Ne.symm hNe]
    · rintro - ⟨_, _, _, _, hCall⟩
      cases hCall

/-- A broadcast leaves the stored jobs alone. -/
theorem broadcast_step {id : String} {row : SweepJob} (hSound : w.Sound mode deps.policy)
    (hExec : sweepExec deps.backend i c reply w = some (answer, w')) (hReads : c.reads = true)
    (hAbout : c.about = some id) (hTook : w.Took i id) (hUndisturbed : w.Undisturbed i id)
    (hRow : w.job id = some row) (hSane : Sane mode deps.policy w.failed row (w'.history id))
    (hFenced : mode.guarded = true → ∀ txId, (w.history id).latest = some txId →
      txId ∈ w.failed) :
    w'.Sound mode deps.policy ∧ w.Moves mode i w' ∧ w.Kept i (some id) w' ∧
      w'.job id = w.job id := by
  have hJobs : ∀ id', w'.job id' = w.job id' := fun id' => by
    rw [SweepWorld.job, sweepExec_reads hExec hReads, SweepWorld.job]
  obtain ⟨-, hFailed, -⟩ := sweepExec_logged hExec
  obtain ⟨hSound', hMoves, hKept⟩ := about_step hSound hExec hAbout hTook hUndisturbed
    (fun id' _ => hJobs id') hRow ((hJobs id).trans hRow) (hSane.mono hFailed)
    (hSound.rows id row hRow).2 (.inl rfl) fun hMode _ => hFenced hMode
  exact ⟨hSound', hMoves, hKept, hJobs id⟩

/-- The transfer is broadcast, or the treasury throws and nothing is recorded. -/
theorem transfer_step (row : SweepJob) {depositIndex : Nat} {fromAddress toAddress : String}
    {amount : Int} {answer : Except AppError String} (hSound : w.Sound mode deps.policy)
    (hExec : sweepExec deps.backend i
      (.sweepTrc20 row.id depositIndex fromAddress toAddress amount) reply w = some (answer, w'))
    (hTook : w.Took i row.id) (hUndisturbed : w.Undisturbed i row.id)
    (hRow : w.job row.id = some row) (hOwes : (w.history row.id).owes = none)
    (hBefore : row.status.beforeSweep = true) :
    (w'.Sound mode deps.policy ∧ w.Moves mode i w' ∧ w.Kept i (some row.id) w' ∧
      w'.job row.id = w.job row.id) ∧
    ((∃ e, answer = .error e) ∧ w'.history row.id = w.history row.id ∨
      ∃ txId, answer = .ok txId ∧ txId ≠ "" ∧ w'.history row.id = { w.history row.id with
        sweeps := (amount, txId) :: (w.history row.id).sweeps, owes := some i }) := by
  have hSane := (hSound.rows _ _ hRow).1
  have hSettled := hSane.settled hOwes
  obtain ⟨⟨applied, hTrace⟩, -, -⟩ := sweepExec_logged hExec
  have hHistory := history_logged hTrace row.id
  have hFenced : mode.guarded = true → ∀ txId, (w.history row.id).latest = some txId →
      txId ∈ w.failed := fun hMode txId hTx =>
    hSettled.seen hMode hBefore txId (hSettled.latest.trans hTx)
  obtain ⟨e, rfl, -, -⟩ | ⟨txId, hTx, rfl, -⟩ := sweepExec_outside hExec rfl
  · exact ⟨broadcast_step hSound hExec rfl rfl hTook hUndisturbed hRow
      (by rw [hHistory]; exact hSane) hFenced, .inl ⟨⟨e, rfl⟩, hHistory⟩⟩
  · simp only [JobHistory.record] at hHistory
    refine ⟨broadcast_step hSound hExec rfl rfl hTook hUndisturbed hRow ?_ hFenced,
      .inr ⟨txId, rfl, ?_, hHistory⟩⟩
    · rw [hHistory]
      refine ⟨Nat.succ_le_succ (hSettled.unsent hBefore), hSane.fueled, hSane.gas, ?_, (by intros; contradiction)⟩
      intro hDone
      rcases hDone with hDone | hDone <;> rw [hDone] at hBefore <;> cases hBefore
    · cases reply with
      | txId s =>
          simp only [treasuryAnswer, Option.ite_none_left_eq_some, Option.some.injEq] at hTx
          exact hTx.2 ▸ hTx.1
      | _ => cases hTx

/-- The gas is broadcast, or the treasury throws and nothing is recorded. -/
theorem fuel_step (row : SweepJob) {toAddress : String} {amountSun : Int}
    {answer : Except AppError String} (hSound : w.Sound mode deps.policy)
    (hExec : sweepExec deps.backend i (.fuelGas row.id toAddress amountSun) reply w =
      some (answer, w'))
    (hTook : w.Took i row.id) (hUndisturbed : w.Undisturbed i row.id)
    (hRow : w.job row.id = some row) (hOwes : (w.history row.id).owes = none)
    (hPending : row.status = .PENDING) :
    (w'.Sound mode deps.policy ∧ w.Moves mode i w' ∧ w.Kept i (some row.id) w' ∧
      w'.job row.id = w.job row.id) ∧
    ((∃ e, answer = .error e) ∧ w'.history row.id = w.history row.id ∨
      ∃ txId, answer = .ok txId ∧ txId ≠ "" ∧ w'.history row.id = { w.history row.id with
        fuels := (w.history row.id).fuels + 1, owes := some i }) := by
  have hSane := (hSound.rows _ _ hRow).1
  have hSettled := hSane.settled hOwes
  obtain ⟨⟨applied, hTrace⟩, -, -⟩ := sweepExec_logged hExec
  have hHistory := history_logged hTrace row.id
  have hFenced : mode.guarded = true → ∀ txId, (w.history row.id).latest = some txId →
      txId ∈ w.failed := fun hMode txId hTx =>
    hSettled.seen hMode (by rw [hPending]; rfl) txId (hSettled.latest.trans hTx)
  obtain ⟨e, rfl, -, -⟩ | ⟨txId, hTx, rfl, -⟩ := sweepExec_outside hExec rfl
  · exact ⟨broadcast_step hSound hExec rfl rfl hTook hUndisturbed hRow
      (by rw [hHistory]; exact hSane) hFenced, .inl ⟨⟨e, rfl⟩, hHistory⟩⟩
  · simp only [JobHistory.record] at hHistory
    refine ⟨broadcast_step hSound hExec rfl rfl hTook hUndisturbed hRow ?_ hFenced,
      .inr ⟨txId, rfl, ?_, hHistory⟩⟩
    · rw [hHistory]
      refine ⟨hSane.sent, Nat.succ_le_succ (hSettled.unfueled hPending), hSane.gas, ?_, (by intros; contradiction)⟩
      intro hDone
      rcases hDone with hDone | hDone <;> rw [hPending] at hDone <;> cases hDone
    · cases reply with
      | txId s =>
          simp only [treasuryAnswer, Option.ite_none_left_eq_some, Option.some.injEq] at hTx
          exact hTx.2 ▸ hTx.1
      | _ => cases hTx

/-- A job with a fresh identifier is stored, or the call leaves the jobs alone. -/
theorem create_step {job : SweepJob} {answer : Except AppError SweepJob}
    (hSound : w.Sound mode deps.policy)
    (hExec : sweepExec deps.backend i (.create job) reply w = some (answer, w'))
    (hMine : (i, job.id) ∈ w.issued) (hNew : w.job job.id = none)
    (hSane : Sane mode deps.policy w.failed job .empty) (hLeft : AttemptsLeft deps.policy job) :
    w'.Sound mode deps.policy ∧ w.Moves mode i w' ∧ ∀ id, w'.history id = w.history id := by
  obtain ⟨⟨applied, hTrace⟩, hFailed, hIssued⟩ := sweepExec_logged hExec
  have hHistory : ∀ id, w'.history id = w.history id := fun id => by
    rw [history_logged hTrace, JobHistory.record_eq_self (by simp [SweepCall.about])]
  have hTookIff : ∀ k id, w'.Took k id ↔ w.Took k id := fun k id => by
    rw [took_logged hTrace]
    simp [SweepCall.taken]
  have hJobs : (∀ id, w'.job id = w.job id) ∨
      (∀ id, w'.job id = if job.id = id then some job else w.job id) := by
    obtain ⟨e, -, rfl, -⟩ | ⟨a, s, hOk, rfl, -⟩ := sweepExec_store hExec rfl
    · exact .inl fun id => rfl
    · right
      intro id
      obtain ⟨t, hCreate, hEq⟩ := map_eq_ok_iff.mp hOk
      cases hEq
      change s.byId.get? id = _
      rw [SweepJobStore.create_ok hCreate, Table.get?_put]
      rfl
  have hOld : ∀ id row, w.job id = some row → w'.job id = some row := by
    intro id row hRow
    rcases hJobs with hJobs | hJobs
    · rw [hJobs, hRow]
    · rw [hJobs, hRow, if_neg]
      rintro rfl
      rw [hNew] at hRow
      cases hRow
  refine ⟨⟨?_, ?_, distinct_logged hSound.distinct hIssued⟩, ?_, hHistory⟩
  · intro id row hRow
    rw [hHistory]
    rcases hJobs with hJobs | hJobs
    · rw [hJobs] at hRow
      exact ⟨(hSound.rows id row hRow).1.mono hFailed, (hSound.rows id row hRow).2⟩
    · rw [hJobs] at hRow
      split at hRow
      · next hEq =>
          subst hEq
          cases hRow
          rw [(hSound.known _ hNew).1]
          exact ⟨hSane.mono hFailed, hLeft⟩
      · exact ⟨(hSound.rows id row hRow).1.mono hFailed, (hSound.rows id row hRow).2⟩
  · intro id hNone
    have hNone' : w.job id = none := by
      cases hRow : w.job id with
      | none => rfl
      | some row =>
          rw [hOld id row hRow] at hNone
          cases hNone
    rw [hHistory]
    exact ⟨(hSound.known id hNone').1,
      fun k hTook => (hSound.known id hNone').2 k ((hTookIff k id).mp hTook)⟩
  · refine ⟨⟨_, hTrace, rfl, nofun⟩, hFailed, fun _ hEntry => issued_logged hEntry hIssued, ?_,
      fun id row hRow => .inl (hOld id row hRow), ?_⟩
    · intro id hNone hSome
      rcases hJobs with hJobs | hJobs
      · exact absurd ((hJobs id).trans hNone) hSome
      · by_cases hEq : job.id = id
        · exact hEq ▸ hMine
        · exact absurd ((hJobs id).trans (by rw [if_neg hEq, hNone])) hSome
    · rintro - forJob depositIndex fromAddress toAddress amountMicro hCall
      rw [hTrace] at hCall
      cases Option.some.inj hCall

end steps
end VpnPayment
