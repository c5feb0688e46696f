import VpnPayment.Async.History
import VpnPayment.Providers.TronWebTreasury
import VpnPayment.Sweep.Lifecycle

/-! What a job that is SWEPT says about the chain. The service stores the status only
after a check of the job's own transfer, so it is as good as the check. -/
namespace VpnPayment

open Async Collections

/-- What a task has done. -/
abbrev SweepPast := History SweepCall SweepAns AppError

def SweepEvent.done (e : SweepEvent) : Σ c : SweepCall, Except AppError (SweepAns c) :=
  ⟨e.call, e.answer⟩

abbrev sweepPastOf (i : Nat) (trace : List SweepEvent) : SweepPast :=
  ownCalls SweepEvent.task SweepEvent.done i trace

/-- The trace records what every task has called. -/
def sweepRecording (deps : SweepDeps) : Recording (sweepSystem deps) :=
  .ofLog SweepEvent.task SweepEvent.done SweepWorld.trace fun hExec => by
    obtain ⟨⟨applied, hTrace⟩, -, -⟩ := sweepExec_logged hExec
    exact ⟨_, hTrace, rfl, rfl⟩

namespace SweepPast

/-- A check of the transaction came back positive. -/
def Checked (past : SweepPast) (txId : String) : Prop :=
  ⟨.isConfirmed txId, .ok true⟩ ∈ past

/-- The transaction was broadcast as the transfer of the job's deposit. -/
def Broadcast (past : SweepPast) (id txId : String) : Prop :=
  ∃ depositIndex fromAddress toAddress amountMicro,
    ⟨.sweepTrc20 id depositIndex fromAddress toAddress amountMicro, .ok txId⟩ ∈ past

/-- The job was handed out with the transaction as its transfer. -/
def Handed (past : SweepPast) (id txId : String) : Prop :=
  ∃ h ∈ past, ∃ row ∈ h.1.taken h.2, row.id = id ∧ row.sweepTxId = some txId

/-- What a task has reason to store about a job. -/
structure Supports (past : SweepPast) (job : SweepJob) : Prop where
  swept : job.status = .SWEPT → ∃ txId, job.sweepTxId = some txId ∧ past.Checked txId
  sent : ∀ txId, job.sweepTxId = some txId → past.Broadcast job.id txId ∨ past.Handed job.id txId

variable {past older : SweepPast} {job job' : SweepJob}

/-- What supported a job goes on supporting it. -/
theorem Supports.mono (h : older.Supports job) (hLong : older <:+ past) : past.Supports job where
  swept hSwept := by
    obtain ⟨txId, hTx, hChecked⟩ := h.swept hSwept
    exact ⟨txId, hTx, hLong.subset hChecked⟩
  sent txId hTx := by
    rcases h.sent txId hTx with ⟨depositIndex, fromAddress, toAddress, amountMicro, hMem⟩ |
      ⟨x, hMem, hRow⟩
    · exact .inl ⟨depositIndex, fromAddress, toAddress, amountMicro, hLong.subset hMem⟩
    · exact .inr ⟨x, hLong.subset hMem, hRow⟩

/-- A patch that leaves the transfer alone and does not mark the job SWEPT. -/
theorem Supports.patch (h : past.Supports job) (hId : job'.id = job.id)
    (hTx : job'.sweepTxId = job.sweepTxId)
    (hStatus : job'.status = .SWEPT → job.status = .SWEPT) : past.Supports job' where
  swept hSwept := by
    rw [hTx]
    exact h.swept (hStatus hSwept)
  sent txId hSome := by
    rw [hId]
    rw [hTx] at hSome
    exact h.sent txId hSome

end SweepPast

/-- What may be stored after what a task has done. -/
def SweepPast.Admits (past : SweepPast) : SweepCall → Prop
  | .update _ job | .create job => past.Supports job
  | _ => True

/-- The jobs that are due are not SWEPT. -/
def dueJobsOpen : (c : SweepCall) → Except AppError (SweepAns c) → Prop
  | .due _ _, .ok jobs => ∀ job ∈ (jobs : List SweepJob), job.status ≠ .SWEPT
  | _, _ => True

namespace SweepService

open Prog (perform)

variable {deps : SweepDeps} {past : SweepPast} {job : SweepJob}

/-- The program stores only what its past supports, and keeps a job it leaves
behind supported. -/
abbrev StepFollows (p : SweepAction Stepped) (past : SweepPast) : Prop :=
  p.Follows dueJobsOpen SweepPast.Admits
    (fun result past' => ∃ stepped, result = .ok stepped ∧
      SweepPast.Supports past' stepped.1) past

/-- A caught failure leaves the job as it was patched. -/
theorem follows_attempt {c : SweepCall} {patched : SweepJob} {next : SweepAns c → SweepAction Stepped}
    (hCall : past.Admits c) (hPatched : past.Supports patched)
    (hNext : ∀ a, StepFollows (next a) (⟨c, .ok a⟩ :: past)) :
    StepFollows (attempt c patched next) past := by
  apply And.intro hCall
  intro answer _
  cases answer with
  | ok a => exact hNext a
  | error e => exact ⟨_, rfl, hPatched.mono (List.suffix_cons _ past)⟩

theorem follows_store (h : past.Supports job) : StepFollows (store job) past := by
  apply follows_attempt
  · exact h
  · exact h
  intro _
  exact ⟨_, rfl, h.mono (List.suffix_cons _ past)⟩

/-- A step ends by storing the job with the time. -/
theorem follows_stamp {patch : Int → SweepJob} (h : past.Supports job)
    (hPatch : ∀ now, past.Supports (patch now)) :
    StepFollows (attempt .now job fun (now : Int) => store (patch now)) past := by
  apply follows_attempt
  · exact trivial
  · exact h
  intro now
  apply follows_store
  exact (hPatch now).mono (List.suffix_cons _ past)

theorem follows_defer (h : past.Supports job) : StepFollows (defer deps job) past := by
  apply follows_stamp h
  intro now
  exact h.patch rfl rfl id

/-- Any status but SWEPT needs no support. -/
theorem follows_advance {status : SweepStatus} (h : past.Supports job) (hStatus : status ≠ .SWEPT) :
    StepFollows (advance deps job status) past := by
  apply follows_stamp h
  intro now
  exact h.patch rfl rfl fun hSwept => absurd hSwept hStatus

theorem follows_transfer (h : past.Supports job) (hOpen : job.status ≠ .SWEPT) :
    StepFollows (transfer deps job) past := by
  apply follows_attempt
  · exact trivial
  · exact h
  intro txId
  have hSent : SweepPast.Supports (⟨.sweepTrc20 job.id job.depositIndex job.depositAddress
      job.collectionAddress job.amountMicro, .ok txId⟩ :: past)
      { job with sweepTxId := some txId } := by
    constructor
    · intro hSwept
      exact absurd hSwept hOpen
    · intro txId' hTx
      cases hTx
      exact .inl ⟨_, _, _, _, List.mem_cons_self⟩
  exact follows_advance hSent (fun hEq => nomatch hEq)

/-- A pending job is not marked SWEPT. -/
theorem follows_stepPending (h : past.Supports job) (hOpen : job.status ≠ .SWEPT) :
    StepFollows (stepPending deps job) past := by
  apply follows_attempt
  · exact trivial
  · exact h
  intro balance
  have hRead := h.mono (List.suffix_cons ⟨.trc20BalanceMicro job.depositAddress, .ok balance⟩ past)
  dsimp only
  split
  · apply follows_stamp
    · exact hRead.patch rfl rfl id
    · intro now
      exact hRead.patch rfl rfl fun hEq => nomatch hEq
  · apply follows_attempt
    · exact trivial
    · exact hRead.patch rfl rfl id
    intro trx
    have hGas := hRead.mono (List.suffix_cons ⟨.trxBalanceSun job.depositAddress, .ok trx⟩ _)
    split
    · apply follows_attempt
      · exact trivial
      · exact hGas.patch rfl rfl id
      intro gasTxId
      apply follows_advance
      · exact (hGas.mono (List.suffix_cons _ _)).patch rfl rfl id
      · exact fun hEq => nomatch hEq
    · apply follows_transfer
      · exact hGas.patch rfl rfl id
      · exact hOpen

theorem follows_stepGasFueling (h : past.Supports job) (hOpen : job.status ≠ .SWEPT) :
    StepFollows (stepGasFueling deps job) past := by
  unfold stepGasFueling
  split
  · exact follows_defer h
  · apply follows_attempt
    · exact trivial
    · exact h
    intro confirmed
    split
    · exact follows_transfer (h.mono (List.suffix_cons _ past)) hOpen
    · exact follows_defer (h.mono (List.suffix_cons _ past))

/-- The status SWEPT is stored after a positive check of the job's transfer. -/
theorem follows_stepSweeping (h : past.Supports job) : StepFollows (stepSweeping deps job) past := by
  unfold stepSweeping
  split
  · exact follows_defer h
  · next txId hTx =>
      have hSome : job.sweepTxId = some txId := (Option.filter_eq_some_iff.mp hTx).1
      have hFinish : ∀ {past' : SweepPast}, past'.Supports job → past'.Checked txId →
          StepFollows (finish job .SWEPT) past' := by
        intro past' h' hChecked
        apply follows_stamp h'
        intro now
        exact ⟨fun _ => ⟨txId, hSome, hChecked⟩, h'.sent⟩
      apply follows_attempt
      · exact trivial
      · exact h
      intro confirmed
      have hRead := h.mono (List.suffix_cons ⟨.isConfirmed txId, .ok confirmed⟩ past)
      split
      · next hYes =>
          subst hYes
          split
          · apply follows_attempt
            · exact trivial
            · exact hRead
            intro _
            apply hFinish
            · exact hRead.mono (List.suffix_cons _ _)
            · exact List.mem_cons_of_mem _ List.mem_cons_self
          · exact hFinish hRead List.mem_cons_self
      · exact follows_defer hRead

/-- A job is marked SWEPT after a confirmation, whatever its status. -/
theorem follows_step (h : past.Supports job) : StepFollows (step deps job) past := by
  unfold step
  split
  · next hStatus => exact follows_stepPending h (by simp [hStatus])
  · next hStatus => exact follows_stepGasFueling h (by simp [hStatus])
  · exact follows_stepSweeping h
  · exact ⟨_, rfl, h⟩

/-- Noting a failure changes nothing that needs support. -/
theorem supports_withError {message : String} {now : Int} (h : past.Supports job) :
    past.Supports (withError deps job message now) := by
  unfold withError
  split
  · exact h.patch rfl rfl fun hEq => nomatch hEq
  · exact h.patch rfl rfl id

/-- The program stores only what its past supports. -/
abbrev StoresSupported {α : Type} (p : SweepAction α) (past : SweepPast) : Prop :=
  p.Follows dueJobsOpen SweepPast.Admits (fun _ _ => True) past

theorem follows_onError {err : AppError} (h : past.Supports job) :
    StoresSupported (onError deps job err) past := by
  apply Prog.follows_perform trivial
  · intro now _
    apply Prog.follows_perform
    · exact supports_withError (h.mono (List.suffix_cons _ past))
    · exact fun _ _ => trivial
    · exact fun _ _ => trivial
  · exact fun _ _ => trivial

/-- The job that a step leaves is stored once. -/
theorem follows_process (h : past.Supports job) : StoresSupported (process deps job) past := by
  apply Prog.follows_bind
  apply Prog.follows_mono (fun _ _ => id) _ (follows_step h)
  intro result past' hStepped
  obtain ⟨⟨job', err⟩, rfl, hLeft⟩ := hStepped
  cases err with
  | none => exact trivial
  | some err => exact follows_onError hLeft

theorem follows_processEach {jobs : List SweepJob} (h : ∀ job ∈ jobs, past.Supports job) :
    StoresSupported (processEach deps jobs) past := by
  induction jobs generalizing past with
  | nil => exact trivial
  | cons job rest ih =>
      apply Prog.follows_bind
      apply Prog.follows_mono (fun _ _ => id) _
        (Prog.follows_extends (follows_process (h job List.mem_cons_self)))
      intro result past' hLong
      cases result with
      | error e => exact trivial
      | ok _ =>
          apply ih
          intro later hMem
          exact (h later (List.mem_cons_of_mem job hMem)).mono hLong.1

/-- Each job of a pass follows from what the pass has done. -/
theorem follows_processDue (limit : Nat) : StoresSupported (processDue deps limit) [] := by
  apply Prog.follows_perform trivial
  · intro now _
    apply Prog.follows_perform trivial
    · intro due hOpen
      apply Prog.follows_bind
      apply Prog.follows_mono (fun _ _ => id) _ (@follows_processEach deps _ _ _)
      · intro result _ _
        cases result <;> exact trivial
      · intro job hMem
        constructor
        · intro hSwept
          exact absurd hSwept (hOpen job hMem)
        · intro txId hTx
          exact .inr ⟨_, List.mem_cons_self, job, hMem, rfl, hTx⟩
    · exact fun _ _ => trivial
  · exact fun _ _ => trivial

theorem follows_enqueue (input : EnqueueInput) : StoresSupported (enqueue deps input) [] := by
  apply Prog.follows_perform trivial
  · intro existing _
    cases existing with
    | some existing => exact trivial
    | none =>
        apply Prog.follows_perform trivial
        · intro now _
          apply Prog.follows_perform trivial
          · intro id _
            apply And.intro
            · exact ⟨fun hEq => (nomatch hEq), fun _ hEq => (nomatch hEq)⟩
            · exact fun _ _ => trivial
          · exact fun _ _ => trivial
        · exact fun _ _ => trivial
  · exact fun _ _ => trivial

/-- A job that is requeued keeps the transaction of its last transfer. -/
theorem follows_retry (orderId : String) : StoresSupported (retry orderId) [] := by
  rw [retry_eq]
  apply Prog.follows_perform trivial
  · intro found _
    cases found with
    | none => exact trivial
    | some job =>
        dsimp only
        split
        · next hFailed =>
            apply Prog.follows_perform trivial
            · intro now _
              apply Prog.follows_perform
              · constructor
                · intro hEq
                  cases hEq
                · intro txId hTx
                  refine .inr ⟨_, List.mem_cons_of_mem _ List.mem_cons_self, job, ?_, rfl, hTx⟩
                  simp [SweepCall.taken, hFailed]
              · exact fun _ _ => trivial
              · exact fun _ _ => trivial
            · exact fun _ _ => trivial
        · exact trivial
  · exact fun _ _ => trivial

/-- What is asked of an instance stores only what is supported. -/
theorem follows_entry (request : SweepRequest) :
    StoresSupported ((sweepSystem deps).entry request) [] := by
  have hThen : ∀ {α : Type} {p : SweepAction α} {f : α → SweepAction SweepOutcome},
      StoresSupported p [] → (∀ a past, StoresSupported (f a) past) → StoresSupported (p >>= f) [] := by
    intro α p f hFirst hNext
    apply Prog.follows_bind
    apply Prog.follows_mono (fun _ _ => id) _ hFirst
    intro result past _
    cases result with
    | ok a => exact hNext a past
    | error e => exact trivial
  cases request with
  | enqueue input => exact hThen (follows_enqueue input) fun _ _ => trivial
  | processDue limit => exact hThen (follows_processDue limit) fun _ _ => trivial
  | retry orderId => exact hThen (follows_retry orderId) fun _ _ => trivial
  | tick => exact Prog.follows_perform trivial (fun _ _ => trivial) fun _ _ => trivial

end SweepService

/-- The chain and the node's calls, as they are when the sweep service is in a
given state. -/
structure TronNetwork where
  chain : SweepWorld → TronChain
  trx : SweepWorld → TronWebTreasury.TronTrxNamespace
  reports : ∀ w, (trx w).Reports (chain w)

variable (cfg : TronWebTreasury.TronWebTreasuryConfig) (network : TronNetwork)

/-- The confirmation checks of the sweep service are answered by `TronWebTreasury`. -/
def TronNetwork.Answers (m : Sweeper) : SweepLabel → Prop
  | .spawn _ => True
  | .step i reply => ∀ txId, m.nextCall i = some (.isConfirmed txId) →
      reply = .confirmed (TronWebTreasury.isConfirmed cfg (network.trx m.world) txId)

/-- Every check of a run rests on evidence that suffices. -/
def TronNetwork.Suffices (m : Sweeper) : SweepLabel → Prop
  | .spawn _ => True
  | .step i _ => ∀ txId, m.nextCall i = some (.isConfirmed txId) →
      TronWebTreasury.Conclusive cfg (network.chain m.world) (network.trx m.world) txId

/-- The transaction was confirmed on chain at some time in the past. -/
def TronNetwork.WasConfirmed (w : SweepWorld) (txId : String) : Prop :=
  ∃ past : SweepWorld, past.trace <:+ w.trace ∧
    (network.chain past).Confirmed cfg.minConfirmations txId

/-- The transaction was broadcast to transfer the deposit of the job. -/
def SweepWorld.Transferred (w : SweepWorld) (id txId : String) : Prop :=
  ∃ e ∈ w.trace, ∃ depositIndex fromAddress toAddress amountMicro,
    e.done =
      ⟨.sweepTrc20 id depositIndex fromAddress toAddress amountMicro, .ok txId⟩

/-- What holds of the stored jobs and the calls made for them. -/
structure TronNetwork.Backed (w : SweepWorld) : Prop where
  checked : ∀ e ∈ w.trace, ∀ txId,
    e.done =
      ⟨.isConfirmed txId, .ok true⟩ → network.WasConfirmed cfg w txId
  sent : ∀ id row txId, w.job id = some row → row.sweepTxId = some txId → w.Transferred id txId
  handed : ∀ e ∈ w.trace, ∀ row ∈ e.call.taken e.answer, ∀ txId, row.sweepTxId = some txId →
    w.Transferred row.id txId
  swept : ∀ id row, w.job id = some row → row.status = .SWEPT →
    ∃ txId, row.sweepTxId = some txId ∧ network.WasConfirmed cfg w txId

/-- A stored job is as it was, or as the call that settled stores it. -/
theorem job_of_exec {b : Backend} {i : Nat} {c : SweepCall} {reply : SweepReply} {w w' : SweepWorld}
    {answer : Except AppError (SweepAns c)} (hExec : sweepExec b i c reply w = some (answer, w'))
    {id : String} {row : SweepJob} (hRow : w'.job id = some row) :
    w.job id = some row ∨ ∃ job, (c = .create job ∨ ∃ caller, c = .update caller job) ∧
      job.id = row.id ∧ job.status = row.status ∧ job.sweepTxId = row.sweepTxId := by
  cases hReads : c.reads with
  | true =>
      rw [SweepWorld.job, sweepExec_reads hExec hReads] at hRow
      exact .inl hRow
  | false =>
      have hPut : ∀ {job : SweepJob} {s : SweepJobStore} {e : SweepEvent},
          s.byId = w.jobs.byId.put job → w' = { w with jobs := s }.log e →
          w.job id = some row ∨ job = row := by
        intro job s e hStore hWorld
        subst hWorld
        change s.byId.get? id = some row at hRow
        rw [hStore, Table.get?_put] at hRow
        split at hRow
        · exact .inr (Option.some.inj hRow)
        · exact .inl hRow
      cases c with
      | create job =>
          obtain ⟨e, rfl, rfl, -⟩ | ⟨a, s, hOk, hWorld, -⟩ := sweepExec_store hExec rfl
          · exact .inl hRow
          · cases hCreate : w.jobs.create b job with
            | error e =>
                rw [hCreate] at hOk
                cases hOk
            | ok t =>
                rw [hCreate] at hOk
                cases hOk
                rcases hPut (SweepJobStore.create_ok hCreate) hWorld with hOld | hNew
                · exact .inl hOld
                · exact .inr ⟨job, .inl rfl, by rw [hNew], by rw [hNew], by rw [hNew]⟩
      | update caller job =>
          obtain ⟨e, rfl, rfl, -⟩ | ⟨a, s, hOk, hWorld, -⟩ := sweepExec_store hExec rfl
          · exact .inl hRow
          · cases hUpdate : w.jobs.update b job with
            | error e =>
                rw [hUpdate] at hOk
                cases hOk
            | ok t =>
                rw [hUpdate] at hOk
                cases hOk
                rcases SweepJobStore.update_ok hUpdate with rfl | ⟨old, hOld, hStore⟩
                · rw [hWorld] at hRow
                  exact .inl hRow
                · have hId : old.id = job.id := Table.key_of_get? hOld
                  rcases hPut hStore hWorld with hKept | hNew
                  · exact .inl hKept
                  · refine .inr ⟨job, .inr ⟨caller, rfl⟩, ?_⟩
                    rw [← hNew]
                    cases b with
                    | memory => exact ⟨rfl, rfl, rfl⟩
                    | sql => exact ⟨hId.symm, rfl, rfl⟩
      | _ => cases hReads

section backed

variable {cfg network} {deps : SweepDeps} {m m' : Sweeper} {label : SweepLabel}

/-- A confirmed transaction stays confirmed. -/
theorem TronNetwork.WasConfirmed.mono {w w' : SweepWorld} {txId : String}
    (h : network.WasConfirmed cfg w txId) (hLong : w.trace <:+ w'.trace) :
    network.WasConfirmed cfg w' txId := by
  obtain ⟨past, hPast, hConfirmed⟩ := h
  exact ⟨past, hPast.trans hLong, hConfirmed⟩

/-- What was transferred stays transferred. -/
theorem SweepWorld.Transferred.mono {w w' : SweepWorld} {id txId : String}
    (h : w.Transferred id txId) (hLong : w.trace <:+ w'.trace) : w'.Transferred id txId := by
  obtain ⟨e, hMem, hCall⟩ := h
  exact ⟨e, hLong.subset hMem, hCall⟩

/-- What a task has reason to store is so. -/
theorem TronNetwork.Backed.of_supports {w : SweepWorld} {i : Nat} {job : SweepJob}
    (hBacked : network.Backed cfg w) (h : SweepPast.Supports (sweepPastOf i w.trace) job) :
    (job.status = .SWEPT → ∃ txId, job.sweepTxId = some txId ∧ network.WasConfirmed cfg w txId) ∧
    ∀ txId, job.sweepTxId = some txId → w.Transferred job.id txId := by
  constructor
  · intro hSwept
    obtain ⟨txId, hTx, hChecked⟩ := h.swept hSwept
    obtain ⟨e, hMem, -, hCall⟩ := exists_of_mem_ownCalls hChecked
    exact ⟨txId, hTx, hBacked.checked e hMem txId hCall⟩
  · intro txId hTx
    rcases h.sent txId hTx with ⟨depositIndex, fromAddress, toAddress, amountMicro, hSent⟩ |
      ⟨x, hHanded, row, hRow, hId, hRowTx⟩
    · obtain ⟨e, hMem, -, hCall⟩ := exists_of_mem_ownCalls hSent
      exact ⟨e, hMem, depositIndex, fromAddress, toAddress, amountMicro, hCall⟩
    · obtain ⟨e, hMem, -, hCall⟩ := exists_of_mem_ownCalls hHanded
      rw [← hCall] at hRow
      rw [← hId]
      exact hBacked.handed e hMem row hRow txId hRowTx

/-- The answer of a check that ran against the node. -/
theorem answer_of_check {b : Backend} {i : Nat} {txId : String} {yes : Bool} {w w' : SweepWorld}
    {answer : Except AppError Bool}
    (hExec : sweepExec b i (.isConfirmed txId) (.confirmed yes) w = some (answer, w')) :
    answer = .ok yes := by
  cases hExec
  rfl

/-- One settled call. -/
theorem TronNetwork.Backed.step (hBacked : network.Backed cfg m.world)
    (hFollowing : Following (sweepRecording deps) dueJobsOpen SweepPast.Admits (fun _ _ => True) m)
    (hAnswers : network.Answers cfg m label) (hSuffices : network.Suffices cfg m label)
    (hStep : (sweepSystem deps).step m label = some m') : network.Backed cfg m'.world := by
  obtain hSame | ⟨i, reply, c, answer, rfl, hCall, hExec⟩ := System.world_of_step hStep
  · rwa [hSame]
  obtain ⟨⟨applied, hTrace⟩, -, -⟩ := sweepExec_logged hExec
  have hLong : m.world.trace <:+ m'.world.trace := by
    rw [hTrace]
    exact List.suffix_cons ..
  have hAdmits := hFollowing.nextCall hCall
  have hStored : ∀ id row, m'.world.job id = some row → m.world.job id = some row ∨
      ((row.status = .SWEPT → ∃ txId, row.sweepTxId = some txId ∧
        network.WasConfirmed cfg m.world txId) ∧
      ∀ txId, row.sweepTxId = some txId → m.world.Transferred id txId) := by
    intro id row hRow
    rcases job_of_exec hExec hRow with hOld | ⟨job, hWrites, hId, hStatus, hTx⟩
    · exact .inl hOld
    · have hSupports : SweepPast.Supports (sweepPastOf i m.world.trace) job := by
        rcases hWrites with rfl | ⟨caller, rfl⟩ <;> exact hAdmits
      have hSo := hBacked.of_supports hSupports
      rw [hStatus, hTx, hId, SweepWorld.job_id hRow] at hSo
      exact .inr hSo
  constructor
  · intro e hMem txId hCheck
    rw [hTrace] at hMem
    rcases List.mem_cons.mp hMem with rfl | hOlder
    · cases hCheck
      have hReply := hAnswers txId hCall
      subst hReply
      have hYes := Except.ok.inj (answer_of_check (b := deps.backend) hExec)
      exact ⟨m.world, hLong, (TronWebTreasury.confirmed_iff_conclusive
        (network.reports m.world)).mpr (hSuffices txId hCall) hYes.symm⟩
    · exact (hBacked.checked e hOlder txId hCheck).mono hLong
  · intro id row txId hRow hTx
    rcases hStored id row hRow with hOld | ⟨-, hSent⟩
    · exact (hBacked.sent id row txId hOld hTx).mono hLong
    · exact (hSent txId hTx).mono hLong
  · intro e hMem row hRow txId hTx
    rw [hTrace] at hMem
    rcases List.mem_cons.mp hMem with rfl | hOlder
    · exact (hBacked.sent row.id row txId (sweepExec_taken hExec hRow).1 hTx).mono hLong
    · exact (hBacked.handed e hOlder row hRow txId hTx).mono hLong
  · intro id row hRow hSwept
    have hPast : ∃ txId, row.sweepTxId = some txId ∧ network.WasConfirmed cfg m.world txId := by
      rcases hStored id row hRow with hOld | ⟨hSwept', -⟩
      · exact hBacked.swept id row hOld hSwept
      · exact hSwept' hSwept
    obtain ⟨txId, hTx, hConfirmed⟩ := hPast
    exact ⟨txId, hTx, hConfirmed.mono hLong⟩

/-- Jobs handed out as due are open. -/
theorem dueJobsOpen_of_exec {b : Backend} {i : Nat} {c : SweepCall} {reply : SweepReply}
    {w w' : SweepWorld} {answer : Except AppError (SweepAns c)}
    (hExec : sweepExec b i c reply w = some (answer, w')) : dueJobsOpen c answer := by
  cases c with
  | due now limit =>
      cases answer with
      | error e => exact trivial
      | ok jobs =>
          intro job hMem hSwept
          have hOpen := (sweepExec_taken hExec hMem).2 ⟨now, limit, rfl⟩
          rw [hSwept] at hOpen
          cases hOpen
  | _ => exact trivial

/-- A run whose checks rest on evidence that suffices. -/
theorem backed_of_run {clock : Int}
    (hRun : (sweepSystem deps).Reaches
      (fun m label => network.Answers cfg m label ∧ network.Suffices cfg m label)
      (Sweeper.start .empty clock) m) :
    network.Backed cfg m.world ∧
      Following (sweepRecording deps) dueJobsOpen SweepPast.Admits (fun _ _ => True) m := by
  apply hRun.invariant (P := fun m => network.Backed cfg m.world ∧
      Following (sweepRecording deps) dueJobsOpen SweepPast.Admits (fun _ _ => True) m)
  · intro m label m' hAllowed hStep hHolds
    constructor
    · exact hHolds.1.step hHolds.2 hAllowed.1 hAllowed.2 hStep
    · apply hHolds.2.step (fun request _ => SweepService.follows_entry request) _ hStep
      intro i reply c answer w' _ _ hExec
      exact dueJobsOpen_of_exec hExec
  · constructor
    · constructor
      · intro e hMem
        cases hMem
      · intro id row txId hRow
        cases hRow
      · intro e hMem
        cases hMem
      · intro id row hRow
        cases hRow
    · exact following_start fun _ => rfl

end backed

/-- A check says yes wrongly exactly where it rests on evidence that does not
suffice. As long as none does, the deposit of every job that is SWEPT was
transferred by a transaction that was confirmed on chain. -/
theorem confirmation_means_success (cfg : TronWebTreasury.TronWebTreasuryConfig)
    (network : TronNetwork) (deps : SweepDeps) :
    (∀ (chain : TronChain) (trx : TronWebTreasury.TronTrxNamespace) (txId : String),
      trx.Reports chain →
        ((TronWebTreasury.isConfirmed cfg trx txId = true →
          chain.Confirmed cfg.minConfirmations txId) ↔
        TronWebTreasury.Conclusive cfg chain trx txId)) ∧
    ∀ (clock : Int) (m : Sweeper), (sweepSystem deps).Reaches
        (fun m label => network.Answers cfg m label ∧ network.Suffices cfg m label)
        (Sweeper.start .empty clock) m →
      ∀ id job, m.world.job id = some job → job.status = .SWEPT →
        ∃ txId, job.sweepTxId = some txId ∧ m.world.Transferred id txId ∧
          network.WasConfirmed cfg m.world txId := by
  constructor
  · intro chain trx txId hReports
    exact TronWebTreasury.confirmed_iff_conclusive hReports
  · intro clock m hRun id job hJob hSwept
    have hBacked := (backed_of_run hRun).1
    obtain ⟨txId, hTx, hConfirmed⟩ := hBacked.swept id job hJob hSwept
    exact ⟨txId, hTx, hBacked.sent id job txId hJob hTx, hConfirmed⟩

namespace Sample

def tronConfig : TronWebTreasury.TronWebTreasuryConfig := ⟨19⟩

/-- One transaction, far below the head block. -/
def tronChain (contractRet : String) : TronChain where
  transaction txId := if txId = "tx1" then some ⟨5, contractRet⟩ else none
  head := 30

def tronNode (contractRet : String) : TronWebTreasury.TronTrxNamespace where
  getTransactionInfo txId := .ok ⟨if txId = "tx1" then some 5 else none⟩
  getConfirmedTransaction txId :=
    if txId = "tx1" then .ok ⟨some [⟨some contractRet⟩]⟩ else .error "Transaction not found"
  getCurrentBlock := .ok ⟨some ⟨some ⟨some 30⟩⟩⟩

/-- The sample node reports what its chain has. -/
theorem tronNode_reports (contractRet : String) :
    (tronNode contractRet).Reports (tronChain contractRet) where
  mined txId info b hInfo hNumber := by
    cases hInfo
    simp only [Option.ite_none_right_eq_some, Option.some.injEq] at hNumber
    obtain ⟨rfl, rfl⟩ := hNumber
    exact ⟨⟨5, contractRet⟩, rfl, rfl⟩
  executed txId confirmed result hLookup hResult := by
    simp only [tronNode] at hLookup
    split at hLookup
    · next hTx =>
        cases hLookup
        cases hResult
        exact ⟨⟨5, contractRet⟩, by simp [tronChain, hTx], rfl⟩
    · cases hLookup
  height block h hBlock hNumber := by
    cases hBlock
    cases hNumber
    rfl

def tronNetwork (contractRet : String) : TronNetwork where
  chain _ := tronChain contractRet
  trx _ := tronNode contractRet
  reports _ := tronNode_reports contractRet

/-- The transfer is checked and found confirmed. -/
def findsConfirmed (m : Sweeper) : SweepLabel → Bool
  | .spawn _ => true
  | .step i reply => match m.nextCall i with
      | some (.isConfirmed txId) => txId = "tx1" && match reply with
          | .confirmed yes => yes
          | _ => false
      | _ => true

def collects : List SweepLabel :=
  enqueues 0 ++ broadcasts 1 "tx1" ++ stores 1 ++
    [.spawn .tick, .step 2 (.time 60000), .spawn (.processDue 50), .step 3 .normal,
      .step 3 .normal, .step 3 (.confirmed true)] ++ stores 3

/-- The node lets the check succeed, whatever the transaction came to. -/
theorem answers_of_findsConfirmed {contractRet : String} {m : Sweeper} {label : SweepLabel}
    (h : findsConfirmed m label = true) :
    (tronNetwork contractRet).Answers tronConfig m label ∧
      ∀ i reply txId, label = .step i reply → m.nextCall i = some (.isConfirmed txId) →
        txId = "tx1" := by
  cases label with
  | spawn request => exact ⟨trivial, fun _ _ _ hLabel => (nomatch hLabel)⟩
  | step i reply =>
      have hFound : ∀ txId, m.nextCall i = some (.isConfirmed txId) →
          txId = "tx1" ∧ reply = .confirmed true := by
        intro txId hCall
        simp only [findsConfirmed, hCall, Bool.and_eq_true, decide_eq_true_eq] at h
        obtain ⟨hTx, hYes⟩ := h
        cases reply with
        | confirmed yes => exact ⟨hTx, congrArg _ hYes⟩
        | _ => cases hYes
      constructor
      · intro txId hCall
        obtain ⟨rfl, rfl⟩ := hFound txId hCall
        rfl
      · intro j reply' txId hLabel hCall
        cases hLabel
        exact (hFound txId hCall).1

theorem collects_sweeps : ∃ m : Sweeper, ∃ job, (sweepSystem (sweepDeps .sql)).Reaches
      (fun m label => findsConfirmed m label = true) (Sweeper.start .empty 0) m ∧
    m.world.job "j1" = some job ∧ job.status = .SWEPT ∧ job.sweepTxId = some "tx1" := by
  obtain ⟨m, hRun, hCheck⟩ := System.exists_reaches (sweepSystem (sweepDeps .sql)) findsConfirmed
    (Sweeper.start .empty 0) collects
    (fun m => (m.world.job "j1").any fun job =>
      job.status = .SWEPT && job.sweepTxId = some "tx1") (by decide +kernel)
  obtain ⟨job, hJob, hBoth⟩ := (Option.any_eq_true _ _).mp hCheck
  simp only [Bool.and_eq_true, decide_eq_true_eq] at hBoth
  exact ⟨m, job, hRun, hJob, hBoth.1, hBoth.2⟩

end Sample

/-- A job is collected by a transfer that succeeded. -/
theorem confirmation_means_success_sample : ∃ m : Sweeper, ∃ job,
    m.world.job "j1" = some job ∧ job.status = .SWEPT ∧ job.sweepTxId = some "tx1" ∧
    (Sample.tronNetwork "SUCCESS").WasConfirmed Sample.tronConfig m.world "tx1" := by
  obtain ⟨m, job, hRun, hJob, hSwept, hTx⟩ := Sample.collects_sweeps
  have hAllowed : (sweepSystem (Sample.sweepDeps .sql)).Reaches (fun m label =>
      (Sample.tronNetwork "SUCCESS").Answers Sample.tronConfig m label ∧
        (Sample.tronNetwork "SUCCESS").Suffices Sample.tronConfig m label)
      (Sweeper.start .empty 0) m := by
    apply hRun.mono
    intro m label m' hFinds _
    obtain ⟨hAnswers, hOnly⟩ := Sample.answers_of_findsConfirmed hFinds
    apply And.intro hAnswers
    cases label with
    | spawn request => exact trivial
    | step i reply =>
        intro txId hCall
        obtain rfl := hOnly i reply txId rfl hCall
        intro tx hMined info hInfo
        cases hMined
        cases hInfo
        intro block hBlock
        cases hBlock
        exact .inl rfl
  obtain ⟨txId, hSome, -, hConfirmed⟩ := (confirmation_means_success Sample.tronConfig
    (Sample.tronNetwork "SUCCESS") (Sample.sweepDeps .sql)).2 0 m hAllowed "j1" job hJob hSwept
  cases hTx.symm.trans hSome
  exact ⟨m, job, hJob, hSwept, hTx, hConfirmed⟩

/-- The transfer is mined and reverted, 25 blocks below the head. The check says yes
and the job becomes SWEPT. -/
theorem reverted_transfer_swept :
    ((Sample.tronNode "REVERT").Reports (Sample.tronChain "REVERT") ∧
      TronWebTreasury.isConfirmed Sample.tronConfig (Sample.tronNode "REVERT") "tx1" = true ∧
      ¬(Sample.tronChain "REVERT").Confirmed 19 "tx1") ∧
    ∃ m : Sweeper, ∃ job, (sweepSystem (Sample.sweepDeps .sql)).Reaches
        (fun m label => (Sample.tronNetwork "REVERT").Answers Sample.tronConfig m label)
        (Sweeper.start .empty 0) m ∧
      m.world.job "j1" = some job ∧ job.status = .SWEPT ∧ job.sweepTxId = some "tx1" ∧
      ¬(Sample.tronNetwork "REVERT").WasConfirmed Sample.tronConfig m.world "tx1" := by
  have hNever : ¬(Sample.tronChain "REVERT").Confirmed 19 "tx1" := by
    intro hConfirmed
    obtain ⟨tx, hTx, hResult, -⟩ := hConfirmed
    cases hTx
    exact absurd hResult (by decide)
  constructor
  · exact ⟨Sample.tronNode_reports "REVERT", rfl, hNever⟩
  · obtain ⟨m, job, hRun, hJob, hSwept, hTx⟩ := Sample.collects_sweeps
    refine ⟨m, job, hRun.mono ?_, hJob, hSwept, hTx, ?_⟩
    · exact fun m label m' hFinds _ => (Sample.answers_of_findsConfirmed hFinds).1
    · intro hConfirmed
      obtain ⟨past, -, hPast⟩ := hConfirmed
      exact hNever hPast

end VpnPayment
