import VpnPayment.Sweep.Steps

/-! The methods of `SweepService` keep the discipline. -/
namespace VpnPayment

open Async Collections SweepService SweepWorld
open Prog (perform)

section working

variable (mode : SweepMode) (policy : SweepPolicy) (i : Nat)

/-- A job object as a task holds it before it has done anything about the job. -/
structure Ready (job : SweepJob) (w : SweepWorld) : Prop where
  opened : isSweepTerminal job.status = false
  left : AttemptsLeft policy job
  took : w.Took i job.id
  stored : w.Undisturbed i job.id → w.job job.id = some job ∧ (w.history job.id).owes = none

/-- A job object that a task may store. -/
structure Working (job : SweepJob) (w : SweepWorld) : Prop where
  took : w.Took i job.id
  stored : w.Undisturbed i job.id → ∃ row, w.job job.id = some row ∧
    row.orderId = job.orderId ∧ row.createdAt = job.createdAt ∧
    Sane mode policy w.failed job ((w.history job.id).storedBy .processDue) ∧
    (mode.strict = true → SweepEdge row.status job.status = true ∧
      SweepEdge row.status .FAILED = true)

/-- How a step on the job `id` ends: if it has not thrown, it owes nothing, and
otherwise the object it leaves may be stored. -/
def StepPost (id : String) (w₀ : SweepWorld) (h : Option Unit)
    (result : Except AppError Stepped) (w : SweepWorld) : Prop :=
  h = none ∧ w₀.Kept i (some id) w ∧ ∃ job thrown, result = .ok (job, thrown) ∧ job.id = id ∧
    (thrown = none → mode.strict = true → (w.history id).owes ≠ some i) ∧
    (thrown ≠ none → Working mode policy i job w)

end working

section stable

variable {mode : SweepMode} {policy : SweepPolicy} {i : Nat} {busy : Option String}
  {job row : SweepJob} {w w' : SweepWorld} {h : JobHistory}

/-- What others do leaves a job ready. -/
theorem Ready.stable (hReady : Ready policy i job w) (hBusy : some job.id ≠ busy)
    (hKept : w.Kept i busy w') : Ready policy i job w' := by
  refine { hReady with took := hKept.took _ hReady.took, stored := fun hUndisturbed => ?_ }
  obtain ⟨hBefore, hJob, hHistory⟩ := hKept.same _ hBusy hReady.took hUndisturbed
  rw [hJob, hHistory]
  exact hReady.stored hBefore

/-- What others do leaves the work in progress alone. -/
theorem Working.stable (hWorking : Working mode policy i job w) (hKept : w.Kept i none w') :
    Working mode policy i job w' := by
  refine ⟨hKept.took _ hWorking.took, fun hUndisturbed => ?_⟩
  obtain ⟨hBefore, hJob, hHistory⟩ := hKept.same _ (by simp) hWorking.took hUndisturbed
  obtain ⟨row, hRow, hOrder, hCreated, hSane, hEdge⟩ := hWorking.stored hBefore
  rw [hJob, hHistory]
  exact ⟨row, hRow, hOrder, hCreated, hSane.mono hKept.failed, hEdge⟩

theorem StepPost.stable {id : String} {w₀ : SweepWorld} {r : Option Unit}
    {result : Except AppError Stepped} (hPost : StepPost mode policy i id w₀ r result w)
    (hKept : w.Kept i none w') : StepPost mode policy i id w₀ r result w' := by
  obtain ⟨hNone, hKept₀, job, thrown, hResult, hId, hOk, hThrown⟩ := hPost
  refine ⟨hNone, hKept₀.trans hKept.weaken, job, thrown, hResult, hId, ?_, ?_⟩
  · exact fun hEq hMode hOwes => hOk hEq hMode (hKept.debts id (by simp) hOwes)
  · exact fun hNe => (hThrown hNe).stable hKept

/-- Whether a job object is sane depends on four of its fields. -/
theorem Sane.congr {failed : List String} (hSane : Sane mode policy failed row h)
    (hStatus : job.status = row.status) (hGas : job.gasTxId = row.gasTxId)
    (hSweep : job.sweepTxId = row.sweepTxId)
    (hAmount : job.amountMicro = row.amountMicro ∨ row.status = .PENDING) :
    Sane mode policy failed job h where
  sent := hSane.sent
  fueled := hSane.fueled
  gas hFueling := by
    rcases hAmount with hAmount | hPending
    · rw [hGas, hAmount]
      exact hSane.gas (hStatus ▸ hFueling)
    · rw [hStatus, hPending] at hFueling
      cases hFueling
  swept hDone := by
    rcases hAmount with hAmount | hPending
    · rw [hSweep, hAmount]
      exact hSane.swept (hStatus ▸ hDone)
    · rw [hStatus, hPending] at hDone
      rcases hDone with hDone | hDone <;> cases hDone
  settled hOwes :=
    { unsent := fun hBefore => (hSane.settled hOwes).unsent (hStatus ▸ hBefore)
      unfueled := fun hPending => (hSane.settled hOwes).unfueled (hStatus ▸ hPending)
      latest := hSweep.trans (hSane.settled hOwes).latest
      seen := fun hMode hBefore txId hTx =>
        (hSane.settled hOwes).seen hMode (hStatus ▸ hBefore) txId (hSweep ▸ hTx) }

/-- A terminal status that promises nothing. -/
theorem Sane.ended {failed : List String} (hSane : Sane mode policy failed row h)
    (hLatest : row.sweepTxId = h.latest) (hSweep : job.sweepTxId = row.sweepTxId)
    (hStatus : job.status = .FAILED ∨ job.status = .EMPTY) : Sane mode policy failed job h where
  sent := hSane.sent
  fueled := hSane.fueled
  gas hFueling := by
    rcases hStatus with hEq | hEq <;> rw [hEq] at hFueling <;> cases hFueling
  swept hDone := by
    rcases hStatus with hEq | hEq <;> rw [hEq] at hDone <;> rcases hDone with hDone | hDone <;>
      cases hDone
  settled hOwes := by
    refine ⟨fun hBefore => ?_, fun hPending => ?_, hSweep.trans hLatest, fun _ hBefore => ?_⟩
    · rcases hStatus with hEq | hEq <;> rw [hEq] at hBefore <;> cases hBefore
    · rcases hStatus with hEq | hEq <;> rw [hEq] at hPending <;> cases hPending
    · rcases hStatus with hEq | hEq <;> rw [hEq] at hBefore <;> cases hBefore

/-- A history that owes nothing is left as it is by a write. -/
theorem storedBy_of_owes (hOwes : h.owes = none) : h.storedBy .processDue = h := by
  simp [JobHistory.storedBy, ← hOwes]

theorem storedBy_storedBy (h : JobHistory) :
    (h.storedBy .processDue).storedBy .processDue = h.storedBy .processDue := rfl

theorem sweepEdge_refl (s : SweepStatus) : SweepEdge s s = true := by
  cases s <;> rfl

/-- A job that is not settled may fail. -/
theorem sweepEdge_failed {s : SweepStatus} (h : isSweepTerminal s = false) :
    SweepEdge s .FAILED = true := by
  cases s with
  | PENDING => rfl
  | GAS_FUELING => rfl
  | SWEEPING => rfl
  | _ => cases h

end stable

section steps

variable {mode : SweepMode} {deps : SweepDeps} {i : Nat} {id : String} {job row : SweepJob}
  {w w₀ : SweepWorld}

/-- What a task that has not done anything yet may store. -/
theorem Ready.working {policy : SweepPolicy} (hReady : Ready policy i row w)
    (hSound : w.Sound mode policy) (hId : job.id = row.id) (hOrder : job.orderId = row.orderId)
    (hCreated : job.createdAt = row.createdAt)
    (hSane : ∀ h, Sane mode policy w.failed row h → Settled mode w.failed row h →
      Sane mode policy w.failed job h)
    (hEdge : SweepEdge row.status job.status = true) : Working mode policy i job w := by
  refine ⟨hId ▸ hReady.took, fun hUndisturbed => ?_⟩
  rw [hId] at hUndisturbed ⊢
  obtain ⟨hRow, hOwes⟩ := hReady.stored hUndisturbed
  have hRowSane := (hSound.rows _ _ hRow).1
  rw [storedBy_of_owes hOwes]
  exact ⟨row, hRow, hOrder.symm, hCreated.symm, hSane _ hRowSane (hRowSane.settled hOwes),
    fun _ => ⟨hEdge, sweepEdge_failed hReady.opened⟩⟩

/-- A call that is about no job and only reads the stored jobs. -/
theorem wp_read {α : Type} {Q : Option Unit → Except AppError α → SweepWorld → Prop}
    {c : SweepCall} {next : Except AppError (SweepAns c) → SweepAction α}
    (hReads : c.reads = true) (hAbout : c.about = none)
    (hNext : ∀ w₁ answer w₂ reply, w.Kept i none w₁ → w₁.Sound mode deps.policy →
      sweepCond mode deps i c reply w₁ →
      sweepExec deps.backend i c reply w₁ = some (answer, w₂) → w.Kept i none w₂ →
      w₂.Sound mode deps.policy → (sweepDiscipline mode deps).wp i none (next answer) Q w₂) :
    (sweepDiscipline mode deps).wp i none (.call c next) Q w := by
  intro w₁ hRely hSound free _ reply hCond answer w₂ hExec
  obtain ⟨hSound₂, hMoves, hKept⟩ := quiet_step hSound hExec hReads hAbout
  exact ⟨hSound₂, hMoves,
    hNext w₁ answer w₂ reply hRely hSound hCond hExec (Kept.trans hRely hKept) hSound₂⟩

/-- The clock can always be read. -/
theorem wp_now {α : Type} {Q : Option Unit → Except AppError α → SweepWorld → Prop}
    {next : Except AppError Int → SweepAction α}
    (hNext : ∀ now w₂, w.Kept i none w₂ → w₂.Sound mode deps.policy →
      (sweepDiscipline mode deps).wp i none (next (.ok now)) Q w₂) :
    (sweepDiscipline mode deps).wp i none (.call .now next) Q w := by
  refine wp_read rfl rfl fun w₁ answer w₂ reply _ _ _ hExec hKept hSound => ?_
  obtain ⟨e, -, -, hMay⟩ | ⟨now, -, rfl, -⟩ := sweepExec_outside hExec rfl
  · cases hMay
  · exact hNext now w₂ hKept hSound

/-- A step that ends. -/
theorem wp_stepped {thrown : Option AppError} (hKept : w₀.Kept i (some id) w) (hId : job.id = id)
    (hOk : thrown = none → mode.strict = true → (w.history id).owes ≠ some i)
    (hThrown : thrown ≠ none → Working mode deps.policy i job w) :
    (sweepDiscipline mode deps).wp i none (pure (job, thrown)) (StepPost mode deps.policy i id w₀)
      w := by
  intro w₁ hRely _
  have hPost : StepPost mode deps.policy i id w₀ none (.ok (job, thrown)) w :=
    ⟨rfl, hKept, job, thrown, rfl, hId, hOk, hThrown⟩
  exact hPost.stable hRely

/-- A caught failure stores nothing by itself. -/
theorem wp_thrown {e : AppError} (hWorking : Working mode deps.policy i job w)
    (hKept : w₀.Kept i (some job.id) w) :
    (sweepDiscipline mode deps).wp i none (pure (job, some e))
      (StepPost mode deps.policy i job.id w₀) w :=
  wp_stepped hKept rfl nofun fun _ => hWorking

/-- A task stores the job it works on. If the update throws, the job may still
be stored. -/
theorem wp_update {α : Type} {Q : Option Unit → Except AppError α → SweepWorld → Prop}
    {next : Except AppError SweepJob → SweepAction α} (hWorking : Working mode deps.policy i job w)
    (hLeft : AttemptsLeft deps.policy job)
    (hNext : ∀ answer w₂, w.Kept i (some job.id) w₂ → w₂.Sound mode deps.policy →
      (answer = .ok job ∧ (w₂.history job.id).owes = none ∨
        (∃ e, answer = .error e) ∧ mode.strict ≠ true ∧ Working mode deps.policy i job w₂) →
      (sweepDiscipline mode deps).wp i none (next answer) Q w₂) :
    (sweepDiscipline mode deps).wp i none (.call (.update .processDue job) next) Q w := by
  intro w₁ hRely hSound free _ reply hCond answer w₂ hExec
  have hWorking₁ := hWorking.stable hRely
  have hUndisturbed := hCond.1 _ rfl
  obtain ⟨row, hRow, hOrder, hCreated, hSane, hEdge⟩ := hWorking₁.stored hUndisturbed
  obtain ⟨⟨hSound₂, hMoves, hKept₂⟩, hCases⟩ := update_step hSound hExec hWorking₁.took
    hUndisturbed hRow hOrder hCreated hSane hLeft fun hMode => .inl (hEdge hMode).1
  have hTook₂ := hKept₂.took _ hWorking₁.took
  refine ⟨hSound₂, hMoves, hNext answer w₂ ((Kept.weaken hRely).trans hKept₂) hSound₂ ?_⟩
  rcases hCases with ⟨hThrown, hReply, ⟨hJob, hHistory⟩, hFailed⟩ |
    ⟨hJob, hHistory, hFailed, rfl | ⟨hThrown, hReply⟩⟩
  · refine .inr ⟨hThrown, fun hMode => hReply (hCond.2.2.1 hMode _ _ rfl), hTook₂, fun _ => ?_⟩
    rw [hJob, hHistory, hFailed]
    exact ⟨row, hRow, hOrder, hCreated, hSane, hEdge⟩
  · exact .inl ⟨rfl, by rw [hHistory]; rfl⟩
  · have hNotStrict : mode.strict ≠ true := fun hMode => hReply (hCond.2.2.1 hMode _ _ rfl)
    refine .inr ⟨hThrown, hNotStrict, hTook₂, fun _ => ⟨job, hJob, rfl, rfl, ?_, fun hMode =>
      absurd hMode hNotStrict⟩⟩
    rw [hHistory, hFailed, storedBy_storedBy]
    exact hSane

/-- A step stores its job while attempts are left. -/
theorem wp_store (hWorking : Working mode deps.policy i job w)
    (hLeft : AttemptsLeft deps.policy job) (hKept : w₀.Kept i (some job.id) w) :
    (sweepDiscipline mode deps).wp i none (store job) (StepPost mode deps.policy i job.id w₀) w := by
  refine wp_update hWorking hLeft fun answer w₂ hKept₂ _ hCases => ?_
  rcases hCases with ⟨rfl, hOwes⟩ | ⟨⟨e, rfl⟩, -, hWorking₂⟩
  · refine wp_stepped (hKept.trans hKept₂) rfl (fun _ _ => ?_) fun hNe => absurd rfl hNe
    rw [hOwes]
    exact nofun
  · exact wp_thrown hWorking₂ (hKept.trans hKept₂)

/-- A step ends by reading the clock and storing the job with the time. -/
theorem wp_stamp {patch : Int → SweepJob} (hWorking : ∀ now, Working mode deps.policy i (patch now) w)
    (hLeft : ∀ now, AttemptsLeft deps.policy (patch now)) (hId : ∀ now, (patch now).id = id)
    (hKept : w₀.Kept i (some id) w) :
    (sweepDiscipline mode deps).wp i none (attempt .now job fun now => store (patch now))
      (StepPost mode deps.policy i id w₀) w := by
  refine wp_now fun now w₂ hKept₂ _ => ?_
  obtain rfl := hId now
  exact wp_store ((hWorking now).stable hKept₂) (hLeft now) (hKept.trans hKept₂.weaken)

/-- A call in the middle of a step that only reads. -/
theorem wp_attempt {c : SweepCall} {next : SweepAns c → SweepAction Stepped}
    (hReads : c.reads = true) (hAbout : c.about = none)
    (hWorking : Working mode deps.policy i job w) (hKept : w₀.Kept i (some job.id) w)
    (hNext : ∀ answer w₂, w.Kept i none w₂ → w₂.Sound mode deps.policy →
      (sweepDiscipline mode deps).wp i none (next answer) (StepPost mode deps.policy i job.id w₀)
        w₂) :
    (sweepDiscipline mode deps).wp i none (attempt c job next)
      (StepPost mode deps.policy i job.id w₀) w := by
  refine wp_read hReads hAbout fun w₁ answer w₂ reply _ _ _ _ hKept₂ hSound => ?_
  cases answer with
  | ok a => exact hNext a w₂ hKept₂ hSound
  | error e => exact wp_thrown (hWorking.stable hKept₂) (hKept.trans hKept₂.weaken)

/-- Broadcast the transfer, from a job that nothing was sent for since it was
last PENDING. -/
theorem wp_transfer (row : SweepJob) {amount : Int} (hReady : Ready deps.policy i row w)
    (hAmount : (row.status = .GAS_FUELING ∧ amount = row.amountMicro) ∨
      (row.status = .PENDING ∧ deps.policy.minSweepMicro ≤ amount))
    (hKept : w₀.Kept i (some row.id) w) :
    (sweepDiscipline mode deps).wp i none (transfer deps { row with amountMicro := amount })
      (StepPost mode deps.policy i row.id w₀) w := by
  intro w₁ hRely hSound free _ reply hCond answer w₂ hExec
  have hReady₁ := hReady.stable (by simp) hRely
  obtain ⟨hRow, hOwes⟩ := hReady₁.stored (hCond.1 _ rfl)
  have hSane := (hSound.rows _ _ hRow).1
  have hFailedEdge := sweepEdge_failed hReady.opened
  have hSame : amount = row.amountMicro ∨ row.status = .PENDING :=
    hAmount.imp And.right And.left
  have hEnough : deps.policy.minSweepMicro ≤ amount := by
    rcases hAmount with ⟨hFueling, rfl⟩ | ⟨-, hEnough⟩
    · exact (hSane.gas hFueling).2
    · exact hEnough
  have hBefore : row.status.beforeSweep = true := by
    rcases hAmount with ⟨hStatus, -⟩ | ⟨hStatus, -⟩ <;> rw [hStatus] <;> rfl
  have hEdge : SweepEdge row.status .SWEEPING = true := by
    rcases hAmount with ⟨hStatus, -⟩ | ⟨hStatus, -⟩ <;> rw [hStatus] <;> rfl
  obtain ⟨⟨hSound₂, hMoves, hKept₂, hJob⟩, hCases⟩ := transfer_step row hSound hExec
    hReady₁.took (hCond.1 _ rfl) hRow hOwes hBefore
  have hTook₂ := hKept₂.took _ hReady₁.took
  have hKept' := (hKept.trans (Kept.weaken hRely)).trans hKept₂
  refine ⟨hSound₂, hMoves, ?_⟩
  rcases hCases with ⟨⟨e, rfl⟩, hHistory⟩ | ⟨txId, rfl, hTxId, hHistory⟩
  · refine wp_thrown ⟨hTook₂, fun _ => ⟨row, hJob.trans hRow, rfl, rfl, ?_, fun _ =>
      ⟨sweepEdge_refl _, hFailedEdge⟩⟩⟩ hKept'
    simp only [hHistory, storedBy_of_owes hOwes]
    exact (hSane.mono hKept₂.failed).congr rfl rfl rfl hSame
  · refine wp_stamp (fun now => ⟨hTook₂, fun _ => ⟨row, hJob.trans hRow, rfl, rfl, ?_, fun _ =>
      ⟨hEdge, hFailedEdge⟩⟩⟩) (fun now hMax _ => hMax) (fun _ => rfl) hKept'
    have hSent := (hSane.settled hOwes).unsent hBefore
    simp only [hHistory]
    refine ⟨Nat.succ_le_succ hSent, hSane.fueled, nofun, ?_, fun _ => ⟨nofun, nofun, rfl, nofun⟩⟩
    exact fun _ => ⟨txId, rfl, hTxId, List.mem_cons_self, hEnough⟩

/-- Broadcast gas and wait for it. -/
theorem wp_fuel (row : SweepJob) {amount : Int} (hReady : Ready deps.policy i row w)
    (hPending : row.status = .PENDING) (hAmount : deps.policy.minSweepMicro ≤ amount)
    (hKept : w₀.Kept i (some row.id) w) :
    (sweepDiscipline mode deps).wp i none
      (attempt (.fuelGas row.id row.depositAddress deps.policy.gasTopupSun)
        { row with amountMicro := amount } fun (gasTxId : String) =>
          advance deps { row with amountMicro := amount, gasTxId := some gasTxId } .GAS_FUELING)
      (StepPost mode deps.policy i row.id w₀) w := by
  intro w₁ hRely hSound free _ reply hCond answer w₂ hExec
  have hReady₁ := hReady.stable (by simp) hRely
  obtain ⟨hRow, hOwes⟩ := hReady₁.stored (hCond.1 _ rfl)
  have hSane := (hSound.rows _ _ hRow).1
  have hFailedEdge := sweepEdge_failed hReady.opened
  obtain ⟨⟨hSound₂, hMoves, hKept₂, hJob⟩, hCases⟩ := fuel_step row hSound hExec hReady₁.took
    (hCond.1 _ rfl) hRow hOwes hPending
  have hTook₂ := hKept₂.took _ hReady₁.took
  have hKept' := (hKept.trans (Kept.weaken hRely)).trans hKept₂
  refine ⟨hSound₂, hMoves, ?_⟩
  rcases hCases with ⟨⟨e, rfl⟩, hHistory⟩ | ⟨txId, rfl, hTxId, hHistory⟩
  · refine wp_thrown ⟨hTook₂, fun _ => ⟨row, hJob.trans hRow, rfl, rfl, ?_, fun _ =>
      ⟨sweepEdge_refl _, hFailedEdge⟩⟩⟩ hKept'
    simp only [hHistory, storedBy_of_owes hOwes]
    exact (hSane.mono hKept₂.failed).congr rfl rfl rfl (.inr hPending)
  · refine wp_stamp (fun now => ⟨hTook₂, fun _ => ⟨row, hJob.trans hRow, rfl, rfl, ?_, fun _ =>
      ⟨by rw [hPending]; rfl, hFailedEdge⟩⟩⟩) (fun now hMax _ => hMax) (fun _ => rfl) hKept'
    have hSettled := hSane.settled hOwes
    have hBefore : row.status.beforeSweep = true := by rw [hPending]; rfl
    have hGas : (truthy (some txId)).isSome = true := by simp [truthy, hTxId]
    simp only [hHistory]
    refine ⟨hSane.sent, Nat.succ_le_succ (hSettled.unfueled hPending), fun _ => ⟨hGas, hAmount⟩, ?_,
      fun _ => ⟨fun _ => hSettled.unsent hBefore, (by intros; contradiction), hSettled.latest, fun hMode _ txId hTx =>
        hKept₂.failed _ (hSettled.seen hMode hBefore txId hTx)⟩⟩
    rintro (hDone | hDone) <;> cases hDone

/-- A pending job is fueled or swept. -/
theorem wp_stepPending (hReady : Ready deps.policy i row w) (hSound : w.Sound mode deps.policy)
    (hPending : row.status = .PENDING) (hKept : w₀.Kept i (some row.id) w) :
    (sweepDiscipline mode deps).wp i none (stepPending deps row)
      (StepPost mode deps.policy i row.id w₀) w := by
  have hEdge : ∀ s, SweepEdge .PENDING s = true → SweepEdge row.status s = true := fun s h =>
    hPending ▸ h
  refine wp_attempt rfl rfl (hReady.working hSound rfl rfl rfl (fun _ hSane _ => hSane)
    (sweepEdge_refl _)) hKept fun balance w₂ hKept₂ hSound₂ => ?_
  have hReady₂ := hReady.stable (by simp) hKept₂
  have hKept' := hKept.trans hKept₂.weaken
  split
  · exact wp_stamp (fun now => hReady₂.working hSound₂ rfl rfl rfl
      (fun _ hSane hSettled => hSane.ended hSettled.latest rfl (.inr rfl)) (hEdge _ rfl))
      (fun _ _ hOpen => nomatch hOpen) (fun _ => rfl) hKept'
  · next hEnough =>
      refine wp_attempt rfl rfl (hReady₂.working hSound₂ rfl rfl rfl (fun _ hSane _ =>
        hSane.congr rfl rfl rfl (.inr hPending)) (sweepEdge_refl _)) hKept'
        fun trx w₃ hKept₃ hSound₃ => ?_
      have hReady₃ := hReady₂.stable (by simp) hKept₃
      have hKept'' := hKept'.trans hKept₃.weaken
      split
      · exact wp_fuel row hReady₃ hPending (Int.not_lt.mp hEnough) hKept''
      · exact wp_transfer row hReady₃ (.inr ⟨hPending, Int.not_lt.mp hEnough⟩) hKept''

/-- Poll again later. -/
theorem wp_defer (hReady : Ready deps.policy i row w) (hSound : w.Sound mode deps.policy)
    (hKept : w₀.Kept i (some row.id) w) :
    (sweepDiscipline mode deps).wp i none (defer deps row) (StepPost mode deps.policy i row.id w₀)
      w :=
  wp_stamp (fun _ => hReady.working hSound rfl rfl rfl
    (fun _ hSane _ => hSane.congr rfl rfl rfl (.inl rfl)) (sweepEdge_refl _))
    (fun _ => hReady.left) (fun _ => rfl) hKept

/-- A fueled job waits for its gas and is swept. -/
theorem wp_stepGasFueling (hReady : Ready deps.policy i row w) (hSound : w.Sound mode deps.policy)
    (hFueling : row.status = .GAS_FUELING) (hKept : w₀.Kept i (some row.id) w) :
    (sweepDiscipline mode deps).wp i none (stepGasFueling deps row)
      (StepPost mode deps.policy i row.id w₀) w := by
  unfold stepGasFueling
  split
  · exact wp_defer hReady hSound hKept
  · refine wp_attempt rfl rfl (hReady.working hSound rfl rfl rfl (fun _ hSane _ => hSane)
      (sweepEdge_refl _)) hKept fun confirmed w₂ hKept₂ hSound₂ => ?_
    have hReady₂ := hReady.stable (by simp) hKept₂
    have hKept' := hKept.trans hKept₂.weaken
    split
    · exact wp_transfer row hReady₂ (.inl ⟨hFueling, rfl⟩) hKept'
    · exact wp_defer hReady₂ hSound₂ hKept'

/-- The end of a job that was transferred. -/
theorem wp_swept (hReady : Ready deps.policy i row w) (hSound : w.Sound mode deps.policy)
    (hSweeping : row.status = .SWEEPING) (hKept : w₀.Kept i (some row.id) w) :
    (sweepDiscipline mode deps).wp i none (finish row .SWEPT)
      (StepPost mode deps.policy i row.id w₀) w := by
  refine wp_stamp (fun _ => hReady.working hSound rfl rfl rfl (fun _ hSane hSettled => ?_)
    (by rw [hSweeping]; rfl)) (fun _ _ hOpen => nomatch hOpen) (fun _ => rfl) hKept
  exact ⟨hSane.sent, hSane.fueled, nofun, fun _ => hSane.swept (.inl hSweeping),
    fun _ => ⟨nofun, nofun, hSettled.latest, nofun⟩⟩

/-- A swept job waits for its transaction. -/
theorem wp_stepSweeping (hReady : Ready deps.policy i row w) (hSound : w.Sound mode deps.policy)
    (hSweeping : row.status = .SWEEPING) (hKept : w₀.Kept i (some row.id) w) :
    (sweepDiscipline mode deps).wp i none (stepSweeping deps row)
      (StepPost mode deps.policy i row.id w₀) w := by
  have hSelf : ∀ w', w.Kept i none w' → w'.Sound mode deps.policy →
      Working mode deps.policy i row w' := fun w' hKept' hSound' =>
    (hReady.stable (by simp) hKept').working hSound' rfl rfl rfl (fun _ hSane _ => hSane)
      (sweepEdge_refl _)
  unfold stepSweeping
  split
  · exact wp_defer hReady hSound hKept
  · refine wp_attempt rfl rfl (hSelf w .refl hSound) hKept fun confirmed w₂ hKept₂ hSound₂ => ?_
    have hReady₂ := hReady.stable (by simp) hKept₂
    have hKept' := hKept.trans hKept₂.weaken
    split
    · split
      · refine wp_attempt rfl rfl (hSelf w₂ hKept₂ hSound₂) hKept' fun _ w₃ hKept₃ hSound₃ => ?_
        exact wp_swept (hReady₂.stable (by simp) hKept₃) hSound₃ hSweeping
          (hKept'.trans hKept₃.weaken)
      · exact wp_swept hReady₂ hSound₂ hSweeping hKept'
    · exact wp_defer hReady₂ hSound₂ hKept'

/-- One case for each status. -/
theorem wp_step (hReady : Ready deps.policy i row w) (hSound : w.Sound mode deps.policy) :
    (sweepDiscipline mode deps).wp i none (step deps row) (StepPost mode deps.policy i row.id w)
      w := by
  unfold step
  split
  · next h => exact wp_stepPending hReady hSound h .refl
  · next h => exact wp_stepGasFueling hReady hSound h .refl
  · next h => exact wp_stepSweeping hReady hSound h .refl
  · next hPending hFueling hSweeping =>
      have hOpen := hReady.opened
      cases hStatus : row.status with
      | PENDING => exact absurd hStatus hPending
      | GAS_FUELING => exact absurd hStatus hFueling
      | SWEEPING => exact absurd hStatus hSweeping
      | _ =>
          rw [hStatus] at hOpen
          cases hOpen

/-- What the loop leaves behind of one job. -/
def ProcessPost (mode : SweepMode) (i : Nat) (id : String) (w₀ : SweepWorld) (h : Option Unit)
    (_ : Except AppError Unit) (w : SweepWorld) : Prop :=
  h = none ∧ w₀.Kept i (some id) w ∧ (mode.strict = true → (w.history id).owes ≠ some i)

/-- The error handler leaves the job as it is or makes it FAILED. -/
theorem withError_fields (deps : SweepDeps) (job : SweepJob) (message : String) (now : Int) :
    (withError deps job message now).id = job.id ∧
    (withError deps job message now).orderId = job.orderId ∧
    (withError deps job message now).createdAt = job.createdAt ∧
    (withError deps job message now).gasTxId = job.gasTxId ∧
    (withError deps job message now).sweepTxId = job.sweepTxId ∧
    (withError deps job message now).amountMicro = job.amountMicro ∧
    ((withError deps job message now).status = .FAILED ∨
      (withError deps job message now).status = job.status) ∧
    AttemptsLeft deps.policy (withError deps job message now) := by
  unfold withError
  split
  · exact ⟨rfl, rfl, rfl, rfl, rfl, rfl, .inl rfl, fun _ hOpen => nomatch hOpen⟩
  · next hLeft => exact ⟨rfl, rfl, rfl, rfl, rfl, rfl, .inr rfl, fun _ _ => Nat.not_le.mp hLeft⟩

/-- Noting the failure keeps the work in progress. -/
theorem Working.withError (hWorking : Working mode deps.policy i job w) (message : String)
    (now : Int) : Working mode deps.policy i (withError deps job message now) w := by
  obtain ⟨hId, hOrder, hCreated, hGas, hSweep, hAmount, hStatus, -⟩ :=
    withError_fields deps job message now
  refine ⟨hId ▸ hWorking.took, fun hUndisturbed => ?_⟩
  rw [hId] at hUndisturbed ⊢
  obtain ⟨row, hRow, hRowOrder, hRowCreated, hSane, hEdge⟩ := hWorking.stored hUndisturbed
  refine ⟨row, hRow, hRowOrder.trans hOrder.symm, hRowCreated.trans hCreated.symm, ?_, fun hMode =>
    ⟨?_, (hEdge hMode).2⟩⟩
  · rcases hStatus with hFailed | hSame
    · exact hSane.ended (hSane.settled rfl).latest hSweep (.inl hFailed)
    · exact hSane.congr hSame hGas hSweep (.inl hAmount)
  · rcases hStatus with hFailed | hSame
    · rw [hFailed]
      exact (hEdge hMode).2
    · rw [hSame]
      exact (hEdge hMode).1

/-- The error handler stores the job object as the step left it. -/
theorem wp_onError {e : AppError} (hWorking : Working mode deps.policy i job w)
    (hKept : w₀.Kept i (some job.id) w) :
    (sweepDiscipline mode deps).wp i none (onError deps job e) (ProcessPost mode i job.id w₀) w := by
  refine wp_now fun now w₁ hKept₁ _ => ?_
  obtain ⟨hId, -, -, -, -, -, -, hLeft⟩ := withError_fields deps job e.message now
  refine wp_update ((hWorking.stable hKept₁).withError e.message now) hLeft
    fun answer w₂ hKept₂ _ hCases => ?_
  rw [hId] at hKept₂ hCases
  have hKept' := (hKept.trans hKept₁.weaken).trans hKept₂
  rcases hCases with ⟨rfl, hOwes⟩ | ⟨⟨e', rfl⟩, hNotStrict, -⟩
  · intro w₃ hRely _
    refine ⟨rfl, hKept'.trans (Kept.weaken hRely), fun _ hMine => ?_⟩
    have hMine₂ := hRely.debts _ (by simp) hMine
    rw [hOwes] at hMine₂
    cases hMine₂
  · exact fun w₃ hRely _ => ⟨rfl, hKept'.trans (Kept.weaken hRely), fun hMode => absurd hMode hNotStrict⟩

/-- What a step leaves is stored once. -/
theorem wp_process (hReady : Ready deps.policy i row w) (hSound : w.Sound mode deps.policy) :
    (sweepDiscipline mode deps).wp i none (process deps row) (ProcessPost mode i row.id w) w := by
  refine Discipline.wp_bind hSound (Discipline.wp_mono ?_ (wp_step hReady hSound))
  rintro h result w₁ hSound₁ ⟨rfl, hKept, job, thrown, rfl, hId, hOk, hThrown⟩
  cases thrown with
  | none =>
      intro w₂ hRely _
      exact ⟨rfl, hKept.trans (Kept.weaken hRely), fun hMode hMine =>
        hOk rfl hMode (hRely.debts _ (by simp) hMine)⟩
  | some e =>
      rw [← hId] at hKept ⊢
      exact wp_onError (hThrown (by simp)) hKept

/-- The loop pays what it owes, however it ends. -/
theorem wp_processEach {jobs : List SweepJob} (hReady : ∀ job ∈ jobs, Ready deps.policy i job w)
    (hNodup : (jobs.map SweepJob.id).Nodup) (hSound : w.Sound mode deps.policy)
    (hPaid : paidUp mode i w) :
    (sweepDiscipline mode deps).wp i none (processEach deps jobs)
      (fun h _ w' => h = none ∧ paidUp mode i w') w := by
  induction jobs generalizing w with
  | nil => exact fun w₁ hRely _ => ⟨rfl, fun hMode id hMine => hPaid hMode id (hRely.debts id (by simp) hMine)⟩
  | cons job rest ih =>
      simp only [List.map_cons, List.nodup_cons] at hNodup
      refine Discipline.wp_bind hSound (Discipline.wp_mono ?_
        (wp_process (hReady job (by simp)) hSound))
      rintro h result w₁ hSound₁ ⟨rfl, hKept, hOwes⟩
      have hPaid₁ : paidUp mode i w₁ := fun hMode id hMine => by
        by_cases hEq : id = job.id
        · exact hOwes hMode (hEq ▸ hMine)
        · exact hPaid hMode id (hKept.debts id (by simpa using hEq) hMine)
      cases result with
      | ok _ =>
          refine ih (fun other hOther => ?_) hNodup.2 hSound₁ hPaid₁
          refine (hReady other (by simp [hOther])).stable (fun hEq => hNodup.1 ?_) hKept
          exact Option.some.inj hEq ▸ List.mem_map_of_mem hOther
      | error e =>
          exact fun w₂ hRely _ => ⟨rfl, fun hMode id hMine =>
            hPaid₁ hMode id (hRely.debts id (by simp) hMine)⟩

/-- A task that has not broadcast anything owes nothing. -/
def Clear (i : Nat) (w : SweepWorld) : Prop :=
  ∀ id, (w.history id).owes ≠ some i

theorem clear_of_fresh (hFresh : ∀ e ∈ w.trace, e.task ≠ i) : Clear i w := by
  intro id hOwes
  obtain ⟨e, hMem, hTask, -⟩ := owes_mem hOwes
  exact hFresh e hMem hTask

/-- A task that has begun nothing stays clear. -/
theorem Clear.stable {w' : SweepWorld} (hClear : Clear i w) (hKept : w.Kept i none w') :
    Clear i w' :=
  fun id hOwes => hClear id (hKept.debts id (by simp) hOwes)

theorem Clear.paidUp (hClear : Clear i w) : paidUp mode i w :=
  fun _ => hClear

/-- Nothing is owed to a job that is taken. -/
theorem owes_of_taken {c : SweepCall} {reply : SweepReply} {answer : Except AppError (SweepAns c)}
    {w' : SweepWorld} (hClear : Clear i w) (hCond : sweepCond mode deps i c reply w)
    (hExec : sweepExec deps.backend i c reply w = some (answer, w'))
    (hTaken : job ∈ c.taken answer) : (w.history job.id).owes = none := by
  cases hOwes : (w.history job.id).owes with
  | none => rfl
  | some k => exact absurd (hCond.2.1 _ _ hExec job hTaken k hOwes ▸ hOwes) (hClear job.id)

theorem paidUp.stable {w' : SweepWorld} (hPaid : paidUp mode i w) (hKept : w.Kept i none w') :
    paidUp mode i w' :=
  fun hMode id hOwes => hPaid hMode id (hKept.debts id (by simp) hOwes)

theorem wp_paid {α : Type} {result : Except AppError α} (hPaid : paidUp mode i w) :
    (sweepDiscipline mode deps).wp i none (.ret result) (fun h _ w' => h = none ∧ paidUp mode i w')
      w :=
  fun _ hRely _ => ⟨rfl, hPaid.stable hRely⟩

/-- A pass ends with every failure noted. -/
theorem wp_processDue (limit : Nat) (hClear : Clear i w) :
    (sweepDiscipline mode deps).wp i none (processDue deps limit)
      (fun h _ w' => h = none ∧ paidUp mode i w') w := by
  refine wp_now fun now w₁ hKept₁ _ => ?_
  refine wp_read rfl rfl fun w₂ answer w₃ reply hKept₂ hSound₂ hCond hExec hKept₃ hSound₃ => ?_
  have hPaid₃ : paidUp mode i w₃ := (hClear.stable (hKept₁.trans hKept₃)).paidUp
  cases answer with
  | error e => exact wp_paid hPaid₃
  | ok jobs =>
      obtain ⟨⟨applied, hTrace⟩, -, -⟩ := sweepExec_logged hExec
      have hNodup : (jobs.map SweepJob.id).Nodup := by
        obtain ⟨e, hError, -⟩ | ⟨a, s, hOk, -, hAnswer⟩ := sweepExec_store hExec rfl
        · cases hError
        · cases hOk
          obtain hEq | ⟨⟨e, hError⟩, -⟩ := hAnswer
          · cases hEq
            exact SweepJobStore.nodup_due ..
          · cases hError
      have hReady : ∀ job ∈ jobs, Ready deps.policy i job w₃ := by
        intro job hMem
        obtain ⟨hRow, hOpen⟩ := sweepExec_taken hExec hMem
        have hRow₃ : w₃.job job.id = some job := by
          rw [SweepWorld.job, sweepExec_reads hExec rfl]
          exact hRow
        refine ⟨hOpen ⟨now, limit, rfl⟩, (hSound₃.rows _ _ hRow₃).2,
          (took_logged hTrace).mpr (.inl ⟨rfl, job, hMem, rfl⟩), fun _ => ⟨hRow₃, ?_⟩⟩
        rw [history_logged hTrace]
        exact owes_of_taken (hClear.stable (hKept₁.trans hKept₂)) hCond hExec hMem
      change (sweepDiscipline mode deps).wp i none
        (processEach deps jobs >>= fun _ => pure jobs.length) _ w₃
      refine Discipline.wp_bind hSound₃ (Discipline.wp_mono ?_
        (wp_processEach hReady hNodup hSound₃ hPaid₃))
      rintro h result w₄ - ⟨rfl, hPaid₄⟩
      cases result with
      | ok _ => exact wp_paid hPaid₄
      | error e => exact wp_paid hPaid₄

/-- A new job has no history. -/
theorem wp_enqueue (input : EnqueueInput) (hPaid : paidUp mode i w) :
    (sweepDiscipline mode deps).wp i none (enqueue deps input)
      (fun h _ w' => h = none ∧ paidUp mode i w') w := by
  refine wp_read rfl rfl fun w₁ existing w₂ _ _ _ _ _ hKept₂ _ => ?_
  have hPaid₂ := hPaid.stable hKept₂
  rcases existing with e | ⟨_ | job⟩
  · exact wp_paid hPaid₂
  · refine wp_now fun now w₃ hKept₃ _ => ?_
    have hPaid₃ := hPaid₂.stable hKept₃
    refine wp_read rfl rfl fun w₄ answer w₅ reply hKept₄ _ _ hExec hKept₅ _ => ?_
    obtain ⟨e, -, -, hMay⟩ | ⟨id, hAnswer, rfl, hEq⟩ := sweepExec_outside hExec rfl
    · cases hMay
    · cases reply with
      | text s =>
          simp only [treasuryAnswer, Option.ite_none_right_eq_some, Option.some.injEq] at hAnswer
          obtain ⟨hUnused, rfl⟩ := hAnswer
          have hMine : (i, s) ∈ w₅.issued := by
            rw [hEq]
            exact List.mem_cons_self
          have hNone : w₅.job s = none := by
            rw [SweepWorld.job, sweepExec_reads hExec rfl]
            exact hUnused.2.2
          intro w₆ hRely hSound₆ free _ reply _ answer w₇ hExec₇
          obtain ⟨hMine₆, hNone₆⟩ := hRely.issued s hMine
          obtain ⟨hSound₇, hMoves, hHistory⟩ := create_step hSound₆ hExec₇ hMine₆ (hNone₆ hNone)
            ⟨by simp [JobHistory.empty], by simp [JobHistory.empty], (by intros; contradiction), by simp [newJob],
              fun _ => ⟨by simp [JobHistory.empty], by simp [JobHistory.empty], rfl, by simp [newJob]⟩⟩
            fun hMax _ => hMax
          refine ⟨hSound₇, hMoves, ?_⟩
          have hPaid₇ : paidUp mode i w₇ := fun hMode id hOwes => by
            rw [hHistory] at hOwes
            exact (hPaid₃.stable (hKept₅.trans hRely)) hMode id hOwes
          exact wp_paid hPaid₇
      | _ => cases hAnswer
  · exact wp_paid hPaid₂

/-- A FAILED job is put back. -/
theorem wp_requeue (hPaid : paidUp mode i w) (hFailed : row.status = .FAILED)
    (hTook : w.Took i row.id)
    (hStored : w.Undisturbed i row.id →
      w.job row.id = some row ∧ (w.history row.id).owes = none) :
    (sweepDiscipline mode deps).wp i none (requeue row) (fun h _ w' => h = none ∧ paidUp mode i w')
      w := by
  refine wp_now fun now w₀ hKept₀ _ w₁ hRely hSound free _ reply hCond answer w₂ hExec => ?_
  have hKept := Kept.trans hKept₀ hRely
  obtain ⟨hBefore, hJob, hHistory⟩ := hKept.same _ (by simp) hTook (hCond.1 _ rfl)
  obtain ⟨hRow, hOwes⟩ := hStored hBefore
  rw [← hJob] at hRow
  rw [← hHistory] at hOwes
  have hSane := (hSound.rows _ _ hRow).1
  have hSettled := hSane.settled hOwes
  have hRequeued : Sane mode deps.policy w₁.failed (requeued row now)
      ((w₁.history row.id).storedBy .retry) :=
    ⟨Nat.le_succ_of_le hSane.sent, Nat.le_succ_of_le hSane.fueled, nofun, by simp [requeued],
      fun _ => ⟨fun _ => hSane.sent, fun _ => hSane.fueled, hSettled.latest,
        fun hMode _ => hCond.2.2.2 hMode _ rfl⟩⟩
  obtain ⟨⟨hSound₂, hMoves, hKept₂⟩, hCases⟩ := update_step hSound hExec (hKept.took _ hTook)
    (hCond.1 _ rfl) hRow rfl rfl hRequeued (fun hMax _ => hMax) fun _ => .inr ⟨rfl, hFailed, rfl⟩
  have hPaid₁ := hPaid.stable hKept
  have hPaid₂ : paidUp mode i w₂ := by
    intro hMode id hMine
    by_cases hEq : id = row.id
    · subst hEq
      rcases hCases with ⟨-, -, ⟨-, hSame⟩, -⟩ | ⟨-, hHistory₂, -⟩
      · exact hPaid₁ hMode _ (hSame ▸ hMine)
      · exact nomatch hHistory₂ ▸ hMine
    · exact hPaid₁ hMode id (hKept₂.debts id (by simpa [requeued] using hEq) hMine)
  refine ⟨hSound₂, hMoves, ?_⟩
  cases answer with
  | ok saved => exact wp_paid hPaid₂
  | error e => exact wp_paid hPaid₂

/-- Only a FAILED job is put back. -/
theorem wp_retry (orderId : String) (hClear : Clear i w) :
    (sweepDiscipline mode deps).wp i none (retry orderId)
      (fun h _ w' => h = none ∧ paidUp mode i w') w := by
  rw [retry_eq]
  refine wp_read rfl rfl fun w₁ answer w₂ reply hKept₁ hSound₁ hCond hExec hKept₂ hSound₂ => ?_
  have hPaid₂ : paidUp mode i w₂ := (hClear.stable hKept₂).paidUp
  rcases answer with e | ⟨_ | job⟩
  · exact wp_paid hPaid₂
  · exact wp_paid hPaid₂
  · change (sweepDiscipline mode deps).wp i none
      (if job.status = .FAILED then requeue job else pure none) _ w₂
    split
    · next hFailed =>
        have hTaken : job ∈ (SweepCall.findByOrderId .retry orderId).taken (.ok (some job)) := by
          simp [SweepCall.taken, hFailed]
        obtain ⟨⟨applied, hTrace⟩, -, -⟩ := sweepExec_logged hExec
        have hRow : w₂.job job.id = some job := by
          rw [SweepWorld.job, sweepExec_reads hExec rfl]
          exact (sweepExec_taken hExec hTaken).1
        have hOwes : (w₂.history job.id).owes = none := by
          rw [history_logged hTrace]
          exact owes_of_taken (hClear.stable hKept₁) hCond hExec hTaken
        exact wp_requeue hPaid₂ hFailed ((took_logged hTrace).mpr (.inl ⟨rfl, job, hTaken, rfl⟩))
          fun _ => ⟨hRow, hOwes⟩
    · exact wp_paid hPaid₂

/-- Every method keeps the discipline. -/
theorem sweep_entry (request : SweepRequest) (hSound : w.Sound mode deps.policy)
    (hFresh : (sweepDiscipline mode deps).fresh i w) :
    (sweepDiscipline mode deps).wp i none ((sweepSystem deps).entry request)
      (fun h _ w' => h = none ∧ paidUp mode i w') w := by
  have hClear : Clear i w := clear_of_fresh hFresh
  have hPaid : paidUp mode i w := hClear.paidUp
  have hThen : ∀ {α : Type} (p : SweepAction α) (f : α → SweepOutcome),
      (sweepDiscipline mode deps).wp i none p (fun h _ w' => h = none ∧ paidUp mode i w') w →
      (sweepDiscipline mode deps).wp i none (p >>= fun a => pure (f a))
        (fun h _ w' => h = none ∧ paidUp mode i w') w := by
    intro α p f hWp
    refine Discipline.wp_bind hSound (Discipline.wp_mono ?_ hWp)
    rintro h result w₁ - ⟨rfl, hPaid₁⟩
    cases result with
    | ok a => exact wp_paid hPaid₁
    | error e => exact wp_paid hPaid₁
  cases request with
  | enqueue input => exact hThen _ _ (wp_enqueue input hPaid)
  | processDue limit => exact hThen _ _ (wp_processDue limit hClear)
  | retry orderId => exact hThen _ _ (wp_retry orderId hClear)
  | tick =>
      refine wp_read rfl rfl fun w₁ answer w₂ _ _ _ _ _ hKept₂ _ => ?_
      cases answer with
      | ok _ => exact wp_paid (hPaid.stable hKept₂)
      | error e => exact wp_paid (hPaid.stable hKept₂)

end steps
end VpnPayment
