import VpnPayment.Sweep.Steps

/-! In every run each stored job is found by its order, whatever overlaps, fails
or stops. -/
namespace VpnPayment

open Async Collections SweepService
open Prog (perform)

/-- Orders have one job each, and in memory the index leads to it. -/
structure SweepJobStore.Filed (b : Backend) (s : SweepJobStore) : Prop where
  unique : ∀ id id' row row', s.byId.get? id = some row → s.byId.get? id' = some row' →
    row.orderId = row'.orderId → id = id'
  indexed : b = .memory → ∀ id row, s.byId.get? id = some row →
    id ≠ "" ∧ s.byOrderId.get? row.orderId = some (row.orderId, id)

namespace SweepJobStore

variable {b : Backend} {s s' : SweepJobStore} {job row : SweepJob} {id : String}

theorem filed_empty : Filed b .empty where
  unique id id' row row' hRow := by cases hRow
  indexed _ id row hRow := by cases hRow

/-- A stored job is found by its order. -/
theorem Filed.found (h : s.Filed b) (hRow : s.byId.get? id = some row) :
    s.findByOrderId b row.orderId = some row := by
  cases b with
  | memory =>
      obtain ⟨hNe, hIndex⟩ := h.indexed rfl id row hRow
      simp [findByOrderId, MemorySweepJobRepository.findByOrderId, hIndex, truthy, Option.filter, hNe,
        hRow]
  | sql =>
      have hSome : (s.byId.rows.find? fun r => r.orderId = row.orderId).isSome :=
        List.find?_isSome.mpr ⟨row, Table.mem_of_get? hRow, by simp⟩
      obtain ⟨found, hFind⟩ := Option.isSome_iff_exists.mp hSome
      have hFound := Table.get?_of_mem (List.mem_of_find?_eq_some hFind)
      have hOrder : found.orderId = row.orderId := by simpa using List.find?_some hFind
      have hId := h.unique _ _ _ _ hFound hRow hOrder
      rw [hId, hRow] at hFound
      exact hFind.trans hFound.symm

/-- A job for an order that has one is refused. -/
theorem absent_of_create (hFiled : s.Filed b) (h : s.create b job = .ok s') :
    ∀ id row, s.byId.get? id = some row → row.orderId ≠ job.orderId := by
  intro id row hRow hOrder
  cases b with
  | memory =>
      have hHas : s.byOrderId.has job.orderId = true := by
        rw [← hOrder, Table.has, (hFiled.indexed rfl id row hRow).2]
        rfl
      simp [create, MemorySweepJobRepository.create, hHas] at h
  | sql =>
      have hAny : (s.byId.rows.any fun r => r.orderId = job.orderId) = true :=
        List.any_eq_true.mpr ⟨row, Table.mem_of_get? hRow, by simpa using hOrder⟩
      simp only [create, SqlSweepJobRepository.create, hAny, if_true] at h
      split at h <;> cases h

/-- A new job is filed under its order. -/
theorem Filed.create (hFiled : s.Filed b) (hNew : s.byId.get? job.id = none) (hNe : job.id ≠ "")
    (h : s.create b job = .ok s') : s'.Filed b := by
  have hAbsent := absent_of_create hFiled h
  have hGet : ∀ id, s'.byId.get? id = if job.id = id then some job else s.byId.get? id := by
    intro id
    rw [create_ok h, Table.get?_put]
  have hOld : ∀ id row, s'.byId.get? id = some row →
      (id = job.id ∧ row = job) ∨ s.byId.get? id = some row := by
    intro id row hRow
    rw [hGet] at hRow
    split at hRow
    · next hEq => exact .inl ⟨hEq.symm, (Option.some.inj hRow).symm⟩
    · exact .inr hRow
  constructor
  · intro id id' row row' hRow hRow' hOrder
    rcases hOld id row hRow with ⟨rfl, rfl⟩ | hRow <;>
      rcases hOld id' row' hRow' with ⟨rfl, rfl⟩ | hRow'
    · rfl
    · exact absurd hOrder.symm (hAbsent id' row' hRow')
    · exact absurd hOrder (hAbsent id row hRow)
    · exact hFiled.unique id id' row row' hRow hRow' hOrder
  · rintro rfl id row hRow
    have hIndex : s'.byOrderId = s.byOrderId.put (job.orderId, job.id) := by
      simp only [SweepJobStore.create, MemorySweepJobRepository.create] at h
      split at h
      · cases h
      · cases h
        rfl
    rw [hIndex, Table.get?_put]
    rcases hOld id row hRow with ⟨rfl, rfl⟩ | hRow
    · exact ⟨hNe, if_pos rfl⟩
    · rw [if_neg (hAbsent id row hRow).symm]
      exact hFiled.indexed rfl id row hRow

/-- An update that keeps the order of the job keeps it filed. -/
theorem Filed.update (hFiled : s.Filed b) (hRow : s.byId.get? job.id = some row)
    (hOrder : row.orderId = job.orderId) (h : s.update b job = .ok s') :
    s'.Filed b ∧ (∀ id old, s.byId.get? id = some old → ∃ new, s'.byId.get? id = some new ∧
      new.orderId = old.orderId) ∧ ∀ id, s.byId.get? id = none → s'.byId.get? id = none := by
  rw [update_eq hRow] at h
  obtain rfl := Except.ok.inj h
  have hId : (written b row job).id = job.id := by
    cases b with
    | memory => rfl
    | sql =>
        change row.id = job.id
        exact Table.key_of_get? hRow
  have hWritten : (written b row job).orderId = row.orderId := by
    cases b with
    | memory => exact hOrder.symm
    | sql => rfl
  have hGet : ∀ id, (s.byId.put (written b row job)).get? id =
      if job.id = id then some (written b row job) else s.byId.get? id := by
    intro id
    rw [Table.get?_put, hId]
  have hOld : ∀ id new, (s.byId.put (written b row job)).get? id = some new →
      ∃ old, s.byId.get? id = some old ∧ new.orderId = old.orderId := by
    intro id new hNew
    rw [hGet] at hNew
    split at hNew
    · next hEq => exact ⟨row, hEq ▸ hRow, Option.some.inj hNew ▸ hWritten⟩
    · exact ⟨new, hNew, rfl⟩
  refine ⟨⟨?_, ?_⟩, ?_, ?_⟩
  · intro id id' new new' hNew hNew' hSame
    obtain ⟨old, hOldRow, hOldOrder⟩ := hOld id new hNew
    obtain ⟨old', hOldRow', hOldOrder'⟩ := hOld id' new' hNew'
    exact hFiled.unique id id' old old' hOldRow hOldRow'
      (hOldOrder.symm.trans (hSame.trans hOldOrder'))
  · intro hMemory id new hNew
    obtain ⟨old, hOldRow, hOldOrder⟩ := hOld id new hNew
    rw [hOldOrder]
    exact hFiled.indexed hMemory id old hOldRow
  · intro id old hOldRow
    by_cases hEq : job.id = id
    · subst hEq
      obtain rfl : row = old := Option.some.inj (hRow.symm.trans hOldRow)
      exact ⟨_, (hGet job.id).trans (if_pos rfl), hWritten⟩
    · exact ⟨old, (hGet id).trans ((if_neg hEq).trans hOldRow), rfl⟩
  · intro id hNone
    refine (hGet id).trans ((if_neg ?_).trans hNone)
    rintro rfl
    rw [hRow] at hNone
    cases hNone

end SweepJobStore

/-- A job with this identifier has been stored for this order. -/
def SweepWorld.Registered (w : SweepWorld) (id orderId : String) : Prop :=
  ∃ row, w.job id = some row ∧ row.orderId = orderId

/-- The jobs are filed, and identifiers are drawn once. -/
structure SweepWorld.InFile (b : Backend) (w : SweepWorld) : Prop where
  filed : w.jobs.Filed b
  distinct : (w.issued.map Prod.snd).Nodup
  named : ∀ entry ∈ w.issued, entry.2 ≠ ""

/-- What the other tasks leave task `i` with. -/
structure SweepWorld.Files (i : Nat) (w w' : SweepWorld) : Prop where
  registered : ∀ id orderId, w.Registered id orderId → w'.Registered id orderId
  issued : ∀ id, (i, id) ∈ w.issued → (i, id) ∈ w'.issued ∧ (w.job id = none → w'.job id = none)

/-- What task `i` does in one step. -/
structure SweepWorld.FilesOwn (i : Nat) (w w' : SweepWorld) : Prop where
  registered : ∀ id orderId, w.Registered id orderId → w'.Registered id orderId
  issued : ∀ entry ∈ w.issued, entry ∈ w'.issued
  created : ∀ id, w.job id = none → w'.job id ≠ none → (i, id) ∈ w.issued

def filingDiscipline (deps : SweepDeps) : Discipline (sweepSystem deps) Unit where
  resource _ := ()
  inv w := w.InFile deps.backend
  own _ _ := True
  fresh _ _ := True
  rely i _ w w' := w.Files i w'
  guar i _ _ w w' := w.FilesOwn i w'
  cond _ _ _ _ _ _ := True
  post _ _ _ := True
  rely_refl _ _ _ := ⟨fun _ _ h => h, fun _ h => ⟨h, fun hNone => hNone⟩⟩
  rely_trans h h' :=
    ⟨fun id orderId hReg => h'.registered id orderId (h.registered id orderId hReg), fun id hMine =>
      ⟨(h'.issued id (h.issued id hMine).1).1, fun hNone =>
        (h'.issued id (h.issued id hMine).1).2 ((h.issued id hMine).2 hNone)⟩⟩
  guar_rely hGuar hInv _ hNe _ := by
    refine ⟨hGuar.registered, fun id hMine => ⟨hGuar.issued _ hMine, fun hNone => ?_⟩⟩
    refine Classical.byContradiction fun hSome => ?_
    have hTheirs := hGuar.created id hNone hSome
    exact hNe (congrArg Prod.fst (List.inj_on_of_nodup_map hInv.distinct hTheirs hMine rfl))
  guar_own _ _ _ _ _ _ := trivial
  guar_fresh _ _ _ := trivial

section steps

variable {deps : SweepDeps} {i : Nat} {c : SweepCall} {reply : SweepReply} {w w' : SweepWorld}
  {answer : Except AppError (SweepAns c)}

/-- The call does not create a job, and updates a job only in place. -/
def SweepCall.files (w : SweepWorld) : SweepCall → Prop
  | .create _ => False
  | .update _ job => w.Registered job.id job.orderId
  | _ => True

/-- What was handed out stays on file. -/
theorem inFile_logged (hFiled : w'.jobs.Filed deps.backend) (hInv : w.InFile deps.backend)
    (hIssued : w'.issued = w.issued ∨ ∃ s, w.Unused s ∧ w'.issued = (i, s) :: w.issued) :
    w'.InFile deps.backend := by
  refine ⟨hFiled, distinct_logged hInv.distinct hIssued, fun entry hEntry => ?_⟩
  rcases hIssued with hEq | ⟨s, hUnused, hEq⟩
  · exact hInv.named entry (hEq ▸ hEntry)
  · rw [hEq] at hEntry
    rcases List.mem_cons.mp hEntry with rfl | hOld
    · exact hUnused.1
    · exact hInv.named entry hOld

/-- Every call but `create`. -/
theorem files_step (hInv : w.InFile deps.backend) (hFiles : c.files w)
    (hExec : sweepExec deps.backend i c reply w = some (answer, w')) :
    w'.InFile deps.backend ∧ w.FilesOwn i w' ∧ w.Files i w' := by
  obtain ⟨-, -, hIssued⟩ := sweepExec_logged hExec
  have hMine : ∀ entry ∈ w.issued, entry ∈ w'.issued := fun _ h => issued_logged h hIssued
  have hStore : w'.jobs.Filed deps.backend ∧ (∀ id old, w.job id = some old →
      ∃ new, w'.job id = some new ∧ new.orderId = old.orderId) ∧
      ∀ id, w.job id = none → w'.job id = none := by
    cases c with
    | create job => exact hFiles.elim
    | update caller job =>
        obtain ⟨row, hRow, hOrder⟩ := hFiles
        obtain ⟨e, -, rfl, -⟩ | ⟨a, s, hOk, rfl, -⟩ := sweepExec_store hExec rfl
        · exact ⟨hInv.filed, fun id old h => ⟨old, h, rfl⟩, fun _ h => h⟩
        · obtain ⟨t, hUpdate, hEq⟩ := map_eq_ok_iff.mp hOk
          cases hEq
          exact hInv.filed.update hRow hOrder hUpdate
    | _ =>
        have hJobs : w'.jobs = w.jobs := sweepExec_reads hExec rfl
        simp only [SweepWorld.job, hJobs]
        exact ⟨hInv.filed, fun id old h => ⟨old, h, rfl⟩, fun _ h => h⟩
  obtain ⟨hFiled, hRows, hNone⟩ := hStore
  have hReg : ∀ id orderId, w.Registered id orderId → w'.Registered id orderId := by
    rintro id orderId ⟨row, hRow, hOrder⟩
    obtain ⟨new, hNew, hNewOrder⟩ := hRows id row hRow
    exact ⟨new, hNew, hNewOrder.trans hOrder⟩
  exact ⟨inFile_logged hFiled hInv hIssued,
    ⟨hReg, hMine, fun id h hSome => absurd (hNone id h) hSome⟩,
    ⟨hReg, fun id h => ⟨hMine _ h, hNone id⟩⟩⟩

/-- A drawn identifier is used for one job. -/
theorem create_files {job : SweepJob} {answer : Except AppError SweepJob}
    (hInv : w.InFile deps.backend) (hMine : (i, job.id) ∈ w.issued) (hNew : w.job job.id = none)
    (hExec : sweepExec deps.backend i (.create job) reply w = some (answer, w')) :
    w'.InFile deps.backend ∧ w.FilesOwn i w' := by
  obtain ⟨-, -, hIssued⟩ := sweepExec_logged hExec
  obtain ⟨e, -, rfl, -⟩ | ⟨a, s, hOk, rfl, -⟩ := sweepExec_store hExec rfl
  · exact ⟨inFile_logged hInv.filed hInv hIssued,
      ⟨fun _ _ h => h, fun _ h => h, fun id h hSome => absurd h hSome⟩⟩
  · obtain ⟨t, hCreate, hEq⟩ := map_eq_ok_iff.mp hOk
    cases hEq
    have hGet : ∀ id, s.byId.get? id = if job.id = id then some job else w.jobs.byId.get? id := by
      intro id
      rw [SweepJobStore.create_ok hCreate, Table.get?_put]
    refine ⟨inFile_logged (hInv.filed.create hNew (hInv.named _ hMine) hCreate) hInv hIssued,
      ⟨?_, fun _ h => h, ?_⟩⟩
    · rintro id orderId ⟨row, hRow, hOrder⟩
      refine ⟨row, (hGet id).trans ((if_neg ?_).trans hRow), hOrder⟩
      rintro rfl
      rw [hNew] at hRow
      cases hRow
    · intro id hNone hSome
      by_cases hEq : job.id = id
      · exact hEq ▸ hMine
      · exact absurd ((hGet id).trans ((if_neg hEq).trans hNone)) hSome

end steps

section programs

variable {deps : SweepDeps} {i : Nat} {w : SweepWorld} {id orderId : String}

/-- The program updates no job but this one, and creates none. -/
def KeepsTo (id orderId : String) : SweepCall → Prop
  | .create _ => False
  | .update _ job => job.id = id ∧ job.orderId = orderId
  | _ => True

/-- A program that writes one registered job keeps the file. -/
theorem wp_of_only {α : Type} {p : SweepAction α} {R : Except AppError α → Prop}
    (hReg : w.Registered id orderId) (h : p.Only (KeepsTo id orderId) R) :
    (filingDiscipline deps).wp i none p (fun h result w' => h = none ∧ R result ∧
      ∀ id orderId, w.Registered id orderId → w'.Registered id orderId) w := by
  induction p generalizing w with
  | ret result => exact fun w₁ hRely _ => ⟨rfl, h, hRely.registered⟩
  | call c next ih =>
      intro w₁ hRely hInv free _ reply _ answer w₂ hExec
      have hReg₁ := hRely.registered id orderId hReg
      have hFiles : c.files w₁ := by
        have hKeeps := h.1
        cases c with
        | create job => exact hKeeps.elim
        | update caller job =>
            obtain ⟨rfl, rfl⟩ := hKeeps
            exact hReg₁
        | _ => trivial
      obtain ⟨hInv₂, hOwn, hFollow⟩ := files_step hInv hFiles hExec
      refine ⟨hInv₂, hOwn, Discipline.wp_mono ?_ (ih answer (hFollow.registered _ _ hReg₁) (h.2 answer))⟩
      rintro h' result w₃ - ⟨hNone, hResult, hStill⟩
      exact ⟨hNone, hResult, fun id orderId hOld => hStill id orderId
        (hFollow.registered id orderId (hRely.registered id orderId hOld))⟩
  | lock key next ih => exact h.elim
  | unlock next ih => exact h.elim

/-- What a step leaves is still the same job. -/
def SteppedFrom (id orderId : String) (result : Except AppError Stepped) : Prop :=
  ∃ job thrown, result = .ok (job, thrown) ∧ job.id = id ∧ job.orderId = orderId

/-- A caught failure is stored on the same job. -/
theorem only_attempt {c : SweepCall} {job : SweepJob} {next : SweepAns c → SweepAction Stepped}
    (hCall : KeepsTo id orderId c) (hId : job.id = id) (hOrder : job.orderId = orderId)
    (hNext : ∀ answer, (next answer).Only (KeepsTo id orderId) (SteppedFrom id orderId)) :
    (attempt c job next).Only (KeepsTo id orderId) (SteppedFrom id orderId) := by
  refine ⟨hCall, fun answer => ?_⟩
  cases answer with
  | ok a => exact hNext a
  | error e => exact ⟨job, some e, rfl, hId, hOrder⟩

theorem only_store {job : SweepJob} (hId : job.id = id) (hOrder : job.orderId = orderId) :
    (store job).Only (KeepsTo id orderId) (SteppedFrom id orderId) :=
  only_attempt ⟨hId, hOrder⟩ hId hOrder fun _ => ⟨job, none, rfl, hId, hOrder⟩

variable {job : SweepJob}

theorem only_transfer (hId : job.id = id) (hOrder : job.orderId = orderId) :
    (transfer deps job).Only (KeepsTo id orderId) (SteppedFrom id orderId) :=
  only_attempt trivial hId hOrder fun _ =>
    only_attempt trivial hId hOrder fun _ => only_store hId hOrder

theorem only_defer (hId : job.id = id) (hOrder : job.orderId = orderId) :
    (defer deps job).Only (KeepsTo id orderId) (SteppedFrom id orderId) :=
  only_attempt trivial hId hOrder fun _ => only_store hId hOrder

theorem only_finish {status : SweepStatus} (hId : job.id = id) (hOrder : job.orderId = orderId) :
    (finish job status).Only (KeepsTo id orderId) (SteppedFrom id orderId) :=
  only_attempt trivial hId hOrder fun _ => only_store hId hOrder

/-- A step of a job writes this job only. -/
theorem only_step (hId : job.id = id) (hOrder : job.orderId = orderId) :
    (step deps job).Only (KeepsTo id orderId) (SteppedFrom id orderId) := by
  unfold step
  split
  · refine only_attempt trivial hId hOrder fun balance => ?_
    split
    · exact only_finish hId hOrder
    · refine only_attempt trivial hId hOrder fun trx => ?_
      split
      · exact only_attempt trivial hId hOrder fun _ =>
          only_attempt trivial hId hOrder fun _ => only_store hId hOrder
      · exact only_transfer hId hOrder
  · unfold stepGasFueling
    split
    · exact only_defer hId hOrder
    · refine only_attempt trivial hId hOrder fun confirmed => ?_
      split
      · exact only_transfer hId hOrder
      · exact only_defer hId hOrder
  · unfold stepSweeping
    split
    · exact only_defer hId hOrder
    · refine only_attempt trivial hId hOrder fun confirmed => ?_
      split
      · split
        · exact only_attempt trivial hId hOrder fun _ => only_finish hId hOrder
        · exact only_finish hId hOrder
      · exact only_defer hId hOrder
  · exact ⟨job, none, rfl, hId, hOrder⟩

/-- Processing a job writes this job only. -/
theorem only_process (job : SweepJob) :
    (process deps job).Only (KeepsTo job.id job.orderId) fun _ => True := by
  refine Prog.only_onReturn (only_step rfl rfl) ?_
  rintro result ⟨stepped, thrown, rfl, hId, hOrder⟩
  cases thrown with
  | none => trivial
  | some err =>
      refine ⟨trivial, fun now => ?_⟩
      cases now with
      | error e => trivial
      | ok now =>
          refine ⟨?_, fun saved => ?_⟩
          · unfold withError
            split <;> exact ⟨hId, hOrder⟩
          · cases saved <;> trivial

/-- A pass writes the jobs it has taken. -/
theorem files_processEach {jobs : List SweepJob} (hInv : w.InFile deps.backend)
    (hReg : ∀ job ∈ jobs, w.Registered job.id job.orderId) :
    (filingDiscipline deps).wp i none (processEach deps jobs) (fun h _ _ => h = none) w := by
  induction jobs generalizing w with
  | nil => exact fun _ _ _ => rfl
  | cons job rest ih =>
      refine Discipline.wp_bind hInv (Discipline.wp_mono ?_
        (wp_of_only (hReg job (by simp)) (only_process job)))
      rintro h result w₁ hInv₁ ⟨rfl, -, hStill⟩
      cases result with
      | ok _ => exact ih hInv₁ fun other hOther => hStill _ _ (hReg other (by simp [hOther]))
      | error e => exact fun _ _ _ => rfl

/-- A call that neither creates nor updates. -/
theorem files_read {α : Type} {c : SweepCall} {next : Except AppError (SweepAns c) → SweepAction α}
    {Q : Option Unit → Except AppError α → SweepWorld → Prop} (hReads : c.reads = true)
    (hNext : ∀ w₁ answer w₂ reply, w₁.InFile deps.backend →
      sweepExec deps.backend i c reply w₁ = some (answer, w₂) → w.Files i w₂ → w₁.jobs = w₂.jobs →
      w₂.InFile deps.backend → (filingDiscipline deps).wp i none (next answer) Q w₂) :
    (filingDiscipline deps).wp i none (.call c next) Q w := by
  intro w₁ hRely hInv free _ reply _ answer w₂ hExec
  have hFiles : c.files w₁ := by
    cases c with
    | create job => cases hReads
    | update caller job => cases hReads
    | _ => trivial
  obtain ⟨hInv₂, hOwn, hFollow⟩ := files_step hInv hFiles hExec
  exact ⟨hInv₂, hOwn, hNext w₁ answer w₂ reply hInv hExec
    ((filingDiscipline deps).rely_trans (h := none) hRely hFollow) (sweepExec_reads hExec hReads).symm hInv₂⟩

/-- The due jobs are registered under their orders. -/
theorem registered_of_taken {c : SweepCall} {reply : SweepReply}
    {answer : Except AppError (SweepAns c)} {w₁ w₂ : SweepWorld} {job : SweepJob}
    (hExec : sweepExec deps.backend i c reply w₁ = some (answer, w₂)) (hJobs : w₁.jobs = w₂.jobs)
    (hTaken : job ∈ c.taken answer) : w₂.Registered job.id job.orderId := by
  refine ⟨job, ?_, rfl⟩
  rw [SweepWorld.job, ← hJobs]
  exact (sweepExec_taken hExec hTaken).1

theorem files_processDue (limit : Nat) :
    (filingDiscipline deps).wp i none (processDue deps limit) (fun h _ _ => h = none) w := by
  refine files_read rfl fun _ now w₁ _ _ _ _ _ _ => ?_
  cases now with
  | error e => exact fun _ _ _ => rfl
  | ok now =>
      refine files_read rfl fun w₂ answer w₃ reply hInv₂ hExec _ hJobs hInv₃ => ?_
      cases answer with
      | error e => exact fun _ _ _ => rfl
      | ok jobs =>
          change (filingDiscipline deps).wp i none
            (processEach deps jobs >>= fun _ => pure jobs.length) _ w₃
          refine Discipline.wp_bind hInv₃ (Discipline.wp_mono ?_ (files_processEach hInv₃
            fun job hMem => registered_of_taken hExec hJobs hMem))
          rintro h result w₄ - rfl
          cases result with
          | ok _ => exact fun _ _ _ => rfl
          | error e => exact fun _ _ _ => rfl

theorem files_enqueue (input : EnqueueInput) :
    (filingDiscipline deps).wp i none (enqueue deps input) (fun h _ _ => h = none) w := by
  refine files_read rfl fun _ existing w₁ _ _ _ _ _ _ => ?_
  rcases existing with e | ⟨_ | job⟩
  · exact fun _ _ _ => rfl
  · refine files_read rfl fun _ now w₂ _ _ _ _ _ _ => ?_
    cases now with
    | error e => exact fun _ _ _ => rfl
    | ok now =>
        refine files_read rfl fun w₃ answer w₄ reply _ hExec _ hJobs _ => ?_
        obtain ⟨e, -, -, hMay⟩ | ⟨s, hAnswer, rfl, hEq⟩ := sweepExec_outside hExec rfl
        · cases hMay
        · cases reply with
          | text s =>
              simp only [treasuryAnswer, Option.ite_none_right_eq_some, Option.some.injEq]
                at hAnswer
              obtain ⟨hUnused, rfl⟩ := hAnswer
              have hMine : (i, s) ∈ w₄.issued := by
                rw [hEq]
                exact List.mem_cons_self
              have hNone : w₄.job s = none := by
                rw [SweepWorld.job, ← hJobs]
                exact hUnused.2.2
              intro w₅ hRely hInv₅ free _ reply _ answer w₆ hExec₆
              obtain ⟨hMine₅, hNone₅⟩ := hRely.issued s hMine
              obtain ⟨hInv₆, hOwn⟩ := create_files hInv₅ hMine₅ (hNone₅ hNone) hExec₆
              exact ⟨hInv₆, hOwn, fun _ _ _ => rfl⟩
          | _ => cases hAnswer
  · exact fun _ _ _ => rfl

theorem only_requeue (job : SweepJob) :
    (requeue job).Only (KeepsTo job.id job.orderId) fun _ => True := by
  refine ⟨trivial, fun now => ?_⟩
  cases now with
  | error e => trivial
  | ok now => exact ⟨⟨rfl, rfl⟩, fun saved => by cases saved <;> trivial⟩

theorem files_retry (orderId : String) :
    (filingDiscipline deps).wp i none (retry orderId) (fun h _ _ => h = none) w := by
  rw [retry_eq]
  refine files_read rfl fun w₁ answer w₂ reply _ hExec _ hJobs hInv₂ => ?_
  rcases answer with e | ⟨_ | job⟩
  · exact fun _ _ _ => rfl
  · exact fun _ _ _ => rfl
  · change (filingDiscipline deps).wp i none (if job.status = .FAILED then requeue job else pure none) _ w₂
    split
    · next hFailed =>
        have hReg : w₂.Registered job.id job.orderId :=
          registered_of_taken hExec hJobs (by simp [SweepCall.taken, hFailed])
        exact Discipline.wp_mono (fun _ _ _ _ h => h.1) (wp_of_only hReg (only_requeue job))
    · exact fun _ _ _ => rfl

/-- Every method keeps the jobs filed. -/
theorem files_entry (request : SweepRequest) (hInv : w.InFile deps.backend) :
    (filingDiscipline deps).wp i none ((sweepSystem deps).entry request)
      (fun h _ _ => h = none ∧ True) w := by
  have hThen : ∀ {α : Type} (p : SweepAction α) (f : α → SweepOutcome),
      (filingDiscipline deps).wp i none p (fun h _ _ => h = none) w →
      (filingDiscipline deps).wp i none (p >>= fun a => pure (f a)) (fun h _ _ => h = none ∧ True)
        w := by
    intro α p f hWp
    refine Discipline.wp_bind hInv (Discipline.wp_mono ?_ hWp)
    rintro h result w₁ - rfl
    cases result with
    | ok a => exact fun _ _ _ => ⟨rfl, trivial⟩
    | error e => exact fun _ _ _ => ⟨rfl, trivial⟩
  cases request with
  | enqueue input => exact hThen _ _ (files_enqueue input)
  | processDue limit => exact hThen _ _ (files_processDue limit)
  | retry orderId => exact hThen _ _ (files_retry orderId)
  | tick =>
      refine files_read rfl fun _ answer w₁ _ _ _ _ _ _ => ?_
      cases answer with
      | ok _ => exact fun _ _ _ => ⟨rfl, trivial⟩
      | error e => exact fun _ _ _ => ⟨rfl, trivial⟩

/-- The methods take no locks. -/
theorem lockFree_processEach (jobs : List SweepJob) :
    (processEach deps jobs).Only (fun _ => True) fun _ => True := by
  induction jobs with
  | nil => trivial
  | cons job rest ih =>
      refine Prog.only_onReturn (Prog.only_mono (fun _ _ => trivial) (fun _ h => h) (only_process job)) ?_
      rintro (e | u) -
      · trivial
      · exact ih

theorem lockFree_processDue (limit : Nat) :
    (processDue deps limit).Only (fun _ => True) fun _ => True := by
  refine ⟨trivial, fun now => ?_⟩
  cases now with
  | error e => trivial
  | ok now =>
      refine ⟨trivial, fun jobs => ?_⟩
      cases jobs with
      | error e => trivial
      | ok jobs =>
          change Prog.Only _ _ (processEach deps jobs >>= fun _ => pure jobs.length)
          refine Prog.only_onReturn (lockFree_processEach jobs) fun result _ => ?_
          cases result <;> trivial

theorem lockFree_retry (orderId : String) :
    (retry orderId).Only (fun _ => True) fun _ => True := by
  rw [retry_eq]
  refine ⟨trivial, fun found => ?_⟩
  rcases found with e | ⟨_ | job⟩
  · trivial
  · trivial
  · change Prog.Only _ _ (if job.status = .FAILED then requeue job else pure none)
    split
    · exact Prog.only_mono (fun _ _ => trivial) (fun _ h => h) (only_requeue job)
    · trivial

end programs

/-- In every run each stored job is found by its order. -/
theorem found_of_reaches {deps : SweepDeps} {clock : Int} {m : Sweeper}
    (hRun : (sweepSystem deps).Reaches (fun _ _ => True) (Sweeper.start .empty clock) m)
    {id : String} {job : SweepJob} (hJob : m.world.job id = some job) :
    m.world.jobs.findByOrderId deps.backend job.orderId = some job := by
  have hStart : (SweepWorld.start .empty clock).InFile deps.backend :=
    ⟨SweepJobStore.filed_empty, List.nodup_nil, fun _ hMem => by cases hMem⟩
  have hPermits : ∀ (m : Sweeper) (label : Label SweepReply SweepRequest) (m' : Sweeper), True →
      (sweepSystem deps).step m label = some m' →
      (filingDiscipline deps).Permits (fun _ => True) m label := fun _ _ _ _ hStep =>
    Discipline.permits_of_step (Function.injective_of_subsingleton _) hStep (fun _ _ => trivial)
      fun _ _ _ _ _ _ _ => trivial
  have hCoh : (filingDiscipline deps).Coherent m :=
    Discipline.Coherent.run (fun request _ _ _ hInv _ => files_entry request hInv)
      (Discipline.coherent_start hStart (fun _ => trivial) fun _ => trivial) (hRun.mono hPermits)
  exact hCoh.inv.filed.found hJob

end VpnPayment
