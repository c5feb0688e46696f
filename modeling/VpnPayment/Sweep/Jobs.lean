import Mathlib.Data.List.Sort
import VpnPayment.Storage.Repositories

/-! Sweep jobs and the repositories that keep them. -/
namespace VpnPayment

open Collections

/-- Lifecycle of a sweep job. -/
inductive SweepStatus
  | PENDING
  | GAS_FUELING
  | SWEEPING
  | SWEPT
  | EMPTY
  | FAILED
deriving DecidableEq

def isSweepTerminal (status : SweepStatus) : Bool :=
  status = .SWEPT || status = .EMPTY || status = .FAILED

/-- A unit of work that collects one order's deposit into the central wallet. -/
structure SweepJob where
  id : String
  orderId : String
  depositIndex : Nat
  depositAddress : String
  collectionAddress : String
  amountMicro : Int
  status : SweepStatus
  gasTxId : Option String
  sweepTxId : Option String
  attempts : Nat
  lastError : Option String
  createdAt : Int
  updatedAt : Int
  nextAttemptAt : Int
deriving DecidableEq

/-- The fields of `MemorySweepJobRepository`. The `sweep_jobs` table of the SQL
one has the same rows and no index map. -/
structure SweepJobStore where
  byId : Table SweepJob SweepJob.id
  byOrderId : Index

namespace MemorySweepJobRepository

def create (s : SweepJobStore) (job : SweepJob) : Except AppError SweepJobStore :=
  if s.byOrderId.has job.orderId then
    .error (plainError s!"duplicate sweep orderId: {job.orderId}")
  else
    .ok { byId := s.byId.put job, byOrderId := s.byOrderId.put (job.orderId, job.id) }

def findByOrderId (s : SweepJobStore) (orderId : String) : Option SweepJob :=
  (truthy ((s.byOrderId.get? orderId).map Prod.snd)).bind s.byId.get?

def update (s : SweepJobStore) (job : SweepJob) : Except AppError SweepJobStore :=
  if s.byId.has job.id then .ok { s with byId := s.byId.put job }
  else .error (plainError s!"unknown sweep job: {job.id}")

def due (s : SweepJobStore) (now : Int) (limit : Nat) : List SweepJob :=
  ((s.byId.rows.filter fun j => !isSweepTerminal j.status && j.nextAttemptAt ≤ now).insertionSort
    fun x y => x.createdAt ≤ y.createdAt).take limit

end MemorySweepJobRepository

namespace SqlSweepJobRepository

def create (s : SweepJobStore) (job : SweepJob) : Except AppError SweepJobStore :=
  if s.byId.has job.id then .error (uniqueViolation "sweep_jobs_pkey")
  else if s.byId.rows.any fun row => row.orderId = job.orderId then
    .error (uniqueViolation "sweep_jobs_order_id_key")
  else .ok { s with byId := s.byId.put job }

def findByOrderId (s : SweepJobStore) (orderId : String) : Option SweepJob :=
  s.byId.rows.find? fun row => row.orderId = orderId

/-- The columns an `UPDATE` sets. -/
def setColumns (row job : SweepJob) : SweepJob :=
  { job with id := row.id, orderId := row.orderId, createdAt := row.createdAt }

def update (s : SweepJobStore) (job : SweepJob) : Except AppError SweepJobStore :=
  match s.byId.get? job.id with
  | some row => .ok { s with byId := s.byId.put (setColumns row job) }
  | none => .ok s

/-- Rows of one time come in any order; here in that of the table. -/
def due (s : SweepJobStore) (now : Int) (limit : Nat) : List SweepJob :=
  let rows := s.byId.rows.filter fun row =>
    row.status ∈ [.PENDING, .GAS_FUELING, .SWEEPING] && row.nextAttemptAt ≤ now
  (rows.insertionSort fun x y => x.createdAt ≤ y.createdAt).take limit

end SqlSweepJobRepository

namespace SweepJobStore

def empty : SweepJobStore := ⟨.empty, .empty⟩

def create : Backend → SweepJobStore → SweepJob → Except AppError SweepJobStore
  | .memory => MemorySweepJobRepository.create
  | .sql => SqlSweepJobRepository.create

def findByOrderId : Backend → SweepJobStore → String → Option SweepJob
  | .memory => MemorySweepJobRepository.findByOrderId
  | .sql => SqlSweepJobRepository.findByOrderId

def update : Backend → SweepJobStore → SweepJob → Except AppError SweepJobStore
  | .memory => MemorySweepJobRepository.update
  | .sql => SqlSweepJobRepository.update

/-- The open jobs whose time has come, oldest first. -/
def due : Backend → SweepJobStore → Int → Nat → List SweepJob
  | .memory => MemorySweepJobRepository.due
  | .sql => SqlSweepJobRepository.due

/-- The row an update leaves behind in the place of `row`. -/
def written : Backend → SweepJob → SweepJob → SweepJob
  | .memory, _, job => job
  | .sql, row, job => SqlSweepJobRepository.setColumns row job

variable {b : Backend} {s s' : SweepJobStore} {job row : SweepJob}

theorem create_ok (h : s.create b job = .ok s') : s'.byId = s.byId.put job := by
  cases b with
  | memory =>
      simp only [create, MemorySweepJobRepository.create] at h
      split at h
      · cases h
      · cases h
        rfl
  | sql =>
      simp only [create, SqlSweepJobRepository.create] at h
      split at h
      · cases h
      · split at h
        · cases h
        · cases h
          rfl

/-- An update of a stored job rewrites its row. -/
theorem update_eq (hRow : s.byId.get? job.id = some row) :
    s.update b job = .ok { s with byId := s.byId.put (written b row job) } := by
  cases b with
  | memory => simp [update, MemorySweepJobRepository.update, Table.has, hRow, written]
  | sql => simp [update, SqlSweepJobRepository.update, hRow, written]

/-- An update rewrites a row or, where there is none to rewrite, does nothing. -/
theorem update_ok (h : s.update b job = .ok s') :
    s' = s ∨ ∃ row, s.byId.get? job.id = some row ∧ s'.byId = s.byId.put (written b row job) := by
  cases hRow : s.byId.get? job.id with
  | some row =>
      rw [update_eq hRow] at h
      cases h
      exact .inr ⟨row, rfl, rfl⟩
  | none =>
      cases b with
      | memory => simp [update, MemorySweepJobRepository.update, Table.has, hRow] at h
      | sql =>
          simp only [update, SqlSweepJobRepository.update, hRow, Except.ok.injEq] at h
          exact .inl h.symm

/-- The columns an update leaves alone do not change while a job is worked on. -/
theorem written_eq (hId : row.id = job.id) (hOrder : row.orderId = job.orderId)
    (hCreated : row.createdAt = job.createdAt) : written b row job = job := by
  cases b with
  | memory => rfl
  | sql => simp [written, SqlSweepJobRepository.setColumns, hId, hOrder, hCreated]

theorem get?_of_findByOrderId {orderId : String} (h : s.findByOrderId b orderId = some job) :
    s.byId.get? job.id = some job := by
  cases b with
  | memory =>
      obtain ⟨id, -, hGet⟩ := Option.bind_eq_some_iff.mp h
      exact Table.key_of_get? hGet ▸ hGet
  | sql => exact Table.get?_of_mem (List.mem_of_find?_eq_some h)

/-- The statuses that the query lists are those that are not final. -/
theorem due_eq (b : Backend) (s : SweepJobStore) (now : Int) (limit : Nat) : s.due b now limit =
    ((s.byId.rows.filter fun j => !isSweepTerminal j.status && j.nextAttemptAt ≤ now).insertionSort
      fun x y => x.createdAt ≤ y.createdAt).take limit := by
  cases b with
  | memory => rfl
  | sql =>
      have hStatus : ∀ status : SweepStatus,
          decide (status ∈ [SweepStatus.PENDING, .GAS_FUELING, .SWEEPING]) = !isSweepTerminal status := by
        intro status
        cases status <;> rfl
      show SqlSweepJobRepository.due s now limit = _
      simp only [SqlSweepJobRepository.due, hStatus]

theorem due_perm (s : SweepJobStore) (now : Int) : ((s.byId.rows.filter fun j =>
    !isSweepTerminal j.status && j.nextAttemptAt ≤ now).insertionSort
      fun x y => x.createdAt ≤ y.createdAt).Perm
    (s.byId.rows.filter fun j => !isSweepTerminal j.status && j.nextAttemptAt ≤ now) :=
  List.perm_insertionSort ..

theorem mem_due {now : Int} {limit : Nat} (h : job ∈ s.due b now limit) :
    s.byId.get? job.id = some job ∧ isSweepTerminal job.status = false ∧
      job.nextAttemptAt ≤ now := by
  rw [due_eq] at h
  have hMem := (due_perm s now).mem_iff.mp (List.mem_of_mem_take h)
  simp only [List.mem_filter, Bool.and_eq_true, Bool.not_eq_true', decide_eq_true_eq] at hMem
  exact ⟨Table.get?_of_mem hMem.1, hMem.2.1, hMem.2.2⟩

/-- With a limit that lets every job through, an open job is due when its time has
come. -/
theorem mem_due_of {now : Int} {id : String} (hRow : s.byId.get? id = some job)
    (hOpen : isSweepTerminal job.status = false) (hDue : job.nextAttemptAt ≤ now) :
    job ∈ s.due b now s.byId.rows.length := by
  have hFilter : job ∈ s.byId.rows.filter fun j =>
      !isSweepTerminal j.status && j.nextAttemptAt ≤ now := by
    simp [Table.mem_of_get? hRow, hOpen, hDue]
  have hSorted := (due_perm s now).mem_iff.mpr hFilter
  rw [due_eq, List.take_of_length_le]
  · exact hSorted
  · rw [(due_perm s now).length_eq]
    exact List.length_filter_le ..

/-- No job is due twice. -/
theorem nodup_due (b : Backend) (s : SweepJobStore) (now : Int) (limit : Nat) :
    ((s.due b now limit).map SweepJob.id).Nodup := by
  have hRows : ((s.byId.rows.filter fun j =>
      !isSweepTerminal j.status && j.nextAttemptAt ≤ now).map SweepJob.id).Nodup :=
    s.byId.nodup.sublist (List.filter_sublist.map _)
  have hSorted := ((due_perm s now).map SweepJob.id).nodup_iff.mpr hRows
  rw [due_eq]
  exact hSorted.sublist ((List.take_sublist limit _).map SweepJob.id)

end SweepJobStore
end VpnPayment
