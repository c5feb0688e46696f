import VpnPayment.Async.Discipline
import VpnPayment.Collections.Table

/-! Deposit addresses of orders. The lookup, the reservation of an index, the
derivation of the address and the save are separate awaits, so any number of
allocations for one order may be between any two of them. -/
namespace VpnPayment

open Async Collections
open Prog (perform)

/-- `DepositAddress` of the domain: a per-order TRON deposit address derived from
the treasury HD wallet. -/
structure DepositRecord where
  index : Int
  address : String
  orderId : String
  createdAt : Int
deriving DecidableEq

structure MemoryDepositAddressRepository where
  counter : Nat
  byOrderId : Table DepositRecord DepositRecord.orderId
  byAddress : Table DepositRecord DepositRecord.address

namespace MemoryDepositAddressRepository

def empty : MemoryDepositAddressRepository :=
  ⟨0, .empty, .empty⟩

def nextIndex (s : MemoryDepositAddressRepository) : Nat × MemoryDepositAddressRepository :=
  (s.counter + 1, { s with counter := s.counter + 1 })

def save (s : MemoryDepositAddressRepository) (record : DepositRecord) :
    Except String MemoryDepositAddressRepository :=
  if s.byOrderId.has record.orderId then
    .error ("duplicate deposit orderId: " ++ record.orderId)
  else if s.byAddress.has record.address then
    .error ("duplicate deposit address: " ++ record.address)
  else
    .ok { s with byOrderId := s.byOrderId.put record, byAddress := s.byAddress.put record }

def findByOrderId (s : MemoryDepositAddressRepository) (orderId : String) :
    Option DepositRecord :=
  s.byOrderId.get? orderId

def findByAddress (s : MemoryDepositAddressRepository) (address : String) :
    Option DepositRecord :=
  s.byAddress.get? address

end MemoryDepositAddressRepository

/-- What an allocation awaits. The clock is read without an await. -/
inductive AllocatorCall
  | findByOrderId (orderId : String)
  | nextIndex
  | deriveDepositAddress (index : Int)
  | now
  | save (record : DepositRecord)

abbrev AllocatorAns : AllocatorCall → Type
  | .findByOrderId _ => Option DepositRecord
  | .nextIndex => Nat
  | .deriveDepositAddress _ => String
  | .now => Int
  | .save _ => DepositRecord

/-- A call does what it does, it is rejected before it does anything, or the
clock is read. -/
inductive AllocatorReply
  | normal
  | rejected (message : String)
  | clock (now : Int)

namespace AddressAllocator

/-- Return the order's deposit address, deriving and persisting one if needed. -/
def allocate {Key : Type} (hdStartIndex : Int) (orderId : String) :
    Prog Key AllocatorCall AllocatorAns String DepositRecord := do
  let existing ← perform (AllocatorCall.findByOrderId orderId)
  match existing with
  | some record => pure record
  | none => do
      let raw ← perform AllocatorCall.nextIndex
      let index := hdStartIndex + raw
      let address ← perform (AllocatorCall.deriveDepositAddress index)
      let createdAt ← perform AllocatorCall.now
      perform (AllocatorCall.save ⟨index, address, orderId, createdAt⟩)

end AddressAllocator

/-- The repository and the wallet. `derive` is `deriveDepositAddress`. -/
def allocatorExec (derive : Int → String) (c : AllocatorCall) (reply : AllocatorReply)
    (s : MemoryDepositAddressRepository) :
    Option (Except String (AllocatorAns c) × MemoryDepositAddressRepository) :=
  match c, reply with
  | .now, .clock now => some (.ok now, s)
  | .now, _ => none
  | _, .clock _ => none
  | _, .rejected message => some (.error message, s)
  | .findByOrderId orderId, .normal => some (.ok (s.findByOrderId orderId), s)
  | .nextIndex, .normal => some (.ok s.nextIndex.1, s.nextIndex.2)
  | .deriveDepositAddress index, .normal => some (.ok (derive index), s)
  | .save record, .normal => match s.save record with
      | .ok s' => some (.ok record, s')
      | .error message => some (.error message, s)

/-- Any number of allocations. An outcome names the order it was asked for. -/
def allocator (derive : Int → String) (hdStartIndex : Int) :
    System Empty AllocatorCall AllocatorAns String (String × DepositRecord)
      MemoryDepositAddressRepository AllocatorReply String where
  exec _ := allocatorExec derive
  entry orderId := do
    let record ← AddressAllocator.allocate hdStartIndex orderId
    pure (orderId, record)

namespace MemoryDepositAddressRepository

variable {derive : Int → String} {s s' s'' : MemoryDepositAddressRepository}
  {record : DepositRecord} {c : AllocatorCall} {reply : AllocatorReply}

/-- Both lookups hold the same records, each with the address of its index. -/
structure Sound (derive : Int → String) (s : MemoryDepositAddressRepository) : Prop where
  same : s.byAddress.rows = s.byOrderId.rows
  derived : ∀ r ∈ s.byOrderId.rows, r.address = derive r.index

/-- Neither lookup has lost a record. -/
def Grows (s s' : MemoryDepositAddressRepository) : Prop :=
  ∀ r ∈ s.byOrderId.rows, r ∈ s'.byOrderId.rows

theorem sound_empty : Sound derive empty :=
  ⟨rfl, by simp [empty, Table.empty]⟩

/-- A record is saved for a new order at a new address only. -/
theorem save_cases (h : s.save record = .ok s') :
    s.byOrderId.get? record.orderId = none ∧ s.byAddress.get? record.address = none ∧
      s' = { s with byOrderId := s.byOrderId.put record, byAddress := s.byAddress.put record } := by
  unfold save at h
  split at h
  · cases h
  · next hOrder =>
      split at h
      · cases h
      · next hAddress =>
          exact ⟨by simpa [Table.has] using hOrder, by simpa [Table.has] using hAddress,
            by simpa using h.symm⟩

theorem Sound.save (hs : s.Sound derive) (hRecord : record.address = derive record.index)
    (h : s.save record = .ok s') : s'.Sound derive := by
  obtain ⟨hOrder, hAddress, rfl⟩ := save_cases h
  constructor
  · simp only [Table.rows_put_of_get?_eq_none hOrder, Table.rows_put_of_get?_eq_none hAddress,
      hs.same]
  · intro r hr
    obtain rfl | ⟨hOld, -⟩ := Table.mem_put_iff.mp hr
    · exact hRecord
    · exact hs.derived r hOld

theorem grows_of_save (h : s.save record = .ok s') : s.Grows s' := by
  obtain ⟨hOrder, -, rfl⟩ := save_cases h
  intro r hr
  show r ∈ (s.byOrderId.put record).rows
  rw [Table.rows_put_of_get?_eq_none hOrder]
  exact List.mem_append_left _ hr

/-- Two records that agree on the index, the address or the order are one. -/
theorem Sound.unshared (hs : s.Sound derive) {r r' : DepositRecord}
    (hr : r ∈ s.byOrderId.rows) (hr' : r' ∈ s.byOrderId.rows)
    (hSame : r.index = r'.index ∨ r.address = r'.address ∨ r.orderId = r'.orderId) : r = r' := by
  have hAddress : r.address = r'.address → r = r' := by
    intro hEq
    have hGet := Table.get?_of_mem (hs.same ▸ hr : r ∈ s.byAddress.rows)
    have hGet' := Table.get?_of_mem (hs.same ▸ hr' : r' ∈ s.byAddress.rows)
    rw [hEq] at hGet
    exact Option.some.inj (hGet.symm.trans hGet')
  obtain hIndex | hEq | hOrder := hSame
  · exact hAddress (by rw [hs.derived r hr, hs.derived r' hr', hIndex])
  · exact hAddress hEq
  · have hGet := Table.get?_of_mem hr
    rw [hOrder] at hGet
    exact Option.some.inj (hGet.symm.trans (Table.get?_of_mem hr'))

/-- Both lookups are what they were. -/
def SameLookups (s s' : MemoryDepositAddressRepository) : Prop :=
  s'.byOrderId = s.byOrderId ∧ s'.byAddress = s.byAddress

theorem SameLookups.sound (h : s.SameLookups s') (hs : s.Sound derive) : s'.Sound derive :=
  ⟨by rw [h.1, h.2, hs.same], by rw [h.1]; exact hs.derived⟩

theorem SameLookups.grows (h : s.SameLookups s') : s.Grows s' := by
  intro r hr
  rw [h.1]
  exact hr

end MemoryDepositAddressRepository

open MemoryDepositAddressRepository

section calls

variable {derive : Int → String} {s s' : MemoryDepositAddressRepository}
  {record : DepositRecord} {c : AllocatorCall} {reply : AllocatorReply}

/-- A save is answered with the record it stored, or it is rejected. -/
theorem save_of_exec {answer : Except String DepositRecord}
    (h : allocatorExec derive (.save record) reply s = some (answer, s')) :
    (answer = .ok record ∧ s.save record = .ok s') ∨ ∃ message, answer = .error message ∧ s' = s := by
  cases reply with
  | normal =>
      simp only [allocatorExec] at h
      split at h
      · next s'' hSave =>
          cases h
          exact .inl ⟨rfl, hSave⟩
      · next message hSave =>
          cases h
          exact .inr ⟨message, rfl, rfl⟩
  | rejected message =>
      cases h
      exact .inr ⟨message, rfl, rfl⟩
  | clock now => cases h

/-- Only a save touches the lookups. -/
theorem sameLookups_of_exec {answer : Except String (AllocatorAns c)}
    (hOther : ∀ record, c ≠ .save record)
    (h : allocatorExec derive c reply s = some (answer, s')) : s.SameLookups s' := by
  cases c with
  | save record => exact absurd rfl (hOther record)
  | _ => cases reply <;> cases h <;> exact ⟨rfl, rfl⟩

end calls

section runs

variable {derive : Int → String} {hdStartIndex : Int} {s s' : MemoryDepositAddressRepository}
  {orderId : String} {i : Nat}

/-- Allocations keep the repository sound and no record is lost. There are no
locks. An allocation that succeeds answers a stored record of its order. -/
def allocatorDiscipline (derive : Int → String) (hdStartIndex : Int) :
    Discipline (allocator derive hdStartIndex) Empty where
  resource := id
  inv := Sound derive
  own _ _ := True
  fresh _ _ := True
  rely _ _ s s' := s.Grows s'
  guar _ _ _ s s' := s.Grows s'
  cond _ _ _ _ _ _ := True
  post _ result s := ∀ orderId record, result = .ok (orderId, record) →
    record ∈ s.byOrderId.rows ∧ record.orderId = orderId
  rely_refl _ _ _ _ hr := hr
  rely_trans h h' r hr := h' r (h r hr)
  guar_rely h _ _ _ _ := h
  guar_own _ _ _ _ _ _ := trivial
  guar_fresh _ _ _ := trivial

/-- An await that only reads, or reserves an index. -/
theorem allocator_quiet {α : Type} {c : AllocatorCall}
    {next : Except String (AllocatorAns c) → Prog Empty AllocatorCall AllocatorAns String α}
    {Q : Option Empty → Except String α → MemoryDepositAddressRepository → Prop}
    {A : Except String (AllocatorAns c) → MemoryDepositAddressRepository → Prop}
    (hOther : ∀ record, c ≠ .save record)
    (hAnswer : ∀ s₁ reply answer s₂, allocatorExec derive c reply s₁ = some (answer, s₂) →
      A answer s₂)
    (hNext : ∀ answer s₂, A answer s₂ →
      (allocatorDiscipline derive hdStartIndex).wp i none (next answer) Q s₂) :
    (allocatorDiscipline derive hdStartIndex).wp i none (.call c next) Q s := by
  refine Discipline.wp_quiet (A := A) ?_ fun answer s₂ _ _ hA => hNext answer s₂ hA
  intro s₁ _ hs _ _ reply _ answer s₂ hExec
  have hSame := sameLookups_of_exec hOther hExec
  exact ⟨hSame.sound hs, hSame.grows, hSame.grows, hAnswer s₁ reply answer s₂ hExec⟩

/-- A rejected await rejects the allocation. -/
theorem wp_rejected (message : String) :
    (allocatorDiscipline derive hdStartIndex).wp i none (.ret (.error message))
      (fun h result s => h = none ∧ (allocatorDiscipline derive hdStartIndex).post i result s) s :=
  fun _ _ _ => ⟨rfl, fun _ _ hEq => by cases hEq⟩

theorem wp_allocate (i : Nat) (s : MemoryDepositAddressRepository) :
    (allocatorDiscipline derive hdStartIndex).wp i none
      ((allocator derive hdStartIndex).entry orderId)
      (fun h result s => h = none ∧ (allocatorDiscipline derive hdStartIndex).post i result s) s := by
  refine allocator_quiet (c := .findByOrderId orderId) (by simp)
    (A := fun answer s₂ => ∀ r, answer = .ok (some r) → r ∈ s₂.byOrderId.rows ∧ r.orderId = orderId)
    ?_ fun existing s₁ hExisting => ?_
  · intro s₁ reply answer s₂ hExec r hr
    subst hr
    cases reply <;> simp only [allocatorExec, Option.some.injEq, Prod.mk.injEq, reduceCtorEq,
      Except.ok.injEq, false_and] at hExec
    obtain ⟨hFind, rfl⟩ := hExec
    exact ⟨Table.mem_of_get? hFind, Table.key_of_get? hFind⟩
  match existing, hExisting with
  | .error message, _ => exact wp_rejected message
  | .ok (some record), hExisting =>
      -- the stored record is still stored when the caller looks at it
      intro s₂ hGrows _
      refine ⟨rfl, fun orderId' record' hEq => ?_⟩
      cases hEq
      obtain ⟨hRow, hOrder⟩ := hExisting record rfl
      exact ⟨hGrows record hRow, hOrder⟩
  | .ok none, _ =>
  refine allocator_quiet (c := .nextIndex) (by simp) (A := fun _ _ => True)
    (fun _ _ _ _ _ => trivial) fun raw s₂ _ => ?_
  cases raw with
  | error message => exact wp_rejected message
  | ok raw =>
  refine allocator_quiet (c := .deriveDepositAddress (hdStartIndex + raw)) (by simp)
    (A := fun answer _ => ∀ address, answer = .ok address → address = derive (hdStartIndex + raw))
    ?_ fun address s₃ hAddress => ?_
  · intro s₃ reply answer s₄ hExec address hEq
    subst hEq
    cases reply <;> simp only [allocatorExec, Option.some.injEq, Prod.mk.injEq, reduceCtorEq,
      Except.ok.injEq, false_and] at hExec
    exact hExec.1.symm
  cases address with
  | error message => exact wp_rejected message
  | ok address =>
  obtain rfl := hAddress address rfl
  refine allocator_quiet (c := .now) (by simp) (A := fun _ _ => True)
    (fun _ _ _ _ _ => trivial) fun createdAt s₄ _ => ?_
  cases createdAt with
  | error message => exact wp_rejected message
  | ok createdAt =>
  intro s₅ _ hs _ _ reply _ answer s₆ hExec
  obtain ⟨rfl, hSave⟩ | ⟨message, rfl, rfl⟩ := save_of_exec hExec
  · refine ⟨hs.save rfl hSave, grows_of_save hSave, fun s₇ hGrows _ => ⟨rfl, ?_⟩⟩
    intro orderId' record' hEq
    cases hEq
    obtain ⟨hOrder, -, rfl⟩ := save_cases hSave
    exact ⟨hGrows _ (by rw [Table.rows_put_of_get?_eq_none hOrder]; simp), rfl⟩
  · exact ⟨hs, fun _ hr => hr, wp_rejected message⟩

/-- A save that succeeds is the last thing a program does. -/
def SavesLast {α : Type} : Prog Empty AllocatorCall AllocatorAns String α → Prop
  | .ret _ => True
  | .call c next => (∀ answer, SavesLast (next answer)) ∧
      ((∃ record, c = .save record) → ∀ value, ∃ out, next (.ok value) = .ret (.ok out))
  | .lock _ next => SavesLast next
  | .unlock next => SavesLast next

theorem savesLast_entry (derive : Int → String) (hdStartIndex : Int) (orderId : String) :
    SavesLast ((allocator derive hdStartIndex).entry orderId) := by
  refine ⟨fun existing => ?_, by simp⟩
  match existing with
  | .error message => trivial
  | .ok (some record) => trivial
  | .ok none =>
  refine ⟨fun raw => ?_, by simp⟩
  cases raw with
  | error message => trivial
  | ok raw =>
  refine ⟨fun address => ?_, by simp⟩
  cases address with
  | error message => trivial
  | ok address =>
  refine ⟨fun createdAt => ?_, by simp⟩
  cases createdAt with
  | error message => trivial
  | ok createdAt =>
  exact ⟨fun saved => by cases saved <;> trivial, fun _ saved => ⟨(orderId, saved), rfl⟩⟩

variable {m m' m'' : Machine Empty AllocatorCall AllocatorAns String (String × DepositRecord)
  MemoryDepositAddressRepository}

/-- Every program in flight ends with its save. -/
def AllSaveLast (m : Machine Empty AllocatorCall AllocatorAns String (String × DepositRecord)
    MemoryDepositAddressRepository) : Prop :=
  ∀ t ∈ m.tasks, SavesLast t.prog

theorem AllSaveLast.step {label : Label AllocatorReply String} (hAll : AllSaveLast m)
    (hStep : (allocator derive hdStartIndex).step m label = some m') : AllSaveLast m' := by
  cases label with
  | spawn request =>
      cases hStep
      intro t ht
      obtain ht | rfl := by simpa using ht
      · exact hAll t ht
      · exact savesLast_entry derive hdStartIndex request
  | step i reply =>
      obtain ⟨t, ht, hTask⟩ := Option.bind_eq_some_iff.mp hStep
      have hLast := hAll t (List.mem_of_getElem? ht)
      have hSet : ∀ t' s', SavesLast t'.prog → AllSaveLast ⟨s', m.tasks.set i t'⟩ := by
        intro t' s' hMoved x hx
        obtain hOld | rfl := List.mem_or_eq_of_mem_set hx
        · exact hAll x hOld
        · exact hMoved
      obtain ⟨c, next, answer, s', hp, -, rfl⟩ | ⟨key, -⟩ | ⟨next, hp, rfl⟩ :=
        System.stepTask_cases hTask
      · rw [hp] at hLast
        exact hSet _ s' (hLast.1 answer)
      · exact key.elim
      · rw [hp] at hLast
        exact hSet _ _ hLast

/-- A step that touches the lookups completes the allocation that takes it. -/
theorem settled_of_changed {reply : AllocatorReply} (hAll : AllSaveLast m)
    (hStep : (allocator derive hdStartIndex).step m (.step i reply) = some m')
    (hChanged : ¬m.world.SameLookups m'.world) :
    ∃ t out, m'.tasks[i]? = some t ∧ t.prog = .ret (.ok out) := by
  obtain ⟨t, ht, hTask⟩ := Option.bind_eq_some_iff.mp hStep
  have hLt : i < m.tasks.length := (List.getElem?_eq_some_iff.mp ht).1
  have hLast := hAll t (List.mem_of_getElem? ht)
  obtain ⟨c, next, answer, s', hp, hExec, rfl⟩ | ⟨key, -⟩ | ⟨next, hp, rfl⟩ :=
    System.stepTask_cases hTask
  · by_cases hSave : ∃ record, c = .save record
    · rw [hp] at hLast
      have hOut := hLast.2 hSave
      obtain ⟨record, rfl⟩ := hSave
      obtain ⟨rfl, -⟩ | ⟨message, -, rfl⟩ := save_of_exec hExec
      · obtain ⟨out, hNext⟩ := hOut record
        exact ⟨_, out, List.getElem?_set_self hLt, hNext⟩
      · exact absurd ⟨rfl, rfl⟩ hChanged
    · exact absurd (sameLookups_of_exec (not_exists.mp hSave) hExec) hChanged
  · exact key.elim
  · exact absurd ⟨rfl, rfl⟩ hChanged

/-- Records held by either lookup. -/
def MemoryDepositAddressRepository.Stored (s : MemoryDepositAddressRepository)
    (record : DepositRecord) : Prop :=
  s.findByOrderId record.orderId = some record ∨ s.findByAddress record.address = some record

/-- Whatever allocations are made and however they interleave, no two records
share an index, an address or an order. Allocations of one order that succeed
answer one record, and one that fails has touched neither lookup. -/
theorem allocate_unshared
    (hRun : (allocator derive hdStartIndex).Reaches (fun _ _ => True) (Machine.start .empty) m) :
    (∀ r r', m.world.Stored r → m.world.Stored r' →
      r.index = r'.index ∨ r.address = r'.address ∨ r.orderId = r'.orderId → r = r') ∧
    (∀ (orderId : String) (j k : Nat) tj tk r r', m.tasks[j]? = some tj → m.tasks[k]? = some tk →
      tj.prog = .ret (.ok (orderId, r)) → tk.prog = .ret (.ok (orderId, r')) →
      r = r' ∧ r.orderId = orderId ∧ m.world.findByOrderId orderId = some r ∧
        m.world.findByAddress r.address = some r) ∧
    (∀ (j : Nat) m₁ m₂ reply message,
      (allocator derive hdStartIndex).Reaches (fun _ _ => True) (Machine.start .empty) m₁ →
      (allocator derive hdStartIndex).step m₁ (.step j reply) = some m₂ →
      (allocator derive hdStartIndex).Reaches (fun _ _ => True) m₂ m →
      m.rejection j = some message → m₁.world.SameLookups m₂.world) := by
  have hCoh : (allocatorDiscipline derive hdStartIndex).Coherent m := by
    refine Discipline.Coherent.run (fun request (_ : True) i s _ _ => wp_allocate i s)
      (Discipline.coherent_start sound_empty (fun r => r.elim) fun _ => trivial) ?_
    refine hRun.mono fun m₁ label m₂ _ hStep => ?_
    exact Discipline.permits_of_step (fun _ _ h => h) hStep (fun _ _ => trivial)
      fun _ _ _ _ _ _ _ => trivial
  have hs : m.world.Sound derive := hCoh.inv
  have hRow : ∀ {r}, m.world.Stored r → r ∈ m.world.byOrderId.rows := by
    rintro r (hFind | hFind)
    · exact Table.mem_of_get? hFind
    · exact hs.same ▸ Table.mem_of_get? hFind
  have hPost : ∀ {orderId : String} {j : Nat} {tj : Task Empty AllocatorCall AllocatorAns String (String × DepositRecord)}
      {r : DepositRecord}, m.tasks[j]? = some tj →
      tj.prog = .ret (.ok (orderId, r)) → r ∈ m.world.byOrderId.rows ∧ r.orderId = orderId := by
    intro orderId j tj r hj hp
    have hWp := hCoh.wp j tj hj
    rw [hp] at hWp
    exact (hWp m.world (fun _ hr => hr) hs).2 orderId r rfl
  refine ⟨fun r r' hr hr' hSame => hs.unshared (hRow hr) (hRow hr') hSame, ?_, ?_⟩
  · intro orderId j k tj tk r r' hj hk hpj hpk
    obtain ⟨hr, hOrder⟩ := hPost hj hpj
    obtain ⟨hr', hOrder'⟩ := hPost hk hpk
    refine ⟨hs.unshared hr hr' (.inr (.inr (hOrder.trans hOrder'.symm))), hOrder, ?_, ?_⟩
    · exact hOrder ▸ Table.get?_of_mem hr
    · exact Table.get?_of_mem (hs.same ▸ hr : r ∈ m.world.byAddress.rows)
  · intro j m₁ m₂ reply message hBefore hStep hAfter hRejected
    by_contra hChanged
    have hAll : AllSaveLast m₁ := hBefore.invariant (fun _ _ _ _ hStep hAll => hAll.step hStep)
      (by simp [AllSaveLast, Machine.start])
    obtain ⟨t, out, ht, hp⟩ := settled_of_changed hAll hStep hChanged
    have hEnd := System.task_of_reaches hAfter ht hp
    simp [Machine.rejection, hEnd, hp] at hRejected

/-- What a settled allocation has answered. -/
def allocated (m : Machine Empty AllocatorCall AllocatorAns String
    (String × DepositRecord) MemoryDepositAddressRepository) (i : Nat) :
    Option (String × DepositRecord) :=
  m.tasks[i]?.bind fun t => match t.prog with
    | .ret (.ok result) => some result
    | _ => none

/-- Two allocations for one order look it up before either saves. The later save
is refused, and a third allocation answers the stored record. -/
theorem allocate_unshared_concurrent :
    ∃ m, (allocator toString 100).Reaches (fun _ _ => True) (Machine.start .empty) m ∧
      (∀ r r', m.world.Stored r → m.world.Stored r' →
        r.index = r'.index ∨ r.address = r'.address ∨ r.orderId = r'.orderId → r = r') ∧
      m.rejection 0 = some "duplicate deposit orderId: o1" ∧
      m.world.findByOrderId "o1" = some ⟨102, "102", "o1", 5⟩ ∧
      allocated m 2 = some ("o1", ⟨102, "102", "o1", 5⟩) := by
  obtain ⟨m, hRun, hEnd⟩ := System.exists_reaches (allocator toString 100) (fun _ _ => true)
    (Machine.start .empty)
    [.spawn "o1", .spawn "o1", .step 0 .normal, .step 1 .normal, .step 0 .normal, .step 1 .normal,
      .step 1 .normal, .step 1 (.clock 5), .step 1 .normal, .step 0 .normal, .step 0 (.clock 6),
      .step 0 .normal, .spawn "o1", .step 2 .normal]
    (fun m => decide (m.rejection 0 = some "duplicate deposit orderId: o1" ∧
      m.world.findByOrderId "o1" = some ⟨102, "102", "o1", 5⟩ ∧
      allocated m 2 = some ("o1", ⟨102, "102", "o1", 5⟩))) (by decide +kernel)
  have hAny := hRun.mono fun _ _ _ _ _ => trivial
  have hBoth := of_decide_eq_true hEnd
  exact ⟨m, hAny, (allocate_unshared hAny).1, hBoth⟩

end runs
end VpnPayment
