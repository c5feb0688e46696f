import VpnPayment.Async.Program

/-! Interleaved execution of asynchronous programs over one shared world. Any
number of tasks may be in flight. One step resumes one task and runs it up to
its next await, so every interleaving at await points is a run. -/
namespace Async

variable {Key Call : Type} {Ans : Call → Type} {Err Out World Reply Request : Type}

/-- A task in flight, with the key whose critical section it is in. -/
structure Task (Key Call : Type) (Ans : Call → Type) (Err Out : Type) where
  prog : Prog Key Call Ans Err Out
  held : Option Key

/-- The shared world and every task started so far. Settled tasks stay in the
list, so a task keeps its number for the whole run. -/
structure Machine (Key Call : Type) (Ans : Call → Type) (Err Out World : Type) where
  world : World
  tasks : List (Task Key Call Ans Err Out)

/-- How calls act on the world, and the program that serves each request. The
reply carries what the environment decides about a call: the answer of code
outside the system, or a failure. -/
structure System (Key Call : Type) (Ans : Call → Type) (Err Out World Reply Request : Type) where
  exec : Nat → (c : Call) → Reply → World → Option (Except Err (Ans c) × World)
  entry : Request → Prog Key Call Ans Err Out

inductive Label (Reply Request : Type)
  | spawn (request : Request)
  | step (task : Nat) (reply : Reply)

namespace Machine

/-- No task is in the critical section of `key`. -/
def Unlocked (m : Machine Key Call Ans Err Out World) (key : Key) : Prop :=
  ∀ t ∈ m.tasks, t.held ≠ some key

instance [DecidableEq Key] (m : Machine Key Call Ans Err Out World) (key : Key) :
    Decidable (m.Unlocked key) :=
  inferInstanceAs (Decidable (∀ t ∈ m.tasks, t.held ≠ some key))

/-- Every task has settled. -/
def settled (m : Machine Key Call Ans Err Out World) : Bool :=
  m.tasks.all fun t => match t.prog with
    | .ret _ => true
    | _ => false

def start (world : World) : Machine Key Call Ans Err Out World :=
  ⟨world, []⟩

/-- The call that settles when the task is resumed. -/
def nextCall (m : Machine Key Call Ans Err Out World) (i : Nat) : Option Call :=
  m.tasks[i]?.bind fun t => match t.prog with
    | .call c _ => some c
    | _ => none

/-- The key whose critical section is entered when the task is resumed. -/
def nextLock (m : Machine Key Call Ans Err Out World) (i : Nat) : Option Key :=
  m.tasks[i]?.bind fun t => match t.prog with
    | .lock key _ => some key
    | _ => none

/-- The task has settled. -/
def returned (m : Machine Key Call Ans Err Out World) (i : Nat) : Bool :=
  m.tasks[i]?.any fun t => match t.prog with
    | .ret _ => true
    | _ => false

/-- What a settled task was rejected with. -/
def rejection (m : Machine Key Call Ans Err Out World) (i : Nat) : Option Err :=
  m.tasks[i]?.bind fun t => match t.prog with
    | .ret (.error e) => some e
    | _ => none

theorem ret_of_settled {m : Machine Key Call Ans Err Out World} (h : m.settled = true)
    {t : Task Key Call Ans Err Out} (ht : t ∈ m.tasks) : ∃ result, t.prog = .ret result := by
  have hTask := List.all_eq_true.mp h t ht
  cases hp : t.prog with
  | ret result => exact ⟨result, rfl⟩
  | call c next => simp [hp] at hTask
  | lock key next => simp [hp] at hTask
  | unlock next => simp [hp] at hTask

theorem returned_iff {m : Machine Key Call Ans Err Out World} {i : Nat} :
    m.returned i = true ↔ ∃ t result, m.tasks[i]? = some t ∧ t.prog = .ret result := by
  simp only [returned, Option.any_eq_true]
  constructor
  · rintro ⟨t, ht, hRet⟩
    cases hp : t.prog with
    | ret result => exact ⟨t, result, ht, hp⟩
    | call c next => simp [hp] at hRet
    | lock key next => simp [hp] at hRet
    | unlock next => simp [hp] at hRet
  · rintro ⟨t, result, ht, hp⟩
    exact ⟨t, ht, by rw [hp]⟩

theorem not_returned_of_nextCall {m : Machine Key Call Ans Err Out World} {i : Nat} {c : Call}
    (h : m.nextCall i = some c) : m.returned i = false := by
  obtain ⟨t, ht, hCall⟩ := Option.bind_eq_some_iff.mp h
  cases hp : t.prog with
  | call c' next => simp [returned, ht, hp]
  | ret result => simp [hp] at hCall
  | lock key next => simp [hp] at hCall
  | unlock next => simp [hp] at hCall

end Machine

namespace System

variable [DecidableEq Key] (sys : System Key Call Ans Err Out World Reply Request)

/-- Resume one task. A task waiting for a key enters only when no other task is
in that critical section. Which waiting task enters first is left open. -/
def stepTask (m : Machine Key Call Ans Err Out World) (i : Nat) (reply : Reply)
    (t : Task Key Call Ans Err Out) : Option (Machine Key Call Ans Err Out World) :=
  match t.prog with
  | .ret _ => none
  | .call c next =>
      (sys.exec i c reply m.world).map fun result =>
        ⟨result.2, m.tasks.set i ⟨next result.1, t.held⟩⟩
  | .lock key next =>
      if m.Unlocked key then some ⟨m.world, m.tasks.set i ⟨next, some key⟩⟩ else none
  | .unlock next => some ⟨m.world, m.tasks.set i ⟨next, none⟩⟩

def step (m : Machine Key Call Ans Err Out World) :
    Label Reply Request → Option (Machine Key Call Ans Err Out World)
  | .spawn request => some ⟨m.world, m.tasks ++ [⟨sys.entry request, none⟩]⟩
  | .step i reply => m.tasks[i]?.bind (sys.stepTask m i reply)

/-- Follow the labels while the check holds of each in the state it is taken
from. -/
def run (check : Machine Key Call Ans Err Out World → Label Reply Request → Bool)
    (m : Machine Key Call Ans Err Out World) :
    List (Label Reply Request) → Option (Machine Key Call Ans Err Out World)
  | [] => some m
  | label :: labels =>
      if check m label then (sys.step m label).bind fun next => run check next labels else none

/-- Runs whose every step is allowed in the state it is taken from. -/
inductive Reaches (allowed : Machine Key Call Ans Err Out World → Label Reply Request → Prop) :
    Machine Key Call Ans Err Out World → Machine Key Call Ans Err Out World → Prop
  | refl (m : Machine Key Call Ans Err Out World) : Reaches allowed m m
  | tail {start middle finish : Machine Key Call Ans Err Out World} {label : Label Reply Request}
      (prior : Reaches allowed start middle) (hAllowed : allowed middle label)
      (last : sys.step middle label = some finish) : Reaches allowed start finish

variable {sys}
variable {allowed : Machine Key Call Ans Err Out World → Label Reply Request → Prop}

theorem Reaches.trans {start middle finish : Machine Key Call Ans Err Out World}
    (first : sys.Reaches allowed start middle) (second : sys.Reaches allowed middle finish) :
    sys.Reaches allowed start finish := by
  induction second with
  | refl => exact first
  | tail _ hAllowed last ih => exact .tail ih hAllowed last

/-- A run may be read under any side condition that its steps meet. -/
theorem Reaches.mono {allowed' : Machine Key Call Ans Err Out World → Label Reply Request → Prop}
    (hMono : ∀ m label m', allowed m label → sys.step m label = some m' → allowed' m label)
    {start finish : Machine Key Call Ans Err Out World}
    (hRun : sys.Reaches allowed start finish) : sys.Reaches allowed' start finish := by
  induction hRun with
  | refl => exact .refl _
  | tail _ hAllowed last ih => exact .tail ih (hMono _ _ _ hAllowed last) last

theorem reaches_of_run {check : Machine Key Call Ans Err Out World → Label Reply Request → Bool}
    {labels : List (Label Reply Request)} {start finish : Machine Key Call Ans Err Out World}
    (hRun : sys.run check start labels = some finish) :
    sys.Reaches (fun m label => check m label = true) start finish := by
  induction labels generalizing start with
  | nil =>
      cases hRun
      exact .refl _
  | cons label labels ih =>
      simp only [run] at hRun
      split at hRun
      · next hLabel =>
          obtain ⟨next, hStep, hRest⟩ := Option.bind_eq_some_iff.mp hRun
          exact (Reaches.tail (.refl _) hLabel hStep).trans (ih hRest)
      · cases hRun

/-- A property that every allowed step preserves holds in every state reached. -/
theorem Reaches.invariant {P : Machine Key Call Ans Err Out World → Prop}
    {start finish : Machine Key Call Ans Err Out World}
    (hStep : ∀ m label m', allowed m label → sys.step m label = some m' → P m → P m')
    (hRun : sys.Reaches allowed start finish) (hStart : P start) : P finish := by
  induction hRun with
  | refl => exact hStart
  | tail _ hAllowed last ih => exact hStep _ _ _ hAllowed last ih

/-- The four kinds of step of a task. -/
theorem stepTask_cases {m m' : Machine Key Call Ans Err Out World} {i : Nat} {reply : Reply}
    {t : Task Key Call Ans Err Out} (h : sys.stepTask m i reply t = some m') :
    (∃ c next answer world, t.prog = .call c next ∧
      sys.exec i c reply m.world = some (answer, world) ∧
      m' = ⟨world, m.tasks.set i ⟨next answer, t.held⟩⟩) ∨
    (∃ key next, t.prog = .lock key next ∧ m.Unlocked key ∧
      m' = ⟨m.world, m.tasks.set i ⟨next, some key⟩⟩) ∨
    (∃ next, t.prog = .unlock next ∧ m' = ⟨m.world, m.tasks.set i ⟨next, none⟩⟩) := by
  unfold stepTask at h
  cases hp : t.prog with
  | ret result => simp [hp] at h
  | call c next =>
      simp only [hp, Option.map_eq_some_iff] at h
      obtain ⟨⟨answer, world⟩, hExec, rfl⟩ := h
      exact .inl ⟨c, next, answer, world, rfl, hExec, rfl⟩
  | lock key next =>
      simp only [hp] at h
      split at h
      · next hFree => exact .inr (.inl ⟨key, next, rfl, hFree, by simpa using h.symm⟩)
      · cases h
  | unlock next =>
      simp only [hp, Option.some.injEq] at h
      exact .inr (.inr ⟨next, rfl, h.symm⟩)

/-- Only a call that settles changes the world. -/
theorem world_of_step {m m' : Machine Key Call Ans Err Out World} {label : Label Reply Request}
    (h : sys.step m label = some m') : m'.world = m.world ∨
      ∃ i reply c answer, label = .step i reply ∧ m.nextCall i = some c ∧
        sys.exec i c reply m.world = some (answer, m'.world) := by
  cases label with
  | spawn request =>
      cases h
      exact .inl rfl
  | step i reply =>
      obtain ⟨t, ht, hTask⟩ := Option.bind_eq_some_iff.mp h
      obtain ⟨c, next, answer, world, hp, hExec, rfl⟩ | ⟨key, next, -, -, rfl⟩ | ⟨next, -, rfl⟩ :=
        stepTask_cases hTask
      · exact .inr ⟨i, reply, c, answer, rfl, by simp [Machine.nextCall, ht, hp], hExec⟩
      · exact .inl rfl
      · exact .inl rfl

/-- A task resumed at a call settles it. -/
theorem exec_of_step {m m' : Machine Key Call Ans Err Out World} {i : Nat} {reply : Reply}
    {c : Call} (h : sys.step m (.step i reply) = some m') (hCall : m.nextCall i = some c) :
    ∃ answer, sys.exec i c reply m.world = some (answer, m'.world) := by
  obtain ⟨t, ht, hTask⟩ := Option.bind_eq_some_iff.mp h
  simp only [Machine.nextCall, ht, Option.bind_some] at hCall
  obtain ⟨c', next, answer, world, hp, hExec, rfl⟩ | ⟨key, next, hp, -⟩ | ⟨next, hp, -⟩ :=
    stepTask_cases hTask <;> rw [hp] at hCall <;> cases hCall
  exact ⟨answer, hExec⟩

/-- Where a task comes from: it was there and is left as it is, it has just been started,
or it is the one that was resumed. -/
theorem task_cases {m m' : Machine Key Call Ans Err Out World} {label : Label Reply Request}
    (h : sys.step m label = some m') {j : Nat} {t : Task Key Call Ans Err Out}
    (ht : m'.tasks[j]? = some t) : m.tasks[j]? = some t ∨
      (∃ request, label = .spawn request ∧ j = m.tasks.length ∧ t = ⟨sys.entry request, none⟩ ∧
        m' = ⟨m.world, m.tasks ++ [t]⟩) ∨
      ∃ reply before, label = .step j reply ∧ m.tasks[j]? = some before ∧
        sys.stepTask m j reply before = some m' := by
  cases label with
  | spawn request =>
      cases h
      rw [List.getElem?_append] at ht
      split at ht
      · exact .inl ht
      · next hLe =>
          obtain ⟨hLast, rfl⟩ : j - m.tasks.length = 0 ∧ _ := by
            simpa [List.getElem?_singleton] using ht
          exact .inr (.inl ⟨request, rfl, by omega, rfl, rfl⟩)
  | step i reply =>
      obtain ⟨before, hBefore, hTask⟩ := Option.bind_eq_some_iff.mp h
      by_cases hMine : i = j
      · subst hMine
        exact .inr (.inr ⟨reply, before, rfl, hBefore, hTask⟩)
      · left
        obtain ⟨c, next, answer, world, -, -, rfl⟩ | ⟨key, next, -, -, rfl⟩ | ⟨next, -, rfl⟩ :=
          stepTask_cases hTask <;> rwa [List.getElem?_set_ne hMine] at ht

/-- A settled task is left as it is. -/
theorem task_of_step {m m' : Machine Key Call Ans Err Out World} {label : Label Reply Request}
    (h : sys.step m label = some m') {j : Nat} {t : Task Key Call Ans Err Out}
    {result : Except Err Out} (ht : m.tasks[j]? = some t) (hp : t.prog = .ret result) :
    m'.tasks[j]? = some t := by
  have hLt : j < m.tasks.length := (List.getElem?_eq_some_iff.mp ht).1
  cases label with
  | spawn request =>
      cases h
      rw [List.getElem?_append_left hLt, ht]
  | step i reply =>
      obtain ⟨ti, hti, hTask⟩ := Option.bind_eq_some_iff.mp h
      have hNe : i ≠ j := by
        rintro rfl
        obtain rfl := Option.some.inj (ht.symm.trans hti)
        simp [stepTask, hp] at hTask
      obtain ⟨c, next, answer, world, -, -, rfl⟩ | ⟨key, next, -, -, rfl⟩ | ⟨next, -, rfl⟩ :=
        stepTask_cases hTask <;> rw [List.getElem?_set_ne hNe, ht]

theorem task_of_reaches {m m' : Machine Key Call Ans Err Out World}
    (hRun : sys.Reaches allowed m m') {j : Nat} {t : Task Key Call Ans Err Out}
    {result : Except Err Out} (ht : m.tasks[j]? = some t) (hp : t.prog = .ret result) :
    m'.tasks[j]? = some t :=
  hRun.invariant (fun _ _ _ _ hStep hTask => task_of_step hStep hTask hp) ht

/-- A settled task stays settled. -/
theorem returned_of_step {m m' : Machine Key Call Ans Err Out World} {label : Label Reply Request}
    (h : sys.step m label = some m') {j : Nat} (hReturned : m.returned j = true) :
    m'.returned j = true := by
  obtain ⟨t, result, ht, hp⟩ := Machine.returned_iff.mp hReturned
  exact Machine.returned_iff.mpr ⟨t, result, task_of_step h ht hp, hp⟩

/-- A task that takes no locks and makes only calls of which `C` holds goes on to do so. -/
theorem only_of_step {C : Call → Prop} {R : Except Err Out → Prop}
    (hEntry : ∀ request, (sys.entry request).Only C R)
    {m m' : Machine Key Call Ans Err Out World} {label : Label Reply Request}
    (hOnly : ∀ t ∈ m.tasks, t.prog.Only C R) (hStep : sys.step m label = some m') :
    ∀ t ∈ m'.tasks, t.prog.Only C R := by
  cases label with
  | spawn request =>
      cases hStep
      intro t hMem
      rcases List.mem_append.mp hMem with hOld | hNew
      · exact hOnly t hOld
      · cases List.mem_singleton.mp hNew
        exact hEntry request
  | step i reply =>
      obtain ⟨ti, hti, hTask⟩ := Option.bind_eq_some_iff.mp hStep
      have hHere := hOnly ti (List.mem_of_getElem? hti)
      obtain ⟨c, next, answer, world, hp, -, rfl⟩ | ⟨key, next, hp, -, rfl⟩ | ⟨next, hp, rfl⟩ :=
        stepTask_cases hTask <;> rw [hp] at hHere
      · intro t hMem
        rcases List.mem_or_eq_of_mem_set hMem with hOld | rfl
        · exact hOnly t hOld
        · exact hHere.2 answer
      · exact hHere.elim
      · exact hHere.elim

/-- A computed run is a run. -/
theorem exists_reaches (sys : System Key Call Ans Err Out World Reply Request)
    (check : Machine Key Call Ans Err Out World → Label Reply Request → Bool)
    (start : Machine Key Call Ans Err Out World) (labels : List (Label Reply Request))
    (Q : Machine Key Call Ans Err Out World → Bool)
    (hRun : (sys.run check start labels).any Q = true) :
    ∃ finish, sys.Reaches (fun m label => check m label = true) start finish ∧ Q finish = true := by
  obtain ⟨finish, hFinish, hQ⟩ := (Option.any_eq_true _ _).mp hRun
  exact ⟨finish, reaches_of_run hFinish, hQ⟩

/-- A run that goes on from the state that another one has reached. -/
theorem exists_reaches_then (sys : System Key Call Ans Err Out World Reply Request)
    (check : Machine Key Call Ans Err Out World → Label Reply Request → Bool)
    (start : Machine Key Call Ans Err Out World) (labels labels' : List (Label Reply Request))
    (Q : Machine Key Call Ans Err Out World → Machine Key Call Ans Err Out World → Bool)
    (hRun : (sys.run check start labels).any
      (fun m => (sys.run check m labels').any fun m' => Q m m') = true) :
    ∃ m m', sys.Reaches (fun m label => check m label = true) start m ∧
      sys.Reaches (fun m label => check m label = true) m m' ∧ Q m m' = true := by
  obtain ⟨m, hFirst, hThen⟩ := (Option.any_eq_true _ _).mp hRun
  obtain ⟨m', hThen, hQ⟩ := (Option.any_eq_true _ _).mp hThen
  exact ⟨m, m', reaches_of_run hFirst, reaches_of_run hThen, hQ⟩

end System
end Async
