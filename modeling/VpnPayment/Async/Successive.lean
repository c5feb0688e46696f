import VpnPayment.Async.Sequential

/-! Requests served one after the other, together with a value that is brought up
to date whenever a request settles. -/
namespace Async

variable {Key Call : Type} {Ans : Call → Type} {Err Out World Reply Request Value α β : Type}

namespace Prog

variable (exec : Executor Call Ans Err World Reply)

/-- When the program runs alone, `P` holds until it settles, and then `Q` does. -/
def Until (P : World → Prop) (Q : Except Err α → World → Prop) :
    Prog Key Call Ans Err α → World → Prop
  | ret result, s => Q result s
  | call c next, s => P s ∧ ∀ reply answer s₁, exec c reply s = some (answer, s₁) →
      (next answer).Until P Q s₁
  | lock _ next, s => P s ∧ next.Until P Q s
  | unlock next, s => P s ∧ next.Until P Q s

variable {exec} {P : World → Prop} {s : World} {c : Call} {p : Prog Key Call Ans Err α}

/-- By induction on the first program. -/
theorem until_onReturn {f : Except Err α → Prog Key Call Ans Err β}
    {Q : Except Err β → World → Prop}
    (h : p.Until exec P (fun result s₁ => (f result).Until exec P Q s₁) s) :
    (p.onReturn f).Until exec P Q s := by
  induction p generalizing s with
  | ret result => exact h
  | call c next ih => exact ⟨h.1, fun reply answer s₁ hExec => ih answer (h.2 reply answer s₁ hExec)⟩
  | lock key next ih => exact ⟨h.1, ih h.2⟩
  | unlock next ih => exact ⟨h.1, ih h.2⟩

theorem until_bind {f : α → Prog Key Call Ans Err β} {Q : Except Err β → World → Prop}
    (h : p.Until exec P (fun result s₁ => (afterOk f result).Until exec P Q s₁) s) :
    (p >>= f).Until exec P Q s := by
  rw [bind_eq]
  exact until_onReturn h

theorem until_perform_bind {f : Ans c → Prog Key Call Ans Err β} {Q : Except Err β → World → Prop}
    (hHere : P s) (hRest : ∀ reply answer s₁, exec c reply s = some (answer, s₁) →
      (afterOk f answer).Until exec P Q s₁) :
    (perform c >>= f).Until exec P Q s :=
  ⟨hHere, hRest⟩

/-- A program that has not settled is at a point where `P` holds. -/
theorem until_here {Q : Except Err α → World → Prop} (h : p.Until exec P Q s)
    (hOpen : ∀ result, p ≠ .ret result) : P s := by
  cases p with
  | ret result => exact absurd rfl (hOpen result)
  | call c next => exact h.1
  | lock key next => exact h.1
  | unlock next => exact h.1

end Prog

/-- What the task that a label resumes has settled with. -/
def Machine.settles (m : Machine Key Call Ans Err Out World) :
    Label Reply Request → Option (Except Err Out)
  | .spawn _ => none
  | .step i _ => m.tasks[i]?.bind fun t => match t.prog with
      | .ret result => some result
      | _ => none

section folds

variable [DecidableEq Key] (sys : System Key Call Ans Err Out World Reply Request)
  (allowed : Machine Key Call Ans Err Out World → Label Reply Request → Prop)
  (update : Value → World → Except Err Out → Value)

/-- The value after a step: updated if a task has settled in it. -/
def System.updated (m : Machine Key Call Ans Err Out World) (label : Label Reply Request)
    (value : Value) : Value :=
  (m.settles label).elim value (update value m.world)

/-- Runs with the value that folds `update` over what the tasks settle with, in
the order in which they settle. -/
inductive System.Folds (start : Machine Key Call Ans Err Out World) (first : Value) :
    Machine Key Call Ans Err Out World → Value → Prop
  | refl : Folds start first start first
  | tail {m m' : Machine Key Call Ans Err Out World} {label : Label Reply Request} {value : Value}
      (prior : Folds start first m value) (hAllowed : allowed m label)
      (last : sys.step m label = some m') :
      Folds start first m' (System.updated update m' label value)

end folds

section soundness

open Prog

variable {sys : System Key Call Ans Err Out World Reply Request}
  {allowed : Machine Key Call Ans Err Out World → Label Reply Request → Prop}
  {update : Value → World → Except Err Out → Value} {inv : Value → World → Prop}
  {exec : Nat → Executor Call Ans Err World Reply}
  {start m m' : Machine Key Call Ans Err Out World} {first value : Value}

/-- Every task but one has settled, and that one keeps the invariant until it
settles and updates the value. -/
structure Successive (exec : Nat → Executor Call Ans Err World Reply)
    (update : Value → World → Except Err Out → Value) (inv : Value → World → Prop)
    (m : Machine Key Call Ans Err Out World) (value : Value) : Prop where
  holds : inv value m.world
  keeps : ∀ (i : Nat) (t : Task Key Call Ans Err Out), m.tasks[i]? = some t →
    (∀ result, t.prog ≠ .ret result) →
    t.prog.Until (exec i) (inv value) (fun result s => inv (update value s result) s) m.world
  single : ∀ (i j : Nat) (ti tj : Task Key Call Ans Err Out), m.tasks[i]? = some ti →
    m.tasks[j]? = some tj → (∀ result, ti.prog ≠ .ret result) →
    (∀ result, tj.prog ≠ .ret result) → i = j

theorem successive_start {s : World} (hInv : inv value s) :
    Successive exec update inv (Machine.start s : Machine Key Call Ans Err Out World) value where
  holds := hInv
  keeps i t ht := by simp [Machine.start] at ht
  single i j ti tj hi := by simp [Machine.start] at hi

/-- The only open task has moved. -/
theorem Successive.replace {i : Nat} {t t' : Task Key Call Ans Err Out} {s : World}
    {reply : Reply} (h : Successive exec update inv m value) (ht : m.tasks[i]? = some t)
    (hOpen : ∀ result, t.prog ≠ .ret result)
    (hKeeps : t'.prog.Until (exec i) (inv value) (fun result s => inv (update value s result) s) s) :
    Successive exec update inv ⟨s, m.tasks.set i t'⟩ (System.updated update
      ⟨s, m.tasks.set i t'⟩ (.step i reply : Label Reply Request) value) := by
  have hLt : i < m.tasks.length := (List.getElem?_eq_some_iff.mp ht).1
  have hSelf : (m.tasks.set i t')[i]? = some t' := by simp [hLt]
  -- any other task has settled
  have hOnly : ∀ (j : Nat) (tj : Task Key Call Ans Err Out), (m.tasks.set i t')[j]? = some tj →
      (∀ result, tj.prog ≠ .ret result) → j = i := by
    intro j tj hj hjOpen
    by_cases hEq : j = i
    · exact hEq
    · rw [List.getElem?_set_ne (Ne.symm hEq)] at hj
      exact h.single j i tj t hj ht hjOpen hOpen
  have hSingle : ∀ (j k : Nat) (tj tk : Task Key Call Ans Err Out),
      (m.tasks.set i t')[j]? = some tj → (m.tasks.set i t')[k]? = some tk →
      (∀ result, tj.prog ≠ .ret result) → (∀ result, tk.prog ≠ .ret result) → j = k := by
    intro j k tj tk hj hk hjOpen hkOpen
    exact (hOnly j tj hj hjOpen).trans (hOnly k tk hk hkOpen).symm
  have hValue : System.updated update ⟨s, m.tasks.set i t'⟩
      (.step i reply : Label Reply Request) value = match t'.prog with
        | .ret result => update value s result
        | _ => value := by
    simp only [System.updated, Machine.settles, hSelf, Option.bind_some]
    cases t'.prog <;> rfl
  rw [hValue]
  cases hp : t'.prog with
  | ret result =>
      rw [hp] at hKeeps
      refine ⟨hKeeps, fun j tj hj hjOpen => ?_, hSingle⟩
      obtain rfl := hOnly j tj hj hjOpen
      obtain rfl := Option.some.inj (hj.symm.trans hSelf)
      exact absurd hp (hjOpen result)
  | _ =>
      refine ⟨until_here hKeeps (by simp [hp]), fun j tj hj hjOpen => ?_, hSingle⟩
      obtain rfl := hOnly j tj hj hjOpen
      obtain rfl := Option.some.inj (hj.symm.trans hSelf)
      exact hKeeps

/-- If every request that is served keeps the invariant until it settles, and
updates the value as it settles, then the invariant holds in every state of a run
without overlap. -/
theorem Successive.run [DecidableEq Key]
    (hSettled : ∀ m request, allowed m (.spawn request) → m.settled = true)
    (hEntry : ∀ (m : Machine Key Call Ans Err Out World) request value,
      allowed m (.spawn request) → inv value m.world → ∀ i, (sys.entry request).Until (exec i)
        (inv value) (fun result s => inv (update value s result) s) m.world)
    (hExec : ∀ (m : Machine Key Call Ans Err Out World) i reply c,
      allowed m (.step i reply) → m.nextCall i = some c →
      sys.exec i c reply m.world = exec i c reply m.world)
    (hStart : Successive exec update inv start first)
    (hRun : sys.Folds allowed update start first m value) :
    Successive exec update inv m value := by
  induction hRun with
  | refl => exact hStart
  | @tail m m' label value prior hAllowed hStep ih =>
      cases label with
      | spawn request =>
          obtain rfl : ⟨m.world, m.tasks ++ [⟨sys.entry request, none⟩]⟩ = m' := by
            simpa [System.step] using hStep
          have hNew : ∀ (j : Nat) (tj : Task Key Call Ans Err Out),
              (m.tasks ++ [⟨sys.entry request, none⟩])[j]? = some tj →
              (∀ result, tj.prog ≠ .ret result) →
              j = m.tasks.length ∧ tj = ⟨sys.entry request, none⟩ := by
            intro j tj hj hjOpen
            rw [List.getElem?_append] at hj
            split at hj
            · obtain ⟨result, hRet⟩ := Machine.ret_of_settled (hSettled m request hAllowed)
                (List.mem_of_getElem? hj)
              exact absurd hRet (hjOpen result)
            · next hLe =>
                obtain ⟨hIndex, hEq⟩ := List.getElem?_eq_some_iff.mp hj
                simp only [List.length_singleton] at hIndex
                exact ⟨by omega, by simpa using hEq.symm⟩
          refine ⟨ih.holds, fun j tj hj hjOpen => ?_, fun j k tj tk hj hk hjOpen hkOpen => ?_⟩
          · obtain ⟨-, rfl⟩ := hNew j tj hj hjOpen
            exact hEntry m request value hAllowed ih.holds j
          · exact (hNew j tj hj hjOpen).1.trans (hNew k tk hk hkOpen).1.symm
      | step i reply =>
          obtain ⟨t, ht, hTask⟩ := Option.bind_eq_some_iff.mp hStep
          obtain ⟨c, next, answer, s, hp, hCall, rfl⟩ | ⟨key, next, hp, -, rfl⟩ |
            ⟨next, hp, rfl⟩ := System.stepTask_cases hTask
          · have hOpen : ∀ result, t.prog ≠ .ret result := by simp [hp]
            have hKeeps := ih.keeps i t ht hOpen
            rw [hp] at hKeeps
            rw [hExec m i reply c hAllowed (by simp [Machine.nextCall, ht, hp])] at hCall
            exact ih.replace ht hOpen (hKeeps.2 reply answer s hCall)
          · have hOpen : ∀ result, t.prog ≠ .ret result := by simp [hp]
            have hKeeps := ih.keeps i t ht hOpen
            rw [hp] at hKeeps
            exact ih.replace ht hOpen hKeeps.2
          · have hOpen : ∀ result, t.prog ≠ .ret result := by simp [hp]
            have hKeeps := ih.keeps i t ht hOpen
            rw [hp] at hKeeps
            exact ih.replace ht hOpen hKeeps.2

end soundness

/-- A computed run is one with its value. -/
theorem System.exists_folds [DecidableEq Key]
    (sys : System Key Call Ans Err Out World Reply Request)
    (check : Machine Key Call Ans Err Out World → Label Reply Request → Bool)
    (update : Value → World → Except Err Out → Value)
    {start finish : Machine Key Call Ans Err Out World} (first : Value)
    (hRun : sys.Reaches (fun m label => check m label = true) start finish) :
    ∃ value, sys.Folds (fun m label => check m label = true) update start first finish value := by
  induction hRun with
  | refl => exact ⟨first, .refl⟩
  | tail _ hAllowed last ih =>
      obtain ⟨value, hFolds⟩ := ih
      exact ⟨_, hFolds.tail hAllowed last⟩

end Async
