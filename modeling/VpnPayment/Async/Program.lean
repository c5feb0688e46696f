import Mathlib.Logic.Basic

/-! Asynchronous functions as trees of awaited calls. A program is plain data:
the code between two awaits is the continuation of the earlier one, so a task
can be suspended at every await and nowhere else. -/
namespace Async

/-- An asynchronous function. It has settled with a value or a rejection, it
awaits one call and continues with whatever the call settles to, or it enters
or leaves the critical section of a key. -/
inductive Prog (Key Call : Type) (Ans : Call → Type) (Err α : Type) : Type
  | ret (result : Except Err α)
  | call (c : Call) (next : Except Err (Ans c) → Prog Key Call Ans Err α)
  | lock (key : Key) (next : Prog Key Call Ans Err α)
  | unlock (next : Prog Key Call Ans Err α)

namespace Prog

variable {Key Call : Type} {Ans : Call → Type} {Err α β : Type}

/-- Continue with `f` once the program has settled, either way. -/
def onReturn (p : Prog Key Call Ans Err α)
    (f : Except Err α → Prog Key Call Ans Err β) : Prog Key Call Ans Err β :=
  match p with
  | ret result => f result
  | call c next => call c fun answer => (next answer).onReturn f
  | lock key next => lock key (next.onReturn f)
  | unlock next => unlock (next.onReturn f)

/-- What `await` does with a settled promise: a rejection is rethrown. -/
def afterOk (f : α → Prog Key Call Ans Err β) : Except Err α → Prog Key Call Ans Err β
  | .ok value => f value
  | .error e => ret (.error e)

/-- The `catch` clause of a `try` statement. -/
def afterError (handler : Err → Prog Key Call Ans Err α) : Except Err α → Prog Key Call Ans Err α
  | .ok value => ret (.ok value)
  | .error e => handler e

instance : Monad (Prog Key Call Ans Err) where
  pure value := ret (.ok value)
  bind p f := p.onReturn (afterOk f)

instance : MonadExceptOf Err (Prog Key Call Ans Err) where
  throw e := ret (.error e)
  tryCatch p handler := p.onReturn (afterError handler)

/-- Await a single call. -/
def perform (c : Call) : Prog Key Call Ans Err (Ans c) :=
  call c ret

/-- Synchronous code that may throw. -/
def ofExcept (result : Except Err α) : Prog Key Call Ans Err α :=
  ret result

/-- Run `p` inside the critical section of `key`. The section is left whether
`p` returns or throws, as a `finally` clause does. -/
def withLock (key : Key) (p : Prog Key Call Ans Err α) : Prog Key Call Ans Err α :=
  lock key (p.onReturn fun result => unlock (ret result))

/-- The program with its calls made as calls of another kind. -/
def embed {Call' : Type} {Ans' : Call' → Type} (inject : Call → Call')
    (back : ∀ c, Ans' (inject c) → Ans c) : Prog Key Call Ans Err α → Prog Key Call' Ans' Err α
  | ret result => ret result
  | call c next => call (inject c) fun
      | .ok answer => (next (.ok (back c answer))).embed inject back
      | .error e => (next (.error e)).embed inject back
  | lock key next => lock key (next.embed inject back)
  | unlock next => unlock (next.embed inject back)

/-- The program takes no locks, makes only calls of which `C` holds, and settles
only with results of which `R` holds. -/
def Only (C : Call → Prop) (R : Except Err α → Prop) : Prog Key Call Ans Err α → Prop
  | ret result => R result
  | call c next => C c ∧ ∀ answer, (next answer).Only C R
  | lock _ _ => False
  | unlock _ => False

/-- A program may be held to less. -/
theorem only_mono {C C' : Call → Prop} {R R' : Except Err α → Prop} {p : Prog Key Call Ans Err α}
    (hCall : ∀ c, C c → C' c) (hResult : ∀ result, R result → R' result) (h : p.Only C R) :
    p.Only C' R' := by
  induction p with
  | ret result => exact hResult result h
  | call c next ih => exact ⟨hCall c h.1, fun answer => ih answer (h.2 answer)⟩
  | lock key next ih => exact h.elim
  | unlock next ih => exact h.elim

/-- A continuation that keeps to the calls as well. -/
theorem only_onReturn {C : Call → Prop} {R : Except Err α → Prop} {R' : Except Err β → Prop}
    {p : Prog Key Call Ans Err α} {f : Except Err α → Prog Key Call Ans Err β}
    (h : p.Only C R) (hThen : ∀ result, R result → (f result).Only C R') :
    (p.onReturn f).Only C R' := by
  induction p with
  | ret result => exact hThen result h
  | call c next ih => exact ⟨h.1, fun answer => ih answer (h.2 answer)⟩
  | lock key next ih => exact h.elim
  | unlock next ih => exact h.elim

/-- Both programs keep to the calls. -/
theorem only_bind {C : Call → Prop} {p : Prog Key Call Ans Err α} {f : α → Prog Key Call Ans Err β}
    (h : p.Only C fun _ => True) (hThen : ∀ a, (f a).Only C fun _ => True) :
    (p >>= f).Only C fun _ => True := by
  refine only_onReturn h ?_
  rintro (e | a) -
  · exact trivial
  · exact hThen a

/-- A call followed by the rest of the program. -/
theorem only_then {C : Call → Prop} {c : Call} {f : Ans c → Prog Key Call Ans Err β} (hCall : C c)
    (hThen : ∀ a, (f a).Only C fun _ => True) : (perform c >>= f).Only C fun _ => True :=
  only_bind ⟨hCall, fun _ => trivial⟩ hThen

theorem only_ofExcept {C : Call → Prop} {result : Except Err α} {f : α → Prog Key Call Ans Err β}
    (hThen : ∀ a, (f a).Only C fun _ => True) : (ofExcept result >>= f).Only C fun _ => True :=
  only_bind trivial hThen

/-- A caught program and its handler keep to the calls. -/
theorem only_tryCatch {C : Call → Prop} {p : Prog Key Call Ans Err α}
    {handler : Err → Prog Key Call Ans Err α} (h : p.Only C fun _ => True)
    (hHandler : ∀ e, (handler e).Only C fun _ => True) :
    (tryCatch p handler).Only C fun _ => True := by
  refine only_onReturn h ?_
  rintro (e | a) -
  · exact hHandler e
  · exact trivial

section calls

variable {C C' : Call → Prop} {p : Prog Key Call Ans Err α} {f : α → Prog Key Call Ans Err β}

/-- The program makes only calls of which `C` holds, whatever they settle to. -/
def Calls (C : Call → Prop) : Prog Key Call Ans Err α → Prop
  | ret _ => True
  | call c next => C c ∧ ∀ answer, (next answer).Calls C
  | lock _ next => next.Calls C
  | unlock next => next.Calls C

/-- More calls may be allowed. -/
theorem calls_mono (hCall : ∀ c, C c → C' c) (h : p.Calls C) : p.Calls C' := by
  induction p with
  | ret result => trivial
  | call c next ih => exact ⟨hCall c h.1, fun answer => ih answer (h.2 answer)⟩
  | lock key next ih => exact ih h
  | unlock next ih => exact ih h

/-- A program without locks makes the calls it makes. -/
theorem calls_of_only {R : Except Err α → Prop} (h : p.Only C R) : p.Calls C := by
  induction p with
  | ret result => trivial
  | call c next ih => exact ⟨h.1, fun answer => ih answer (h.2 answer)⟩
  | lock key next ih => exact h.elim
  | unlock next ih => exact h.elim

/-- The calls of a program, then those of its continuation. -/
theorem calls_onReturn {f : Except Err α → Prog Key Call Ans Err β} (h : p.Calls C)
    (hThen : ∀ result, (f result).Calls C) : (p.onReturn f).Calls C := by
  induction p with
  | ret result => exact hThen result
  | call c next ih => exact ⟨h.1, fun answer => ih answer (h.2 answer)⟩
  | lock key next ih => exact ih h
  | unlock next ih => exact ih h

theorem calls_bind (h : p.Calls C) (hThen : ∀ a, (f a).Calls C) : (p >>= f).Calls C := by
  apply calls_onReturn h
  intro result
  cases result with
  | ok a => exact hThen a
  | error e => trivial

theorem calls_perform {c : Call} (hCall : C c) :
    (perform c : Prog Key Call Ans Err (Ans c)).Calls C :=
  ⟨hCall, fun _ => trivial⟩

theorem calls_ofExcept {result : Except Err α} (hThen : ∀ a, (f a).Calls C) :
    (ofExcept result >>= f).Calls C :=
  calls_bind trivial hThen

theorem calls_tryCatch {handler : Err → Prog Key Call Ans Err α} (h : p.Calls C)
    (hHandler : ∀ e, (handler e).Calls C) : (tryCatch p handler).Calls C := by
  apply calls_onReturn h
  intro result
  cases result with
  | ok a => trivial
  | error e => exact hHandler e

/-- Locking makes no call. -/
theorem calls_withLock {key : Key} (h : p.Calls C) : (withLock key p).Calls C :=
  calls_onReturn h fun _ => trivial

end calls

theorem pure_eq (value : α) : (pure value : Prog Key Call Ans Err α) = ret (.ok value) := rfl

theorem throw_eq (e : Err) : (throw e : Prog Key Call Ans Err α) = ret (.error e) := rfl

theorem bind_eq (p : Prog Key Call Ans Err α) (f : α → Prog Key Call Ans Err β) :
    (p >>= f) = p.onReturn (afterOk f) := rfl

theorem tryCatch_eq (p : Prog Key Call Ans Err α) (handler : Err → Prog Key Call Ans Err α) :
    (tryCatch p handler) = p.onReturn (afterError handler) := rfl

/-- Nothing is awaited before the second program. -/
@[simp] theorem pure_bind (value : α) (f : α → Prog Key Call Ans Err β) :
    ((pure value : Prog Key Call Ans Err α) >>= f) = f value := rfl

/-- An error skips the second program. -/
@[simp] theorem throw_bind (e : Err) (f : α → Prog Key Call Ans Err β) :
    ((throw e : Prog Key Call Ans Err α) >>= f) = ret (.error e) := rfl

@[simp] theorem ofExcept_ok_bind (value : α) (f : α → Prog Key Call Ans Err β) :
    (ofExcept (.ok value) >>= f) = f value := rfl

@[simp] theorem ofExcept_error_bind (e : Err) (f : α → Prog Key Call Ans Err β) :
    (ofExcept (.error e) >>= f) = ret (.error e) := rfl

end Prog
end Async
