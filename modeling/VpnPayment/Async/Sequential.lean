import VpnPayment.Async.Machine

/-! Programs that run alone, and systems that serve one request at a time. -/
namespace Async

variable {Key Call : Type} {Ans : Call → Type} {Err Out World Reply Request α β : Type}

/-- How calls settle for a program that runs alone. -/
abbrev Executor (Call : Type) (Ans : Call → Type) (Err World Reply : Type) :=
  (c : Call) → Reply → World → Option (Except Err (Ans c) × World)

namespace Prog

variable (exec : Executor Call Ans Err World Reply)

/-- The program settles with `result` when it runs alone. -/
def RunsTo : Prog Key Call Ans Err α → World → Except Err α → World → Prop
  | ret settled, s, result, s' => result = settled ∧ s' = s
  | call c next, s, result, s' => ∃ reply answer s₁,
      exec c reply s = some (answer, s₁) ∧ (next answer).RunsTo s₁ result s'
  | lock _ next, s, result, s' => next.RunsTo s result s'
  | unlock next, s, result, s' => next.RunsTo s result s'

/-- When the program runs alone, `C` holds of every call it makes, `I` after every
call, and `Q` when it has settled. -/
def Always (I : World → Prop) (C : Call → World → Prop) (Q : Except Err α → World → Prop) :
    Prog Key Call Ans Err α → World → Prop
  | ret result, s => Q result s
  | call c next, s => C c s ∧ ∀ reply answer s₁, exec c reply s = some (answer, s₁) →
      I s₁ ∧ (next answer).Always I C Q s₁
  | lock _ next, s => next.Always I C Q s
  | unlock next, s => next.Always I C Q s

/-- How the program ends when it runs alone and the calls are answered by `reply`. -/
def outcome (reply : Call → World → Reply) :
    Prog Key Call Ans Err α → World → Option (Except Err α × World)
  | ret result, s => some (result, s)
  | call c next, s => (exec c (reply c s) s).bind fun out => (next out.1).outcome reply out.2
  | lock _ next, s => next.outcome reply s
  | unlock next, s => next.outcome reply s

variable {exec} {I : World → Prop} {C : Call → World → Prop} {s s' : World} {c : Call} {p : Prog Key Call Ans Err α}
  {f : α → Prog Key Call Ans Err β} {Q R : Except Err α → World → Prop}

section runs

@[simp] theorem runsTo_ret {settled result : Except Err α} :
    (ret settled : Prog Key Call Ans Err α).RunsTo exec s result s' ↔ result = settled ∧ s' = s :=
  .rfl

@[simp] theorem runsTo_pure {value : α} {result : Except Err α} :
    (pure value : Prog Key Call Ans Err α).RunsTo exec s result s' ↔ result = .ok value ∧ s' = s :=
  .rfl

@[simp] theorem runsTo_throw {e : Err} {result : Except Err α} :
    (throw e : Prog Key Call Ans Err α).RunsTo exec s result s' ↔ result = .error e ∧ s' = s :=
  .rfl

/-- A call runs to what the outside answers. -/
theorem runsTo_perform {answer : Except Err (Ans c)} :
    (perform c : Prog Key Call Ans Err (Ans c)).RunsTo exec s answer s' ↔
      ∃ reply, exec c reply s = some (answer, s') := by
  constructor
  · rintro ⟨reply, answer', s₁, hExec, rfl, rfl⟩
    exact ⟨reply, hExec⟩
  · rintro ⟨reply, hExec⟩
    exact ⟨reply, answer, s', hExec, rfl, rfl⟩

/-- By induction on the first program. -/
theorem runsTo_onReturn {f : Except Err α → Prog Key Call Ans Err β} {result : Except Err β} :
    (p.onReturn f).RunsTo exec s result s' ↔
      ∃ first s₁, p.RunsTo exec s first s₁ ∧ (f first).RunsTo exec s₁ result s' := by
  induction p generalizing s with
  | ret settled => exact ⟨fun h => ⟨settled, s, ⟨rfl, rfl⟩, h⟩, fun ⟨_, _, ⟨rfl, rfl⟩, h⟩ => h⟩
  | call c next ih =>
      constructor
      · rintro ⟨reply, answer, s₁, hExec, hRest⟩
        obtain ⟨first, s₂, hFirst, hThen⟩ := (ih answer).mp hRest
        exact ⟨first, s₂, ⟨reply, answer, s₁, hExec, hFirst⟩, hThen⟩
      · rintro ⟨first, s₂, ⟨reply, answer, s₁, hExec, hFirst⟩, hThen⟩
        exact ⟨reply, answer, s₁, hExec, (ih answer).mpr ⟨first, s₂, hFirst, hThen⟩⟩
  | lock key next ih => exact ih
  | unlock next ih => exact ih

/-- Both programs run, or the first one fails. -/
theorem runsTo_bind {result : Except Err β} :
    (p >>= f).RunsTo exec s result s' ↔
      (∃ a s₁, p.RunsTo exec s (.ok a) s₁ ∧ (f a).RunsTo exec s₁ result s') ∨
      ∃ e, p.RunsTo exec s (.error e) s' ∧ result = .error e := by
  rw [bind_eq, runsTo_onReturn]
  constructor
  · rintro ⟨first, s₁, hFirst, hThen⟩
    cases first with
    | ok a => exact .inl ⟨a, s₁, hFirst, hThen⟩
    | error e =>
        obtain ⟨rfl, rfl⟩ := hThen
        exact .inr ⟨e, hFirst, rfl⟩
  · rintro (⟨a, s₁, hFirst, hThen⟩ | ⟨e, hFirst, rfl⟩)
    · exact ⟨.ok a, s₁, hFirst, hThen⟩
    · exact ⟨.error e, s', hFirst, rfl, rfl⟩

theorem runsTo_ok_bind {a : α} {s₁ : World} {result : Except Err β}
    (hFirst : p.RunsTo exec s (.ok a) s₁) (hThen : (f a).RunsTo exec s₁ result s') :
    (p >>= f).RunsTo exec s result s' :=
  runsTo_bind.mpr (.inl ⟨a, s₁, hFirst, hThen⟩)

/-- Alone, a program enters any critical section at once. -/
theorem runsTo_withLock {key : Key} {result : Except Err α} :
    (withLock key p).RunsTo exec s result s' ↔ p.RunsTo exec s result s' := by
  show (p.onReturn fun settled => unlock (ret settled)).RunsTo exec s result s' ↔ _
  rw [runsTo_onReturn]
  constructor
  · rintro ⟨first, s₁, hFirst, rfl, rfl⟩
    exact hFirst
  · exact fun hFirst => ⟨result, s', hFirst, rfl, rfl⟩

/-- A program runs the same from a state that its calls do not tell apart from the first,
and ends in such a state again. -/
theorem runsTo_of_similar {World' : Type} {exec' : Executor Call Ans Err World' Reply}
    {Similar : World → World' → Prop} {C : Call → Prop}
    (hExec : ∀ c reply s answer s₁ t, C c → Similar s t → exec c reply s = some (answer, s₁) →
      ∃ t₁, exec' c reply t = some (answer, t₁) ∧ Similar s₁ t₁)
    (hCalls : p.Calls C) {t : World'} (hSimilar : Similar s t) {result : Except Err α}
    (hRun : p.RunsTo exec s result s') : ∃ t', p.RunsTo exec' t result t' ∧ Similar s' t' := by
  induction p generalizing s t with
  | ret settled =>
      obtain ⟨rfl, rfl⟩ := hRun
      exact ⟨t, ⟨rfl, rfl⟩, hSimilar⟩
  | call c next ih =>
      obtain ⟨reply, answer, s₁, hFirst, hRest⟩ := hRun
      obtain ⟨t₁, hFirst', hSimilar₁⟩ := hExec c reply s answer s₁ t hCalls.1 hSimilar hFirst
      obtain ⟨t', hRest', hSimilar'⟩ := ih answer (hCalls.2 answer) hSimilar₁ hRest
      exact ⟨t', ⟨reply, answer, t₁, hFirst', hRest'⟩, hSimilar'⟩
  | lock key next ih => exact ih hCalls hSimilar hRun
  | unlock next ih => exact ih hCalls hSimilar hRun

/-- Where the environment has no choice a program has one run. -/
theorem runsTo_unique (hExec : ∀ c reply reply' s, exec c reply s = exec c reply' s)
    {result result' : Except Err α} {s₁ s₂ : World} (h : p.RunsTo exec s result s₁)
    (h' : p.RunsTo exec s result' s₂) : result = result' ∧ s₁ = s₂ := by
  induction p generalizing s with
  | ret settled => exact ⟨h.1.trans h'.1.symm, h.2.trans h'.2.symm⟩
  | call c next ih =>
      obtain ⟨reply, answer, s₃, hFirst, hRest⟩ := h
      obtain ⟨reply', answer', s₄, hFirst', hRest'⟩ := h'
      rw [hExec c reply reply', hFirst'] at hFirst
      cases hFirst
      exact ih answer hRest hRest'
  | lock key next ih => exact ih h h'
  | unlock next ih => exact ih h h'

end runs

section always

/-- A program may be held to less. -/
theorem always_mono (hImp : ∀ result s, Q result s → R result s) (h : p.Always exec I C Q s) :
    p.Always exec I C R s := by
  induction p generalizing s with
  | ret result => exact hImp _ _ h
  | call c next ih =>
      refine ⟨h.1, fun reply answer s₁ hExec => ?_⟩
      exact ⟨(h.2 reply answer s₁ hExec).1, ih answer (h.2 reply answer s₁ hExec).2⟩
  | lock key next ih => exact ih h
  | unlock next ih => exact ih h

/-- The continuation goes on from where the program has ended. -/
theorem always_onReturn {f : Except Err α → Prog Key Call Ans Err β}
    {Q : Except Err β → World → Prop}
    (h : p.Always exec I C (fun result s₁ => (f result).Always exec I C Q s₁) s) :
    (p.onReturn f).Always exec I C Q s := by
  induction p generalizing s with
  | ret result => exact h
  | call c next ih =>
      refine ⟨h.1, fun reply answer s₁ hExec => ?_⟩
      exact ⟨(h.2 reply answer s₁ hExec).1, ih answer (h.2 reply answer s₁ hExec).2⟩
  | lock key next ih => exact ih h
  | unlock next ih => exact ih h

/-- A call followed by the rest of the program. -/
theorem always_perform_bind {f : Ans c → Prog Key Call Ans Err β} {Q : Except Err β → World → Prop}
    (hCall : C c s) (hRest : ∀ reply answer s₁, exec c reply s = some (answer, s₁) →
      I s₁ ∧ (afterOk f answer).Always exec I C Q s₁) :
    (perform c >>= f).Always exec I C Q s :=
  ⟨hCall, hRest⟩

/-- A program that makes its calls as calls of another kind. -/
theorem always_embed {Call' : Type} {Ans' : Call' → Type} {inject : Call' → Call}
    {back : ∀ c, Ans (inject c) → Ans' c} {c : Call'}
    {next : Except Err (Ans' c) → Prog Key Call' Ans' Err α} (hCall : C (inject c) s)
    (hOk : ∀ reply a s₁, exec (inject c) reply s = some (.ok a, s₁) →
      I s₁ ∧ ((next (.ok (back c a))).embed inject back).Always exec I C Q s₁)
    (hError : ∀ reply e s₁, exec (inject c) reply s = some (.error e, s₁) →
      I s₁ ∧ ((next (.error e)).embed inject back).Always exec I C Q s₁) :
    ((call c next).embed inject back).Always exec I C Q s := by
  rw [embed]
  refine ⟨hCall, fun reply answer s₁ hExec => ?_⟩
  cases answer with
  | ok a => exact hOk reply a s₁ hExec
  | error e => exact hError reply e s₁ hExec

/-- Sequential composition, when nothing but the invariant is needed in between. -/
theorem always_bind {Q : Except Err β → World → Prop} (hInv : I s)
    (hFirst : p.Always exec I C (fun _ _ => True) s)
    (hOk : ∀ a s', I s' → (f a).Always exec I C Q s') (hError : ∀ e s', I s' → Q (.error e) s') :
    (p >>= f).Always exec I C Q s := by
  rw [bind_eq]
  induction p generalizing s with
  | ret result =>
      cases result with
      | ok a => exact hOk a s hInv
      | error e => exact hError e s hInv
  | call c next ih =>
      refine ⟨hFirst.1, fun reply answer s₁ hExec => ?_⟩
      obtain ⟨hInv₁, hNext⟩ := hFirst.2 reply answer s₁ hExec
      exact ⟨hInv₁, ih answer hInv₁ hNext⟩
  | lock key next ih => exact ih hInv hFirst
  | unlock next ih => exact ih hInv hFirst

end always

section ends

variable (exec) in
/-- However the program runs alone, it ends in `Q`. -/
abbrev Ends (Q : Except Err α → World → Prop) (p : Prog Key Call Ans Err α) (s : World) : Prop :=
  p.Always exec (fun _ => True) (fun _ _ => True) Q s

/-- All ends of a program are the ends of its runs. -/
theorem ends_iff_runsTo : p.Ends exec Q s ↔ ∀ result s', p.RunsTo exec s result s' → Q result s' := by
  induction p generalizing s with
  | ret settled => exact ⟨fun h result s' ⟨hResult, hState⟩ => hResult ▸ hState ▸ h, fun h => h _ _ ⟨rfl, rfl⟩⟩
  | call c next ih =>
      constructor
      · rintro ⟨-, h⟩ result s' ⟨reply, answer, s₁, hExec, hRest⟩
        exact (ih answer).mp (h reply answer s₁ hExec).2 result s' hRest
      · refine fun h => ⟨trivial, fun reply answer s₁ hExec => ⟨trivial, (ih answer).mpr ?_⟩⟩
        exact fun result s' hRest => h result s' ⟨reply, answer, s₁, hExec, hRest⟩
  | lock key next ih => exact ih
  | unlock next ih => exact ih

/-- What every call keeps holds when the program has settled. -/
theorem ends_of_kept {J : World → Prop}
    (hExec : ∀ c reply answer s s₁, J s → exec c reply s = some (answer, s₁) → J s₁)
    (p : Prog Key Call Ans Err α) (h : J s) : p.Ends exec (fun _ => J) s := by
  induction p generalizing s with
  | ret settled => exact h
  | call c next ih =>
      exact ⟨trivial, fun reply answer s₁ hSome => ⟨trivial, ih answer (hExec c reply answer s s₁ h hSome)⟩⟩
  | lock key next ih => exact ih h
  | unlock next ih => exact ih h

/-- A computed run is a run. -/
theorem runsTo_of_outcome {reply : Call → World → Reply} {result : Except Err α}
    (h : p.outcome exec reply s = some (result, s')) : p.RunsTo exec s result s' := by
  induction p generalizing s with
  | ret settled =>
      cases h
      exact ⟨rfl, rfl⟩
  | call c next ih =>
      obtain ⟨⟨answer, s₁⟩, hExec, hRest⟩ := Option.bind_eq_some_iff.mp h
      exact ⟨reply c s, answer, s₁, hExec, ih answer hRest⟩
  | lock key next ih => exact ih h
  | unlock next ih => exact ih h

theorem ends_mono (hImp : ∀ result s, Q result s → R result s) (h : p.Ends exec Q s) :
    p.Ends exec R s :=
  always_mono hImp h

/-- The second program goes on from an answer, an error is passed on. -/
theorem ends_bind {Q : Except Err β → World → Prop} (h : p.Ends exec R s)
    (hOk : ∀ a s₁, R (.ok a) s₁ → (f a).Ends exec Q s₁)
    (hError : ∀ e s₁, R (.error e) s₁ → Q (.error e) s₁) : (p >>= f).Ends exec Q s := by
  refine always_onReturn (always_mono ?_ h)
  rintro (e | a) s₁ hFirst
  · exact hError e s₁ hFirst
  · exact hOk a s₁ hFirst

/-- A call that can only settle in one way. -/
theorem ends_determined {f : Ans c → Prog Key Call Ans Err α} {answer : Except Err (Ans c)} {s₁ : World}
    (hExec : ∀ reply, exec c reply s = some (answer, s₁)) (hRest : (afterOk f answer).Ends exec Q s₁) :
    (perform c >>= f).Ends exec Q s := by
  refine ⟨trivial, fun reply answer' s₂ hSome => ⟨trivial, ?_⟩⟩
  rw [hExec reply] at hSome
  cases hSome
  exact hRest

/-- The handler goes on from an error. -/
theorem ends_tryCatch {handler : Err → Prog Key Call Ans Err α} (h : p.Ends exec R s)
    (hOk : ∀ a s₁, R (.ok a) s₁ → Q (.ok a) s₁)
    (hError : ∀ e s₁, R (.error e) s₁ → (handler e).Ends exec Q s₁) :
    (tryCatch p handler).Ends exec Q s := by
  refine always_onReturn (always_mono ?_ h)
  rintro (e | a) s₁ hFirst
  · exact hError e s₁ hFirst
  · exact hOk a s₁ hFirst

theorem ends_withLock {key : Key} (h : p.Ends exec Q s) : (withLock key p).Ends exec Q s :=
  always_onReturn h

theorem ends_ofExcept {result : Except Err β} {f : β → Prog Key Call Ans Err α}
    (hOk : ∀ b, result = .ok b → (f b).Ends exec Q s) (hError : ∀ e, result = .error e → Q (.error e) s) :
    (ofExcept result >>= f).Ends exec Q s := by
  cases result with
  | ok b => exact hOk b rfl
  | error e => exact hError e rfl

end ends
end Prog

section soundness

open Prog

variable {sys : System Key Call Ans Err Out World Reply Request}
  {m m' : Machine Key Call Ans Err Out World} {I : World → Prop} {C : Call → World → Prop}

/-- A system that serves one request at a time: the invariant holds, the request in
flight keeps it if it runs alone from here on and ends in `R`, and `R` holds while
no request is served. -/
structure Serial (exec : Nat → Executor Call Ans Err World Reply) (I : World → Prop)
    (C : Call → World → Prop) (R : World → Prop) (m : Machine Key Call Ans Err Out World) : Prop where
  inv : I m.world
  keeps : ∀ (i : Nat) (t : Task Key Call Ans Err Out), m.tasks[i]? = some t →
    (∀ result, t.prog ≠ .ret result) → t.prog.Always (exec i) I C (fun _ s => R s) m.world
  rest : m.settled = true → R m.world
  single : ∀ (i j : Nat) (ti tj : Task Key Call Ans Err Out), m.tasks[i]? = some ti → m.tasks[j]? = some tj →
    (∀ result, ti.prog ≠ .ret result) → (∀ result, tj.prog ≠ .ret result) → i = j

section serial

variable {exec : Nat → Executor Call Ans Err World Reply} {R : World → Prop}

/-- Before the first task, the invariant holds. -/
theorem serial_start {s : World} (hInv : I s) (hRest : R s) :
    Serial exec I C R (Machine.start s : Machine Key Call Ans Err Out World) where
  inv := hInv
  keeps i t ht := by simp [Machine.start] at ht
  rest _ := hRest
  single i j ti tj hi := by simp [Machine.start] at hi

/-- The only open task has moved. -/
theorem Serial.replace {i : Nat} {t t' : Task Key Call Ans Err Out} {s : World}
    (h : Serial exec I C R m) (ht : m.tasks[i]? = some t) (hOpen : ∀ result, t.prog ≠ .ret result)
    (hInv : I s) (hKeeps : t'.prog.Always (exec i) I C (fun _ s => R s) s) :
    Serial exec I C R ⟨s, m.tasks.set i t'⟩ := by
  have hLt : i < m.tasks.length := (List.getElem?_eq_some_iff.mp ht).1
  have hSelf : (m.tasks.set i t')[i]? = some t' := by simp [hLt]
  -- any other task has settled
  have hOnly : ∀ (j : Nat) (tj : Task Key Call Ans Err Out), (m.tasks.set i t')[j]? = some tj →
      (∀ result, tj.prog ≠ .ret result) → j = i := by
    intro j tj hj hjOpen
    by_cases hEq : j = i
    · exact hEq
    · rw [List.getElem?_set_ne (Ne.symm hEq)] at hj
      exact h.single j i tj t hj ht hjOpen hOpen
  refine ⟨hInv, fun j tj hj hjOpen => ?_, fun hSettled => ?_, fun j k tj tk hj hk hjOpen hkOpen => ?_⟩
  · obtain rfl := hOnly j tj hj hjOpen
    obtain rfl := Option.some.inj (hj.symm.trans hSelf)
    exact hKeeps
  · obtain ⟨result, hRet⟩ := Machine.ret_of_settled hSettled (List.mem_of_getElem? hSelf)
    rwa [hRet] at hKeeps
  · exact (hOnly j tj hj hjOpen).trans (hOnly k tk hk hkOpen).symm

/-- If every request that is served at rest keeps the invariant and comes to rest
again, this holds throughout a run without overlap. -/
theorem Serial.run [DecidableEq Key]
    {allowed : Machine Key Call Ans Err Out World → Label Reply Request → Prop}
    (hSettled : ∀ m request, allowed m (.spawn request) → m.settled = true)
    (hEntry : ∀ (m : Machine Key Call Ans Err Out World) request, allowed m (.spawn request) →
      I m.world → R m.world → ∀ i,
      (sys.entry request).Always (exec i) I C (fun _ s => R s) m.world)
    (hExec : ∀ (m : Machine Key Call Ans Err Out World) i reply c,
      allowed m (.step i reply) → m.nextCall i = some c →
      sys.exec i c reply m.world = exec i c reply m.world)
    (hStart : Serial exec I C R m) (hRun : sys.Reaches allowed m m') : Serial exec I C R m' := by
  refine hRun.invariant (fun m label m' hAllowed hStep h => ?_) hStart
  cases label with
  | spawn request =>
      obtain rfl : ⟨m.world, m.tasks ++ [⟨sys.entry request, none⟩]⟩ = m' := by
        simpa [System.step] using hStep
      have hAllRet := hSettled m request hAllowed
      have hEnds := hEntry m request hAllowed h.inv (h.rest hAllRet)
      have hNew : ∀ (j : Nat) (tj : Task Key Call Ans Err Out),
          (m.tasks ++ [⟨sys.entry request, none⟩])[j]? = some tj →
          (∀ result, tj.prog ≠ .ret result) →
          j = m.tasks.length ∧ tj = ⟨sys.entry request, none⟩ := by
        intro j tj hj hjOpen
        rw [List.getElem?_append] at hj
        split at hj
        · obtain ⟨result, hRet⟩ := Machine.ret_of_settled hAllRet (List.mem_of_getElem? hj)
          exact absurd hRet (hjOpen result)
        · next hLe =>
            obtain ⟨hIndex, hEq⟩ := List.getElem?_eq_some_iff.mp hj
            simp only [List.length_singleton] at hIndex
            exact ⟨by omega, by simpa using hEq.symm⟩
      refine ⟨h.inv, fun j tj hj hjOpen => ?_, fun _ => h.rest hAllRet,
        fun j k tj tk hj hk hjOpen hkOpen => ?_⟩
      · obtain ⟨-, rfl⟩ := hNew j tj hj hjOpen
        exact hEnds j
      · exact (hNew j tj hj hjOpen).1.trans (hNew k tk hk hkOpen).1.symm
  | step i reply =>
      obtain ⟨t, ht, hTask⟩ := Option.bind_eq_some_iff.mp hStep
      obtain ⟨c, next, answer, s, hp, hCall, rfl⟩ | ⟨key, next, hp, -, rfl⟩ |
        ⟨next, hp, rfl⟩ := System.stepTask_cases hTask
      · have hOpen : ∀ result, t.prog ≠ .ret result := by simp [hp]
        have hKeeps := h.keeps i t ht hOpen
        rw [hp] at hKeeps
        rw [hExec m i reply c hAllowed (by simp [Machine.nextCall, ht, hp])] at hCall
        obtain ⟨hInv, hNext⟩ := hKeeps.2 reply answer s hCall
        exact h.replace ht hOpen hInv hNext
      · have hOpen : ∀ result, t.prog ≠ .ret result := by simp [hp]
        have hKeeps := h.keeps i t ht hOpen
        rw [hp] at hKeeps
        exact h.replace ht hOpen h.inv hKeeps
      · have hOpen : ∀ result, t.prog ≠ .ret result := by simp [hp]
        have hKeeps := h.keeps i t ht hOpen
        rw [hp] at hKeeps
        exact h.replace ht hOpen h.inv hKeeps

/-- What is known of the call a task makes next. -/
theorem Serial.nextCall {i : Nat} {c : Call} (h : Serial exec I C R m)
    (hCall : m.nextCall i = some c) : C c m.world := by
  obtain ⟨t, ht, hProg⟩ := Option.bind_eq_some_iff.mp hCall
  cases hp : t.prog with
  | call c' next =>
      have hKeeps := h.keeps i t ht (by simp [hp])
      rw [hp] at hKeeps hProg
      cases hProg
      exact hKeeps.1
  | ret result => simp [hp] at hProg
  | lock key next => simp [hp] at hProg
  | unlock next => simp [hp] at hProg

end serial

/-- A system that serves one request at a time: the invariant holds, and every
task in flight keeps it if it runs alone from here on. -/
structure Alone (sys : System Key Call Ans Err Out World Reply Request) (I : World → Prop)
    (C : Call → World → Prop) (m : Machine Key Call Ans Err Out World) : Prop where
  inv : I m.world
  keeps : ∀ (i : Nat) (t : Task Key Call Ans Err Out), m.tasks[i]? = some t →
    t.prog.Always (sys.exec i) I C (fun _ _ => True) m.world
  single : ∀ (i j : Nat) (ti tj : Task Key Call Ans Err Out), m.tasks[i]? = some ti → m.tasks[j]? = some tj →
    (∀ result, ti.prog ≠ .ret result) → (∀ result, tj.prog ≠ .ret result) → i = j

theorem alone_start {s : World} (hInv : I s) : Alone sys I C (Machine.start s) where
  inv := hInv
  keeps i t ht := by simp [Machine.start] at ht
  single i j ti tj hi := by simp [Machine.start] at hi

/-- Tasks one at a time are a serial run with nothing to rest on. -/
theorem alone_iff_serial : Alone sys I C m ↔ Serial sys.exec I C (fun _ => True) m := by
  constructor
  · intro h
    exact ⟨h.inv, fun i t ht _ => h.keeps i t ht, fun _ => trivial, h.single⟩
  · intro h
    refine ⟨h.inv, fun i t ht => ?_, h.single⟩
    cases hp : t.prog with
    | ret result => trivial
    | call c next => exact hp ▸ h.keeps i t ht (by simp [hp])
    | lock key next => exact hp ▸ h.keeps i t ht (by simp [hp])
    | unlock next => exact hp ▸ h.keeps i t ht (by simp [hp])

/-- In a run that starts a request only when all earlier ones have settled, an
invariant that every request keeps alone holds in every state. -/
theorem Alone.run [DecidableEq Key] {allowed : Machine Key Call Ans Err Out World → Label Reply Request → Prop}
    (hSettled : ∀ m request, allowed m (.spawn request) → m.settled = true)
    (hEntry : ∀ m request, allowed m (.spawn request) → I m.world → ∀ i,
      (sys.entry request).Always (sys.exec i) I C (fun _ _ => True) m.world)
    (hAlone : Alone sys I C m) (hRun : sys.Reaches allowed m m') : Alone sys I C m' := by
  apply alone_iff_serial.mpr
  apply Serial.run hSettled _ (fun _ _ _ _ _ _ => rfl) (alone_iff_serial.mp hAlone) hRun
  intro m request hAllowed hInv _
  exact hEntry m request hAllowed hInv

/-- What is known of the call a task makes next. -/
theorem Alone.nextCall {i : Nat} {c : Call} (hAlone : Alone sys I C m)
    (hCall : m.nextCall i = some c) : C c m.world :=
  (alone_iff_serial.mp hAlone).nextCall hCall

end soundness

section resumed

variable [DecidableEq Key] {sys : System Key Call Ans Err Out World Reply Request}
  {choose : World → Call → Reply}

/-- Task `i` is resumed, and the environment replies as chosen. -/
def Resumes (choose : World → Call → Reply) (i : Nat) (m : Machine Key Call Ans Err Out World)
    (label : Label Reply Request) : Prop :=
  ∃ c, m.nextCall i = some c ∧ label = .step i (choose m.world c)

/-- What a task does alone is a run of the system in which only it is resumed. -/
theorem reaches_of_runsTo {p : Prog Key Call Ans Err Out} {i : Nat}
    {m : Machine Key Call Ans Err Out World} {held : Option Key} {result : Except Err Out}
    {s' : World} (hFree : p.Only (fun _ => True) fun _ => True)
    (hTask : m.tasks[i]? = some ⟨p, held⟩)
    (hRun : p.RunsTo (fun c (_ : Unit) s => sys.exec i c (choose s c) s) m.world result s') :
    sys.Reaches (Resumes choose i) m ⟨s', m.tasks.set i ⟨.ret result, held⟩⟩ := by
  induction p generalizing m with
  | ret settled =>
      obtain ⟨rfl, rfl⟩ := hRun
      obtain ⟨hLt, hGet⟩ := List.getElem?_eq_some_iff.mp hTask
      rw [← hGet, List.set_getElem_self]
      exact .refl m
  | call c next ih =>
      obtain ⟨_, answer, s₁, hExec, hRest⟩ := hRun
      have hStep : sys.step m (.step i (choose m.world c)) =
          some ⟨s₁, m.tasks.set i ⟨next answer, held⟩⟩ := by
        simp [System.step, hTask, System.stepTask, hExec]
      have hLabel : Resumes choose i m (.step i (choose m.world c) : Label Reply Request) :=
        ⟨c, by simp [Machine.nextCall, hTask], rfl⟩
      have hLt := (List.getElem?_eq_some_iff.mp hTask).1
      have hMore := ih answer (m := ⟨s₁, m.tasks.set i ⟨next answer, held⟩⟩) (hFree.2 answer)
        (by simp [hLt]) hRest
      simp only [List.set_set] at hMore
      exact (System.Reaches.tail (.refl m) hLabel hStep).trans hMore
  | lock key next ih => exact hFree.elim
  | unlock next ih => exact hFree.elim

end resumed
end Async
