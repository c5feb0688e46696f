import VpnPayment.Async.History

/-! Runs with the requests that started their tasks. The n-th request is the one
that the n-th task serves. -/
namespace Async

variable {Key Call : Type} {Ans : Call → Type} {Err Out World Reply Request : Type}

/-- The request that a label hands to a new task. -/
def Label.requested : Label Reply Request → List Request
  | .spawn request => [request]
  | .step _ _ => []

namespace System

variable [DecidableEq Key] (sys : System Key Call Ans Err Out World Reply Request)

/-- Runs that have taken a list of requests, and whose every step is allowed in the
state it is taken from. -/
inductive Takes (allowed : List Request → Machine Key Call Ans Err Out World → Label Reply Request → Prop)
    (start : Machine Key Call Ans Err Out World) :
    List Request → Machine Key Call Ans Err Out World → Prop
  | start : Takes allowed start [] start
  | step {requests : List Request} {middle finish : Machine Key Call Ans Err Out World}
      {label : Label Reply Request} (prior : Takes allowed start requests middle)
      (hAllowed : allowed requests middle label) (last : sys.step middle label = some finish) :
      Takes allowed start (requests ++ label.requested) finish

/-- Follow the labels while the check holds of each, and collect the requests. -/
def take (check : List Request → Machine Key Call Ans Err Out World → Label Reply Request → Bool)
    (requests : List Request) (m : Machine Key Call Ans Err Out World) :
    List (Label Reply Request) → Option (List Request × Machine Key Call Ans Err Out World)
  | [] => some (requests, m)
  | label :: labels =>
      if check requests m label then
        (sys.step m label).bind fun next => take check (requests ++ label.requested) next labels
      else none

variable {sys} {allowed : List Request → Machine Key Call Ans Err Out World → Label Reply Request → Prop}
  {start m : Machine Key Call Ans Err Out World} {requests : List Request}

/-- A property that every allowed step preserves holds in every state reached. -/
theorem Takes.invariant {P : List Request → Machine Key Call Ans Err Out World → Prop}
    (hStep : ∀ requests m label m', allowed requests m label → sys.step m label = some m' →
      P requests m → P (requests ++ label.requested) m')
    (hRun : sys.Takes allowed start requests m) (hStart : P [] start) : P requests m := by
  induction hRun with
  | start => exact hStart
  | step _ hAllowed last ih => exact hStep _ _ _ _ hAllowed last ih

theorem Takes.mono
    {allowed' : List Request → Machine Key Call Ans Err Out World → Label Reply Request → Prop}
    (hMono : ∀ requests m label, allowed requests m label → allowed' requests m label)
    (hRun : sys.Takes allowed start requests m) : sys.Takes allowed' start requests m := by
  induction hRun with
  | start => exact .start
  | step _ hAllowed last ih => exact .step ih (hMono _ _ _ hAllowed) last

theorem takes_of_take
    {check : List Request → Machine Key Call Ans Err Out World → Label Reply Request → Bool}
    {labels : List (Label Reply Request)} {requests' : List Request}
    {finish : Machine Key Call Ans Err Out World}
    (hPrior : sys.Takes (fun requests m label => check requests m label = true) start requests m)
    (hRun : sys.take check requests m labels = some (requests', finish)) :
    sys.Takes (fun requests m label => check requests m label = true) start requests' finish := by
  induction labels generalizing requests m with
  | nil =>
      cases hRun
      exact hPrior
  | cons label labels ih =>
      simp only [take] at hRun
      split at hRun
      · next hLabel =>
          obtain ⟨next, hStep, hRest⟩ := Option.bind_eq_some_iff.mp hRun
          exact ih (hPrior.step hLabel hStep) hRest
      · cases hRun

/-- A computed run is a run. -/
theorem exists_takes (sys : System Key Call Ans Err Out World Reply Request)
    (check : List Request → Machine Key Call Ans Err Out World → Label Reply Request → Bool)
    (start : Machine Key Call Ans Err Out World) (labels : List (Label Reply Request))
    (Q : List Request × Machine Key Call Ans Err Out World → Bool)
    (hRun : (sys.take check [] start labels).any Q = true) :
    ∃ requests finish, sys.Takes (fun requests m label => check requests m label = true) start
      requests finish ∧ Q (requests, finish) = true := by
  obtain ⟨⟨requests, finish⟩, hFinish, hQ⟩ := (Option.any_eq_true _ _).mp hRun
  exact ⟨requests, finish, takes_of_take .start hFinish, hQ⟩

end System

section serving

variable {sys : System Key Call Ans Err Out World Reply Request} (R : Recording sys)
  {A : (c : Call) → Except Err (Ans c) → Prop} {C : Request → History Call Ans Err → Call → Prop}
  {Q : Request → Except Err Out → History Call Ans Err → Prop} {requests : List Request}
  {m m' : Machine Key Call Ans Err Out World}

/-- Every task in flight follows from what it has done, by what `C` and `Q` say of its
request. -/
structure Serving (A : (c : Call) → Except Err (Ans c) → Prop)
    (C : Request → History Call Ans Err → Call → Prop)
    (Q : Request → Except Err Out → History Call Ans Err → Prop) (requests : List Request)
    (m : Machine Key Call Ans Err Out World) : Prop where
  taken : requests.length = m.tasks.length
  each : EachTask R (fun i p past => ∃ request, requests[i]? = some request ∧
    p.Follows A (C request) (Q request) past) m

variable {R}

theorem serving_start {s : World} (hNone : ∀ i, R.own s i = []) :
    Serving R A C Q [] (Machine.start s) where
  taken := rfl
  each := ⟨fun i t ht => by simp [Machine.start] at ht, fun i _ => hNone i⟩

theorem Serving.step [DecidableEq Key] {label : Label Reply Request}
    (hServing : Serving R A C Q requests m)
    (hEntry : ∀ request, label = .spawn request →
      (sys.entry request).Follows A (C request) (Q request) [])
    (hAnswer : ∀ i reply c answer w', label = .step i reply → m.nextCall i = some c →
      sys.exec i c reply m.world = some (answer, w') → A c answer)
    (hStep : sys.step m label = some m') : Serving R A C Q (requests ++ label.requested) m' := by
  constructor
  · cases label with
    | spawn request =>
        cases hStep
        simp [Label.requested, hServing.taken]
    | step i reply =>
        obtain ⟨t, ht, hTask⟩ := Option.bind_eq_some_iff.mp hStep
        obtain ⟨c, next, answer, s, hp, hExec, rfl⟩ | ⟨key, next, hp, -, rfl⟩ | ⟨next, hp, rfl⟩ :=
          System.stepTask_cases hTask <;> simpa [Label.requested] using hServing.taken
  -- what has been requested is not taken back
  have hKept : ∀ {i : Nat} {request : Request}, requests[i]? = some request →
      (requests ++ label.requested)[i]? = some request := fun hRequest => by
    rw [List.getElem?_append_left (List.getElem?_eq_some_iff.mp hRequest).1, hRequest]
  have hEach : EachTask R (fun i p past => ∃ request,
      (requests ++ label.requested)[i]? = some request ∧ p.Follows A (C request) (Q request) past) m :=
    hServing.each.mono fun i p past ⟨request, hRequest, hFollows⟩ =>
      ⟨request, hKept hRequest, hFollows⟩
  apply hEach.step _ _ _ _ hStep
  · rintro request rfl
    refine ⟨request, ?_, hEntry request rfl⟩
    simp [Label.requested, ← hServing.taken]
  · rintro i reply c next answer w' hLabel hCall hExec ⟨request, hRequest, hFollows⟩
    exact ⟨request, hRequest, hFollows.2 answer (hAnswer i reply c answer w' hLabel hCall hExec)⟩
  · exact fun i key next past h => h
  · exact fun i next past h => h

/-- What a task is about to call is admitted for its request. -/
theorem Serving.nextCall {i : Nat} {c : Call} (hServing : Serving R A C Q requests m)
    (hCall : m.nextCall i = some c) :
    ∃ request, requests[i]? = some request ∧ C request (R.own m.world i) c := by
  obtain ⟨next, request, hRequest, hFollows⟩ := hServing.each.atCall hCall
  exact ⟨request, hRequest, hFollows.1⟩

/-- What a task that has settled has done. -/
theorem Serving.returned {i : Nat} {t : Task Key Call Ans Err Out} {result : Except Err Out}
    (hServing : Serving R A C Q requests m) (hTask : m.tasks[i]? = some t)
    (hProg : t.prog = .ret result) :
    ∃ request, requests[i]? = some request ∧ Q request result (R.own m.world i) := by
  obtain ⟨request, hRequest, hFollows⟩ := hServing.each.tasks i t hTask
  rw [hProg] at hFollows
  exact ⟨request, hRequest, hFollows⟩

end serving
end Async
