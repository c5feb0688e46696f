import VpnPayment.Async.Machine

/-! What a task may do after what it has done. A program is read against the
history of its own calls, whatever the other tasks do in between, and the reading
then holds for every task of a run. -/
namespace Async

variable {Key Call : Type} {Ans : Call → Type} {Err Out World Reply Request α β : Type}

/-- The calls a task has made with what they settled to, newest first. -/
abbrev History (Call : Type) (Ans : Call → Type) (Err : Type) :=
  List (Σ c : Call, Except Err (Ans c))

section along

variable {P P' : History Call Ans Err → (Σ c : Call, Except Err (Ans c)) → Prop}
  {past older : History Call Ans Err}

/-- `P` holds of every call of the history after what was done before it. -/
def Along (P : History Call Ans Err → (Σ c : Call, Except Err (Ans c)) → Prop) :
    History Call Ans Err → Prop
  | [] => True
  | h :: older => P older h ∧ Along P older

theorem Along.mono (hImp : ∀ older h, P older h → P' older h) (h : Along P past) : Along P' past := by
  induction past with
  | nil => trivial
  | cons newest older ih => exact ⟨hImp older newest h.1, ih h.2⟩

/-- What holds along a history holds along its beginning. -/
theorem Along.suffix (h : Along P past) (hLong : older <:+ past) : Along P older := by
  induction past with
  | nil =>
      rw [List.suffix_nil.mp hLong]
      trivial
  | cons newest rest ih =>
      rcases List.suffix_cons_iff.mp hLong with rfl | hRest
      · exact h
      · exact ih h.2 hRest

/-- What a history says of an entry it says of what came before it. -/
theorem Along.of_mem {newest : Σ c : Call, Except Err (Ans c)} (h : Along P past)
    (hMem : newest ∈ past) : ∃ older, older <:+ past ∧ P older newest := by
  obtain ⟨newer, older, rfl⟩ := List.mem_iff_append.mp hMem
  have hHere := h.suffix (List.suffix_append newer (newest :: older))
  exact ⟨older, (List.suffix_cons newest older).trans (List.suffix_append newer _), hHere.1⟩

end along

namespace Prog

/-- As long as calls settle as `A` allows, every call the program makes is one
that `C` admits after what was done before, and it settles in `Q`. -/
def Follows (A : (c : Call) → Except Err (Ans c) → Prop) (C : History Call Ans Err → Call → Prop)
    (Q : Except Err α → History Call Ans Err → Prop) :
    Prog Key Call Ans Err α → History Call Ans Err → Prop
  | ret result, past => Q result past
  | call c next, past => C past c ∧
      ∀ answer, A c answer → (next answer).Follows A C Q (⟨c, answer⟩ :: past)
  | lock _ next, past => next.Follows A C Q past
  | unlock next, past => next.Follows A C Q past

variable {A : (c : Call) → Except Err (Ans c) → Prop} {C C' : History Call Ans Err → Call → Prop}
  {past : History Call Ans Err} {p : Prog Key Call Ans Err α}
  {Q R : Except Err α → History Call Ans Err → Prop}

/-- A program may be held to less. -/
theorem follows_mono (hCall : ∀ past c, C past c → C' past c)
    (hImp : ∀ result past, Q result past → R result past) (h : p.Follows A C Q past) :
    p.Follows A C' R past := by
  induction p generalizing past with
  | ret result => exact hImp result past h
  | call c next ih => exact ⟨hCall past c h.1, fun answer hAnswer => ih answer (h.2 answer hAnswer)⟩
  | lock key next ih => exact ih h
  | unlock next ih => exact ih h

/-- A history only grows. -/
theorem follows_extends (h : p.Follows A C Q past) :
    p.Follows A C (fun result past' => past <:+ past' ∧ Q result past') past := by
  induction p generalizing past with
  | ret result => exact ⟨List.suffix_refl past, h⟩
  | call c next ih =>
      refine ⟨h.1, fun answer hAnswer => ?_⟩
      refine follows_mono (fun _ _ => id) ?_ (ih answer (h.2 answer hAnswer))
      exact fun result past' hThen => ⟨(List.suffix_cons _ past).trans hThen.1, hThen.2⟩
  | lock key next ih => exact ih h
  | unlock next ih => exact ih h

/-- The continuation follows on from where the program ends. -/
theorem follows_onReturn {f : Except Err α → Prog Key Call Ans Err β}
    {Q : Except Err β → History Call Ans Err → Prop}
    (h : p.Follows A C (fun result past' => (f result).Follows A C Q past') past) :
    (p.onReturn f).Follows A C Q past := by
  induction p generalizing past with
  | ret result => exact h
  | call c next ih => exact ⟨h.1, fun answer hAnswer => ih answer (h.2 answer hAnswer)⟩
  | lock key next ih => exact ih h
  | unlock next ih => exact ih h

section bind

variable {f : α → Prog Key Call Ans Err β} {Q : Except Err β → History Call Ans Err → Prop}

theorem follows_bind
    (h : p.Follows A C (fun result past' => (afterOk f result).Follows A C Q past') past) :
    (p >>= f).Follows A C Q past :=
  follows_onReturn h

/-- A call followed by the rest of the program. -/
theorem follows_perform {c : Call} {f : Ans c → Prog Key Call Ans Err β} (hCall : C past c)
    (hOk : ∀ a, A c (.ok a) → (f a).Follows A C Q (⟨c, .ok a⟩ :: past))
    (hError : ∀ e, A c (.error e) → Q (.error e) (⟨c, .error e⟩ :: past)) :
    (perform c >>= f).Follows A C Q past := by
  refine ⟨hCall, fun answer hAnswer => ?_⟩
  cases answer with
  | ok a => exact hOk a hAnswer
  | error e => exact hError e hAnswer

/-- Synchronous code that may throw. -/
theorem follows_ofExcept {result : Except Err α} (hOk : ∀ a, result = .ok a → (f a).Follows A C Q past)
    (hError : ∀ e, Q (.error e) past) : (ofExcept result >>= f).Follows A C Q past := by
  cases result with
  | ok a => exact hOk a rfl
  | error e => exact hError e

end bind

theorem follows_tryCatch {handler : Err → Prog Key Call Ans Err α}
    (h : p.Follows A C (fun result past' => (afterError handler result).Follows A C Q past') past) :
    (tryCatch p handler).Follows A C Q past :=
  follows_onReturn h

theorem follows_withLock {key : Key} (h : p.Follows A C Q past) :
    (withLock key p).Follows A C Q past :=
  follows_onReturn h

/-- A call of a program that is part of a larger one. -/
theorem follows_embed {Call' : Type} {Ans' : Call' → Type} {inject : Call → Call'}
    {back : ∀ c, Ans' (inject c) → Ans c} {c : Call} {next : Except Err (Ans c) → Prog Key Call Ans Err α}
    {A : (c : Call') → Except Err (Ans' c) → Prop} {C : History Call' Ans' Err → Call' → Prop}
    {Q : Except Err α → History Call' Ans' Err → Prop} {past : History Call' Ans' Err}
    (hCall : C past (inject c))
    (hOk : ∀ a, A (inject c) (.ok a) →
      ((next (.ok (back c a))).embed inject back).Follows A C Q (⟨inject c, .ok a⟩ :: past))
    (hError : ∀ e, A (inject c) (.error e) →
      ((next (.error e)).embed inject back).Follows A C Q (⟨inject c, .error e⟩ :: past)) :
    ((call c next).embed inject back).Follows A C Q past := by
  rw [embed]
  apply And.intro hCall
  intro answer hAnswer
  cases answer with
  | ok a => exact hOk a hAnswer
  | error e => exact hError e hAnswer

/-- A program follows by the calls it makes, wherever these keep what they rely on. -/
theorem follows_calls {I : History Call Ans Err → Prop} {C' : Call → Prop}
    (hCalls : ∀ past c, I past → C' c → C past c)
    (hKeep : ∀ past c answer, I past → C' c → I (⟨c, answer⟩ :: past)) (h : p.Calls C')
    (hI : I past) : p.Follows A C (fun _ past' => past <:+ past' ∧ I past') past := by
  induction p generalizing past with
  | ret result => exact ⟨List.suffix_refl past, hI⟩
  | call c next ih =>
      refine ⟨hCalls past c hI h.1, fun answer _ => ?_⟩
      refine follows_mono (fun _ _ => id) ?_ (ih answer (h.2 answer) (hKeep past c answer hI h.1))
      exact fun _ past' hThen => ⟨(List.suffix_cons _ past).trans hThen.1, hThen.2⟩
  | lock key next ih => exact ih h hI
  | unlock next ih => exact ih h hI

section given

variable {B : History Call Ans Err → (Σ c : Call, Except Err (Ans c)) → Prop}
  {f : α → Prog Key Call Ans Err β} {Q : Except Err β → History Call Ans Err → Prop}
  {R : Except Err α → History Call Ans Err → Prop}

/-- The program follows from its past as long as `B` holds of all that happens. -/
abbrev FollowsGiven (B : History Call Ans Err → (Σ c : Call, Except Err (Ans c)) → Prop)
    (C : History Call Ans Err → Call → Prop) (Q : Except Err α → History Call Ans Err → Prop)
    (p : Prog Key Call Ans Err α) (past : History Call Ans Err) : Prop :=
  p.Follows (fun _ _ => True) (fun past c => Along B past → C past c)
    (fun result past => Along B past → Q result past) past

/-- Nothing is asked of a program once something else has happened. -/
theorem followsGiven_of_not (h : ¬Along B past) : p.FollowsGiven B C R past := by
  induction p generalizing past with
  | ret result => exact fun hAlong => absurd hAlong h
  | call c next ih =>
      exact ⟨fun hAlong => absurd hAlong h, fun answer _ => ih answer fun hAlong => h hAlong.2⟩
  | lock key next ih => exact ih h
  | unlock next ih => exact ih h

/-- A call that is admitted, answered or failed. -/
theorem followsGiven_perform {c : Call} {f : Ans c → Prog Key Call Ans Err β} (hCall : C past c)
    (hOk : ∀ a, B past ⟨c, .ok a⟩ → (f a).FollowsGiven B C Q (⟨c, .ok a⟩ :: past))
    (hError : ∀ e, B past ⟨c, .error e⟩ → Q (.error e) (⟨c, .error e⟩ :: past)) :
    (perform c >>= f).FollowsGiven B C Q past := by
  refine follows_perform (fun _ => hCall) (fun a _ => ?_) fun e _ hAlong => hError e hAlong.1
  by_cases hHappens : B past ⟨c, .ok a⟩
  · exact hOk a hHappens
  · exact followsGiven_of_not fun hAlong => hHappens hAlong.1

/-- The second program follows on from what the first one ends with. -/
theorem followsGiven_bind (hFirst : p.FollowsGiven B C R past)
    (hOk : ∀ a past', past <:+ past' → R (.ok a) past' → (f a).FollowsGiven B C Q past')
    (hError : ∀ e past', past <:+ past' → R (.error e) past' → Q (.error e) past') :
    (p >>= f).FollowsGiven B C Q past := by
  refine follows_bind (follows_mono (fun _ _ => id) ?_ (follows_extends hFirst))
  rintro (e | a) past' ⟨hLong, hResult⟩
  · exact fun hAlong => hError e past' hLong (hResult hAlong)
  · by_cases hAlong : Along B past'
    · exact hOk a past' hLong (hResult hAlong)
    · exact followsGiven_of_not hAlong

/-- Only calls of which `C` holds were made since. -/
def After (C : Call → Prop) (past past' : History Call Ans Err) : Prop :=
  ∃ extra, past' = extra ++ past ∧ ∀ h ∈ extra, C h.1

theorem After.refl (C : Call → Prop) (past : History Call Ans Err) : After C past past :=
  ⟨[], rfl, List.forall_mem_nil _⟩

/-- One more call before the others. -/
theorem After.cons {C : Call → Prop} {past' : History Call Ans Err} {c : Call}
    {answer : Except Err (Ans c)} (hCall : C c) (h : After C (⟨c, answer⟩ :: past) past') :
    After C past past' := by
  obtain ⟨extra, rfl, hExtra⟩ := h
  refine ⟨extra ++ [⟨c, answer⟩], by simp, ?_⟩
  simpa [or_imp, forall_and, hCall] using hExtra

/-- What held of every call so far holds of every call since, if it holds of the calls
that were made. -/
theorem After.forall {C : Call → Prop} {past' : History Call Ans Err}
    {P : (Σ c : Call, Except Err (Ans c)) → Prop} (h : After C past past')
    (hPast : ∀ x ∈ past, P x) (hCalls : ∀ x, C x.1 → P x) : ∀ x ∈ past', P x := by
  obtain ⟨extra, rfl, hExtra⟩ := h
  intro x hx
  rcases List.mem_append.mp hx with hNew | hOld
  · exact hCalls x (hExtra x hNew)
  · exact hPast x hOld

/-- A program without locks follows by the calls it makes. -/
theorem followsGiven_only {C' : Call → Prop} (hCalls : ∀ past c, C' c → C past c)
    (h : p.Only C' fun _ => True) :
    p.FollowsGiven B C (fun _ past' => After C' past past') past := by
  induction p generalizing past with
  | ret result => exact fun _ => .refl C' past
  | call c next ih =>
      refine ⟨fun _ => hCalls past c h.1, fun answer _ => ?_⟩
      refine follows_mono (fun _ _ => id) ?_ (ih answer (h.2 answer))
      exact fun _ _ hAfter hAlong => (hAfter hAlong).cons h.1
  | lock key next ih => exact h.elim
  | unlock next ih => exact h.elim

theorem followsGiven_withLock {key : Key} (h : p.FollowsGiven B C R past) :
    (withLock key p).FollowsGiven B C R past :=
  follows_withLock h

end given
end Prog

section soundness

variable {sys : System Key Call Ans Err Out World Reply Request}

/-- A world that records, for every task, the calls the task has made. -/
structure Recording (sys : System Key Call Ans Err Out World Reply Request) where
  own : World → Nat → History Call Ans Err
  settles : ∀ {i c reply w answer w'}, sys.exec i c reply w = some (answer, w') →
    own w' i = ⟨c, answer⟩ :: own w i
  others : ∀ {i c reply w answer w'}, sys.exec i c reply w = some (answer, w') →
    ∀ {j}, j ≠ i → own w' j = own w j

section log

variable {Event : Type} (task : Event → Nat) (done : Event → Σ c : Call, Except Err (Ans c))

/-- What one task has done, by a log of all calls, newest first. -/
def ownCalls (i : Nat) (log : List Event) : History Call Ans Err :=
  (log.filter fun e => task e = i).map done

/-- A new event is an entry of its own task only. -/
theorem ownCalls_cons (i : Nat) (e : Event) (log : List Event) :
    ownCalls task done i (e :: log) =
      if task e = i then done e :: ownCalls task done i log else ownCalls task done i log := by
  by_cases hTask : task e = i <;> simp [ownCalls, hTask]

/-- A log of all calls records what every task has done. -/
def Recording.ofLog (log : World → List Event)
    (hLog : ∀ {i c reply w answer w'}, sys.exec i c reply w = some (answer, w') →
      ∃ e, log w' = e :: log w ∧ task e = i ∧ done e = ⟨c, answer⟩) : Recording sys where
  own w i := ownCalls task done i (log w)
  settles hExec := by
    obtain ⟨e, hCons, hTask, hDone⟩ := hLog hExec
    rw [hCons, ownCalls_cons, if_pos hTask, hDone]
  others hExec j hNe := by
    obtain ⟨e, hCons, hTask, -⟩ := hLog hExec
    rw [hCons, ownCalls_cons, if_neg]
    rw [hTask]
    exact Ne.symm hNe

variable {task done}

/-- Every entry of a task is an event of the log. -/
theorem exists_of_mem_ownCalls {i : Nat} {log : List Event} {h : Σ c : Call, Except Err (Ans c)}
    (hMem : h ∈ ownCalls task done i log) : ∃ e ∈ log, task e = i ∧ done e = h := by
  obtain ⟨e, hIn, hEq⟩ := List.mem_map.mp hMem
  obtain ⟨hLog, hTask⟩ := List.mem_filter.mp hIn
  exact ⟨e, hLog, by simpa using hTask, hEq⟩

/-- Every event of the log is an entry of its task. -/
theorem mem_ownCalls {e : Event} {log : List Event} (hMem : e ∈ log) :
    done e ∈ ownCalls task done (task e) log :=
  List.mem_map_of_mem (List.mem_filter.mpr ⟨hMem, by simp⟩)

end log

variable (R : Recording sys) {A : (c : Call) → Except Err (Ans c) → Prop}
  {C : History Call Ans Err → Call → Prop} {Q : Except Err Out → History Call Ans Err → Prop}
  {m m' : Machine Key Call Ans Err Out World}

section each

variable {P P' : Nat → Prog Key Call Ans Err Out → History Call Ans Err → Prop}

/-- `P` holds of every task in flight and of what it has done, and tasks that have not
been started have done nothing. -/
structure EachTask (P : Nat → Prog Key Call Ans Err Out → History Call Ans Err → Prop)
    (m : Machine Key Call Ans Err Out World) : Prop where
  tasks : ∀ (i : Nat) (t : Task Key Call Ans Err Out), m.tasks[i]? = some t →
    P i t.prog (R.own m.world i)
  unused : ∀ i, m.tasks.length ≤ i → R.own m.world i = []

variable {R}

theorem EachTask.mono (hEach : EachTask R P m) (hImp : ∀ i p past, P i p past → P' i p past) :
    EachTask R P' m :=
  ⟨fun i t ht => hImp i _ _ (hEach.tasks i t ht), hEach.unused⟩

/-- A step keeps what holds of each task if the program of the task does. -/
theorem EachTask.step [DecidableEq Key] {label : Label Reply Request} (hEach : EachTask R P m)
    (hSpawn : ∀ request, label = .spawn request → P m.tasks.length (sys.entry request) [])
    (hSettle : ∀ i reply c next answer w', label = .step i reply → m.nextCall i = some c →
      sys.exec i c reply m.world = some (answer, w') → P i (.call c next) (R.own m.world i) →
      P i (next answer) (⟨c, answer⟩ :: R.own m.world i))
    (hLock : ∀ i key next past, P i (.lock key next) past → P i next past)
    (hUnlock : ∀ i next past, P i (.unlock next) past → P i next past)
    (hStep : sys.step m label = some m') : EachTask R P m' := by
  cases label with
  | spawn request =>
      obtain rfl : ⟨m.world, m.tasks ++ [⟨sys.entry request, none⟩]⟩ = m' := by
        simpa [System.step] using hStep
      refine ⟨fun i t ht => ?_, fun i hi => hEach.unused i (by simp at hi; omega)⟩
      rw [List.getElem?_append] at ht
      split at ht
      · exact hEach.tasks i t ht
      · next hLe =>
          rw [List.getElem?_singleton] at ht
          split at ht
          · cases ht
            obtain rfl : i = m.tasks.length := by omega
            show P m.tasks.length _ (R.own m.world m.tasks.length)
            rw [hEach.unused _ (Nat.le_refl _)]
            exact hSpawn request rfl
          · cases ht
  | step i reply =>
      obtain ⟨t, ht, hTask⟩ := Option.bind_eq_some_iff.mp hStep
      have hLt : i < m.tasks.length := (List.getElem?_eq_some_iff.mp ht).1
      have hOld := hEach.tasks i t ht
      -- the other tasks have done what they had done before
      have hRest : ∀ (t' : Task Key Call Ans Err Out) (s : World), P i t'.prog (R.own s i) →
          (∀ j, j ≠ i → R.own s j = R.own m.world j) → EachTask R P ⟨s, m.tasks.set i t'⟩ := by
        intro t' s hMoved hSame
        constructor
        · intro j tj hj
          rw [List.getElem?_set] at hj
          split at hj
          · next hEq =>
              subst hEq
              obtain rfl : t' = tj := by simpa [hLt] using hj
              exact hMoved
          · next hNe =>
              rw [hSame j (Ne.symm hNe)]
              exact hEach.tasks j tj hj
        · intro j hj
          simp only [List.length_set] at hj
          rw [hSame j (by omega)]
          exact hEach.unused j hj
      obtain ⟨c, next, answer, s, hp, hExec, rfl⟩ | ⟨key, next, hp, -, rfl⟩ | ⟨next, hp, rfl⟩ :=
        System.stepTask_cases hTask <;> rw [hp] at hOld
      · refine hRest _ s ?_ fun j hNe => R.others hExec hNe
        have hCall : m.nextCall i = some c := by simp [Machine.nextCall, ht, hp]
        rw [R.settles hExec]
        exact hSettle i reply c next answer s rfl hCall hExec hOld
      · exact hRest _ _ (hLock i key next _ hOld) fun _ _ => rfl
      · exact hRest _ _ (hUnlock i next _ hOld) fun _ _ => rfl

/-- What holds of a task that is about to make a call. -/
theorem EachTask.atCall {i : Nat} {c : Call} (hEach : EachTask R P m) (hCall : m.nextCall i = some c) :
    ∃ next, P i (.call c next) (R.own m.world i) := by
  obtain ⟨t, ht, hProg⟩ := Option.bind_eq_some_iff.mp hCall
  have hTask := hEach.tasks i t ht
  cases hp : t.prog with
  | call c' next =>
      rw [hp] at hTask hProg
      cases hProg
      exact ⟨next, hTask⟩
  | ret result => simp [hp] at hProg
  | lock key next => simp [hp] at hProg
  | unlock next => simp [hp] at hProg

end each

/-- Every task in flight follows from what it has done, and tasks that have not
been started have done nothing. -/
structure Following (A : (c : Call) → Except Err (Ans c) → Prop)
    (C : History Call Ans Err → Call → Prop) (Q : Except Err Out → History Call Ans Err → Prop)
    (m : Machine Key Call Ans Err Out World) : Prop where
  tasks : ∀ (i : Nat) (t : Task Key Call Ans Err Out), m.tasks[i]? = some t →
    t.prog.Follows A C Q (R.own m.world i)
  unused : ∀ i, m.tasks.length ≤ i → R.own m.world i = []

variable {R}

theorem Following.each (hFollowing : Following R A C Q m) :
    EachTask R (fun _ p past => p.Follows A C Q past) m :=
  ⟨hFollowing.tasks, hFollowing.unused⟩

/-- Before the first task, nothing has been done. -/
theorem following_start {s : World} (hNone : ∀ i, R.own s i = []) :
    Following R A C Q (Machine.start s) where
  tasks i t ht := by simp [Machine.start] at ht
  unused i _ := hNone i

/-- A step of a task extends its own history and no other. -/
theorem Following.step [DecidableEq Key] {label : Label Reply Request} (hFollowing : Following R A C Q m)
    (hEntry : ∀ request, label = .spawn request →
      (sys.entry request).Follows A C Q [])
    (hAnswer : ∀ i reply c answer w', label = .step i reply → m.nextCall i = some c →
      sys.exec i c reply m.world = some (answer, w') → A c answer)
    (hStep : sys.step m label = some m') : Following R A C Q m' := by
  have hEach := hFollowing.each.step hEntry (fun i reply c next answer w' hLabel hCall hExec hOld =>
    hOld.2 answer (hAnswer i reply c answer w' hLabel hCall hExec)) (fun _ _ _ _ h => h)
    (fun _ _ _ h => h) hStep
  exact ⟨hEach.tasks, hEach.unused⟩

/-- What a task is about to call is admitted after what it has done. -/
theorem Following.nextCall {i : Nat} {c : Call} (hFollowing : Following R A C Q m)
    (hCall : m.nextCall i = some c) : C (R.own m.world i) c := by
  obtain ⟨next, hFollows⟩ := hFollowing.each.atCall hCall
  exact hFollows.1

/-- What a task that has settled has done. -/
theorem Following.returned {i : Nat} {t : Task Key Call Ans Err Out} {result : Except Err Out}
    (hFollowing : Following R A C Q m) (hTask : m.tasks[i]? = some t)
    (hProg : t.prog = .ret result) : Q result (R.own m.world i) := by
  have hFollows := hFollowing.tasks i t hTask
  rw [hProg] at hFollows
  exact hFollows

end soundness
end Async
