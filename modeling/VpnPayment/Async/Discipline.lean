import VpnPayment.Async.Machine

/-! A rely-guarantee discipline for tasks that share a world and guard parts of
it by locks. Each task is verified against what the others may do between its
awaits. The soundness theorem then speaks of every interleaving. -/
namespace Async

variable {Key Call : Type} {Ans : Call → Type} {Err Out World Reply Request Resource : Type}

/-- What tasks promise and expect. A key guards one resource. `own` is what
holds of a resource that nobody is working on, `rely` is what the other tasks
may do while a task holds at most one resource, and `guar` is what a task does
in one step. -/
structure Discipline (sys : System Key Call Ans Err Out World Reply Request)
    (Resource : Type) where
  resource : Key → Resource
  inv : World → Prop
  own : Resource → World → Prop
  fresh : Nat → World → Prop
  rely : Nat → Option Resource → World → World → Prop
  guar : Nat → Option Resource → (Resource → Prop) → World → World → Prop
  /-- The side condition under which a call is made and settles. -/
  cond : Nat → Option Resource → (Resource → Prop) → Call → Reply → World → Prop
  post : Nat → Except Err Out → World → Prop
  rely_refl : ∀ i h s, rely i h s s
  rely_trans : ∀ {i h s₁ s₂ s₃}, rely i h s₁ s₂ → rely i h s₂ s₃ → rely i h s₁ s₃
  guar_rely : ∀ {i j h h' free s s'}, guar i h free s s' → inv s → inv s' → i ≠ j →
    (∀ r, h' = some r → h ≠ some r ∧ ¬free r) → rely j h' s s'
  guar_own : ∀ {i h free s s' r}, guar i h free s s' → inv s → inv s' → h ≠ some r → free r →
    own r s → own r s'
  guar_fresh : ∀ {i j h free s s'}, guar i h free s s' → i ≠ j → fresh j s → fresh j s'

namespace Discipline

variable {sys : System Key Call Ans Err Out World Reply Request} (D : Discipline sys Resource)

/-- The program keeps the discipline from here on and settles in `Q`. The other
tasks may move before every step. -/
def wp (i : Nat) (h : Option Resource) (p : Prog Key Call Ans Err α)
    (Q : Option Resource → Except Err α → World → Prop) (s : World) : Prop :=
  match p with
  | .ret result => ∀ s₁, D.rely i h s s₁ → D.inv s₁ → Q h result s₁
  | .call c next => ∀ s₁, D.rely i h s s₁ → D.inv s₁ →
      ∀ free : Resource → Prop, (∀ r, h = some r → ¬free r) →
      ∀ reply, D.cond i h free c reply s₁ →
      ∀ answer s₂, sys.exec i c reply s₁ = some (answer, s₂) →
        D.inv s₂ ∧ D.guar i h free s₁ s₂ ∧ wp i h (next answer) Q s₂
  | .lock key next => h = none ∧ ∀ s₁, D.rely i h s s₁ → D.inv s₁ →
      D.own (D.resource key) s₁ → wp i (some (D.resource key)) next Q s₁
  | .unlock next => ∀ s₁, D.rely i h s s₁ → D.inv s₁ →
      (∀ r, h = some r → D.own r s₁) ∧ wp i none next Q s₁

section rules

variable {D} {α β : Type} {i : Nat} {h : Option Resource} {s s' : World}
  {p : Prog Key Call Ans Err α} {Q R : Option Resource → Except Err α → World → Prop}

/-- What the other tasks do does not invalidate a verified program. -/
theorem wp_rely (hWp : D.wp i h p Q s) (hRely : D.rely i h s s') : D.wp i h p Q s' := by
  cases p with
  | ret result => exact fun s₁ h₁ => hWp s₁ (D.rely_trans hRely h₁)
  | call c next => exact fun s₁ h₁ => hWp s₁ (D.rely_trans hRely h₁)
  | lock key next => exact ⟨hWp.1, fun s₁ h₁ => hWp.2 s₁ (D.rely_trans hRely h₁)⟩
  | unlock next => exact fun s₁ h₁ => hWp s₁ (D.rely_trans hRely h₁)

theorem wp_mono (hImp : ∀ h' result s₁, D.inv s₁ → Q h' result s₁ → R h' result s₁)
    (hWp : D.wp i h p Q s) : D.wp i h p R s := by
  induction p generalizing h s with
  | ret result => exact fun s₁ h₁ hInv => hImp _ _ _ hInv (hWp s₁ h₁ hInv)
  | call c next ih =>
      intro s₁ h₁ hInv free hFree reply hCond answer s₂ hExec
      obtain ⟨hInv₂, hGuar, hNext⟩ := hWp s₁ h₁ hInv free hFree reply hCond answer s₂ hExec
      exact ⟨hInv₂, hGuar, ih answer hNext⟩
  | lock key next ih =>
      exact ⟨hWp.1, fun s₁ h₁ hInv hOwn => ih (hWp.2 s₁ h₁ hInv hOwn)⟩
  | unlock next ih =>
      intro s₁ h₁ hInv
      exact ⟨(hWp s₁ h₁ hInv).1, ih (hWp s₁ h₁ hInv).2⟩

/-- Sequential composition, whichever way the first program settles. -/
theorem wp_onReturn {f : Except Err α → Prog Key Call Ans Err β}
    {Q : Option Resource → Except Err β → World → Prop} (hInv : D.inv s)
    (hWp : D.wp i h p (fun h' result s₁ => D.wp i h' (f result) Q s₁) s) :
    D.wp i h (p.onReturn f) Q s := by
  induction p generalizing h s with
  | ret result => exact hWp s (D.rely_refl i h s) hInv
  | call c next ih =>
      intro s₁ h₁ hInv₁ free hFree reply hCond answer s₂ hExec
      obtain ⟨hInv₂, hGuar, hNext⟩ := hWp s₁ h₁ hInv₁ free hFree reply hCond answer s₂ hExec
      exact ⟨hInv₂, hGuar, ih answer hInv₂ hNext⟩
  | lock key next ih =>
      exact ⟨hWp.1, fun s₁ h₁ hInv₁ hOwn => ih hInv₁ (hWp.2 s₁ h₁ hInv₁ hOwn)⟩
  | unlock next ih =>
      intro s₁ h₁ hInv₁
      exact ⟨(hWp s₁ h₁ hInv₁).1, ih hInv₁ (hWp s₁ h₁ hInv₁).2⟩

theorem wp_bind {f : α → Prog Key Call Ans Err β}
    {Q : Option Resource → Except Err β → World → Prop} (hInv : D.inv s)
    (hWp : D.wp i h p (fun h' result s₁ => D.wp i h' (Prog.afterOk f result) Q s₁) s) :
    D.wp i h (p >>= f) Q s :=
  wp_onReturn hInv hWp

theorem wp_tryCatch {handler : Err → Prog Key Call Ans Err α} (hInv : D.inv s)
    (hWp : D.wp i h p (fun h' result s₁ => D.wp i h' (Prog.afterError handler result) Q s₁) s) :
    D.wp i h (tryCatch p handler) Q s :=
  wp_onReturn hInv hWp

/-- A settled program may be looked at later: its postcondition still holds. -/
theorem wp_later (hWp : D.wp i h p Q s) :
    D.wp i h p (fun h' result s₁ => ∀ s₂, D.rely i h' s₁ s₂ → D.inv s₂ → Q h' result s₂) s := by
  induction p generalizing h s with
  | ret result => exact fun s₁ h₁ _ s₂ h₂ hInv₂ => hWp s₂ (D.rely_trans h₁ h₂) hInv₂
  | call c next ih =>
      intro s₁ h₁ hInv free hFree reply hCond answer s₂ hExec
      obtain ⟨hInv₂, hGuar, hNext⟩ := hWp s₁ h₁ hInv free hFree reply hCond answer s₂ hExec
      exact ⟨hInv₂, hGuar, ih answer hNext⟩
  | lock key next ih =>
      exact ⟨hWp.1, fun s₁ h₁ hInv hOwn => ih (hWp.2 s₁ h₁ hInv hOwn)⟩
  | unlock next ih =>
      intro s₁ h₁ hInv
      exact ⟨(hWp s₁ h₁ hInv).1, ih (hWp s₁ h₁ hInv).2⟩

/-- The critical section of a key: it starts from what holds of a resource
nobody works on and has to restore that, however it ends. -/
theorem wp_withLock {key : Key}
    (hWp : ∀ s₁, D.rely i none s s₁ → D.inv s₁ → D.own (D.resource key) s₁ →
      D.wp i (some (D.resource key)) p
        (fun h' result s₂ => h' = some (D.resource key) ∧ D.own (D.resource key) s₂ ∧
          ∀ s₃, D.rely i none s₂ s₃ → D.inv s₃ → Q none result s₃) s₁) :
    D.wp i none (Prog.withLock key p) Q s := by
  refine ⟨rfl, fun s₁ h₁ hInv₁ hOwn => wp_onReturn hInv₁ ?_⟩
  refine wp_mono ?_ (wp_later (hWp s₁ h₁ hInv₁ hOwn))
  intro h' result s₂ hInv₂ hLater s₃ h₃ hInv₃
  obtain ⟨rfl, hOwn₃, hQ⟩ := hLater s₃ h₃ hInv₃
  refine ⟨?_, hQ⟩
  rintro r ⟨⟩
  exact hOwn₃

/-- A call that cannot be told apart from a move of the other tasks. What is
known of its answer is `A`. -/
theorem wp_quiet {c : Call} {next : Except Err (Ans c) → Prog Key Call Ans Err α}
    {A : Except Err (Ans c) → World → Prop}
    (hQuiet : ∀ s₁, D.rely i h s s₁ → D.inv s₁ → ∀ free : Resource → Prop,
      (∀ r, h = some r → ¬free r) → ∀ reply, D.cond i h free c reply s₁ →
      ∀ answer s₂, sys.exec i c reply s₁ = some (answer, s₂) →
        D.inv s₂ ∧ D.guar i h free s₁ s₂ ∧ D.rely i h s₁ s₂ ∧ A answer s₂)
    (hNext : ∀ answer s₂, D.rely i h s s₂ → D.inv s₂ → A answer s₂ →
      D.wp i h (next answer) Q s₂) :
    D.wp i h (.call c next) Q s := by
  intro s₁ h₁ hInv free hFree reply hCond answer s₂ hExec
  obtain ⟨hInv₂, hGuar, hRely, hA⟩ := hQuiet s₁ h₁ hInv free hFree reply hCond answer s₂ hExec
  exact ⟨hInv₂, hGuar, hNext answer s₂ (D.rely_trans h₁ hRely) hInv₂ hA⟩

end rules

section soundness

/-- The resource whose critical section a task is in. -/
def heldBy (t : Task Key Call Ans Err Out) : Option Resource :=
  t.held.map D.resource

/-- Nobody is in the critical section of the resource. -/
def Free (m : Machine Key Call Ans Err Out World) (r : Resource) : Prop :=
  ∀ t ∈ m.tasks, D.heldBy t ≠ some r

/-- Every task in flight still keeps the discipline in the current world, no two
tasks work on one resource, and the resources nobody works on are in order. -/
structure Coherent (m : Machine Key Call Ans Err Out World) : Prop where
  inv : D.inv m.world
  wp : ∀ i t, m.tasks[i]? = some t →
    D.wp i (D.heldBy t) t.prog (fun h result s => h = none ∧ D.post i result s) m.world
  exclusive : ∀ (i j : Nat) ti tj r, m.tasks[i]? = some ti → m.tasks[j]? = some tj →
    D.heldBy ti = some r → D.heldBy tj = some r → i = j
  own : ∀ r, D.Free m r → D.own r m.world
  fresh : ∀ i, m.tasks.length ≤ i → D.fresh i m.world

/-- The runs the discipline speaks about: requests are of an admitted kind, calls
meet their side condition, and a critical section is entered only when nobody is
in a section of the same resource. -/
def Permits (admits : Request → Prop)
    (m : Machine Key Call Ans Err Out World) : Label Reply Request → Prop
  | .spawn request => admits request
  | .step i reply => ∀ t, m.tasks[i]? = some t →
      match t.prog with
      | .call c _ => D.cond i (D.heldBy t) (D.Free m) c reply m.world
      | .lock key _ => D.Free m (D.resource key)
      | _ => True

variable {D} {admits : Request → Prop} {m m' : Machine Key Call Ans Err Out World}

theorem coherent_start {s : World} (hInv : D.inv s) (hOwn : ∀ r, D.own r s)
    (hFresh : ∀ i, D.fresh i s) : D.Coherent (Machine.start s) where
  inv := hInv
  wp i t ht := by simp [Machine.start] at ht
  exclusive i j ti tj r hi := by simp [Machine.start] at hi
  own r _ := hOwn r
  fresh i _ := hFresh i

/-- One task moves on to `t'` and the world with it. -/
theorem Coherent.replace {i : Nat} {t t' : Task Key Call Ans Err Out} {s : World}
    (hCoh : D.Coherent m) (ht : m.tasks[i]? = some t) (hInv : D.inv s)
    (hWp : D.wp i (D.heldBy t') t'.prog (fun h result s => h = none ∧ D.post i result s) s)
    (hOthers : ∀ j tj, j ≠ i → m.tasks[j]? = some tj → D.rely j (D.heldBy tj) m.world s)
    (hExclusive : ∀ r j tj, j ≠ i → m.tasks[j]? = some tj → D.heldBy t' = some r →
      D.heldBy tj ≠ some r)
    (hOwn : ∀ r, D.Free ⟨s, m.tasks.set i t'⟩ r → D.own r s)
    (hFresh : ∀ j, m.tasks.length ≤ j → D.fresh j s) :
    D.Coherent ⟨s, m.tasks.set i t'⟩ := by
  have hLt : i < m.tasks.length := (List.getElem?_eq_some_iff.mp ht).1
  have hGet : ∀ j tj, (m.tasks.set i t')[j]? = some tj →
      (j = i ∧ tj = t') ∨ (j ≠ i ∧ m.tasks[j]? = some tj) := by
    intro j tj hj
    rw [List.getElem?_set] at hj
    split at hj
    · next hEq => exact .inl ⟨hEq.symm, by simpa [hEq ▸ hLt] using hj.symm⟩
    · next hNe => exact .inr ⟨fun hEq => hNe hEq.symm, hj⟩
  refine ⟨hInv, ?_, ?_, hOwn, by simpa using hFresh⟩
  · intro j tj hj
    obtain ⟨rfl, rfl⟩ | ⟨hNe, hj⟩ := hGet j tj hj
    · exact hWp
    · exact wp_rely (hCoh.wp j tj hj) (hOthers j tj hNe hj)
  · intro j k tj tk r hj hk hjr hkr
    obtain ⟨rfl, rfl⟩ | ⟨hNej, hj'⟩ := hGet j tj hj <;>
      obtain ⟨rfl, rfl⟩ | ⟨hNek, hk'⟩ := hGet k tk hk
    · rfl
    · exact absurd hkr (hExclusive r k tk hNek hk' hjr)
    · exact absurd hjr (hExclusive r j tj hNej hj' hkr)
    · exact hCoh.exclusive j k tj tk r hj' hk' hjr hkr

/-- A resource that is free once task `i` has moved was free before, unless task
`i` has just given it back. -/
theorem free_of_free_set {i : Nat} {t t' : Task Key Call Ans Err Out} {s : World} {r : Resource}
    (ht : m.tasks[i]? = some t) (hNot : D.heldBy t ≠ some r)
    (hFree : D.Free ⟨s, m.tasks.set i t'⟩ r) : D.Free m r := by
  intro tj hj
  obtain ⟨j, hLt, rfl⟩ := List.mem_iff_getElem.mp hj
  by_cases hEq : j = i
  · subst hEq
    rw [List.getElem?_eq_getElem hLt, Option.some.injEq] at ht
    exact ht ▸ hNot
  · refine hFree _ (List.mem_iff_getElem.mpr ⟨j, by simpa using hLt, ?_⟩)
    simp [Ne.symm hEq]

/-- A step of a coherent system keeps it coherent, and the world changes only by
what the discipline guarantees. -/
theorem Coherent.step [DecidableEq Key]
    (hEntry : ∀ request, admits request → ∀ i s, D.inv s → D.fresh i s →
      D.wp i none (sys.entry request) (fun h result s => h = none ∧ D.post i result s) s)
    {label : Label Reply Request} (hCoh : D.Coherent m) (hPermits : D.Permits admits m label)
    (hStep : sys.step m label = some m') :
    D.Coherent m' ∧ (m'.world = m.world ∨ ∃ (i : Nat) (t : Task Key Call Ans Err Out),
      m.tasks[i]? = some t ∧ D.guar i (D.heldBy t) (D.Free m) m.world m'.world) := by
  cases label with
  | spawn request =>
      obtain rfl : ⟨m.world, m.tasks ++ [⟨sys.entry request, none⟩]⟩ = m' := by
        simpa [System.step] using hStep
      refine ⟨⟨hCoh.inv, ?_, ?_, ?_, ?_⟩, .inl rfl⟩
      · intro i t ht
        rw [List.getElem?_append] at ht
        split at ht
        · exact hCoh.wp i t ht
        · next hLe =>
            obtain ⟨hi, rfl⟩ : i - m.tasks.length = 0 ∧ ⟨sys.entry request, none⟩ = t := by
              simpa [List.getElem?_singleton] using ht
            exact hEntry request hPermits i _ hCoh.inv (hCoh.fresh i (by omega))
      · intro i j ti tj r hi hj hir hjr
        rw [List.getElem?_append] at hi hj
        split at hi
        · split at hj
          · exact hCoh.exclusive i j ti tj r hi hj hir hjr
          · obtain ⟨_, rfl⟩ : j - m.tasks.length = 0 ∧ ⟨sys.entry request, none⟩ = tj := by
              simpa [List.getElem?_singleton] using hj
            simp [heldBy] at hjr
        · obtain ⟨_, rfl⟩ : i - m.tasks.length = 0 ∧ ⟨sys.entry request, none⟩ = ti := by
            simpa [List.getElem?_singleton] using hi
          simp [heldBy] at hir
      · exact fun r hFree => hCoh.own r fun t ht => hFree t (by simp [ht])
      · intro i hi
        simp only [List.length_append, List.length_singleton] at hi
        exact hCoh.fresh i (by omega)
  | step i reply =>
      obtain ⟨t, ht, hTask⟩ := Option.bind_eq_some_iff.mp hStep
      have hLt : i < m.tasks.length := (List.getElem?_eq_some_iff.mp ht).1
      have hWp := hCoh.wp i t ht
      have hPermit := hPermits t ht
      have hSelf : ∀ j tj, m.tasks[j]? = some tj → ∀ r, D.heldBy tj = some r → j ≠ i →
          D.heldBy t ≠ some r ∧ ¬D.Free m r := fun j tj hj r hr hNe =>
        ⟨fun hr' => hNe (hCoh.exclusive j i tj t r hj ht hr hr'),
          fun hFree => hFree tj (List.mem_of_getElem? hj) hr⟩
      have hMem : ∀ t', t' ∈ m.tasks.set i t' := fun t' => List.mem_set hLt t'
      obtain ⟨c, next, answer, s, hp, hExec, rfl⟩ | ⟨key, next, hp, -, rfl⟩ | ⟨next, hp, rfl⟩ :=
        System.stepTask_cases hTask
      · rw [hp] at hWp hPermit
        have hHeld : ∀ r, D.heldBy t = some r → ¬D.Free m r := fun r hr hFree =>
          hFree t (List.mem_of_getElem? ht) hr
        obtain ⟨hInv, hGuar, hNext⟩ := hWp m.world (D.rely_refl ..) hCoh.inv (D.Free m) hHeld
          reply hPermit answer s hExec
        refine ⟨hCoh.replace ht hInv hNext ?_ ?_ ?_ ?_, .inr ⟨i, t, ht, hGuar⟩⟩
        · exact fun j tj hNe hj => D.guar_rely hGuar hCoh.inv hInv (Ne.symm hNe)
            fun r hr => hSelf j tj hj r hr hNe
        · exact fun r j tj hNe hj hr hr' => (hSelf j tj hj r hr' hNe).1 hr
        · intro r hFree
          have hNot : D.heldBy t ≠ some r := hFree ⟨next answer, t.held⟩ (hMem _)
          have hFree' := free_of_free_set ht hNot hFree
          exact D.guar_own hGuar hCoh.inv hInv hNot hFree' (hCoh.own r hFree')
        · exact fun j hj => D.guar_fresh hGuar (by omega) (hCoh.fresh j hj)
      · rw [hp] at hWp hPermit
        refine ⟨hCoh.replace ht hCoh.inv ?_ (fun j tj _ _ => D.rely_refl ..) ?_ ?_ hCoh.fresh, .inl rfl⟩
        · exact hWp.2 m.world (D.rely_refl ..) hCoh.inv (hCoh.own _ hPermit)
        · rintro r j tj - hj hr
          obtain rfl : D.resource key = r := by simpa [heldBy] using hr
          exact hPermit tj (List.mem_of_getElem? hj)
        · exact fun r hFree => hCoh.own r (free_of_free_set ht (by simp [hWp.1]) hFree)
      · rw [hp] at hWp
        obtain ⟨hGive, hNext⟩ := hWp m.world (D.rely_refl ..) hCoh.inv
        refine ⟨hCoh.replace ht hCoh.inv hNext (fun j tj _ _ => D.rely_refl ..) ?_ ?_ hCoh.fresh,
          .inl rfl⟩
        · rintro r j tj - - hr
          simp [heldBy] at hr
        · intro r hFree
          by_cases hHeld : D.heldBy t = some r
          · exact hGive r hHeld
          · exact hCoh.own r (free_of_free_set ht hHeld hFree)

/-- Where each resource has one key, the locks keep critical sections apart, and
only the calls are left to be checked. -/
theorem permits_of_step [DecidableEq Key] (hResource : Function.Injective D.resource)
    {label : Label Reply Request} (hStep : sys.step m label = some m')
    (hSpawn : ∀ request, label = .spawn request → admits request)
    (hCall : ∀ i reply t c, label = .step i reply → m.tasks[i]? = some t → m.nextCall i = some c →
      D.cond i (D.heldBy t) (D.Free m) c reply m.world) : D.Permits admits m label := by
  cases label with
  | spawn request => exact hSpawn request rfl
  | step i reply =>
      intro t ht
      split
      · next c next hp => exact hCall i reply t c rfl ht (by simp [Machine.nextCall, ht, hp])
      · next key next hp =>
          obtain ⟨t', ht', hTask⟩ := Option.bind_eq_some_iff.mp hStep
          obtain rfl : t = t' := Option.some.inj (ht.symm.trans ht')
          obtain ⟨_, _, _, _, hp', -⟩ | ⟨key', _, hp', hUnlocked, -⟩ | ⟨_, hp', -⟩ :=
            System.stepTask_cases hTask <;> rw [hp] at hp' <;> cases hp'
          intro other hMem hHeld
          obtain ⟨key'', hKey, hSame⟩ := Option.map_eq_some_iff.mp hHeld
          exact hUnlocked other hMem (hResource hSame ▸ hKey)
      · trivial

/-- Every permitted run from a coherent system stays coherent. -/
theorem Coherent.run [DecidableEq Key]
    (hEntry : ∀ request, admits request → ∀ i s, D.inv s → D.fresh i s →
      D.wp i none (sys.entry request) (fun h result s => h = none ∧ D.post i result s) s)
    (hCoh : D.Coherent m) (hRun : sys.Reaches (D.Permits admits) m m') : D.Coherent m' :=
  hRun.invariant (fun _ _ _ hPermits hStep hCoh => (hCoh.step hEntry hPermits hStep).1) hCoh

end soundness
end Discipline
end Async
