import VpnPayment.Settlement.OrderDiscipline

/-! One rule for every kind of call a task makes under the order discipline. -/
namespace VpnPayment

open Async Collections
open Prog (perform)

namespace World

variable {b : Backend} {scope : Scope} {i j : Nat} {h : Option String} {id : String}
  {free : String → Prop} {w w' : World}

/-- A step that touches nothing the order locks guard. -/
structure Untouched (i : Nat) (w w' : World) : Prop where
  orders : w'.store.orders = w.store.orders
  refunds : w'.store.refunds = w.store.refunds
  grants : ∀ id, w'.grants id = w.grants id
  lastWrite : ∀ j, w'.lastWrite j = w.lastWrite j
  issued : w'.issued = w.issued ∨ ∃ id, w.Unused id ∧ w'.issued = (i, id) :: w.issued

namespace Untouched

/-- An untouched order is the same. -/
theorem order (hStep : Untouched i w w') (id : String) : w'.order id = w.order id := by
  simp [World.order, hStep.orders]

theorem refund (hStep : Untouched i w w') (id : String) : w'.refund id = w.refund id := by
  simp [World.refund, hStep.refunds]

theorem refundsOf (hStep : Untouched i w w') (id : String) : w'.refundsOf id = w.refundsOf id := by
  simp [World.refundsOf, hStep.refunds]

theorem refundsStay (hStep : Untouched i w w') : RefundsStay b w w' := by
  intro no r hr
  exact ⟨r, by rw [hStep.refunds, hr], rfl, rfl⟩

theorem apart (hStep : Untouched i w w') : Apart scope id w w' where
  refunds := hStep.refundsOf id
  grants := hStep.grants id
  order _ := by simp [core, hStep.order]

/-- What touches no order keeps the invariant. -/
theorem sound (hStep : Untouched i w w') (hSound : Sound scope w) : Sound scope w' where
  issued := by
    obtain hEq | ⟨id, hUnused, hEq⟩ := hStep.issued
    · rw [hEq]
      exact hSound.issued
    · rw [hEq, List.map_cons, List.nodup_cons]
      refine ⟨?_, hSound.issued⟩
      intro hMem
      obtain ⟨entry, hEntry, hId⟩ := List.mem_map.mp hMem
      exact hUnused.1 entry hEntry hId
  granted id hPos := by
    rw [hStep.grants] at hPos ⊢
    obtain ⟨hOne, o, ho, hStatus⟩ := hSound.granted id hPos
    exact ⟨hOne, o, by rw [hStep.order, ho], hStatus⟩
  bounded hScope id o ho := by
    rw [hStep.order] at ho
    rw [hStep.refundsOf]
    exact hSound.bounded hScope id o ho
  refunded hScope id o ho hStatus := by
    rw [hStep.order] at ho
    rw [hStep.refundsOf]
    exact hSound.refunded hScope id o ho hStatus
  refundsPaid hScope id hRefunds := by
    rw [hStep.refundsOf] at hRefunds
    rw [hStep.order]
    exact hSound.refundsPaid hScope id hRefunds

/-- What touches no order is always guaranteed. -/
theorem guar (hStep : Untouched i w w') : Guar b scope i h free w w' where
  writes id o ho := ⟨o, by rw [hStep.order, ho], .refl o⟩
  refunds := hStep.refundsStay
  issued := hStep.issued.imp (fun h => h) fun ⟨id, _, hEq⟩ => ⟨id, hEq⟩
  newOrder id hNone hSome := absurd (hStep.order id ▸ hNone) hSome
  newRefund id hNone hSome := absurd (hStep.refund id ▸ hNone) hSome
  lastWrite j _ := hStep.lastWrite j
  others id _ := .inl hStep.apart

/-- What touches no order may always be relied on. -/
theorem rely (hStep : Untouched i w w') : Rely b scope i h w w' where
  orders id o ho := ⟨o, by rw [hStep.order, ho], .refl o⟩
  refunds := hStep.refundsStay
  issued id hi := by
    obtain hEq | ⟨_, _, hEq⟩ := hStep.issued
    · exact hEq ▸ hi
    · exact hEq ▸ List.mem_cons_of_mem _ hi
  newOrder id _ hNone := hStep.order id ▸ hNone
  newRefund id _ hNone := hStep.refund id ▸ hNone
  lastWrite := hStep.lastWrite i
  heldRefunds id _ := hStep.refundsOf id
  heldGrants id _ := hStep.grants id
  heldOrder id _ _ := by simp [core, hStep.order]

end Untouched

/-- Logging a call that touches nothing the locks guard, or that had no effect. -/
theorem untouched_log {e : Event} (hEffect : e.applied = false ∨ e.call.quiet = true) :
    Untouched i w (w.log e) where
  orders := rfl
  refunds := rfl
  grants id := by
    rw [grants_log]
    obtain hApplied | hQuiet := hEffect
    · simp [Event.grants, hApplied]
    · simp only [Call.quiet, Bool.and_eq_true, decide_eq_true_eq] at hQuiet
      simp [Event.grants, hQuiet.2]
  lastWrite j := by
    rw [lastWrite_log]
    obtain hApplied | hQuiet := hEffect
    · simp [hApplied]
    · simp only [Call.quiet, Bool.and_eq_true, Bool.not_eq_true'] at hQuiet
      simp [hQuiet.1]
  issued := .inl rfl

/-- A step that changes, of all that the order locks guard, only what belongs to
one order. -/
structure Touches (b : Backend) (scope : Scope) (i : Nat) (id : String) (w w' : World) : Prop where
  orders : ∀ k, k ≠ id → w'.order k = w.order k
  refundsOf : ∀ k, k ≠ id → w'.refundsOf k = w.refundsOf k
  grants : ∀ k, k ≠ id → w'.grants k = w.grants k
  row : ∀ o, w.order id = some o → ∃ o', w'.order id = some o' ∧ Order.Write (scope = .creating) o o'
  missing : w.order id = none → w'.order id = none
  refunds : RefundsStay b w w'
  newRefund : ∀ r, w.refund r = none → w'.refund r ≠ none → (i, r) ∈ w.issued
  issued : w'.issued = w.issued
  lastWrite : ∀ j, j ≠ i → w'.lastWrite j = w.lastWrite j

namespace Touches

/-- What the step does to the one order is the business of whoever holds its lock. -/
theorem guar_of (hStep : Touches b scope i id w w')
    (hOne : h ≠ some id → Apart scope id w w' ∨ (free id ∧ (Owned scope id w → Owned scope id w'))) :
    Guar b scope i h free w w' where
  writes k o ho := by
    by_cases hk : k = id
    · subst hk
      exact hStep.row o ho
    · exact ⟨o, by rw [hStep.orders k hk, ho], .refl o⟩
  refunds := hStep.refunds
  issued := .inl hStep.issued
  newOrder k hNone hSome := by
    by_cases hk : k = id
    · exact absurd (hStep.missing (hk ▸ hNone)) (hk ▸ hSome)
    · exact absurd (hStep.orders k hk ▸ hNone) hSome
  newRefund r hNone hSome := hStep.issued ▸ hStep.newRefund r hNone hSome
  lastWrite := hStep.lastWrite
  others k hHeld := by
    by_cases hk : k = id
    · subst hk
      exact hOne hHeld
    · exact .inl ⟨hStep.refundsOf k hk, hStep.grants k hk, fun _ => by simp [core, hStep.orders k hk]⟩

theorem guar (hStep : Touches b scope i id w w') : Guar b scope i (some id) free w w' :=
  hStep.guar_of fun hHeld => absurd rfl hHeld

/-- The step is sound if what it leaves of the one order is. -/
theorem sound (hStep : Touches b scope i id w w') (hSound : Sound scope w)
    (hGranted : 0 < w'.grants id → w'.grants id = 1 ∧ ∃ o, w'.order id = some o ∧ o.status ≠ .PENDING)
    (hBounded : scope.keepsLedger → ∀ o, w'.order id = some o →
      reserved (w'.refundsOf id) ≤ o.amount)
    (hRefunded : scope = .settled → ∀ o, w'.order id = some o → o.status = .REFUNDED →
      FullyRefunded o (w'.refundsOf id))
    (hRefundsPaid : scope = .creating → w'.refundsOf id ≠ [] →
      ∃ o, w'.order id = some o ∧ o.status ≠ .PENDING) : Sound scope w' where
  issued := hStep.issued ▸ hSound.issued
  granted k hPos := by
    by_cases hk : k = id
    · subst hk
      exact hGranted hPos
    · rw [hStep.grants k hk] at hPos ⊢
      rw [hStep.orders k hk]
      exact hSound.granted k hPos
  bounded hScope k o ho := by
    by_cases hk : k = id
    · subst hk
      exact hBounded hScope o ho
    · rw [hStep.orders k hk] at ho
      rw [hStep.refundsOf k hk]
      exact hSound.bounded hScope k o ho
  refunded hScope k o ho hStatus := by
    by_cases hk : k = id
    · subst hk
      exact hRefunded hScope o ho hStatus
    · rw [hStep.orders k hk] at ho
      rw [hStep.refundsOf k hk]
      exact hSound.refunded hScope k o ho hStatus
  refundsPaid hScope k hRefunds := by
    by_cases hk : k = id
    · subst hk
      exact hRefundsPaid hScope hRefunds
    · rw [hStep.refundsOf k hk] at hRefunds
      rw [hStep.orders k hk]
      exact hSound.refundsPaid hScope k hRefunds

end Touches

/-- What the holder of an order's lock knows of what the lock guards. An order
that was missing may be created meanwhile in the `creating` scope. -/
structure Known (scope : Scope) (id : String) (order : Option Order) (refunds : List Refund)
    (grants : Nat) (w : World) : Prop where
  refunds : w.refundsOf id = refunds
  grants : w.grants id = grants
  order : (scope = .creating → order ≠ none) → w.core id = order

namespace Known

variable {core? : Option Order} {refunds : List Refund} {n : Nat}

/-- What is in the store is known. -/
theorem of_world (scope : Scope) (id : String) (w : World) :
    Known scope id (w.core id) (w.refundsOf id) (w.grants id) w :=
  ⟨rfl, rfl, fun _ => rfl⟩

theorem rely (hKnown : Known scope id core? refunds n w) (hRely : Rely b scope i (some id) w w') :
    Known scope id core? refunds n w' where
  refunds := (hRely.heldRefunds id rfl).trans hKnown.refunds
  grants := (hRely.heldGrants id rfl).trans hKnown.grants
  order hOrder := by
    have hCore := hKnown.order hOrder
    refine (hRely.heldOrder id rfl fun hScope hNone => ?_).trans hCore
    exact hOrder hScope (hCore.symm.trans (core_eq_none_iff.mpr hNone))

/-- What is known outlasts a call that touches no order. -/
theorem untouched (hKnown : Known scope id core? refunds n w) (hStep : Untouched i w w') :
    Known scope id core? refunds n w' :=
  hKnown.rely (hStep.rely (b := .memory))

theorem order_eq {o : Order} (hKnown : Known scope id (some o) refunds n w) : w.core id = some o :=
  hKnown.order fun _ => by simp

/-- A known order is stored, up to what others may write. -/
theorem exists_row {o : Order} (hKnown : Known scope id (some o) refunds n w) :
    ∃ row, w.order id = some row ∧ row.core = o :=
  Option.map_eq_some_iff.mp hKnown.order_eq

theorem refunds_eq_nil {o : Order} (hKnown : Known scope id (some o) refunds n w)
    (hSound : Sound scope w) (hScope : scope = .creating) (hPending : o.status = .PENDING) :
    refunds = [] := by
  by_contra hNe
  obtain ⟨row, hRow, rfl⟩ := hKnown.exists_row
  obtain ⟨o', ho', hStatus⟩ := hSound.refundsPaid hScope id (hKnown.refunds ▸ hNe)
  rw [hRow, Option.some.injEq] at ho'
  exact hStatus (ho' ▸ hPending)

/-- An order whose time was granted is no longer PENDING. -/
theorem grants_eq_zero {o : Order} (hKnown : Known scope id (some o) refunds n w)
    (hSound : Sound scope w) (hPending : o.status = .PENDING) : n = 0 := by
  by_contra hNe
  obtain ⟨row, hRow, rfl⟩ := hKnown.exists_row
  obtain ⟨-, o', ho', hStatus⟩ := hSound.granted id (by rw [hKnown.grants]; omega)
  rw [hRow, Option.some.injEq] at ho'
  exact hStatus (ho' ▸ hPending)

end Known
end World

section calls

variable {b : Backend} {scope : Scope} {i : Nat} {h : Option String} {free : String → Prop}
  {c : Call} {reply : Reply} {w w' : World} {answer : Except AppError (Ans c)}

/-- What the answer of a quiet call says about the world it is given in. -/
def Answers (b : Backend) (i : Nat) : (c : Call) → Ans c → World → Prop
  | .ordersFindById id, a, w => a = w.order id
  | .refundsFindByOutRefundNo no, a, w => a = w.store.refunds.findByOutRefundNo b no
  | .uuid, id, w => (i, id) ∈ w.issued ∧ w.order id = none ∧ w.refund id = none
  | _, _, _ => True

/-- Repository calls that are quiet leave the orders and the refunds alone. -/
theorem storeEffect_quiet {effect : Store → Except AppError (Ans c × Store)} {a : Ans c}
    {clock : Int} {s s' : Store} (hEffect : storeEffect b clock c = some effect)
    (hQuiet : c.quiet = true) (hOk : effect s = .ok (a, s')) :
    s'.orders = s.orders ∧ s'.refunds = s.refunds := by
  cases c <;> simp only [storeEffect, Option.some.injEq, reduceCtorEq] at hEffect <;>
    subst hEffect <;> simp only [Call.quiet, Call.writesLedger, Bool.not_true, Bool.false_and,
      Bool.false_eq_true] at hQuiet <;> try (cases hOk; exact ⟨rfl, rfl⟩)
  all_goals
    obtain ⟨t, -, hEq⟩ := map_eq_ok_iff.mp hOk
    cases hEq
    exact ⟨rfl, rfl⟩

/-- Clocks and identifiers touch no order. -/
theorem untouched_noted {a : Ans c} (hAnswer : outsideAnswer w c reply = some a) :
    World.Untouched i w (noted i w c reply) := by
  have hSame : World.Untouched i w w := ⟨rfl, rfl, fun _ => rfl, fun _ => rfl, .inl rfl⟩
  unfold noted
  split
  · next s =>
      have hUnused : w.Unused s := by
        by_contra hNot
        simp [outsideAnswer, hNot] at hAnswer
      exact ⟨rfl, rfl, fun _ => rfl, fun _ => rfl, .inr ⟨s, hUnused, rfl⟩⟩
  · exact ⟨rfl, rfl, fun _ => rfl, fun _ => rfl, .inl rfl⟩
  · exact hSame

/-- A quiet call leaves everything the order locks guard alone. -/
theorem exec_untouched (hQuiet : c.quiet = true) (hExec : exec b i c reply w = some (answer, w')) :
    World.Untouched i w w' := by
  cases hEffect : storeEffect b w.clock c with
  | none =>
      obtain ⟨e, -, rfl, -, -⟩ | ⟨a, hAnswer, -, rfl⟩ := exec_outside hExec hEffect
      · exact World.untouched_log (.inl rfl)
      · have hNoted := untouched_noted (i := i) hAnswer
        have hLog := World.untouched_log (i := i) (w := noted i w c reply)
          (e := ⟨i, c, .ok a, false⟩) (.inl rfl)
        refine ⟨hNoted.orders, hNoted.refunds, ?_, ?_, hNoted.issued⟩
        · exact fun id => (hLog.grants id).trans (hNoted.grants id)
        · exact fun j => (hLog.lastWrite j).trans (hNoted.lastWrite j)
  | some effect =>
      obtain ⟨e, -, rfl, -⟩ | ⟨a, s, hOk, rfl, -⟩ := exec_store hExec hEffect
      · exact World.untouched_log (.inl rfl)
      · obtain ⟨hOrders, hRefunds⟩ := storeEffect_quiet hEffect hQuiet hOk
        have hLog := World.untouched_log (i := i) (w := { w with store := s })
          (e := ⟨i, c, answer, true⟩) (.inr hQuiet)
        exact ⟨hOrders, hRefunds, hLog.grants, hLog.lastWrite, .inl rfl⟩

/-- What a quiet call answers is true in the world it leaves behind. -/
theorem exec_answers {a : Ans c} (hExec : exec b i c reply w = some (.ok a, w')) :
    Answers b i c a w' := by
  cases c with
  | ordersFindById id =>
      obtain ⟨e, hEq, -⟩ | ⟨a', s, hOk, rfl, hEq | ⟨e, hEq, -⟩⟩ := exec_store hExec rfl
      · cases hEq
      · cases hOk
        cases hEq
        exact OrderStore.findById_eq b _ id
      · cases hEq
  | refundsFindByOutRefundNo no =>
      obtain ⟨e, hEq, -⟩ | ⟨a', s, hOk, rfl, hEq | ⟨e, hEq, -⟩⟩ := exec_store hExec rfl
      · cases hEq
      · cases hOk
        cases hEq
        rfl
      · cases hEq
  | uuid =>
      obtain ⟨e, hEq, -⟩ | ⟨s, hAnswer, hEq, rfl⟩ := exec_outside hExec rfl
      · cases hEq
      · cases hEq
        cases reply <;> simp only [outsideAnswer, reduceCtorEq] at hAnswer
        obtain ⟨hUnused, hEq⟩ := Option.ite_none_right_eq_some.mp hAnswer
        cases hEq
        exact ⟨List.mem_cons_self, hUnused.2.1, hUnused.2.2.1⟩
  | _ => trivial

/-- Every statement of a repository may fail. -/
theorem mayThrow_of_storeEffect {clock : Int} {effect : Store → Except AppError (Ans c × Store)}
    (hEffect : storeEffect b clock c = some effect) : mayThrow c = true := by
  cases c <;> first | rfl | simp [storeEffect] at hEffect

/-- A call that throws is one that may, and it was told to or ran into an error of
the repository. -/
theorem exec_error {e : AppError} (hExec : exec b i c reply w = some (.error e, w')) :
    mayThrow c = true ∧ ((∃ applied, reply = .throws applied e) ∨
      ∃ effect, storeEffect b w.clock c = some effect ∧ effect w.store = .error e) := by
  cases hEffect : storeEffect b w.clock c with
  | none =>
      obtain ⟨e', hEq, -, hMay, applied, hReply⟩ | ⟨a, -, hEq, -⟩ := exec_outside hExec hEffect
      · cases hEq
        exact ⟨hMay, .inl ⟨applied, hReply⟩⟩
      · cases hEq
  | some effect =>
      refine ⟨mayThrow_of_storeEffect hEffect, ?_⟩
      obtain ⟨e', hEq, -, hError | hReply⟩ | ⟨a, s, -, -, hEq | ⟨e', hEq, hReply⟩⟩ :=
        exec_store hExec hEffect
      · cases hEq
        exact .inr ⟨effect, rfl, hError⟩
      · cases hEq
        exact .inl ⟨false, hReply⟩
      · cases hEq
      · cases hEq
        exact .inl ⟨true, hReply⟩

end calls

section rules

variable {Instance Key : Type} {scope : Scope} {orderOf : Key → String}
  {locker : Instance → String → Key} {deps : Deps} {α β : Type} {i : Nat} {h : Option String}
  {id : String} {w : World} {Q : Option String → Except AppError α → World → Prop}

/-- The program keeps the order discipline and settles in `Q`. -/
abbrev Safe (scope : Scope) (orderOf : Key → String) (locker : Instance → String → Key)
    (deps : Deps) (i : Nat) (h : Option String) (p : Action Key α)
    (Q : Option String → Except AppError α → World → Prop) (w : World) : Prop :=
  (orderDiscipline scope orderOf locker deps).wp i h p Q w

/-- What is known when a quiet call throws. In the ledger scopes it is not the
order lookup of a task that has yet to release an amount. -/
def Throws (scope : Scope) (i : Nat) (c : Call) (w : World) : Prop :=
  mayThrow c = true ∧ (scope.keepsLedger → releasing w i → ∀ id, c ≠ .ordersFindById id)

/-- A call that reaches no order, answered or failed. -/
theorem safe_quiet {c : Call} {f : Ans c → Action Key α} (hQuiet : c.quiet = true)
    (hOk : ∀ a w', World.Rely deps.backend scope i h w w' → World.Sound scope w' →
      Answers deps.backend i c a w' → Safe scope orderOf locker deps i h (f a) Q w')
    (hError : ∀ e w', World.Rely deps.backend scope i h w w' → World.Sound scope w' →
      Throws scope i c w' → Safe scope orderOf locker deps i h (.ret (.error e)) Q w') :
    Safe scope orderOf locker deps i h (perform c >>= f) Q w := by
  refine Discipline.wp_quiet (A := fun answer w' => match answer with
    | .ok a => Answers deps.backend i c a w'
    | .error _ => Throws scope i c w') ?_ ?_
  · intro w₁ hRely₁ hSound free hFree reply hCond answer w₂ hExec
    have hStep := exec_untouched hQuiet hExec
    refine ⟨hStep.sound hSound, hStep.guar, hStep.rely, ?_⟩
    cases answer with
    | ok a => exact exec_answers hExec
    | error e =>
        obtain ⟨hMay, hWhy⟩ := exec_error hExec
        refine ⟨hMay, fun hScope hReleasing id hc => ?_⟩
        subst hc
        obtain ⟨applied, hReply⟩ | ⟨effect, hEffect, hFails⟩ := hWhy
        · have hReleasing' : releasing w₁ i := by
            simpa only [releasing, hStep.lastWrite] using hReleasing
          exact hCond.release hScope hReleasing' id rfl applied e hReply
        · cases hEffect
          cases hFails
  · intro answer w₂ hRely₂ hSound₂ hAnswer
    cases answer with
    | ok a => exact hOk a w₂ hRely₂ hSound₂ hAnswer
    | error e => exact hError e w₂ hRely₂ hSound₂ hAnswer

/-- The whole program is one quiet call. -/
theorem safe_perform {c : Call} {Q : Option String → Except AppError (Ans c) → World → Prop}
    (hQuiet : c.quiet = true)
    (hPost : ∀ answer w', World.Rely deps.backend scope i h w w' → World.Sound scope w' →
      Q h answer w') :
    Safe scope orderOf locker deps i h (perform c) Q w := by
  refine Discipline.wp_quiet (A := fun _ _ => True) ?_ ?_
  · intro w₁ hRely₁ hSound free hFree reply hCond answer w₂ hExec
    have hStep := exec_untouched hQuiet hExec
    exact ⟨hStep.sound hSound, hStep.guar, hStep.rely, trivial⟩
  · intro answer w₂ hRely₂ hSound₂ _ w₃ hRely₃ hSound₃
    exact hPost answer w₃ (hRely₂.trans hRely₃) hSound₃

theorem safe_ret {result : Except AppError α}
    (hPost : ∀ w', World.Rely deps.backend scope i h w w' → World.Sound scope w' →
      Q h result w') : Safe scope orderOf locker deps i h (.ret result) Q w :=
  hPost

/-- Reading the order whose lock is held. -/
theorem safe_readHeld {core? : Option Order} {refunds : List Refund} {n : Nat}
    {f : Option Order → Action Key α} (hKnown : World.Known scope id core? refunds n w)
    (hNone : ∀ w', World.Known scope id core? refunds n w' → World.Sound scope w' →
      World.Rely deps.backend scope i (some id) w w' → w'.order id = none →
      Safe scope orderOf locker deps i (some id) (f none) Q w')
    (hSome : ∀ o w', World.Known scope id (some o.core) refunds n w' → World.Sound scope w' →
      World.Rely deps.backend scope i (some id) w w' → o.id = id →
      (scope ≠ .creating → core? = some o.core) →
      Safe scope orderOf locker deps i (some id) (f (some o)) Q w')
    (hError : ∀ e w', World.Known scope id core? refunds n w' → World.Sound scope w' →
      World.Rely deps.backend scope i (some id) w w' → (scope.keepsLedger → ¬releasing w' i) →
      Safe scope orderOf locker deps i (some id) (.ret (.error e)) Q w') :
    Safe scope orderOf locker deps i (some id) (perform (Call.ordersFindById id) >>= f) Q w := by
  refine safe_quiet rfl ?_ ?_
  · intro a w' hRely hSound hAnswer
    have hKnown' := hKnown.rely hRely
    cases a with
    | none => exact hNone w' hKnown' hSound hRely hAnswer.symm
    | some o =>
        have hCore := World.core_eq_some hAnswer.symm
        refine hSome o w' ⟨hKnown'.refunds, hKnown'.grants, fun _ => hCore⟩ hSound hRely
          (World.id_of_order hAnswer.symm) fun hScope => ?_
        exact (hKnown'.order fun h => absurd h hScope).symm.trans hCore
  · intro e w' hRely hSound hThrows
    exact hError e w' (hKnown.rely hRely) hSound hRely fun hScope hReleasing =>
      hThrows.2 hScope hReleasing id rfl

end rules
end VpnPayment
