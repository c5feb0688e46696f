import VpnPayment.Settlement.OrderWrites

/-! The settlement programs keep the order discipline. -/
namespace VpnPayment

open Async Collections
open Prog (perform withLock)

section composition

variable {Instance Key : Type} {scope : Scope} {orderOf : Key → String}
  {locker : Instance → String → Key} {deps : Deps} {α β : Type} {i : Nat} {h : Option String}
  {id : String} {w : World} {Q : Option String → Except AppError β → World → Prop}

/-- The program changes nothing the order locks guard. -/
def Quietly (scope : Scope) (orderOf : Key → String) (locker : Instance → String → Key)
    (deps : Deps) (i : Nat) (h : Option String) (p : Action Key α) : Prop :=
  ∀ w, World.Sound scope w → Safe scope orderOf locker deps i h p
    (fun h' _ w' => h' = h ∧ World.Rely deps.backend scope i h w w') w

/-- A quiet call touches no order. -/
theorem quietly_perform {c : Call} (hQuiet : c.quiet = true) :
    Quietly scope orderOf locker deps i h (perform c) :=
  fun _ _ => safe_perform hQuiet fun _ _ hRely _ => ⟨rfl, hRely⟩

theorem quietly_ret (result : Except AppError α) :
    Quietly scope orderOf locker deps i h (.ret result) :=
  fun _ _ => safe_ret fun _ hRely _ => ⟨rfl, hRely⟩

theorem quietly_whenPresent {p : Action Key Unit} (present : Bool)
    (hQuiet : Quietly scope orderOf locker deps i h p) :
    Quietly scope orderOf locker deps i h (whenPresent present p) := by
  cases present with
  | true => exact hQuiet
  | false => exact quietly_ret _

/-- Quiet programs after one another are quiet. -/
theorem quietly_onReturn {p : Action Key α} {f : Except AppError α → Action Key β}
    (hQuiet : Quietly scope orderOf locker deps i h p)
    (hNext : ∀ result, Quietly scope orderOf locker deps i h (f result)) :
    Quietly scope orderOf locker deps i h (p.onReturn f) := by
  intro w hSound
  refine Discipline.wp_onReturn hSound (Discipline.wp_mono ?_ (hQuiet w hSound))
  rintro h' result w' hSound' ⟨rfl, hRely⟩
  refine Discipline.wp_mono ?_ (hNext result w' hSound')
  rintro h'' _ w'' - ⟨rfl, hRely'⟩
  exact ⟨rfl, hRely.trans hRely'⟩

theorem quietly_bind {p : Action Key α} {f : α → Action Key β}
    (hQuiet : Quietly scope orderOf locker deps i h p)
    (hNext : ∀ a, Quietly scope orderOf locker deps i h (f a)) :
    Quietly scope orderOf locker deps i h (p >>= f) := by
  refine quietly_onReturn hQuiet fun result => ?_
  cases result with
  | ok a => exact hNext a
  | error e => exact quietly_ret _

theorem quietly_tryCatch {p : Action Key α} {handler : AppError → Action Key α}
    (hQuiet : Quietly scope orderOf locker deps i h p)
    (hNext : ∀ e, Quietly scope orderOf locker deps i h (handler e)) :
    Quietly scope orderOf locker deps i h (tryCatch p handler) := by
  refine quietly_onReturn hQuiet fun result => ?_
  cases result with
  | ok a => exact quietly_ret _
  | error e => exact hNext e

/-- A quiet program followed by the rest. -/
theorem safe_quietly {p : Action Key α} {f : α → Action Key β} (hSound : World.Sound scope w)
    (hQuiet : Quietly scope orderOf locker deps i h p)
    (hOk : ∀ a w', World.Rely deps.backend scope i h w w' → World.Sound scope w' →
      Safe scope orderOf locker deps i h (f a) Q w')
    (hError : ∀ e w', World.Rely deps.backend scope i h w w' → World.Sound scope w' →
      Safe scope orderOf locker deps i h (.ret (.error e)) Q w') :
    Safe scope orderOf locker deps i h (p >>= f) Q w := by
  refine Discipline.wp_bind hSound (Discipline.wp_mono ?_ (hQuiet w hSound))
  rintro h' result w' hSound' ⟨rfl, hRely⟩
  cases result with
  | ok a => exact hOk a w' hRely hSound'
  | error e => exact hError e w' hRely hSound'

/-- A program of which only the lock it leaves held matters, followed by the rest. -/
theorem safe_bind {p : Action Key α} {f : α → Action Key β} (hSound : World.Sound scope w)
    (hFirst : Safe scope orderOf locker deps i h p (fun h' _ _ => h' = h) w)
    (hOk : ∀ a w', World.Sound scope w' → Safe scope orderOf locker deps i h (f a) Q w')
    (hError : ∀ e w', World.Sound scope w' →
      Safe scope orderOf locker deps i h (.ret (.error e)) Q w') :
    Safe scope orderOf locker deps i h (p >>= f) Q w := by
  refine Discipline.wp_bind hSound (Discipline.wp_mono ?_ hFirst)
  rintro h' result w' hSound' rfl
  cases result with
  | ok a => exact hOk a w' hSound'
  | error e => exact hError e w' hSound'

/-- What a critical section has to establish before it ends. -/
def Released (scope : Scope) (id : String) (h : Option String) (_ : Except AppError α)
    (w : World) : Prop :=
  h = some id ∧ World.Owned scope id w

/-- The ledger of an order, as far as its row and refunds are known. -/
def KnownLedger (scope : Scope) (core? : Option Order) (refunds : List Refund) : Prop :=
  scope.keepsLedger → ∀ core, core? = some core → LedgerHolds core refunds

/-- What is known of an order makes its owner own it. -/
theorem World.Known.owned {core? : Option Order} {refunds : List Refund} {n : Nat}
    (hKnown : World.Known scope id core? refunds n w) (hLedger : KnownLedger scope core? refunds) :
    World.Owned scope id w := by
  intro hScope o ho
  have hCore := hKnown.order fun h => absurd h (not_creating hScope)
  rw [World.core_eq_some ho] at hCore
  rw [hKnown.refunds]
  exact ledgerHolds_core.mp (hLedger hScope o.core hCore.symm)

/-- A critical section may end while the ledger of the order is known to hold. -/
theorem safe_done {core? : Option Order} {refunds : List Refund} {n : Nat}
    {result : Except AppError α} (hKnown : World.Known scope id core? refunds n w)
    (hLedger : KnownLedger scope core? refunds) :
    Safe scope orderOf locker deps i (some id) (.ret result) (Released scope id) w :=
  safe_ret fun _ hRely _ => ⟨rfl, (hKnown.rely hRely).owned hLedger⟩

/-- A critical section may end with a quiet program. -/
theorem safe_quiet_done {core? : Option Order} {refunds : List Refund} {n : Nat} {p : Action Key α}
    (hSound : World.Sound scope w) (hKnown : World.Known scope id core? refunds n w)
    (hLedger : KnownLedger scope core? refunds)
    (hQuiet : Quietly scope orderOf locker deps i (some id) p) :
    Safe scope orderOf locker deps i (some id) p (Released scope id) w := by
  refine Discipline.wp_mono ?_ (hQuiet w hSound)
  rintro h' result w' - ⟨rfl, hRely⟩
  exact ⟨rfl, (hKnown.rely hRely).owned hLedger⟩

/-- Entering the critical section of an order. -/
theorem safe_withLock {key : Key} {p : Action Key α} (hKey : orderOf key = id)
    (hBody : ∀ w', World.Rely deps.backend scope i none w w' → World.Sound scope w' →
      KnownLedger scope (w'.core id) (w'.refundsOf id) →
      Safe scope orderOf locker deps i (some id) p (Released scope id) w') :
    Safe scope orderOf locker deps i none (withLock key p) (fun h' _ _ => h' = none) w := by
  subst hKey
  refine Discipline.wp_withLock fun w' hRely hSound hOwned => ?_
  refine Discipline.wp_mono ?_ (hBody w' hRely hSound fun hScope core hCore => ?_)
  · rintro h' result w'' - ⟨rfl, hOwned'⟩
    exact ⟨rfl, hOwned', fun _ _ _ => rfl⟩
  · obtain ⟨o, ho, rfl⟩ := Option.map_eq_some_iff.mp hCore
    exact ledgerHolds_core.mpr (hOwned hScope o ho)

end composition

section programs

variable {Instance Key : Type} {scope : Scope} {orderOf : Key → String}
  {locker : Instance → String → Key} {deps : Deps} {i n : Nat} {id : String}
  {refunds : List Refund} {w : World}

/-- What `fulfillOrder` leaves of what the lock guards. The time is granted once,
and that is all it changes. -/
def GrantedOnce (scope : Scope) (id : String) (core : Order) (refunds : List Refund)
    (granted : α → Prop) (h : Option String) (result : Except AppError α) (w : World) : Prop :=
  h = some id ∧ match result with
    | .ok a => granted a ∧ World.Known scope id (some core) refunds 1 w
    | .error _ => ∃ n, World.Known scope id (some core) refunds n w

/-- A failure grants nothing. -/
theorem safe_grantedOnce_error {core : Order} {granted : α → Prop} {e : AppError}
    (hKnown : World.Known scope id (some core) refunds n w) :
    Safe scope orderOf locker deps i (some id) (.ret (.error e))
      (GrantedOnce scope id core refunds granted) w :=
  safe_ret fun _ hRely _ => ⟨rfl, n, hKnown.rely hRely⟩

/-- A success has granted once. -/
theorem safe_grantedOnce_ok {core : Order} {granted : α → Prop} {a : α} (hGranted : granted a)
    (hKnown : World.Known scope id (some core) refunds 1 w) :
    Safe scope orderOf locker deps i (some id) (.ret (.ok a))
      (GrantedOnce scope id core refunds granted) w :=
  safe_ret fun _ hRely _ => ⟨rfl, hGranted, hKnown.rely hRely⟩

/-- The grant is the write of the subscription. -/
theorem safe_writeSubscription {core order : Order} (plan : Plan) (now : Int)
    (existing : Option Subscription) (hId : order.id = id) (hStatus : core.status ≠ .PENDING)
    (hKnown : World.Known scope id (some core) refunds 0 w) :
    Safe scope orderOf locker deps i (some id)
      (SubscriptionService.writeSubscription plan order now existing)
      (GrantedOnce scope id core refunds fun _ => True) w := by
  unfold SubscriptionService.writeSubscription
  cases existing.filter fun e => e.expiresAt > now with
  | some running =>
      refine safe_grant ?_ hKnown hStatus (fun _ w' hKnown' _ => ?_) fun e w' n' hKnown' _ => ?_
      · simp [Call.grantee, SubscriptionService.extended, hId]
      · exact safe_grantedOnce_ok trivial hKnown'
      · exact safe_grantedOnce_error hKnown'
  | none =>
      refine safe_quiet rfl (fun subId w₁ hRely hSound _ => ?_)
        fun e w₁ hRely _ _ => safe_grantedOnce_error (hKnown.rely hRely)
      refine safe_grant ?_ (hKnown.rely hRely) hStatus (fun _ w' hKnown' _ => ?_)
        fun e w' n' hKnown' _ => ?_
      · simp [Call.grantee, SubscriptionService.started, hId]
      · exact safe_grantedOnce_ok trivial hKnown'
      · exact safe_grantedOnce_error hKnown'

/-- `fulfillOrder` on a PAID order that was not granted yet. -/
theorem safe_fulfillOrder {core order : Order} (hId : order.id = id) (hPaid : order.status = .PAID)
    (hStatus : core.status ≠ .PENDING) (hKnown : World.Known scope id (some core) refunds 0 w) :
    Safe scope orderOf locker deps i (some id) (SubscriptionService.fulfillOrder deps order)
      (GrantedOnce scope id core refunds fun result => ∃ now,
        result.1 = { order with status := .FULFILLED, updatedAt := now }) w := by
  have hNot : order.status ≠ .FULFILLED := by simp [hPaid]
  simp only [SubscriptionService.fulfillOrder, hNot, if_false, SubscriptionService.grant]
  split
  · exact safe_grantedOnce_error hKnown
  · next plan _ =>
      refine safe_quiet rfl (fun now w₁ hRely₁ hSound₁ _ => ?_)
        fun e w₁ hRely₁ _ _ => safe_grantedOnce_error (hKnown.rely hRely₁)
      have hKnown₁ := hKnown.rely hRely₁
      refine safe_quiet rfl (fun existing w₂ hRely₂ hSound₂ _ => ?_)
        fun e w₂ hRely₂ _ _ => safe_grantedOnce_error (hKnown₁.rely hRely₂)
      refine Discipline.wp_bind hSound₂ (Discipline.wp_mono ?_
        (safe_writeSubscription plan now existing hId hStatus (hKnown₁.rely hRely₂)))
      rintro h' result w₃ - ⟨rfl, hResult⟩
      cases result with
      | error e =>
          obtain ⟨n, hKnown₃⟩ := hResult
          exact safe_grantedOnce_error hKnown₃
      | ok subscription =>
          rw [hPaid]
          exact safe_grantedOnce_ok ⟨now, rfl⟩ hResult.2

/-- The settlement of a PENDING order under its lock. -/
theorem safe_settle {order : Order} (paid : PaidReport) (hId : order.id = id)
    (hPending : order.status = .PENDING) (hSound : World.Sound scope w)
    (hLedger : KnownLedger scope (some order.core) refunds)
    (hKnown : World.Known scope id (some order.core) refunds n w) :
    Safe scope orderOf locker deps i (some id) (PaymentService.settle deps order paid)
      (Released scope id) w := by
  obtain rfl : n = 0 := hKnown.grants_eq_zero hSound hPending
  have hNoRefunds : scope.keepsLedger → refunds = [] := fun hScope => by
    by_contra hRefunds
    have hPaid := (hLedger hScope _ rfl).paid hRefunds
    rw [show order.core.status = order.status from rfl, hPending] at hPaid
    simp at hPaid
  unfold PaymentService.settle
  refine safe_quiet rfl (fun now w₁ hRely₁ _ _ => ?_)
    fun e w₁ hRely₁ _ _ => safe_done (hKnown.rely hRely₁) hLedger
  have hTransition : assertTransition order.status .PAID = .ok .PAID := by
    rw [hPending]
    rfl
  rw [hTransition, Prog.ofExcept_ok_bind]
  have hKept : ∀ o : Order, o.amount = order.amount → o.refundedAmount = order.refundedAmount →
      KnownLedger scope (some (OrderStore.written deps.backend o o).core) refunds := by
    rintro o hAmount hRefunded hScope core ⟨⟩
    exact ledgerHolds_written (hLedger hScope _ rfl) hAmount (by rw [hRefunded])
      fun hRefunds => absurd (hNoRefunds hScope) hRefunds
  refine safe_updateHeld (hKnown.rely hRely₁) hId rfl (.inr (by rw [hPending]; rfl))
    (OrderStore.keeps_written ⟨fun _ => rfl, fun _ => rfl, fun h => h⟩) (by simp [PaymentService.paidOrder])
    (by simp [PaymentService.paidOrder]) (fun w₂ hKnown₂ hSound₂ => ?_)
    fun e w₂ core' hNot hKnown₂ _ => safe_done hKnown₂ fun hScope => absurd hScope hNot
  generalize hPaid : PaymentService.paidOrder order paid .PAID now = paidOrder at hKnown₂
  have hPaidStatus : paidOrder.status = .PAID := by rw [← hPaid]; rfl
  have hPaidId : paidOrder.id = id := by rw [← hPaid]; exact hId
  have hCoreStatus : (OrderStore.written deps.backend paidOrder paidOrder).core.status ≠ .PENDING := by
    simp [Order.core, hPaidStatus]
  refine Discipline.wp_bind hSound₂ (Discipline.wp_mono ?_
    (safe_fulfillOrder hPaidId hPaidStatus hCoreStatus hKnown₂))
  rintro h' result w₃ hSound₃ ⟨rfl, hResult⟩
  cases result with
  | error e =>
      obtain ⟨n, hKnown₃⟩ := hResult
      exact safe_done hKnown₃ (hKept _ (by rw [← hPaid]; rfl) (by rw [← hPaid]; rfl))
  | ok fulfilled =>
      obtain ⟨⟨now', hFulfilled⟩, hKnown₃⟩ := hResult
      have hRowId : (OrderStore.written deps.backend paidOrder paidOrder).id = id :=
        (OrderStore.written_id rfl).trans hPaidId
      refine safe_updateHeld hKnown₃ hRowId ?_ ?_ (OrderStore.keeps_written_written ?_)
        (by simp [hFulfilled]) (by simp [hFulfilled]) (fun w₄ hKnown₄ hSound₄ => ?_)
        fun e w₄ core' hNot hKnown₄ _ => safe_done hKnown₄ fun hScope => absurd hScope hNot
      · rw [OrderStore.identity_written rfl, hFulfilled]
        rfl
      · rw [OrderStore.status_written, hPaidStatus, hFulfilled]
        exact .inr rfl
      · rw [hFulfilled]
        exact ⟨fun h => h, fun h => h, fun h => h⟩
      · refine safe_quiet_done hSound₄ hKnown₄ (hKept _ ?_ ?_) ?_
        · rw [hFulfilled, ← hPaid]
          rfl
        · rw [hFulfilled, ← hPaid]
          rfl
        · refine quietly_bind (quietly_whenPresent _ (quietly_perform rfl)) fun _ => ?_
          refine quietly_bind (quietly_whenPresent _ (quietly_perform rfl)) fun _ => ?_
          refine quietly_bind (quietly_whenPresent _ (quietly_tryCatch (quietly_perform rfl)
            fun _ => quietly_ret _)) fun _ => quietly_ret _

/-- What is left when an order is neither paid nor in a terminal state. -/
theorem status_eq_pending {status : OrderStatus} (hPaid : ¬(status = .PAID ∨ status = .FULFILLED))
    (hTerminal : ¬isTerminal status = true) : status = .PENDING := by
  cases status <;> revert hPaid hTerminal <;> decide

/-- The locked body is safe on the order that was read again. -/
theorem safe_applyPayment (hKey : ∀ orderId, orderOf (locker n₀ orderId) = orderId)
    (orderId : String) (paid : PaidReport) :
    Safe scope orderOf locker deps i none
      (PaymentService.applyPayment (locker n₀) deps orderId paid) (fun h' _ _ => h' = none) w := by
  refine safe_withLock (hKey orderId) fun w₁ _ hSound₁ hLedger => ?_
  refine safe_readHeld (World.Known.of_world scope orderId w₁)
    (fun w₂ hKnown _ _ _ => safe_done hKnown hLedger) (fun o w₂ hKnown hSound₂ _ hId hSame => ?_)
    fun e w₂ hKnown _ _ _ => safe_done hKnown hLedger
  have hLedger₂ : KnownLedger scope (some o.core) (w₁.refundsOf orderId) := fun hScope =>
    hSame (not_creating hScope) ▸ hLedger hScope
  show Safe scope orderOf locker deps i (some orderId) (PaymentService.settleFresh deps o paid) _ w₂
  unfold PaymentService.settleFresh
  split
  · exact safe_done hKnown hLedger₂
  split
  · exact safe_done hKnown hLedger₂
  split
  · exact safe_done hKnown hLedger₂
  split
  · exact safe_done hKnown hLedger₂
  next hPaid hTerminal _ _ =>
    exact safe_settle paid hId (status_eq_pending hPaid hTerminal) hSound₂ hLedger₂ hKnown

/-- A program that ends outside every critical section. -/
abbrev SafeProgram (scope : Scope) (orderOf : Key → String) (locker : Instance → String → Key)
    (deps : Deps) (i : Nat) (p : Action Key α) (w : World) : Prop :=
  Safe scope orderOf locker deps i none p (fun h' _ _ => h' = none) w

theorem safeProgram_ret (result : Except AppError α) :
    SafeProgram scope orderOf locker deps i (.ret result) w :=
  safe_ret fun _ _ _ => rfl

/-- A quiet call outside the lock. -/
theorem safeProgram_quiet {c : Call} {f : Ans c → Action Key α} (hQuiet : c.quiet = true)
    (hOk : ∀ a w', World.Sound scope w' → SafeProgram scope orderOf locker deps i (f a) w') :
    SafeProgram scope orderOf locker deps i (perform c >>= f) w :=
  safe_quiet hQuiet (fun a w' _ hSound _ => hOk a w' hSound) fun _ _ _ _ _ => safeProgram_ret _

/-- Two programs outside the lock. -/
theorem safeProgram_bind {p : Action Key α} {f : α → Action Key β} (hSound : World.Sound scope w)
    (hFirst : SafeProgram scope orderOf locker deps i p w)
    (hOk : ∀ a w', World.Sound scope w' → SafeProgram scope orderOf locker deps i (f a) w') :
    SafeProgram scope orderOf locker deps i (p >>= f) w :=
  safe_bind hSound hFirst hOk fun _ _ _ => safeProgram_ret _

theorem safeProgram_ofExcept {result : Except AppError α} {f : α → Action Key β}
    (hOk : ∀ a, SafeProgram scope orderOf locker deps i (f a) w) :
    SafeProgram scope orderOf locker deps i (Prog.ofExcept result >>= f) w := by
  cases result with
  | ok a => exact hOk a
  | error e => exact safeProgram_ret _

/-- A callback touches its order under the lock only. -/
theorem safe_handleCallback (hKey : ∀ orderId, orderOf (locker n₀ orderId) = orderId)
    (method : PaymentMethod) (raw : RawCallback) :
    SafeProgram scope orderOf locker deps i
      (PaymentService.handleCallback (locker n₀) deps method raw) w := by
  refine safeProgram_ofExcept fun provider => safeProgram_quiet rfl fun result w₁ _ => ?_
  split
  · exact safeProgram_ret _
  refine safeProgram_quiet rfl fun isNew w₂ _ => ?_
  split
  · exact safeProgram_ret _
  refine safeProgram_quiet rfl fun order w₃ hSound₃ => ?_
  cases order with
  | none => exact safeProgram_ret _
  | some order =>
      refine Discipline.wp_tryCatch hSound₃ ?_
      refine safe_bind hSound₃ (safe_applyPayment hKey _ _) (fun _ w₄ _ => ?_) fun e w₄ _ => ?_
      · exact safe_ret fun _ _ _ => safeProgram_ret _
      · exact safe_ret fun _ _ _ => safeProgram_ret _

theorem safe_syncOrder (hKey : ∀ orderId, orderOf (locker n₀ orderId) = orderId)
    (orderId : String) :
    SafeProgram scope orderOf locker deps i
      (PaymentService.syncOrder (locker n₀) deps orderId) w := by
  refine safeProgram_quiet rfl fun order w₁ _ => ?_
  cases order with
  | none => exact safeProgram_ret _
  | some order =>
      dsimp only
      split
      · exact safeProgram_ret _
      refine safeProgram_ofExcept fun _ => ?_
      refine safeProgram_quiet rfl fun q w₂ _ => ?_
      split
      · refine safeProgram_quiet rfl fun isNew w₃ _ => ?_
        split
        · exact safeProgram_quiet rfl fun latest w₄ _ => safeProgram_ret _
        · exact safe_applyPayment hKey _ _
      · exact safeProgram_ret _

/-- One order of the expiry pass. -/
theorem safe_expireOrder (hKey : ∀ orderId, orderOf (locker n₀ orderId) = orderId)
    (orderId : String) :
    SafeProgram scope orderOf locker deps i
      (PaymentService.expireOrder (locker n₀) orderId) w := by
  refine safe_withLock (hKey orderId) fun w₁ _ hSound₁ hLedger => ?_
  refine safe_readHeld (World.Known.of_world scope orderId w₁)
    (fun w₂ hKnown _ _ _ => safe_done hKnown hLedger) (fun o w₂ hKnown hSound₂ _ hId hSame => ?_)
    fun e w₂ hKnown _ _ _ => safe_done hKnown hLedger
  have hLedger₂ : KnownLedger scope (some o.core) (w₁.refundsOf orderId) := fun hScope =>
    hSame (not_creating hScope) ▸ hLedger hScope
  by_cases hPending : o.status = .PENDING
  · have hTransition : assertTransition o.status .EXPIRED = .ok .EXPIRED := by
      rw [hPending]
      rfl
    simp only [Option.filter, hPending, decide_true, if_true]
    rw [← hPending, hTransition, Prog.ofExcept_ok_bind]
    refine safe_quiet rfl (fun now w₃ hRely₃ hSound₃ _ => ?_)
      fun e w₃ hRely₃ _ _ => safe_done (hKnown.rely hRely₃) hLedger₂
    have hNoRefunds : scope.keepsLedger → w₁.refundsOf orderId = [] := fun hScope => by
      by_contra hRefunds
      have hPaid := (hLedger₂ hScope _ rfl).paid hRefunds
      rw [show o.core.status = o.status from rfl, hPending] at hPaid
      simp at hPaid
    refine safe_updateHeld (hKnown.rely hRely₃) hId rfl (.inr (by rw [hPending]; rfl))
      (OrderStore.keeps_written ⟨fun h => h, fun h => h, fun h => h⟩) (by simp) (by simp)
      (fun w₄ hKnown₄ hSound₄ => safe_done hKnown₄ ?_)
      fun e w₄ core' hNot hKnown₄ _ => safe_done hKnown₄ fun hScope => absurd hScope hNot
    rintro hScope core ⟨⟩
    exact ledgerHolds_written (hLedger₂ hScope _ rfl) rfl rfl
      fun hRefunds => absurd (hNoRefunds hScope) hRefunds
  · simp only [Option.filter, hPending, decide_false, Bool.false_eq_true, if_false]
    exact safe_done hKnown hLedger₂

/-- By induction on the orders the expiry pass has yet to visit. -/
theorem safe_expireEach (hKey : ∀ orderId, orderOf (locker n₀ orderId) = orderId) (now : Int)
    (orders : List Order) (count : Nat) (hSound : World.Sound scope w) :
    SafeProgram scope orderOf locker deps i
      (PaymentService.expireEach (locker n₀) now orders count) w := by
  induction orders generalizing count w with
  | nil => exact safeProgram_ret _
  | cons o rest ih =>
      unfold PaymentService.expireEach
      split
      · exact safeProgram_bind hSound (safe_expireOrder hKey o.id) fun _ w' hSound' => ih _ hSound'
      · exact ih _ hSound

theorem safe_expireStaleOrders (hKey : ∀ orderId, orderOf (locker n₀ orderId) = orderId) :
    SafeProgram scope orderOf locker deps i (PaymentService.expireStaleOrders (locker n₀)) w :=
  safeProgram_quiet rfl fun now _ _ => safeProgram_quiet rfl fun all _ hSound₂ =>
    safe_expireEach hKey now all 0 hSound₂

end programs
end VpnPayment
