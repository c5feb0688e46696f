import VpnPayment.Settlement.PaymentPrograms

/-! The refund programs keep the order discipline. -/
namespace VpnPayment

open Async Collections
open Prog (perform withLock)

variable {Instance Key : Type} {scope : Scope} {orderOf : Key → String}
  {locker : Instance → String → Key} {deps : Deps} {α : Type} {i n : Nat} {id : String}
  {refunds : List Refund} {w : World}

/-- A call that cannot throw does not. -/
theorem safe_quiet_total {c : Call} {f : Ans c → Action Key α} {h : Option String}
    {Q : Option String → Except AppError α → World → Prop} (hQuiet : c.quiet = true)
    (hTotal : mayThrow c = false)
    (hOk : ∀ a w', World.Rely deps.backend scope i h w w' → World.Sound scope w' →
      Answers deps.backend i c a w' → Safe scope orderOf locker deps i h (f a) Q w') :
    Safe scope orderOf locker deps i h (perform c >>= f) Q w :=
  safe_quiet hQuiet hOk fun _ _ _ _ hThrows => by
    have hMay := hThrows.1
    rw [hTotal] at hMay
    cases hMay

/-- What is known of the refunds when the total is about to be reserved. -/
structure Reservable (order : Order) (total : Int) (refunds : List Refund) : Prop where
  balanced : total = reserved refunds
  bounded : total ≤ order.amount
  positive : ∀ r ∈ refunds, 0 < r.amount
  paid : order.status = .PAID ∨ order.status = .FULFILLED ∨ order.status = .REFUNDED

/-- The ledger of the order is known to hold when the program is done. -/
def Balanced (scope : Scope) (id : String) (refunds : List Refund) (n : Nat) (h : Option String)
    (_ : Except AppError α) (w : World) : Prop :=
  h = some id ∧ ∃ core, World.Known scope id (some core) refunds n w ∧
    KnownLedger scope (some core) refunds

/-- A program that ends with the ledger in balance is safe. -/
theorem safe_balanced {core : Order} {result : Except AppError α}
    (hKnown : World.Known scope id (some core) refunds n w)
    (hLedger : KnownLedger scope (some core) refunds) :
    Safe scope orderOf locker deps i (some id) (.ret result) (Balanced scope id refunds n) w :=
  safe_ret fun _ hRely _ => ⟨rfl, core, hKnown.rely hRely, hLedger⟩

/-- Only a paid order can be marked REFUNDED. -/
theorem assertTransition_refunded {status : OrderStatus}
    (hPaid : status = .PAID ∨ status = .FULFILLED ∨ status = .REFUNDED) :
    assertTransition status .REFUNDED = .ok .REFUNDED := by
  rcases hPaid with rfl | rfl | rfl <;> rfl

/-- The reservation writes a total that covers the refunds. -/
theorem safe_reserveRefund {order : Order} {total : Int} (settled : Bool) (hId : order.id = id)
    (hReservable : scope.keepsLedger → Reservable order total refunds)
    (hNoPending : scope = .settled → settled = true → order.amount ≤ total →
      ∀ r ∈ refunds, r.status ≠ .PENDING)
    (hStatus : scope = .creating → order.status ≠ .PENDING)
    (hKnown : World.Known scope id (some order.core) refunds n w) :
    Safe scope orderOf locker deps i (some id) (RefundService.reserveRefund order total settled)
      (Balanced scope id refunds n) w := by
  refine safe_quiet_total rfl rfl fun now w₁ hRely₁ hSound₁ _ => ?_
  have hKnown₁ := hKnown.rely hRely₁
  -- the write-back, with the status it carries
  have hWrite : ∀ status : OrderStatus, Edge order.status status →
      (scope.keepsLedger → status = .PAID ∨ status = .FULFILLED ∨ status = .REFUNDED) →
      (scope = .settled → status = .REFUNDED → order.status ≠ .REFUNDED →
        FullyRefunded order refunds) →
      Safe scope orderOf locker deps i (some id)
        (perform (Call.ordersUpdate
          { order with refundedAmount := some total, updatedAt := now, status := status })
          >>= fun _ => pure ()) (Balanced scope id refunds n) w₁ := by
    intro status hEdge hPaid hCovered
    refine safe_updateHeld hKnown₁ hId rfl hEdge
      (OrderStore.keeps_written ⟨fun h => h, fun h => h, fun _ => rfl⟩)
      (fun hScope hNew => absurd (edge_to_pending (hNew ▸ hEdge)) (hStatus hScope))
      (fun hScope hNew hNot => ⟨(hCovered hScope hNew hNot).1, (hCovered hScope hNew hNot).2⟩)
      (fun w₂ hKnown₂ _ => safe_balanced hKnown₂ ?_)
      fun e w₂ core' hNot hKnown₂ _ => safe_balanced hKnown₂ fun hScope => absurd hScope hNot
    rintro hScope core ⟨⟩
    obtain ⟨hBalanced, hBounded, hPositive, -⟩ := hReservable hScope
    refine ⟨?_, ?_, hPositive, ?_⟩
    · exact OrderStore.refundedAmount_written_getD.trans hBalanced
    · cases deps.backend <;> exact hBalanced ▸ hBounded
    · intro _
      have hNew := hPaid hScope
      cases deps.backend <;> exact hNew
  split
  · next hFull =>
      cases hTransition : assertTransition order.status .REFUNDED with
      | error e =>
          refine safe_balanced hKnown₁ fun hScope => ?_
          rw [assertTransition_refunded (hReservable hScope).paid] at hTransition
          cases hTransition
      | ok status =>
          obtain ⟨rfl, hEdge⟩ := assertTransition_ok hTransition
          refine hWrite .REFUNDED hEdge (fun _ => .inr (.inr rfl)) fun hScope _ _ => ?_
          have hBalanced := (hReservable (.inr hScope)).balanced
          exact ⟨hNoPending hScope hFull.1 hFull.2.1, hBalanced ▸ hFull.2.1⟩
  · refine hWrite order.status (.inl rfl) (fun hScope => (hReservable hScope).paid) ?_
    exact fun _ hNew hNot => absurd hNew hNot

/-- The provider is asked, or there is nothing to ask. -/
theorem quietly_requestRefund {h : Option String} (provider : PaymentProvider) (order : Order)
    (request : RefundRequest) :
    Quietly scope orderOf locker deps i h
      (RefundService.requestRefund provider order request) := by
  unfold RefundService.requestRefund
  split
  · exact quietly_perform rfl
  · exact quietly_ret _

theorem quietly_refundNumber {h : Option String} (input : RefundInput) :
    Quietly scope orderOf locker deps i h (RefundService.refundNumber input) := by
  unfold RefundService.refundNumber
  split
  · exact quietly_ret _
  · exact quietly_perform rfl

theorem quietly_announceRefund {h : Option String} (order : Order) (refund : Refund) :
    Quietly scope orderOf locker deps i h (RefundService.announceRefund deps order refund) :=
  quietly_bind (quietly_whenPresent _ (quietly_perform rfl)) fun _ =>
    quietly_whenPresent _ (quietly_perform rfl)

/-- A new refund of at most what remains keeps the ledger once it is reserved. -/
theorem safe_reserveUnlessFailed {order : Order} {refund : Refund} (hId : order.id = id)
    (hStatus : order.status = .PAID ∨ order.status = .FULFILLED) (hPositive : 0 < refund.amount)
    (hRemaining : refund.amount ≤ order.amount - order.refundedAmount.getD 0)
    (hLedger : KnownLedger scope (some order.core) refunds)
    (hNoPending : scope = .settled → isSettled refund.status = true →
      order.amount ≤ reserved refunds + refund.amount → ∀ r ∈ refunds, r.status ≠ .PENDING)
    (hKnown : World.Known scope id (some order.core) (refunds ++ [refund]) n w) :
    Safe scope orderOf locker deps i (some id)
      (RefundService.reserveUnlessFailed order (order.refundedAmount.getD 0 + refund.amount)
        refund.status) (Balanced scope id (refunds ++ [refund]) n) w := by
  have hPaid : order.status = .PAID ∨ order.status = .FULFILLED ∨ order.status = .REFUNDED :=
    hStatus.imp (fun h => h) .inl
  have hNotPending : order.status ≠ .PENDING := by
    intro hPending
    rcases hStatus with h | h <;> cases hPending.symm.trans h
  have hPositives : scope.keepsLedger → ∀ r ∈ refunds ++ [refund], 0 < r.amount := by
    intro hScope r hr
    rcases List.mem_append.mp hr with hOld | hNew
    · exact (hLedger hScope _ rfl).positive r hOld
    · rw [List.mem_singleton.mp hNew]
      exact hPositive
  have hBalanced : scope.keepsLedger → order.refundedAmount.getD 0 = reserved refunds :=
    fun hScope => (hLedger hScope _ rfl).balanced
  unfold RefundService.reserveUnlessFailed
  split
  · next hNotFailed =>
      have hReserves : refund.reserves = refund.amount := by simp [Refund.reserves, hNotFailed]
      refine safe_reserveRefund _ hId (fun hScope => ?_) (fun hScope hSettled hFull => ?_)
        (fun _ => hNotPending) hKnown
      · refine ⟨?_, by omega, hPositives hScope, hPaid⟩
        rw [reserved_append, hReserves, hBalanced hScope]
      · rw [hBalanced (.inr hScope)] at hFull
        intro r hr hPending
        rcases List.mem_append.mp hr with hOld | hNew
        · exact hNoPending hScope hSettled hFull r hOld hPending
        · rw [← List.mem_singleton.mp hNew, hPending] at hSettled
          cases hSettled
  · next hFailed =>
      have hReserves : refund.reserves = 0 := by
        simp [Refund.reserves, not_not.mp hFailed]
      refine safe_balanced hKnown ?_
      rintro hScope core ⟨⟩
      have hOld := hLedger hScope _ rfl
      refine ⟨?_, ?_, hPositives hScope, fun _ => hPaid⟩
      · rw [reserved_append, hReserves, Int.add_zero]
        exact hOld.balanced
      · rw [reserved_append, hReserves, Int.add_zero]
        exact hOld.bounded

/-- A refund within what remains of the amount keeps the ledger in balance. -/
theorem safe_issueRefund {order : Order} {amount : Int} (provider : PaymentProvider)
    (input : RefundInput) (hId : order.id = id)
    (hStatus : order.status = .PAID ∨ order.status = .FULFILLED)
    (hPositive : 0 < amount) (hRemaining : amount ≤ order.amount - order.refundedAmount.getD 0)
    (hSound : World.Sound scope w) (hLedger : KnownLedger scope (some order.core) refunds)
    (hKnown : World.Known scope id (some order.core) refunds n w) :
    Safe scope orderOf locker deps i (some id)
      (RefundService.issueRefund deps order (order.refundedAmount.getD 0) amount provider input)
      (Released scope id) w := by
  refine safe_quietly hSound (quietly_refundNumber input) (fun outRefundNo w₁ hRely₁ hSound₁ => ?_)
    fun e w₁ hRely₁ _ => safe_done (hKnown.rely hRely₁) hLedger
  have hKnown₁ := hKnown.rely hRely₁
  refine safe_quiet_total rfl rfl fun now w₂ hRely₂ hSound₂ _ => ?_
  have hKnown₂ := hKnown₁.rely hRely₂
  refine safe_quietly hSound₂ (quietly_requestRefund _ _ _) (fun result w₃ hRely₃ hSound₃ => ?_)
    fun e w₃ hRely₃ _ => safe_done (hKnown₂.rely hRely₃) hLedger
  have hKnown₃ := hKnown₂.rely hRely₃
  refine safe_quiet_total rfl rfl fun refundId w₄ hRely₄ hSound₄ hDrawn => ?_
  have hKnown₄ := hKnown₃.rely hRely₄
  refine safe_refundsCreate hKnown₄ hId hStatus hDrawn.1 hDrawn.2.2 (fun hScope => ?_)
    (fun w₅ hKnown₅ hSound₅ hNoPending => ?_) fun e w₅ refunds' hSame hKnown₅ _ => ?_
  · have hBalanced : order.refundedAmount.getD 0 = reserved refunds := (hLedger hScope _ rfl).balanced
    have hReserves := Refund.reserves_le (r := RefundService.newRefund refundId order outRefundNo
      amount input.reason result now) hPositive.le
    rw [reserved_append]
    simp only [RefundService.newRefund, Order.core] at hReserves ⊢
    omega
  · refine Discipline.wp_bind hSound₅ (Discipline.wp_mono ?_
      (safe_reserveUnlessFailed hId hStatus hPositive hRemaining hLedger hNoPending hKnown₅))
    rintro h' reservation w₆ hSound₆ ⟨rfl, core, hKnown₆, hLedger₆⟩
    cases reservation with
    | error e => exact safe_done hKnown₆ hLedger₆
    | ok _ =>
        exact safe_quiet_done hSound₆ hKnown₆ hLedger₆
          (quietly_bind (quietly_announceRefund _ _) fun _ => quietly_ret _)
  · refine safe_done hKnown₅ fun hScope core hCore => ?_
    rw [hSame hScope]
    exact hLedger hScope core hCore

/-- The checks on the amount are made on the order that was read again. -/
theorem safe_refundFresh {order : Order} (input : RefundInput) (hId : order.id = id)
    (hSound : World.Sound scope w) (hLedger : KnownLedger scope (some order.core) refunds)
    (hKnown : World.Known scope id (some order.core) refunds n w) :
    Safe scope orderOf locker deps i (some id) (RefundService.refundFresh deps order input)
      (Released scope id) w := by
  unfold RefundService.refundFresh
  split
  · exact safe_done hKnown hLedger
  next hStatus =>
    have hStatus : order.status = .PAID ∨ order.status = .FULFILLED := by
      by_contra hNot
      exact hStatus (not_or.mp hNot)
    dsimp only
    split
    · exact safe_done hKnown hLedger
    next amount hAmount =>
      split
      · exact safe_done hKnown hLedger
      next hRemaining =>
        split
        · exact safe_done hKnown hLedger
        · have hPositive : 0 < amount := by
            simpa using (Option.filter_eq_some_iff.mp hAmount).2
          exact safe_issueRefund _ input hId hStatus hPositive (by omega) hSound hLedger hKnown

/-- The lookup by number, and the refund under the lock. -/
theorem safe_refundLocked (hKey : ∀ orderId, orderOf (locker n₀ orderId) = orderId)
    (orderId : String) (input : RefundInput) :
    SafeProgram scope orderOf locker deps i
      (RefundService.refundLocked (locker n₀) deps orderId input) w := by
  refine safe_withLock (hKey orderId) fun w₁ _ hSound₁ hLedger => ?_
  refine safe_readHeld (World.Known.of_world scope orderId w₁)
    (fun w₂ hKnown _ _ _ => safe_done hKnown hLedger) (fun o w₂ hKnown hSound₂ _ hId hSame => ?_)
    fun e w₂ hKnown _ _ _ => safe_done hKnown hLedger
  exact safe_refundFresh input hId hSound₂
    (fun hScope => hSame (not_creating hScope) ▸ hLedger hScope) hKnown

theorem safe_refundOrder (hKey : ∀ orderId, orderOf (locker n₀ orderId) = orderId)
    (orderId : String) (input : RefundInput) :
    SafeProgram scope orderOf locker deps i
      (RefundService.refundOrder (locker n₀) deps orderId input) w := by
  unfold RefundService.refundOrder
  split
  · refine safeProgram_quiet rfl fun existing w₁ _ => ?_
    cases existing with
    | none => exact safe_refundLocked hKey orderId input
    | some existing => exact safeProgram_ret _
  · exact safe_refundLocked hKey orderId input

/-- A refund that is found belongs to the order, and stays so. -/
def FoundFor (b : Backend) (outRefundNo orderId : String) (w : World) : Prop :=
  ∃ r, w.store.refunds.findByOutRefundNo b outRefundNo = some r ∧ r.orderId = orderId

theorem FoundFor.rely {b : Backend} {outRefundNo orderId : String} {h : Option String}
    {w' : World} (hFound : FoundFor b outRefundNo orderId w) (hRely : World.Rely b scope i h w w') :
    FoundFor b outRefundNo orderId w' := by
  obtain ⟨r, hr, hOrder⟩ := hFound
  obtain ⟨r', hr', -, hOrder'⟩ := hRely.refunds outRefundNo r hr
  exact ⟨r', hr', hOrder'.trans hOrder⟩

section outcome

variable {fresh : Refund} {result : RefundCallbackResult} {now : Int}

/-- What settling a refund does to the reserved total. -/
theorem reserved_settled (result : RefundCallbackResult) (now : Int)
    (hNodup : (refunds.map Refund.id).Nodup) (hMem : fresh ∈ refunds)
    (hPending : fresh.status = .PENDING) :
    reserved (rewrite (RefundService.settledRefund fresh result now) refunds) =
      reserved refunds - match result.status with
        | .SUCCESS => 0
        | .FAILED => fresh.amount := by
  rw [reserved_rewrite hNodup hMem
    (show fresh.id = (RefundService.settledRefund fresh result now).id from rfl)]
  cases hStatus : result.status <;>
    simp [Refund.reserves, RefundService.settledRefund, hPending, hStatus, RefundOutcome.status]

/-- Settling a refund leaves its amount positive. -/
theorem positive_settled (hPositive : ∀ r ∈ refunds, 0 < r.amount) (hMem : fresh ∈ refunds) :
    ∀ r ∈ rewrite (RefundService.settledRefund fresh result now) refunds, 0 < r.amount := by
  intro r hr
  obtain ⟨x, hx, rfl⟩ := List.mem_map.mp hr
  split
  · exact hPositive fresh hMem
  · exact hPositive x hx

theorem rewrite_ne_nil (hMem : fresh ∈ refunds) (r : Refund) : rewrite r refunds ≠ [] := by
  cases refunds with
  | nil => cases hMem
  | cons x rest => simp [rewrite]

end outcome

/-- The order side of a refund result. The refund's row says the result already. -/
theorem safe_applyOutcome {order : Order} {fresh : Refund} {result : RefundCallbackResult}
    {now : Int} (hId : order.id = id) (hNodup : (refunds.map Refund.id).Nodup)
    (hMem : fresh ∈ refunds) (hPending : fresh.status = .PENDING)
    (hStatus : scope = .creating → order.status ≠ .PENDING)
    (hLedger : KnownLedger scope (some order.core) refunds)
    (hNoPending : scope = .settled → result.status = .SUCCESS → order.amount ≤ reserved refunds →
      ∀ r ∈ rewrite (RefundService.settledRefund fresh result now) refunds, r.status ≠ .PENDING)
    (hKnown : World.Known scope id (some order.core)
      (rewrite (RefundService.settledRefund fresh result now) refunds) n w) :
    Safe scope orderOf locker deps i (some id)
      (RefundService.applyOutcome order result.status fresh.amount now) (Released scope id) w := by
  have hReserved := reserved_settled result now hNodup hMem hPending
  have hPaid : scope.keepsLedger →
      order.status = .PAID ∨ order.status = .FULFILLED ∨ order.status = .REFUNDED := fun hScope =>
    (hLedger hScope _ rfl).paid (List.ne_nil_of_mem hMem)
  unfold RefundService.applyOutcome
  cases hOutcome : result.status with
  | SUCCESS =>
      rw [hOutcome] at hReserved
      refine Discipline.wp_mono ?_ (safe_reserveRefund true hId (fun hScope => ?_)
        (fun hScope _ hFull => ?_) hStatus hKnown)
      · rintro h' _ w' - ⟨rfl, core, hKnown', hLedger'⟩
        exact ⟨rfl, hKnown'.owned hLedger'⟩
      · have hOld := hLedger hScope _ rfl
        refine ⟨?_, ?_, positive_settled hOld.positive hMem, hPaid hScope⟩
        · rw [hReserved, Int.sub_zero]
          exact hOld.balanced
        · rw [show order.refundedAmount.getD 0 = reserved refunds from hOld.balanced]
          exact hOld.bounded
      · have hBalanced : order.refundedAmount.getD 0 = reserved refunds :=
          (hLedger (.inr hScope) _ rfl).balanced
        exact hNoPending hScope hOutcome (hBalanced ▸ hFull)
  | FAILED =>
      rw [hOutcome] at hReserved
      refine safe_updateHeld hKnown hId rfl (.inl rfl)
        (OrderStore.keeps_written ⟨fun h => h, fun h => h, fun _ => rfl⟩)
        (fun hScope hNew => absurd hNew (hStatus hScope)) (fun _ hNew hNot => absurd hNew hNot)
        (fun w' hKnown' _ => safe_done hKnown' ?_)
        fun e w' core' hNot hKnown' _ => safe_done hKnown' fun hScope => absurd hScope hNot
      rintro hScope core ⟨⟩
      have hOld := hLedger hScope _ rfl
      have hBalanced : order.refundedAmount.getD 0 = reserved refunds := hOld.balanced
      have hBounded : reserved refunds ≤ order.amount := hOld.bounded
      have hPart : fresh.amount ≤ reserved refunds := by
        have hReserves : fresh.reserves = fresh.amount := by simp [Refund.reserves, hPending]
        exact hReserves ▸ reserves_le_reserved hOld.positive hMem
      have hFresh := hOld.positive fresh hMem
      refine ⟨?_, ?_, positive_settled hOld.positive hMem, fun _ => ?_⟩
      · refine OrderStore.refundedAmount_written_getD.trans ?_
        simp only [RefundService.releasedOrder, Option.getD_some, hBalanced, hReserved]
        omega
      · have hAmount : (OrderStore.written deps.backend
            (RefundService.releasedOrder order fresh.amount now)
            (RefundService.releasedOrder order fresh.amount now)).core.amount = order.amount := by
          cases deps.backend <;> rfl
        rw [hAmount, hReserved]
        simp only
        omega
      · have := hPaid hScope
        cases deps.backend <;> exact this

/-- The refund and its order are written under the lock. -/
theorem safe_settleRefund {fresh : Refund} {core? : Option Order} (result : RefundCallbackResult)
    (hId : fresh.orderId = id) (hMem : fresh ∈ refunds) (hPending : fresh.status = .PENDING)
    (hLedger : KnownLedger scope core? refunds)
    (hKnown : World.Known scope id core? refunds n w) :
    Safe scope orderOf locker deps i (some id) (RefundService.settleRefund fresh result)
      (Released scope id) w := by
  have hNodup : (refunds.map Refund.id).Nodup := hKnown.refunds ▸ World.nodup_refundsOf w id
  refine safe_quiet_total rfl rfl fun now w₁ hRely₁ hSound₁ _ => ?_
  have hWritten : RefundStore.written deps.backend fresh
      (RefundService.settledRefund fresh result now) =
      RefundService.settledRefund fresh result now := by
    cases deps.backend <;> rfl
  refine safe_refundsUpdate (hKnown.rely hRely₁) hMem rfl hId rfl hWritten hPending
    (fun hScope core hCore => ?_) (fun w₂ hKnown₂ hSound₂ hLast hNoPending => ?_)
    fun e w₂ refunds' hNot hKnown₂ _ => safe_done hKnown₂ fun hScope => absurd hScope hNot
  · rw [reserved_settled result now hNodup hMem hPending]
    have hFresh := (hLedger hScope core hCore).positive fresh hMem
    split <;> omega
  subst hId
  refine safe_readHeld hKnown₂ (fun w₃ hKnown₃ _ _ hNone => ?_)
    (fun order w₃ hKnown₃ hSound₃ _ hId hSame => ?_) fun e w₃ hKnown₃ _ hRely₃ hNot => ?_
  · -- without an order there is no ledger to keep
    refine safe_done hKnown₃ fun hScope core hCore => ?_
    have hMissing := hKnown₃.order fun h => absurd h (not_creating hScope)
    rw [World.core_eq_none_iff.mpr hNone, hCore] at hMissing
    cases hMissing
  · refine safe_applyOutcome hId hNodup hMem hPending (fun hScope hStatus => ?_)
      (fun hScope => ?_) (fun hScope hSuccess hFull => ?_) hKnown₃
    · exact rewrite_ne_nil hMem _ (hKnown₃.refunds_eq_nil hSound₃ hScope hStatus)
    · exact hSame (not_creating hScope) ▸ hLedger hScope
    · have hCore := hSame (not_creating (.inr hScope))
      refine hNoPending hScope ?_ order.core hCore ?_
      · simp [RefundService.settledRefund, hSuccess, RefundOutcome.status, isSettled]
      · have hOthers := reserved_others hNodup hMem
        have hReserves : fresh.reserves = fresh.amount := by simp [Refund.reserves, hPending]
        rw [hReserves] at hOthers
        exact hOthers ▸ hFull
  · refine safe_done hKnown₃ fun hScope core hCore => ?_
    cases hOutcome : result.status with
    | SUCCESS =>
        have hReserved := reserved_settled result now hNodup hMem hPending
        rw [hOutcome] at hReserved
        have hOld := hLedger hScope core hCore
        refine ⟨?_, ?_, positive_settled hOld.positive hMem,
          fun _ => hOld.paid (List.ne_nil_of_mem hMem)⟩
        · rw [hReserved, Int.sub_zero]
          exact hOld.balanced
        · rw [hReserved, Int.sub_zero]
          exact hOld.bounded
    | FAILED =>
        -- the lookup between the failed refund and its release does not throw
        refine absurd ⟨_, hRely₃.lastWrite.trans hLast, ?_⟩ (hNot hScope)
        simp [RefundService.settledRefund, hOutcome, RefundOutcome.status]

/-- The refund is read again under the lock. -/
theorem safe_applyRefundResult (hKey : ∀ orderId, orderOf (locker n₀ orderId) = orderId)
    (result : RefundCallbackResult) (orderId : String)
    (hFound : FoundFor deps.backend result.outRefundNo orderId w) :
    SafeProgram scope orderOf locker deps i
      (RefundService.applyRefundResult (locker n₀) result orderId) w := by
  refine safe_withLock (hKey orderId) fun w₁ hRely₁ hSound₁ hLedger => ?_
  have hKnown := World.Known.of_world scope orderId w₁
  refine safe_quiet rfl (fun found w₂ hRely₂ hSound₂ hAnswer => ?_)
    fun e w₂ hRely₂ _ _ => safe_done (hKnown.rely hRely₂) hLedger
  have hKnown₂ := hKnown.rely hRely₂
  obtain ⟨r, hr, hOrder⟩ := (hFound.rely hRely₁).rely hRely₂
  split
  · exact safe_done hKnown₂ hLedger
  · next fresh hFresh =>
      obtain ⟨hEq, hPending⟩ := Option.filter_eq_some_iff.mp hFresh
      obtain rfl : r = fresh := by
        have hBoth : some r = some fresh := hr.symm.trans (hAnswer.symm.trans hEq)
        exact Option.some.inj hBoth
      have hMem : r ∈ w₁.refundsOf orderId := by
        rw [← hKnown₂.refunds]
        exact World.mem_refundsOf.mpr ⟨RefundStore.get?_of_find hr, hOrder⟩
      exact safe_settleRefund result hOrder hMem (by simpa using hPending) hLedger hKnown₂

/-- A notice touches its order under the lock only. -/
theorem safe_handleRefundCallback (hKey : ∀ orderId, orderOf (locker n₀ orderId) = orderId)
    (method : PaymentMethod) (raw : RawCallback) :
    SafeProgram scope orderOf locker deps i
      (RefundService.handleRefundCallback (locker n₀) deps method raw) w := by
  unfold RefundService.handleRefundCallback
  split
  · exact safeProgram_ret _
  refine safeProgram_quiet rfl fun result w₁ _ => ?_
  refine safeProgram_quiet rfl fun isNew w₂ _ => ?_
  split
  · exact safeProgram_ret _
  refine safe_quiet rfl (fun refund w₃ _ hSound₃ hAnswer => ?_) fun _ _ _ _ _ => safeProgram_ret _
  cases refund with
  | none => exact safeProgram_ret _
  | some refund =>
      exact safeProgram_bind hSound₃
        (safe_applyRefundResult hKey result refund.orderId ⟨refund, hAnswer.symm, rfl⟩)
        fun _ _ _ => safeProgram_ret _

end VpnPayment
