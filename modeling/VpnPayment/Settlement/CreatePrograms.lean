import VpnPayment.Settlement.RefundPrograms

/-! `createOrder` under the order discipline. It writes the new order back
without its lock, after the provider has answered. -/
namespace VpnPayment

open Async Collections
open Prog (perform)

variable {Instance Key : Type} {orderOf : Key → String} {locker : Instance → String → Key}
  {deps : Deps} {α : Type} {i : Nat} {w : World}

/-- The order was created from a draft, and nothing happened to it while it
stayed PENDING. -/
def CreatedFrom (b : Backend) (order : Order) (w : World) : Prop :=
  ∃ row, w.order order.id = some row ∧
    (row.status = .PENDING → row.core = (OrderStore.created b order).core)

theorem CreatedFrom.rely {order : Order} {h : Option String} {w' : World} {b : Backend}
    (hCreated : CreatedFrom b order w) (hRely : World.Rely b .creating i h w w') :
    CreatedFrom b order w' := by
  obtain ⟨row, hRow, hCore⟩ := hCreated
  obtain ⟨row', hRow', hEvolves⟩ := hRely.orders order.id row hRow
  refine ⟨row', hRow', fun hPending => ?_⟩
  have hOld : row.status = .PENDING := follows_to_pending hEvolves.status hPending
  exact (hEvolves.pending rfl hPending).trans (hCore hOld)

/-- An order fresh from `createOrder`. -/
structure Draft (o : Order) : Prop where
  pending : o.status = .PENDING
  unpaid : o.paidAt = none
  noTxn : o.providerTxnId = none
  unrefunded : o.refundedAmount = none
  merchant : o.merchantId.isSome

theorem draft_of_core {o o' : Order} (hCore : o'.core = o.core) (h : Draft o) : Draft o' where
  pending := (Order.status_eq_of_core hCore).trans h.pending
  unpaid := (Order.eq_of_core Order.paidAt (fun _ => rfl) hCore).trans h.unpaid
  noTxn := (Order.eq_of_core Order.providerTxnId (fun _ => rfl) hCore).trans h.noTxn
  unrefunded := (Order.eq_of_core Order.refundedAmount (fun _ => rfl) hCore).trans h.unrefunded
  merchant := (Order.eq_of_core Order.merchantId (fun _ => rfl) hCore) ▸ h.merchant

/-- The row a draft is created as. -/
theorem row_of_draft {b : Backend} {order row : Order} (hDraft : Draft order)
    (hRow : row.core = (OrderStore.created b order).core) :
    row.status = .PENDING ∧ row.providerTxnId = none ∧ row.paidAt = none := by
  refine ⟨?_, ?_, ?_⟩
  · refine (Order.status_eq_of_core hRow).trans ?_
    cases b <;> exact hDraft.pending
  · refine (Order.eq_of_core Order.providerTxnId (fun _ => rfl) hRow).trans ?_
    cases b <;> exact hDraft.noTxn
  · refine (Order.eq_of_core Order.paidAt (fun _ => rfl) hRow).trans ?_
    cases b <;> exact hDraft.unpaid

/-- The write-back of a draft changes nothing but the status it is given. -/
theorem write_draft {b : Backend} {order row o : Order} (strict : Prop) (hDraft : Draft order)
    (hRow : row.core = (OrderStore.created b order).core)
    (hIdentity : o.identity = order.identity) (hPaidAt : o.paidAt = none)
    (hTxn : o.providerTxnId = none) (hRefunded : o.refundedAmount = none)
    (hStatus : Edge .PENDING o.status) :
    Order.Write strict row (OrderStore.written b row o) ∧
      (o.status = .PENDING → (OrderStore.written b row o).core = row.core) := by
  obtain ⟨hRowStatus, hRowTxn, hRowPaidAt⟩ := row_of_draft hDraft hRow
  have hRowRefunded := Order.eq_of_core Order.refundedAmount (fun _ => rfl) hRow
  have hIdentity' : (OrderStore.written b row o).identity = row.identity := by
    cases b with
    | memory => exact hIdentity.trans (Order.identity_eq_of_core hRow).symm
    | sql => rfl
  have hRefunded' : (OrderStore.written b row o).refundedAmount = row.refundedAmount := by
    rw [hRowRefunded]
    cases b with
    | memory => exact hRefunded.trans hDraft.unrefunded.symm
    | sql =>
        show some (o.refundedAmount.getD 0) = some (order.refundedAmount.getD 0)
        rw [hRefunded, hDraft.unrefunded]
  have hCore : o.status = .PENDING → (OrderStore.written b row o).core = row.core := fun hNew =>
    Order.core_ext hIdentity' (by rw [OrderStore.status_written, hNew, hRowStatus])
      (by rw [OrderStore.providerTxnId_written, hTxn, hRowTxn])
      (by rw [OrderStore.paidAt_written, hPaidAt, hRowPaidAt]) hRefunded'
  refine ⟨⟨hIdentity', ?_, ⟨?_, ?_, ?_⟩, fun _ hNew => hCore ?_⟩, hCore⟩
  · rw [hRowStatus, OrderStore.status_written]
    exact hStatus
  · simp [hRowPaidAt]
  · simp [hRowTxn]
  · rw [hRefunded']
    exact fun h => h
  · rwa [OrderStore.status_written] at hNew

/-- A step that inserts an order whose identifier the task has drawn. -/
theorem sound_create {c : Call} {row : Order} {w' : World}
    (hStep : World.OrderStored i c row w w') (hNew : w.order row.id = none)
    (hSound : World.Sound .creating w) : World.Sound .creating w' where
  issued := hStep.issued ▸ hSound.issued
  granted id hPos := by
    rw [hStep.grants] at hPos ⊢
    obtain ⟨hOne, o, ho, hStatus⟩ := hSound.granted id hPos
    have hNe : row.id ≠ id := by
      rintro rfl
      simp [hNew] at ho
    exact ⟨hOne, o, by simp [hStep.order, hNe, ho], hStatus⟩
  bounded hScope := absurd rfl (not_creating hScope)
  refunded hScope := by cases hScope
  refundsPaid hScope id hRefunds := by
    rw [hStep.refundsOf] at hRefunds
    obtain ⟨o, ho, hStatus⟩ := hSound.refundsPaid hScope id hRefunds
    have hNe : row.id ≠ id := by
      rintro rfl
      simp [hNew] at ho
    exact ⟨o, by simp [hStep.order, hNe, ho], hStatus⟩

theorem guar_create {b : Backend} {c : Call} {row : Order} {w' : World} {free : String → Prop}
    (hStep : World.OrderStored i c row w w') (hDrawn : (i, row.id) ∈ w.issued)
    (hNew : w.order row.id = none) : World.Guar b .creating i none free w w' where
  writes id o ho := by
    have hNe : row.id ≠ id := by
      rintro rfl
      simp [hNew] at ho
    exact ⟨o, by simp [hStep.order, hNe, ho], .refl o⟩
  refunds no r hr := ⟨r, by rw [hStep.refunds, hr], rfl, rfl⟩
  issued := .inl hStep.issued
  newOrder id hNone hSome := by
    rw [hStep.order] at hSome
    split at hSome
    · next hEq => exact hStep.issued ▸ hEq ▸ hDrawn
    · exact absurd hNone hSome
  newRefund id hNone hSome := absurd (hStep.refund id ▸ hNone) hSome
  lastWrite j hj := by simp [hStep.lastWrite, Ne.symm hj]
  others id _ := by
    refine .inl ⟨hStep.refundsOf id, hStep.grants id, fun hExists => ?_⟩
    have hNe : row.id ≠ id := by
      rintro rfl
      exact hExists rfl hNew
    simp [World.core, hStep.order, hNe]

section rules

variable {Q : Option String → Except AppError α → World → Prop} {order o : Order}

/-- Inserting the new order. -/
theorem safe_ordersCreate {f : Order → Action Key α} (hDrawn : (i, order.id) ∈ w.issued)
    (hNew : w.order order.id = none)
    (hOk : ∀ w', CreatedFrom deps.backend order w' → World.Sound .creating w' →
      Safe .creating orderOf locker deps i none (f order) Q w')
    (hError : ∀ e w', World.Sound .creating w' →
      Safe .creating orderOf locker deps i none (.ret (.error e)) Q w') :
    Safe .creating orderOf locker deps i none (perform (Call.ordersCreate order) >>= f) Q w := by
  intro w₁ hRely₁ hSound free hFree reply hCond answer w₂ hExec
  have hDrawn₁ := hRely₁.issued order.id hDrawn
  have hNew₁ := hRely₁.newOrder order.id hDrawn hNew
  obtain ⟨e, rfl, hStep⟩ | ⟨hStep, hAnswer⟩ := exec_ordersCreate hExec
  · exact ⟨hStep.sound hSound, hStep.guar, hError e w₂ (hStep.sound hSound)⟩
  have hId : (OrderStore.created deps.backend order).id = order.id := OrderStore.created_id _ _
  have hSound₂ := sound_create hStep (hId.symm ▸ hNew₁) hSound
  refine ⟨hSound₂, guar_create hStep (hId.symm ▸ hDrawn₁) (hId.symm ▸ hNew₁), ?_⟩
  obtain rfl | ⟨e, rfl⟩ := hAnswer
  · exact hOk w₂ ⟨_, by simp [hStep.order], fun _ => rfl⟩ hSound₂
  · exact hError e w₂ hSound₂

/-- Writing the new order back without its lock. -/
theorem safe_writeBack {f : Order → Action Key α} (hDraft : Draft order)
    (hCreated : CreatedFrom deps.backend order w) (hIdentity : o.identity = order.identity)
    (hPaidAt : o.paidAt = none) (hTxn : o.providerTxnId = none) (hRefunded : o.refundedAmount = none)
    (hStatus : Edge .PENDING o.status)
    (hOk : ∀ w', World.Sound .creating w' →
      Safe .creating orderOf locker deps i none (f o) Q w')
    (hError : ∀ e w', World.Sound .creating w' →
      Safe .creating orderOf locker deps i none (.ret (.error e)) Q w') :
    Safe .creating orderOf locker deps i none (perform (Call.ordersUpdate o) >>= f) Q w := by
  intro w₁ hRely₁ hSound free hFree reply hCond answer w₂ hExec
  obtain ⟨row, hRow, hCore⟩ := hCreated.rely hRely₁
  have hId : o.id = order.id := Order.eq_of_identity Order.id (fun _ => rfl) hIdentity
  rw [← hId] at hRow
  -- the runs considered write back only while the stored order is still PENDING
  obtain ⟨hPending, hFailed⟩ := hCond.creating rfl o row rfl rfl hRow
  obtain ⟨e, rfl, -, hStep⟩ | ⟨hStep, hAnswer⟩ := exec_ordersUpdate hRow hExec
  · exact ⟨hStep.sound hSound, hStep.guar, hError e w₂ (hStep.sound hSound)⟩
  obtain ⟨hWrite, hSame⟩ := write_draft (Scope.creating = .creating) hDraft
    (hCore hPending) hIdentity hPaidAt hTxn hRefunded hStatus
  have hNewId : (OrderStore.written deps.backend row o).id = o.id :=
    OrderStore.written_id (World.id_of_order hRow)
  have hTouches : World.Touches deps.backend .creating i _ w₁ w₂ :=
    hStep.touches (hNewId.symm ▸ hRow) hWrite
  rw [hNewId] at hTouches
  have hSound₂ : World.Sound .creating w₂ := by
    refine hTouches.sound hSound (fun hPos => ?_) (fun hScope => absurd rfl (not_creating hScope))
      (fun hScope => by cases hScope) fun _ hRefunds => ?_
    · rw [hStep.grants] at hPos
      obtain ⟨-, o', ho', hNot⟩ := hSound.granted o.id hPos
      rw [hRow, Option.some.injEq] at ho'
      exact absurd (ho' ▸ hPending) hNot
    · rw [hStep.refundsOf] at hRefunds
      obtain ⟨o', ho', hNot⟩ := hSound.refundsPaid rfl o.id hRefunds
      rw [hRow, Option.some.injEq] at ho'
      exact absurd (ho' ▸ hPending) hNot
  refine ⟨hSound₂, hTouches.guar_of fun _ => ?_, ?_⟩
  · by_cases hNew : o.status = .PENDING
    · refine .inl ⟨hStep.refundsOf _, hStep.grants _, fun _ => ?_⟩
      simp [World.core, hStep.order, hNewId, hRow, hSame hNew]
    · refine .inr ⟨hFailed hNew, fun _ hScope => ?_⟩
      rcases hScope with h | h <;> cases h
  · obtain rfl | ⟨e, rfl, -⟩ := hAnswer
    · exact hOk w₂ hSound₂
    · exact hError e w₂ hSound₂

end rules

section programs

variable {order : Order}

/-- Only the address of the new order is added to it. -/
theorem safe_withDepositAddress :
    Safe .creating orderOf locker deps i none
      (PaymentService.withDepositAddress deps order : Action Key Order)
      (fun h result w' => h = none ∧ World.Rely deps.backend .creating i none w w' ∧
        ∀ o, result = .ok o → o.core = order.core) w := by
  unfold PaymentService.withDepositAddress
  split
  · split
    · refine safe_quiet rfl (fun allocated w₁ hRely₁ _ _ => ?_) fun e w₁ hRely₁ _ _ => ?_
      · refine safe_ret fun w₂ hRely₂ _ => ⟨rfl, hRely₁.trans hRely₂, ?_⟩
        rintro o ⟨⟩
        rfl
      · exact safe_ret fun w₂ hRely₂ _ => ⟨rfl, hRely₁.trans hRely₂, by simp⟩
    · exact safe_ret fun w₁ hRely₁ _ => ⟨rfl, hRely₁, by simp⟩
  · refine safe_ret fun w₁ hRely₁ _ => ⟨rfl, hRely₁, ?_⟩
    rintro o ⟨⟩
    rfl

theorem quietly_resolveAmount (method : PaymentMethod) (priceCnyFen priceUsdtMicro : Int) :
    Quietly .creating orderOf locker deps i none
      (PaymentService.resolveAmount deps method priceCnyFen priceUsdtMicro : Action Key Int) := by
  unfold PaymentService.resolveAmount
  split
  · exact quietly_ret _
  split
  · exact quietly_ret _
  · exact quietly_bind (quietly_perform rfl) fun _ => quietly_ret _

/-- What the `try` statement around `createPayment` leaves. -/
theorem safe_tryPayment (hDraft : Draft order) (hSound : World.Sound .creating w)
    (hCreated : CreatedFrom deps.backend order w) :
    Safe .creating orderOf locker deps i none
      (tryCatch (perform (Call.createPayment order)) (PaymentService.markFailed order) :
        Action Key CreatePaymentResult)
      (fun h result w' => h = none ∧ ∀ payInfo, result = .ok payInfo →
        CreatedFrom deps.backend order w') w := by
  refine Discipline.wp_tryCatch hSound (safe_perform rfl fun answer w₁ hRely₁ _ => ?_)
  have hCreated₁ := hCreated.rely hRely₁
  cases answer with
  | ok payInfo => exact safe_ret fun w₂ hRely₂ _ => ⟨rfl, fun _ _ => hCreated₁.rely hRely₂⟩
  | error err =>
      have hTransition : assertTransition order.status .FAILED = .ok .FAILED := by
        rw [hDraft.pending]
        rfl
      have hThrown : ∀ (e : AppError) (w' : World), Safe .creating orderOf locker deps i none
          (.ret (.error e)) (fun h result w' => h = none ∧ ∀ payInfo : CreatePaymentResult,
            result = .ok payInfo → CreatedFrom deps.backend order w') w' :=
        fun e w' => safe_ret fun _ _ _ => ⟨rfl, by simp⟩
      show Safe .creating orderOf locker deps i none (PaymentService.markFailed order err) _ w₁
      unfold PaymentService.markFailed
      rw [hTransition, Prog.ofExcept_ok_bind]
      refine safe_quiet rfl (fun now w₂ hRely₂ _ _ => ?_) fun e w₂ _ _ _ => hThrown e w₂
      exact safe_writeBack hDraft (hCreated₁.rely hRely₂) rfl hDraft.unpaid hDraft.noTxn
        hDraft.unrefunded (.inr rfl) (fun w₃ _ => hThrown err w₃) fun e w₃ _ => hThrown e w₃

theorem safe_requestPayment (hDraft : Draft order) (hSound : World.Sound .creating w)
    (hCreated : CreatedFrom deps.backend order w) :
    SafeProgram .creating orderOf locker deps i
      (PaymentService.requestPayment deps order : Action Key CreateOrderOutput) w := by
  refine Discipline.wp_bind hSound (Discipline.wp_mono ?_ (safe_tryPayment hDraft hSound hCreated))
  rintro h result w₁ hSound₁ ⟨rfl, hCreated₁⟩
  cases result with
  | error e => exact safeProgram_ret _
  | ok payInfo =>
      refine safe_quiet rfl (fun now w₂ hRely₂ _ _ => ?_) fun e w₂ _ _ _ => safeProgram_ret _
      refine safe_writeBack hDraft ((hCreated₁ payInfo rfl).rely hRely₂) rfl hDraft.unpaid
        hDraft.noTxn hDraft.unrefunded (by rw [hDraft.pending]; exact .inl rfl)
        (fun w₃ hSound₃ => ?_) fun _ _ _ => safeProgram_ret _
      exact safe_quietly hSound₃ (quietly_whenPresent _ (quietly_perform rfl))
        (fun _ _ _ _ => safeProgram_ret _) fun _ _ _ _ => safeProgram_ret _

theorem safe_createNewOrder (input : CreateOrderInput) (hSound : World.Sound .creating w) :
    SafeProgram .creating orderOf locker deps i
      (PaymentService.createNewOrder deps input : Action Key CreateOrderOutput) w := by
  unfold PaymentService.createNewOrder
  split
  · exact safeProgram_ret _
  next plan _ =>
    refine safeProgram_ofExcept fun _ => ?_
    refine safe_quietly hSound (quietly_resolveAmount _ _ _) (fun amount w₁ _ _ => ?_)
      fun e w₁ _ _ => safeProgram_ret _
    refine safeProgram_quiet rfl fun now w₂ _ => ?_
    refine safe_quiet rfl (fun id w₃ _ _ hAnswer => ?_) fun e w₃ _ _ _ => safeProgram_ret _
    obtain ⟨hDrawn, hNew, -⟩ := hAnswer
    refine safe_quiet rfl (fun outTradeNo w₄ hRely₄ hSound₄ _ => ?_)
      fun e w₄ _ _ _ => safeProgram_ret _
    refine Discipline.wp_bind hSound₄ (Discipline.wp_mono ?_ safe_withDepositAddress)
    rintro h result w₅ hSound₅ ⟨rfl, hRely₅, hCore⟩
    cases result with
    | error e => exact safeProgram_ret _
    | ok order =>
        have hCore := hCore order rfl
        have hDraft : Draft order := draft_of_core hCore ⟨rfl, rfl, rfl, rfl, rfl⟩
        have hId : order.id = id := Order.eq_of_core Order.id (fun _ => rfl) hCore
        have hRely := hRely₄.trans hRely₅
        refine safe_ordersCreate (hId.symm ▸ hRely.issued id hDrawn)
          (hId.symm ▸ hRely.newOrder id hDrawn hNew) (fun w₆ hCreated hSound₆ => ?_)
          fun e w₆ _ => safeProgram_ret _
        exact safe_requestPayment hDraft hSound₆ hCreated

theorem safe_createOrder (input : CreateOrderInput) (hSound : World.Sound .creating w) :
    SafeProgram .creating orderOf locker deps i
      (PaymentService.createOrder deps input : Action Key CreateOrderOutput) w := by
  unfold PaymentService.createOrder
  split
  · refine safeProgram_quiet rfl fun existing w₁ hSound₁ => ?_
    cases existing with
    | none => exact safe_createNewOrder input hSound₁
    | some existing =>
        show SafeProgram .creating orderOf locker deps i
          (PaymentService.replayOrder deps existing) w₁
        unfold PaymentService.replayOrder
        split
        · exact safeProgram_ret _
        · refine safeProgram_ofExcept fun _ => ?_
          exact safeProgram_quiet rfl fun _ _ _ => safeProgram_ret _
  · exact safe_createNewOrder input hSound

end programs
end VpnPayment
