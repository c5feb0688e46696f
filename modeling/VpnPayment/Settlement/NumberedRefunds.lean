import VpnPayment.Async.Requests
import VpnPayment.Services.Calls
import VpnPayment.Settlement.RefundAccounts

/-! What a task has done before it writes a refund, by its request. `refundOrder` looks
the refund number up before it takes the lock of the order. -/
namespace VpnPayment

open Async Collections
open Prog (perform withLock)

/-- The order that a `refundOrder` with this number is to refund. -/
def Request.refundsUnder (k : String) : Request → Option String
  | .refundOrder orderId input => if input.outRefundNo = some k then some orderId else none
  | _ => none

/-- What the calls of a refund answer, where no generated number is `k`. -/
def AnswersRefund (k : String) : (c : Call) → Except AppError (Ans c) → Prop
  | .ordersFindById id, answer => ∀ o : Order, answer = .ok (some o) → o.id = id
  | .refundsCreate r, answer => ∀ saved : Refund, answer = .ok saved → saved = r
  | .newOutTradeNo _, answer => answer ≠ .ok k
  | _, _ => True

/-- The order is written back with the amount of the refund that the task has created
under the number. -/
def Reserves (k : String) (past : Past) (o : Order) : Prop :=
  ∃ r row, ⟨.refundsCreate r, .ok r⟩ ∈ past ∧ r.outRefundNo = k ∧
    ⟨.ordersFindById o.id, .ok (some row)⟩ ∈ past ∧
    o.refundedAmount = some (row.refundedAmount.getD 0 + r.amount)

/-- What a `refundOrder` with the number has done before a call. -/
inductive Numbered (k : String) : Past → Call → Prop
  | lookup : Numbered k [] (.refundsFindByOutRefundNo k)
  | other (past : Past) (c : Call) (looked : ⟨.refundsFindByOutRefundNo k, .ok none⟩ ∈ past)
      (once : c ≠ .refundsFindByOutRefundNo k)
      (reserves : ∀ o, c = .ordersUpdate o → Reserves k past o ∧
        ∀ h ∈ past, ∀ o', h.1 ≠ .ordersUpdate o') : Numbered k past c

/-- What a task has done before it writes a refund. -/
def WritesRefund (k : String) (request : Request) (past : Past) : Call → Prop
  | .refundsCreate r => ⟨.uuid, .ok r.id⟩ ∈ past ∧ (∀ h ∈ past, ∀ r', h.1 ≠ .refundsCreate r') ∧
      (∃ o : Order, o.id = r.orderId ∧ ⟨.ordersFindById o.id, .ok (some o)⟩ ∈ past) ∧
      (r.outRefundNo = k → request.refundsUnder k = some r.orderId)
  | .refundsUpdate r =>
      ∃ no fresh, ⟨.refundsFindByOutRefundNo no, .ok (some fresh)⟩ ∈ past ∧ r.terms = fresh.terms
  | _ => True

/-- What a task has done before a call, by its request. -/
def RefundCall (k : String) (request : Request) (past : Past) (c : Call) : Prop :=
  WritesRefund k request past c ∧ ∀ orderId, request.refundsUnder k = some orderId → Numbered k past c

/-- The refund is the one that the task has found under the number or has created. -/
def HasRefund (k orderId : String) (refund : Refund) (past : Past) : Prop :=
  ⟨.refundsFindByOutRefundNo k, .ok (some refund)⟩ ∈ past ∨
    ⟨.refundsCreate refund, .ok refund⟩ ∈ past ∧ refund.outRefundNo = k ∧ refund.orderId = orderId

/-- What a `refundOrder` with the number returns. -/
def Refunds (k : String) (request : Request) (result : Except AppError Outcome) (past : Past) : Prop :=
  ∀ orderId, request.refundsUnder k = some orderId →
    (∀ found, ⟨.refundsFindByOutRefundNo k, .ok (some found)⟩ ∈ past → result = .ok (.refund found)) ∧
    ∀ refund, result = .ok (.refund refund) → HasRefund k orderId refund past

variable {Key : Type} {deps : Deps} {k : String} {request : Request} {past : Past} {α β : Type}

abbrev RefundsBy (k : String) (request : Request) (p : Action Key α)
    (Q : Except AppError α → Past → Prop) (past : Past) : Prop :=
  p.Follows (AnswersRefund k) (RefundCall k request) Q past

def Call.looksRefundUp : Call → Bool
  | .refundsFindByOutRefundNo _ => true
  | _ => false

def Call.writesRefund : Call → Bool
  | .refundsCreate _ | .refundsUpdate _ => true
  | _ => false

/-- The lookup under the number comes first. -/
theorem Numbered.looked_of_not {c : Call} (h : Numbered k past c) (hCall : c.looksRefundUp = false) :
    ⟨.refundsFindByOutRefundNo k, .ok none⟩ ∈ past := by
  cases h with
  | lookup => cases hCall
  | other past c looked once reserves => exact looked

/-- The order is written back once, for the refund that was inserted. -/
theorem Numbered.reserves {o : Order} (h : Numbered k past (.ordersUpdate o)) :
    Reserves k past o ∧ ∀ h ∈ past, ∀ o', h.1 ≠ .ordersUpdate o' := by
  cases h with
  | other past c looked once reserves => exact reserves o rfl

/-- Calls that neither look refunds up nor write refunds or orders. -/
def Call.besideRefunds : Call → Bool
  | .refundsFindByOutRefundNo _ | .refundsCreate _ | .refundsUpdate _ | .ordersCreate _
  | .ordersUpdate _ => false
  | _ => true

theorem looksRefundUp_of_beside {c : Call} (hCall : c.besideRefunds = true) :
    c.looksRefundUp = false := by
  cases c <;> first | rfl | cases hCall

/-- A task that has the number has looked it up in vain. -/
structure Looked (k : String) (request : Request) (past : Past) : Prop where
  nothing : ∀ orderId, request.refundsUnder k = some orderId →
    ⟨.refundsFindByOutRefundNo k, .ok none⟩ ∈ past
  never : ∀ found, ⟨.refundsFindByOutRefundNo k, .ok (some found)⟩ ∉ past

/-- It has not written anything yet either. -/
structure Unwritten (k : String) (request : Request) (past : Past) : Prop
    extends Looked k request past where
  noRefund : ∀ h ∈ past, ∀ r, h.1 ≠ .refundsCreate r
  noOrder : ∀ h ∈ past, ∀ o, h.1 ≠ .ordersUpdate o

/-- Other calls leave the lookup as it was. -/
theorem Looked.cons {c : Call} {answer : Except AppError (Ans c)} (h : Looked k request past)
    (hCall : c.looksRefundUp = false) : Looked k request (⟨c, answer⟩ :: past) where
  nothing orderId hOrder := List.mem_cons_of_mem _ (h.nothing orderId hOrder)
  never found hMem := by
    rcases List.mem_cons.mp hMem with hNew | hOld
    · cases hNew
      cases hCall
    · exact h.never found hOld

/-- A call that writes no order leaves it at that. -/
theorem noOrder_cons {c : Call} {answer : Except AppError (Ans c)}
    (h : ∀ x ∈ past, ∀ o, x.1 ≠ .ordersUpdate o) (hCall : c.writesOrder = false) :
    ∀ x ∈ (⟨c, answer⟩ :: past : Past), ∀ o, x.1 ≠ .ordersUpdate o := by
  intro x hMem o hEq
  rcases List.mem_cons.mp hMem with rfl | hOld
  · cases hEq
    cases hCall
  · exact h x hOld o hEq

/-- Calls beside the refunds write neither a refund nor an order. -/
theorem Unwritten.cons {c : Call} {answer : Except AppError (Ans c)} (h : Unwritten k request past)
    (hCall : c.besideRefunds = true) : Unwritten k request (⟨c, answer⟩ :: past) where
  toLooked := h.toLooked.cons (looksRefundUp_of_beside hCall)
  noRefund x hMem r hEq := by
    rcases List.mem_cons.mp hMem with rfl | hOld
    · cases hEq
      cases hCall
    · exact h.noRefund x hOld r hEq
  noOrder x hMem o hEq := by
    rcases List.mem_cons.mp hMem with rfl | hOld
    · cases hEq
      cases hCall
    · exact h.noOrder x hOld o hEq

/-- A call that looks no refund up and writes no order. -/
theorem Looked.numbered {c : Call} {orderId : String} (h : Looked k request past)
    (hOrder : request.refundsUnder k = some orderId) (hLookup : c.looksRefundUp = false)
    (hWrite : c.writesOrder = false) : Numbered k past c := by
  refine .other past c (h.nothing orderId hOrder) ?_ fun o hEq => ?_
  · rintro rfl
    cases hLookup
  · rw [hEq] at hWrite
    cases hWrite

theorem refundCall_beside {c : Call} (hCall : c.besideRefunds = true) (h : Looked k request past) :
    RefundCall k request past c := by
  constructor
  · cases c <;> trivial
  · intro orderId hOrder
    cases c <;> first | exact h.numbered hOrder rfl rfl | cases hCall

section issue

variable {Q : Except AppError α → Past → Prop}

/-- A call beside the refunds. -/
theorem refunds_call {c : Call} {f : Ans c → Action Key α} (hCall : c.besideRefunds = true)
    (h : Unwritten k request past)
    (hOk : ∀ a, AnswersRefund k c (.ok a) → RefundsBy k request (f a) Q (⟨c, .ok a⟩ :: past))
    (hError : ∀ e past', Looked k request past' → Q (.error e) past') :
    RefundsBy k request (perform c >>= f) Q past :=
  Prog.follows_perform (refundCall_beside hCall h.toLooked) hOk
    fun e _ => hError e _ (h.cons hCall).toLooked

/-- A program that makes such calls only. -/
theorem refunds_calls {p : Action Key β} (hCalls : p.Calls fun c => c.besideRefunds = true)
    (h : Unwritten k request past) :
    RefundsBy k request p (fun _ past' => past <:+ past' ∧ Unwritten k request past') past :=
  Prog.follows_calls (fun _ _ h hCall => refundCall_beside hCall h.toLooked)
    (fun _ _ _ h hCall => h.cons hCall) hCalls h

/-- The announcement comes after the writes. -/
theorem refunds_announceRefund {order : Order} {refund : Refund} (h : Looked k request past) :
    RefundsBy k request (RefundService.announceRefund deps order refund : Action Key Unit)
      (fun _ past' => past <:+ past' ∧ Looked k request past') past := by
  have hCalls : (RefundService.announceRefund deps order refund : Action Key Unit).Calls
      fun c => c.besideRefunds = true := by
    refine Prog.calls_bind (calls_whenPresent (Prog.calls_perform rfl)) fun _ => ?_
    exact calls_whenPresent (Prog.calls_perform rfl)
  refine Prog.follows_calls (fun _ _ h hCall => refundCall_beside hCall h) ?_ hCalls h
  intro past c answer h hCall
  exact h.cons (looksRefundUp_of_beside hCall)

/-- What `issueRefund` leaves behind. -/
def Issued (k : String) (request : Request) (order : Order) (result : Except AppError Refund)
    (past : Past) : Prop :=
  Looked k request past ∧ ∀ refund, result = .ok refund →
    ⟨.refundsCreate refund, .ok refund⟩ ∈ past ∧ refund.orderId = order.id ∧
      ((request.refundsUnder k).isSome → refund.outRefundNo = k)

/-- The order is written back unless the refund has failed. -/
theorem refunds_reserveUnlessFailed {order : Order} {refund : Refund} (status : RefundStatus)
    (h : Looked k request past) (hNoOrder : ∀ h ∈ past, ∀ o, h.1 ≠ .ordersUpdate o)
    (hCreated : ⟨.refundsCreate refund, .ok refund⟩ ∈ past)
    (hNumber : (request.refundsUnder k).isSome → refund.outRefundNo = k)
    (hRead : ⟨.ordersFindById order.id, .ok (some order)⟩ ∈ past) :
    RefundsBy k request (RefundService.reserveUnlessFailed order
        (order.refundedAmount.getD 0 + refund.amount) status : Action Key Unit)
      (fun _ past' => past <:+ past' ∧ Looked k request past') past := by
  unfold RefundService.reserveUnlessFailed
  split
  swap
  · exact ⟨List.suffix_refl past, h⟩
  refine Prog.follows_perform (refundCall_beside rfl h) (fun now _ => ?_)
    fun e _ => ⟨List.suffix_cons _ past, h.cons rfl⟩
  have hNow : Looked k request (⟨.now, .ok now⟩ :: past) := h.cons rfl
  -- the write-back, with the status it carries
  have hWrite : ∀ status : OrderStatus, RefundsBy k request (perform (Call.ordersUpdate
      { order with
        refundedAmount := some (order.refundedAmount.getD 0 + refund.amount)
        updatedAt := now, status := status }) >>= fun _ => pure () : Action Key Unit)
      (fun _ past' => past <:+ past' ∧ Looked k request past') (⟨.now, .ok now⟩ :: past) := by
    intro status
    refine Prog.follows_perform ⟨trivial, fun orderId hOrder => ?_⟩ (fun saved _ => ?_) fun e _ => ?_
    · refine .other _ _ (hNow.nothing orderId hOrder) (by rintro ⟨⟩) fun o hEq => ?_
      cases hEq
      refine ⟨⟨refund, order, List.mem_cons_of_mem _ hCreated, hNumber (by simp [hOrder]),
        List.mem_cons_of_mem _ hRead, rfl⟩, noOrder_cons hNoOrder rfl⟩
    · exact ⟨(List.suffix_cons _ past).trans (List.suffix_cons _ _), hNow.cons rfl⟩
    · exact ⟨(List.suffix_cons _ past).trans (List.suffix_cons _ _), hNow.cons rfl⟩
  split
  · refine Prog.follows_ofExcept (fun status _ => hWrite status) fun e => ?_
    exact ⟨List.suffix_cons _ past, hNow⟩
  · exact hWrite order.status

/-- The number of the refund is `k` for a request that has `k` as its number. -/
theorem refunds_refundNumber {input : RefundInput} {orderId : String} (h : Unwritten k request past)
    (hRequest : input.outRefundNo = some k → request.refundsUnder k = some orderId)
    (hKey : (request.refundsUnder k).isSome → input.outRefundNo = some k) :
    RefundsBy k request (RefundService.refundNumber input : Action Key String)
      (fun result past' => (past <:+ past' ∧ Unwritten k request past') ∧
        ∀ no, result = .ok no → (no = k → request.refundsUnder k = some orderId) ∧
          ((request.refundsUnder k).isSome → no = k)) past := by
  unfold RefundService.refundNumber
  split
  · next outRefundNo hInput =>
      refine ⟨⟨List.suffix_refl past, h⟩, ?_⟩
      rintro _ ⟨⟩
      refine ⟨fun hEq => hRequest (hEq ▸ hInput), fun hSome => ?_⟩
      exact Option.some.inj (hInput.symm.trans (hKey hSome))
  · next hInput =>
      refine ⟨refundCall_beside rfl h.toLooked, fun answer hAnswer => ?_⟩
      refine ⟨⟨List.suffix_cons _ past, h.cons rfl⟩, fun no hNo => ⟨fun hEq => ?_, fun hSome => ?_⟩⟩
      · rw [hNo, hEq] at hAnswer
        exact absurd rfl hAnswer
      · cases hInput.symm.trans (hKey hSome)

/-- A failed refund returns nothing. -/
theorem issued_error {order : Order} {e : AppError} (h : Looked k request past) :
    Issued k request order (.error e) past :=
  ⟨h, nofun⟩

/-- What follows the answer of the provider. -/
theorem refunds_createRefund {order : Order} {refund : Refund} (status : RefundStatus)
    (h : Unwritten k request past) (hRead : ⟨.ordersFindById order.id, .ok (some order)⟩ ∈ past)
    (hDrawn : ⟨.uuid, .ok refund.id⟩ ∈ past) (hOrder : refund.orderId = order.id)
    (hOurs : refund.outRefundNo = k → request.refundsUnder k = some order.id)
    (hTheirs : (request.refundsUnder k).isSome → refund.outRefundNo = k) :
    RefundsBy k request (do
        let saved ← perform (Call.refundsCreate refund)
        RefundService.reserveUnlessFailed order (order.refundedAmount.getD 0 + refund.amount) status
        RefundService.announceRefund deps order saved
        pure saved : Action Key Refund) (Issued k request order) past := by
  refine Prog.follows_perform ⟨?_, fun orderId hRequest => h.numbered hRequest rfl rfl⟩
    (fun saved hSaved => ?_) fun e _ => issued_error (h.toLooked.cons rfl)
  · exact ⟨hDrawn, h.noRefund, ⟨order, hOrder.symm, hRead⟩, fun hNumber => hOrder ▸ hOurs hNumber⟩
  obtain rfl : refund = saved := (hSaved saved rfl).symm
  have hLooked : Looked k request (⟨.refundsCreate refund, .ok refund⟩ :: past) := h.toLooked.cons rfl
  refine Prog.follows_bind (Prog.follows_mono (fun _ _ hCall => hCall) ?_
    (refunds_reserveUnlessFailed status hLooked (noOrder_cons h.noOrder rfl) List.mem_cons_self
      hTheirs (List.mem_cons_of_mem _ hRead)))
  rintro (e | _) past₁ ⟨hLong₁, h₁⟩
  · exact issued_error h₁
  refine Prog.follows_bind (Prog.follows_mono (fun _ _ hCall => hCall) ?_ (refunds_announceRefund h₁))
  rintro (e | _) past₂ ⟨hLong₂, h₂⟩
  · exact issued_error h₂
  · refine ⟨h₂, ?_⟩
    rintro _ ⟨⟩
    exact ⟨hLong₂.mem (hLong₁.mem List.mem_cons_self), hOrder, hTheirs⟩

/-- One refund is inserted, for the order that was read. -/
theorem refunds_issueRefund {order : Order} (amount : Int) (provider : PaymentProvider)
    {input : RefundInput} (h : Unwritten k request past)
    (hRead : ⟨.ordersFindById order.id, .ok (some order)⟩ ∈ past)
    (hRequest : input.outRefundNo = some k → request.refundsUnder k = some order.id)
    (hKey : (request.refundsUnder k).isSome → input.outRefundNo = some k) :
    RefundsBy k request (RefundService.issueRefund deps order (order.refundedAmount.getD 0) amount
      provider input : Action Key Refund) (Issued k request order) past := by
  refine Prog.follows_bind (Prog.follows_mono (fun _ _ hCall => hCall) ?_
    (refunds_refundNumber h hRequest hKey))
  rintro (e | outRefundNo) past₁ ⟨⟨hLong₁, h₁⟩, hNumber⟩
  · exact issued_error h₁.toLooked
  obtain ⟨hOurs, hTheirs⟩ := hNumber outRefundNo rfl
  refine refunds_call rfl h₁ (fun now _ => ?_) fun e past' hLooked => issued_error hLooked
  have h₂ : Unwritten k request (⟨.now, .ok now⟩ :: past₁) := h₁.cons rfl
  refine Prog.follows_bind (Prog.follows_mono (fun _ _ hCall => hCall) ?_ (refunds_calls ?_ h₂))
  swap
  · unfold RefundService.requestRefund
    split
    · exact Prog.calls_perform rfl
    · trivial
  rintro (e | result) past₃ ⟨hLong₃, h₃⟩
  · exact issued_error h₃.toLooked
  refine refunds_call rfl h₃ (fun refundId _ => ?_) fun e past' hLooked => issued_error hLooked
  have hRead₃ := hLong₃.mem (List.mem_cons_of_mem _ (hLong₁.mem hRead))
  exact refunds_createRefund result.status (h₃.cons rfl) (List.mem_cons_of_mem _ hRead₃)
    List.mem_cons_self rfl hOurs hTheirs

/-- The lookup, then the refund that was found or a new one. -/
theorem refunds_refundLocked (locker : String → Key) {orderId : String} {input : RefundInput}
    (h : Unwritten k (.refundOrder orderId input) past) :
    RefundsBy k (.refundOrder orderId input) (RefundService.refundLocked locker deps orderId input)
      (fun result past' => Looked k (.refundOrder orderId input) past' ∧
        ∀ refund, result = .ok refund → ⟨.refundsCreate refund, .ok refund⟩ ∈ past' ∧
          refund.orderId = orderId ∧
          (((Request.refundOrder orderId input).refundsUnder k).isSome → refund.outRefundNo = k))
      past := by
  have hFails : ∀ {e : AppError} {past' : Past}, Looked k (.refundOrder orderId input) past' →
      Looked k (.refundOrder orderId input) past' ∧ ∀ refund,
        (Except.error e : Except AppError Refund) = .ok refund →
          ⟨.refundsCreate refund, .ok refund⟩ ∈ past' ∧ refund.orderId = orderId ∧
          (((Request.refundOrder orderId input).refundsUnder k).isSome → refund.outRefundNo = k) :=
    fun hLooked => ⟨hLooked, nofun⟩
  refine Prog.follows_withLock (refunds_call rfl h (fun order hFound => ?_)
    fun e past' hLooked => hFails hLooked)
  have h₁ : Unwritten k (.refundOrder orderId input) (⟨.ordersFindById orderId, .ok order⟩ :: past) :=
    h.cons rfl
  cases order with
  | none => exact hFails h₁.toLooked
  | some order =>
      obtain rfl : order.id = orderId := hFound order rfl
      show RefundsBy k _ (RefundService.refundFresh deps order input) _ _
      unfold RefundService.refundFresh
      split
      · exact hFails h₁.toLooked
      dsimp only
      split
      · exact hFails h₁.toLooked
      split
      · exact hFails h₁.toLooked
      split
      · exact hFails h₁.toLooked
      · next amount _ _ _ provider _ =>
          refine refunds_issueRefund amount provider h₁ List.mem_cons_self ?_ ?_
          · intro hInput
            simp [Request.refundsUnder, hInput]
          · intro hSome
            by_contra hNot
            simp [Request.refundsUnder, hNot] at hSome

/-- By whether the number is looked up, and what the lookup finds. -/
theorem refunds_refundOrder (locker : String → Key) (hk : k ≠ "") (orderId : String)
    (input : RefundInput) :
    RefundsBy k (.refundOrder orderId input) (serve locker deps (.refundOrder orderId input))
      (Refunds k (.refundOrder orderId input)) [] := by
  have hIssues : ∀ {past : Past}, Unwritten k (.refundOrder orderId input) past →
      RefundsBy k (.refundOrder orderId input)
        (RefundService.refundLocked locker deps orderId input >>= fun refund => pure (.refund refund))
        (Refunds k (.refundOrder orderId input)) past := by
    intro past h
    refine Prog.follows_bind (Prog.follows_mono (fun _ _ => id) ?_ (refunds_refundLocked locker h))
    rintro (e | refund) past' ⟨hLooked, hIssued⟩ other hOther
    · exact ⟨fun found hMem => absurd hMem (hLooked.never found), nofun⟩
    · refine ⟨fun found hMem => absurd hMem (hLooked.never found), ?_⟩
      rintro _ ⟨⟩
      obtain ⟨hCreated, hOrder, hNumber⟩ := hIssued refund rfl
      have hSame : other = orderId := by
        simp only [Request.refundsUnder] at hOther
        split at hOther
        · exact (Option.some.inj hOther).symm
        · cases hOther
      exact .inr ⟨hCreated, hNumber (by simp [hOther]), hOrder.trans hSame.symm⟩
  show RefundsBy k _ (RefundService.refundOrder locker deps orderId input >>= _) _ _
  unfold RefundService.refundOrder
  cases hTruthy : truthy input.outRefundNo with
  | none =>
      -- a request without a number
      apply hIssues
      have hNone : (Request.refundOrder orderId input).refundsUnder k = none := by
        refine if_neg fun hInput => ?_
        rw [hInput] at hTruthy
        simp [truthy, Option.filter, hk] at hTruthy
      refine ⟨⟨fun other hOther => ?_, fun _ => List.not_mem_nil⟩,
        List.forall_mem_nil _, List.forall_mem_nil _⟩
      cases hNone.symm.trans hOther
  | some outRefundNo =>
      have hInput : input.outRefundNo = some outRefundNo := (Option.filter_eq_some_iff.mp hTruthy).1
      have hMine : ∀ {other : String},
          (Request.refundOrder orderId input).refundsUnder k = some other → outRefundNo = k := by
        intro other hOther
        simp only [Request.refundsUnder] at hOther
        split at hOther
        · next hEq => exact Option.some.inj (hInput.symm.trans hEq)
        · cases hOther
      refine ⟨⟨trivial, fun other hOther => ?_⟩, fun answer _ => ?_⟩
      · rw [hMine hOther]
        exact .lookup
      cases answer with
      | error e =>
          intro other hOther
          exact ⟨fun found hMem => (by cases List.mem_singleton.mp hMem), nofun⟩
      | ok existing => cases existing with
        | some existing =>
            intro other hOther
            have hEq := hMine hOther
            subst hEq
            constructor
            · intro found hMem
              cases List.mem_singleton.mp hMem
              rfl
            · rintro _ ⟨⟩
              exact .inl List.mem_cons_self
        | none =>
            apply hIssues
            refine ⟨⟨fun other hOther => ?_, fun found hMem => ?_⟩, ?_, ?_⟩
            · rw [hMine hOther]
              exact List.mem_cons_self
            · cases List.mem_singleton.mp hMem
            · rintro x hMem r hEq
              cases List.mem_singleton.mp hMem
              cases hEq
            · exact noOrder_cons (List.forall_mem_nil _) rfl

end issue

section others

/-- A request without the number writes what it has found. -/
theorem refundCall_other {c : Call} (hOther : request.refundsUnder k = none)
    (hWrites : WritesRefund k request past c) : RefundCall k request past c :=
  ⟨hWrites, fun _ hOrder => nomatch hOther.symm.trans hOrder⟩

theorem writesRefund_of_not {c : Call} (hCall : c.writesRefund = false) :
    WritesRefund k request past c := by
  cases c <;> trivial

/-- Programs that write no refund. -/
theorem refunds_of_calls {p : Action Key α} (hOther : request.refundsUnder k = none)
    (hCalls : p.Calls fun c => c.writesRefund = false) :
    RefundsBy k request p (fun _ _ => True) past :=
  Prog.follows_mono (fun _ _ hCall => hCall) (fun _ _ _ => trivial)
    (Prog.follows_calls (I := fun _ => True)
      (fun _ _ _ hCall => refundCall_other hOther (writesRefund_of_not hCall))
      (fun _ _ _ _ _ => trivial) hCalls trivial)

theorem refunds_then {c : Call} {f : Ans c → Action Key α} (hOther : request.refundsUnder k = none)
    (hWrites : WritesRefund k request past c)
    (hOk : ∀ a, RefundsBy k request (f a) (fun _ _ => True) (⟨c, .ok a⟩ :: past)) :
    RefundsBy k request (perform c >>= f) (fun _ _ => True) past :=
  Prog.follows_perform (refundCall_other hOther hWrites) (fun a _ => hOk a) fun _ _ => trivial

/-- A notice writes the refund that was read. -/
theorem refunds_applyRefundResult (locker : String → Key) (result : RefundCallbackResult)
    (orderId : String) (hOther : request.refundsUnder k = none) :
    RefundsBy k request (RefundService.applyRefundResult locker result orderId) (fun _ _ => True)
      past := by
  refine Prog.follows_withLock (refunds_then hOther trivial fun found => ?_)
  split
  · trivial
  next fresh hFresh =>
    obtain ⟨hFound, -⟩ := Option.filter_eq_some_iff.mp hFresh
    refine refunds_then hOther trivial fun now => refunds_then hOther ?_ fun _ => ?_
    · refine ⟨result.outRefundNo, fresh, ?_, rfl⟩
      rw [hFound]
      exact List.mem_cons_of_mem _ List.mem_cons_self
    refine refunds_then hOther trivial fun order => ?_
    cases order with
    | none => trivial
    | some order =>
        apply refunds_of_calls hOther
        exact calls_applyOutcome (C := fun c => c.writesRefund = false) rfl (fun _ => rfl) order _ _ _

theorem refunds_handleRefundCallback (locker : String → Key) (method : PaymentMethod)
    (raw : RawCallback) :
    RefundsBy k (.handleRefundCallback method raw)
      (RefundService.handleRefundCallback locker deps method raw) (fun _ _ => True) past := by
  unfold RefundService.handleRefundCallback
  split
  · trivial
  refine refunds_then rfl trivial fun result => refunds_then rfl trivial fun isNew => ?_
  split
  · trivial
  refine refunds_then rfl trivial fun refund => ?_
  cases refund with
  | none => trivial
  | some refund =>
      refine Prog.follows_bind (Prog.follows_mono (fun _ _ hCall => hCall) ?_
        (refunds_applyRefundResult locker result refund.orderId rfl))
      rintro (e | _) past' - <;> trivial

end others

/-- Every request keeps to it. -/
theorem refunds_serve (locker : String → Key) (hk : k ≠ "") (request : Request) :
    RefundsBy k request (serve locker deps request) (Refunds k request) [] := by
  have hNothing : request.refundsUnder k = none → ∀ result past, Refunds k request result past :=
    fun hOther _ _ _ hOrder => nomatch hOther.symm.trans hOrder
  have hCalls : request.refundsUnder k = none →
      (∀ c, request.mayCall c = true → c.writesRefund = false) →
      RefundsBy k request (serve locker deps request) (Refunds k request) [] := by
    intro hOther hMay
    exact Prog.follows_mono (fun _ _ hCall => hCall) (fun _ _ _ => hNothing hOther _ _)
      (refunds_of_calls hOther (Prog.calls_mono hMay (calls_serve locker request)))
  cases request with
  | refundOrder orderId input => exact refunds_refundOrder locker hk orderId input
  | handleRefundCallback method raw =>
      refine Prog.follows_bind (Prog.follows_mono (fun _ _ hCall => hCall) ?_
        (refunds_handleRefundCallback locker method raw))
      rintro (e | ack) past' -
      · exact hNothing rfl _ _
      · exact hNothing rfl _ _
  | _ =>
      refine hCalls rfl fun c hCall => ?_
      cases c <;> first | rfl | cases hCall

end VpnPayment
