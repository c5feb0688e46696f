import VpnPayment.Settlement.Lineage

/-! What a task that issues a refund or handles the notification of a result has
done before each of its calls. -/
namespace VpnPayment

open Async Collections
open Prog (perform withLock)

/-- The key under which a notification of a refund result is recorded. -/
def refundKey (method : PaymentMethod) (eventId : String) : String :=
  s!"rfcb:{method.name}:{eventId}"

/-- The authentic notification that a call has read, with its key. -/
def noticeOf : (Σ c : Call, Except AppError (Ans c)) → Option (String × RefundCallbackResult)
  | ⟨.verifyRefundCallback method _, .ok result⟩ => some (refundKey method result.eventId, result)
  | _ => none

def notices (past : Past) : List (String × RefundCallbackResult) :=
  past.filterMap noticeOf

/-- The call has recorded an event as processed. -/
def records : (Σ c : Call, Except AppError (Ans c)) → Bool
  | ⟨.markIfNew _, .ok true⟩ => true
  | _ => false

def recorded (past : Past) : Bool :=
  past.any records

/-- The task has found a refund of the order. -/
def FoundRefundOf (past : Past) (orderId : String) : Prop :=
  ∃ no r, ⟨.refundsFindByOutRefundNo no, .ok (some r)⟩ ∈ past ∧ r.orderId = orderId

/-- A payment of the order was recorded at some time. -/
def Order.wasPaid (o : Order) : Prop :=
  o.counted ∨ o.status = .REFUNDED

/-- An order that was paid may become REFUNDED. -/
theorem Order.assertTransition_of_wasPaid {o : Order} (h : o.wasPaid) :
    assertTransition o.status .REFUNDED = .ok .REFUNDED := by
  rcases h with (h | h) | h <;> rw [h] <;> rfl

/-- What no write of a refund changes. -/
def Refund.terms (r : Refund) : String × String × String :=
  (r.id, r.orderId, r.outRefundNo)

/-- How calls settle where no result gets lost: nothing fails once an event is
recorded, the refund of a recorded notification is found, and refunds are of
orders that were paid. -/
structure Kept (older : Past) (h : Σ c : Call, Except AppError (Ans c)) : Prop where
  goesOn : recorded older = true → ∃ a, h.2 = .ok a
  found : ∀ no, h = ⟨.refundsFindByOutRefundNo no, .ok none⟩ → recorded older = true →
    ∀ n ∈ notices older, n.2.outRefundNo ≠ no
  paid : ∀ id o, h = ⟨.ordersFindById id, .ok (some o)⟩ →
    o.id = id ∧ (FoundRefundOf older id → o.wasPaid)

/-- What a task has done before a call. -/
def Flows (past : Past) : Call → Prop
  | .verifyRefundCallback _ _ => past = []
  | .markIfNew key => ∃ n ∈ notices past, n.1 = key
  | .refundsCreate r => recorded past = false ∧
      (∃ o, ⟨.ordersFindById r.orderId, .ok (some o)⟩ ∈ past ∧ o.wasPaid) ∧
      ⟨.uuid, .ok r.id⟩ ∈ past ∧ ∀ h ∈ past, ∀ r', h.1 ≠ .refundsCreate r'
  | .refundsUpdate r => r.status ≠ .PENDING ∧
      ∃ no fresh, ⟨.refundsFindByOutRefundNo no, .ok (some fresh)⟩ ∈ past ∧ r.terms = fresh.terms
  | .ordersUpdate o => ∃ base, ⟨.ordersFindById base.id, .ok (some base)⟩ ∈ past ∧ base.wasPaid ∧
      o.id = base.id ∧ (o.status = base.status ∨ o.status = .REFUNDED)
  | .ordersCreate _ | .subscriptionsCreate _ | .subscriptionsUpdate _ => False
  | _ => True

variable {Key : Type} {deps : Deps} {α β : Type} {past : Past}

abbrev KeptTo (p : Action Key α) (Q : Except AppError α → Past → Prop) (past : Past) : Prop :=
  p.FollowsGiven Kept Flows Q past

/-- Calls that neither read notifications nor create refunds, and that may be made
at any time. -/
def Call.plainForRefunds : Call → Bool
  | .verifyRefundCallback _ _ | .markIfNew _ | .refundsCreate _ | .refundsUpdate _
  | .ordersUpdate _ | .ordersCreate _ | .subscriptionsCreate _ | .subscriptionsUpdate _ => false
  | _ => true

/-- Calls that touch neither refunds nor orders are always admitted. -/
theorem flows_of_plain {c : Call} (h : c.plainForRefunds = true) : Flows past c := by
  cases c <;> trivial

/-- Only plain calls were made since. -/
abbrev PlainlyAfter (past past' : Past) : Prop :=
  Prog.After (fun c => c.plainForRefunds = true) past past'

theorem noticeOf_plain {h : Σ c : Call, Except AppError (Ans c)}
    (hPlain : h.1.plainForRefunds = true) : noticeOf h = none := by
  obtain ⟨c, answer⟩ := h
  cases c <;> first | rfl | cases hPlain

theorem records_plain {h : Σ c : Call, Except AppError (Ans c)}
    (hPlain : h.1.plainForRefunds = true) : records h = false := by
  obtain ⟨c, answer⟩ := h
  cases c <;> first | rfl | cases hPlain

/-- Plain calls bring no notice of a refund. -/
theorem notices_of_plainly {past' : Past} (h : PlainlyAfter past past') :
    notices past' = notices past := by
  obtain ⟨extra, rfl, hPlain⟩ := h
  rw [VpnPayment.notices, List.filterMap_append,
    List.filterMap_eq_nil_iff.mpr fun x hx => noticeOf_plain (hPlain x hx), List.nil_append]
  rfl

/-- The program takes no locks and makes plain calls only. -/
abbrev Plainly (p : Action Key α) : Prop :=
  p.Only (fun c => c.plainForRefunds = true) fun _ => True

theorem plainly_perform {c : Call} (h : c.plainForRefunds = true) :
    Plainly (perform c : Action Key (Ans c)) :=
  ⟨h, fun _ => trivial⟩

theorem kept_only {p : Action Key α} (h : Plainly p) :
    KeptTo p (fun _ past' => PlainlyAfter past past') past :=
  Prog.followsGiven_only (fun _ _ => flows_of_plain) h

/-- A plain call, answered or failed. -/
theorem kept_call {c : Call} {f : Ans c → Action Key α} {Q : Except AppError α → Past → Prop}
    (hCall : c.plainForRefunds = true)
    (hOk : ∀ a, Kept past ⟨c, .ok a⟩ → KeptTo (f a) Q (⟨c, .ok a⟩ :: past))
    (hError : ∀ e, Kept past ⟨c, .error e⟩ → Q (.error e) (⟨c, .error e⟩ :: past)) :
    KeptTo (perform c >>= f) Q past :=
  Prog.followsGiven_perform (flows_of_plain hCall) hOk hError

/-- What a program leaves of the notifications read before it: the same ones, and
it does not fail once an event is recorded. -/
def Through {α : Type} (past : Past) (result : Except AppError α) (past' : Past) : Prop :=
  notices past' = notices past ∧ (recorded past = true → ∃ a, result = .ok a)

theorem through_ok {a : α} {past' : Past} (h : notices past' = notices past) :
    Through past (.ok a : Except AppError α) past' :=
  ⟨h, fun _ => ⟨a, rfl⟩⟩

/-- A call fails only while no event is recorded. -/
theorem through_error {c : Call} {e : AppError} {older : Past}
    (hKept : Kept older ⟨c, .error e⟩) (hNotices : notices (⟨c, .error e⟩ :: older) = notices past)
    (hRecorded : recorded older = recorded past) :
    Through past (.error e : Except AppError α) (⟨c, .error e⟩ :: older) := by
  refine ⟨hNotices, fun h => ?_⟩
  obtain ⟨a, hEq⟩ := hKept.goesOn (hRecorded.trans h)
  cases hEq

/-- The reservation writes the order that was read. -/
theorem kept_reserveRefund {order : Order} (total : Int) (settled : Bool)
    (hRead : ⟨.ordersFindById order.id, .ok (some order)⟩ ∈ past) (hPaid : order.wasPaid) :
    KeptTo (RefundService.reserveRefund order total settled : Action Key Unit) (Through past) past := by
  refine kept_call rfl (fun now _ => ?_) fun e hKept => through_error hKept rfl rfl
  -- the write-back, with the status it carries
  have hWrite : ∀ status : OrderStatus, status = order.status ∨ status = .REFUNDED →
      KeptTo (perform (Call.ordersUpdate
        { order with refundedAmount := some total, updatedAt := now, status := status })
        >>= fun _ => pure () : Action Key Unit) (Through past) (⟨.now, .ok now⟩ :: past) := by
    intro status hStatus
    refine Prog.followsGiven_perform ⟨order, List.mem_cons_of_mem _ hRead, hPaid, rfl, hStatus⟩
      (fun _ _ _ => through_ok rfl) fun e hKept => through_error hKept rfl rfl
  split
  · rw [Order.assertTransition_of_wasPaid hPaid]
    exact hWrite .REFUNDED (.inr rfl)
  · exact hWrite order.status (.inl rfl)

section issue

/-- The task has neither read nor recorded a notification, nor created a refund. -/
def Beginning (past : Past) : Prop :=
  ∀ h ∈ past, noticeOf h = none ∧ records h = false ∧ ∀ r, h.1 ≠ .refundsCreate r

/-- Before the first notice, any plain calls may be made. -/
theorem beginning_after {past' : Past} (h : Beginning past) (hAfter : PlainlyAfter past past') :
    Beginning past' := by
  refine hAfter.forall h fun x hPlain => ⟨noticeOf_plain hPlain, records_plain hPlain, ?_⟩
  intro r hEq
  rw [hEq] at hPlain
  cases hPlain

theorem beginning_cons {c : Call} {answer : Except AppError (Ans c)}
    (hCall : c.plainForRefunds = true) (h : Beginning past) : Beginning (⟨c, answer⟩ :: past) :=
  beginning_after h ⟨[⟨c, answer⟩], rfl, by simpa using hCall⟩

/-- No notice has come in at the beginning. -/
theorem Beginning.notices (h : Beginning past) : notices past = [] :=
  List.filterMap_eq_nil_iff.mpr fun x hx => (h x hx).1

theorem Beginning.recorded (h : Beginning past) : recorded past = false := by
  rw [VpnPayment.recorded, List.any_eq_false]
  exact fun x hx => by simp [(h x hx).2.1]

/-- What follows the answer of the provider. -/
theorem kept_createRefund {order : Order} {refund : Refund} (total : Int) (status : RefundStatus)
    (hPast : Beginning past) (hRead : ⟨.ordersFindById order.id, .ok (some order)⟩ ∈ past)
    (hPaid : order.wasPaid) (hDrawn : ⟨.uuid, .ok refund.id⟩ ∈ past)
    (hOrder : refund.orderId = order.id) :
    KeptTo (do
        let saved ← perform (Call.refundsCreate refund)
        RefundService.reserveUnlessFailed order total status
        RefundService.announceRefund deps order saved
        pure saved : Action Key Refund) (fun _ past' => notices past' = []) past := by
  have hFlows : Flows past (.refundsCreate refund) :=
    ⟨hPast.recorded, ⟨order, hOrder ▸ hRead, hPaid⟩, hDrawn, fun h hh => (hPast h hh).2.2⟩
  refine Prog.followsGiven_perform hFlows (fun saved _ => ?_) fun e _ => hPast.notices
  refine Prog.followsGiven_bind (R := fun _ past' => notices past' = []) ?_ (fun _ past₁ _ hNone => ?_)
    fun _ _ _ hNone => hNone
  · unfold RefundService.reserveUnlessFailed
    split
    · refine Prog.follows_mono (fun _ _ => id) (fun _ _ hThrough hAlong => ?_)
        (kept_reserveRefund total (isSettled status) (List.mem_cons_of_mem _ hRead) hPaid)
      exact (hThrough hAlong).1.trans hPast.notices
    · exact fun _ => hPast.notices
  · refine Prog.followsGiven_bind (kept_only ?_) (fun _ past₂ _ hAfter _ => (notices_of_plainly hAfter).trans hNone)
      fun _ past₂ _ hAfter => (notices_of_plainly hAfter).trans hNone
    exact Prog.only_bind (only_whenPresent (plainly_perform rfl)) fun _ =>
      only_whenPresent (plainly_perform rfl)

/-- A refund that is issued brings no notice. -/
theorem kept_issueRefund {order : Order} (alreadyRefunded amount : Int) (provider : PaymentProvider)
    (input : RefundInput) (hPast : Beginning past)
    (hRead : ⟨.ordersFindById order.id, .ok (some order)⟩ ∈ past) (hPaid : order.wasPaid) :
    KeptTo (RefundService.issueRefund deps order alreadyRefunded amount provider input :
      Action Key Refund) (fun _ past' => notices past' = []) past := by
  refine Prog.followsGiven_bind (kept_only ?_) (fun outRefundNo past₁ hLong₁ hAfter₁ => ?_)
    fun e past₁ _ hAfter₁ => (notices_of_plainly hAfter₁).trans hPast.notices
  · unfold RefundService.refundNumber
    split
    · exact trivial
    · exact plainly_perform rfl
  have hPast₁ := beginning_after hPast hAfter₁
  refine kept_call rfl (fun now _ => ?_) fun e _ => hPast₁.notices
  refine Prog.followsGiven_bind (kept_only ?_) (fun result past₂ hLong₂ hAfter₂ => ?_)
    fun e past₂ _ hAfter₂ => (notices_of_plainly hAfter₂).trans hPast₁.notices
  · unfold RefundService.requestRefund
    split
    · exact plainly_perform rfl
    · exact trivial
  have hPast₂ := beginning_after (beginning_cons rfl hPast₁) hAfter₂
  have hRead₂ := ((hLong₁.trans (List.suffix_cons _ _)).trans hLong₂).mem hRead
  refine kept_call rfl (fun id _ => ?_) fun e _ => hPast₂.notices
  exact kept_createRefund _ _ (beginning_cons rfl hPast₂) (List.mem_cons_of_mem _ hRead₂) hPaid
    List.mem_cons_self rfl

theorem kept_refundLocked (locker : String → Key) (orderId : String) (input : RefundInput)
    (hPast : Beginning past) :
    KeptTo (RefundService.refundLocked locker deps orderId input)
      (fun _ past' => notices past' = []) past := by
  refine Prog.followsGiven_withLock (kept_call rfl (fun order hKept => ?_) fun e _ => hPast.notices)
  cases order with
  | none => exact fun _ => hPast.notices
  | some order =>
      obtain rfl : order.id = orderId := (hKept.paid orderId order rfl).1
      show KeptTo (RefundService.refundFresh deps order input) _ _
      unfold RefundService.refundFresh
      split
      · exact fun _ => hPast.notices
      next hStatus =>
        have hPaid : order.counted := by
          by_contra hNot
          exact hStatus (not_or.mp hNot)
        dsimp only
        split
        · exact fun _ => hPast.notices
        split
        · exact fun _ => hPast.notices
        split
        · exact fun _ => hPast.notices
        · exact kept_issueRefund _ _ _ _ (beginning_cons rfl hPast) List.mem_cons_self (.inl hPaid)

theorem kept_refundOrder (locker : String → Key) (orderId : String) (input : RefundInput)
    (hPast : Beginning past) :
    KeptTo (RefundService.refundOrder locker deps orderId input)
      (fun _ past' => notices past' = []) past := by
  unfold RefundService.refundOrder
  split
  · refine kept_call rfl (fun existing _ => ?_) fun e _ => hPast.notices
    cases existing with
    | none => exact kept_refundLocked locker orderId input (beginning_cons rfl hPast)
    | some existing => exact fun _ => hPast.notices
  · exact kept_refundLocked locker orderId input hPast

end issue

section result

variable {result : RefundCallbackResult}

/-- The outcome of a refund is written to the order that was read. -/
theorem kept_applyOutcome {order : Order} (outcome : RefundOutcome) (amount now : Int)
    (hRead : ⟨.ordersFindById order.id, .ok (some order)⟩ ∈ past) (hPaid : order.wasPaid) :
    KeptTo (RefundService.applyOutcome order outcome amount now : Action Key Unit) (Through past)
      past := by
  unfold RefundService.applyOutcome
  cases outcome with
  | SUCCESS => exact kept_reserveRefund _ _ hRead hPaid
  | FAILED =>
      exact Prog.followsGiven_perform ⟨order, hRead, hPaid, rfl, .inl rfl⟩
        (fun _ _ _ => through_ok rfl) fun e hKept => through_error hKept rfl rfl

/-- The update of a refund that was found PENDING is not lost. -/
theorem kept_settleRefund {fresh : Refund} {no : String}
    (hFound : ⟨.refundsFindByOutRefundNo no, .ok (some fresh)⟩ ∈ past) :
    KeptTo (RefundService.settleRefund fresh result : Action Key Unit)
      (fun outcome past' => Through past outcome past' ∧ (∀ a, outcome = .ok a →
        ∃ y answer, ⟨.refundsUpdate y, .ok answer⟩ ∈ past' ∧ y.id = fresh.id)) past := by
  refine kept_call rfl (fun now _ => ?_) fun e hKept => ⟨through_error hKept rfl rfl, nofun⟩
  have hStatus : result.status.status ≠ .PENDING := by cases result.status <;> nofun
  refine Prog.followsGiven_perform ⟨hStatus, no, fresh, List.mem_cons_of_mem _ hFound, rfl⟩
    (fun saved _ => ?_) fun e hKept => ⟨through_error hKept rfl rfl, nofun⟩
  refine kept_call rfl (fun order hKept => ?_) fun e hKept => ⟨through_error hKept rfl rfl, nofun⟩
  have hUpdated : ∀ past' : Past,
      (⟨.refundsUpdate (RefundService.settledRefund fresh result now), .ok saved⟩ ::
        ⟨.now, .ok now⟩ :: past) <:+ past' →
      ∃ y answer, (⟨.refundsUpdate y, .ok answer⟩ : Σ c : Call, Except AppError (Ans c)) ∈ past' ∧
        y.id = fresh.id := fun past' hLong =>
    ⟨_, saved, hLong.mem List.mem_cons_self, rfl⟩
  cases order with
  | none => exact fun _ => ⟨through_ok rfl, fun _ _ => hUpdated _ (List.suffix_cons _ _)⟩
  | some order =>
      obtain ⟨hId, hPaid⟩ := hKept.paid fresh.orderId order rfl
      have hMine : FoundRefundOf (⟨.refundsUpdate (RefundService.settledRefund fresh result now),
          .ok saved⟩ :: ⟨.now, .ok now⟩ :: past) fresh.orderId :=
        ⟨no, fresh, List.mem_cons_of_mem _ (List.mem_cons_of_mem _ hFound), rfl⟩
      refine Prog.follows_mono (fun _ _ => id) ?_
        (Prog.follows_extends (kept_applyOutcome result.status fresh.amount now ?_ (hPaid hMine)))
      · rintro outcome past' ⟨hLong, hThrough⟩ hAlong
        exact ⟨hThrough hAlong, fun _ _ => hUpdated past' ((List.suffix_cons _ _).trans hLong)⟩
      · rw [hId]
        exact List.mem_cons_self

/-- The task has found the refund with the number, and has updated it if it was
PENDING. -/
def TookEffect (past : Past) (outRefundNo : String) : Prop :=
  ∃ x, ⟨.refundsFindByOutRefundNo outRefundNo, .ok (some x)⟩ ∈ past ∧
    (x.status = .PENDING → ∃ y answer, ⟨.refundsUpdate y, .ok answer⟩ ∈ past ∧ y.id = x.id)

/-- The notice is carried out on the refund that was read again. -/
theorem kept_applyRefundResult (locker : String → Key) (orderId : String)
    (hRecorded : recorded past = true) (hNotice : ∃ n ∈ notices past, n.2 = result) :
    KeptTo (RefundService.applyRefundResult locker result orderId) (fun outcome past' =>
      Through past outcome past' ∧ (∀ a, outcome = .ok a → TookEffect past' result.outRefundNo)) past := by
  refine Prog.followsGiven_withLock (kept_call rfl (fun found hKept => ?_) fun e hKept =>
    ⟨through_error hKept rfl rfl, nofun⟩)
  cases found with
  | none =>
      obtain ⟨n, hn, rfl⟩ := hNotice
      exact absurd rfl (hKept.found _ rfl hRecorded n hn)
  | some x =>
      by_cases hPending : x.status = .PENDING
      · have hFilter : (some x).filter (fun r => r.status = .PENDING) = some x := by
          simp [Option.filter, hPending]
        simp only [hFilter]
        refine Prog.follows_mono (fun _ _ => id) ?_
          (Prog.follows_extends (kept_settleRefund List.mem_cons_self))
        rintro outcome past' ⟨hLong, hSettles⟩ hAlong
        obtain ⟨hThrough, hUpdated⟩ := hSettles hAlong
        exact ⟨hThrough, fun a ha => ⟨x, hLong.mem List.mem_cons_self, fun _ => hUpdated a ha⟩⟩
      · have hFilter : (some x).filter (fun r => r.status = .PENDING) = none := by
          simp [Option.filter, hPending]
        simp only [hFilter]
        intro _
        exact ⟨through_ok rfl, fun _ _ => ⟨x, List.mem_cons_self, fun h => absurd h hPending⟩⟩

/-- What a task has made of the notifications it has read when it settles. -/
def Handled {α : Type} (result : Except AppError α) (past : Past) : Prop :=
  ∀ n ∈ notices past,
    (∀ a, result = .ok a → ∃ isNew, ⟨.markIfNew n.1, .ok isNew⟩ ∈ past) ∧
    (recorded past = true → (∃ a, result = .ok a) ∧ TookEffect past n.2.outRefundNo)

theorem handled_of_notices {result : Except AppError α} (h : notices past = []) :
    Handled result past := by
  intro n hn
  rw [h] at hn
  cases hn

/-- One notification, its record and its result. -/
theorem kept_handleRefundCallback (locker : String → Key) (method : PaymentMethod)
    (raw : RawCallback) :
    KeptTo (RefundService.handleRefundCallback locker deps method raw) Handled [] := by
  unfold RefundService.handleRefundCallback
  split
  · exact fun _ => handled_of_notices rfl
  next provider _ =>
    refine Prog.followsGiven_perform rfl (fun result _ => ?_) fun e _ => handled_of_notices rfl
    have hOnly : ∀ n ∈ [(refundKey method result.eventId, result)],
        n = (refundKey method result.eventId, result) := fun n hn => List.mem_singleton.mp hn
    refine Prog.followsGiven_perform ⟨_, List.mem_cons_self, rfl⟩ (fun isNew _ => ?_) fun e _ => ?_
    · cases isNew with
      | false =>
          intro _ n hn
          obtain rfl := hOnly n hn
          exact ⟨fun _ _ => ⟨false, List.mem_cons_self⟩, fun hRecorded => by cases hRecorded⟩
      | true =>
          refine kept_call rfl (fun found hKept => ?_) fun e hKept => ?_
          · cases found with
            | none => exact absurd rfl (hKept.found _ rfl rfl _ List.mem_cons_self)
            | some refund =>
                refine Prog.followsGiven_bind (@kept_applyRefundResult _ _ result locker
                  refund.orderId rfl ⟨_, List.mem_cons_self, rfl⟩) ?_ ?_
                · rintro _ past' hLong ⟨⟨hNotices, -⟩, hSettled⟩ _ n hn
                  rw [hNotices] at hn
                  obtain rfl := hOnly n hn
                  refine ⟨fun _ _ => ⟨true, hLong.mem ?_⟩, fun _ => ⟨⟨_, rfl⟩, hSettled _ rfl⟩⟩
                  exact List.mem_cons_of_mem _ List.mem_cons_self
                · rintro e past' hLong ⟨⟨-, hThrough⟩, -⟩
                  obtain ⟨a, hEq⟩ := hThrough rfl
                  cases hEq
          · obtain ⟨a, hEq⟩ := hKept.goesOn rfl
            cases hEq
    · intro n hn
      obtain rfl := hOnly n hn
      exact ⟨fun _ hEq => (nomatch hEq), fun hRecorded => by cases hRecorded⟩

end result

/-- Refunds and the notifications of their results, while time passes and old
records are removed. -/
def Request.ofRefunds : Request → Bool
  | .refundOrder _ _ | .handleRefundCallback _ _ | .sweep _ | .tick => true
  | _ => false

/-- One plain call. -/
theorem kept_perform {c : Call} (hCall : c.plainForRefunds = true) :
    KeptTo (perform c : Action Key (Ans c)) (fun _ past' => notices past' = []) [] :=
  ⟨fun _ => flows_of_plain hCall, fun answer _ _ => by
    have hNotice := noticeOf_plain (h := ⟨c, answer⟩) hCall
    simp [notices, hNotice]⟩

/-- One case for each request about refunds. -/
theorem kept_serve (locker : String → Key) {request : Request} (hRefunds : request.ofRefunds = true) :
    KeptTo (serve locker deps request) Handled [] := by
  have hNone : ∀ {β : Type} {p : Action Key β} {f : β → Outcome}, KeptTo p (fun _ past' => notices past' = []) [] →
      KeptTo (p >>= fun b => pure (f b)) Handled [] := fun hFirst =>
    Prog.followsGiven_bind hFirst (fun _ _ _ h _ => handled_of_notices h) fun _ _ _ h =>
      handled_of_notices h
  have hBeginning : Beginning [] := List.forall_mem_nil _
  cases request with
  | refundOrder orderId input => exact hNone (kept_refundOrder locker orderId input hBeginning)
  | handleRefundCallback method raw =>
      refine Prog.followsGiven_bind (kept_handleRefundCallback locker method raw) ?_ ?_
      · rintro ack past' - hHandled _ n hn
        obtain ⟨hOk, hRecorded⟩ := hHandled n hn
        exact ⟨fun _ _ => hOk ack rfl, fun h => ⟨⟨_, rfl⟩, (hRecorded h).2⟩⟩
      · rintro e past' - hHandled n hn
        refine ⟨fun _ hEq => (nomatch hEq), fun h => ?_⟩
        obtain ⟨⟨a, hEq⟩, -⟩ := (hHandled n hn).2 h
        cases hEq
  | sweep olderThanMs =>
      exact hNone (kept_perform rfl)
  | tick =>
      exact hNone (kept_perform rfl)
  | _ => cases hRefunds

end VpnPayment
