import VpnPayment.Settlement.Past

/-! Every request keeps to what `Admits` says of the orders it writes. -/
namespace VpnPayment

open Async Collections
open Prog (perform withLock)

variable {Key : Type} {deps : Deps} {α β : Type} {past : Past}

/-- The program writes orders only after what `Admits` asks for, and what it
returns is `Q`. -/
abbrev TracedTo (deps : Deps) (p : Action Key α) (Q : α → Past → Prop) (past : Past) : Prop :=
  p.Follows Possible (Admits deps) (fun result past' => ∀ a, result = .ok a → Q a past') past

abbrev Traced (deps : Deps) (p : Action Key α) (past : Past) : Prop :=
  TracedTo deps p (fun _ _ => True) past

def Call.writesOrder : Call → Bool
  | .ordersCreate _ | .ordersUpdate _ => true
  | _ => false

/-- Calls that write no order are always admitted. -/
theorem admits_of_writesOrder {c : Call} (h : c.writesOrder = false) : Admits deps past c := by
  cases c <;> trivial

section rules

variable {Q : α → Past → Prop} {R : β → Past → Prop}

theorem traced_ret {a : α} (h : Q a past) :
    TracedTo deps (pure a : Action Key α) Q past := by
  rintro b ⟨⟩
  exact h

theorem traced_throw (e : AppError) : TracedTo deps (throw e : Action Key α) Q past :=
  nofun

/-- A call that writes no order. -/
theorem traced_call {c : Call} {f : Ans c → Action Key α} (hCall : c.writesOrder = false)
    (hOk : ∀ a, Possible c (.ok a) → TracedTo deps (f a) Q (⟨c, .ok a⟩ :: past)) :
    TracedTo deps (perform c >>= f) Q past :=
  Prog.follows_perform (admits_of_writesOrder hCall) hOk fun _ _ _ hEq => nomatch hEq

/-- The same, when it does not matter what the call was. -/
theorem traced_skip {c : Call} {f : Ans c → Action Key α} (hCall : c.writesOrder = false)
    (hOk : ∀ a past', past <:+ past' → TracedTo deps (f a) Q past') :
    TracedTo deps (perform c >>= f) Q past :=
  traced_call hCall fun a _ => hOk a _ (List.suffix_cons _ past)

/-- An update is traced when the order it writes comes from where orders come from. -/
theorem traced_write {o : Order} {f : Order → Action Key α} (hOrigin : Origin past o)
    (hOk : ∀ past', past <:+ past' → TracedTo deps (f o) Q past') :
    TracedTo deps (perform (Call.ordersUpdate o) >>= f) Q past := by
  refine Prog.follows_perform (c := Call.ordersUpdate o) hOrigin (fun saved hSaved => ?_)
    fun _ _ _ => nofun
  have hSame : saved = o := hSaved saved rfl
  rw [hSame]
  exact hOk _ (List.suffix_cons _ past)

theorem traced_ofExcept {result : Except AppError β} {f : β → Action Key α}
    (hOk : ∀ b, result = .ok b → TracedTo deps (f b) Q past) :
    TracedTo deps (Prog.ofExcept result >>= f) Q past :=
  Prog.follows_ofExcept hOk fun _ => nofun

/-- Sequential composition. -/
theorem traced_bind {p : Action Key β} {f : β → Action Key α} (hFirst : TracedTo deps p R past)
    (hThen : ∀ b past', past <:+ past' → R b past' → TracedTo deps (f b) Q past') :
    TracedTo deps (p >>= f) Q past := by
  refine Prog.follows_bind (Prog.follows_mono (fun _ _ => id) ?_ (Prog.follows_extends hFirst))
  rintro (e | b) past' ⟨hLong, hResult⟩
  · exact nofun
  · exact hThen b past' hLong (hResult b rfl)

/-- What a program returns may be forgotten. -/
theorem traced_forget {p : Action Key α} (h : TracedTo deps p Q past) : Traced deps p past :=
  Prog.follows_mono (fun _ _ => id) (fun _ _ _ _ _ => trivial) h

/-- Whatever the `try` block does, the handler goes on from there. -/
theorem traced_tryCatch {p : Action Key α} {handler : AppError → Action Key α}
    (hFirst : Traced deps p past)
    (hHandler : ∀ e past', past <:+ past' → Traced deps (handler e) past') :
    Traced deps (tryCatch p handler) past := by
  refine Prog.follows_tryCatch (Prog.follows_mono (fun _ _ => id) ?_ (Prog.follows_extends hFirst))
  rintro (e | a) past' ⟨hLong, -⟩
  · exact hHandler e past' hLong
  · exact fun _ _ => trivial

theorem traced_withLock {key : Key} {p : Action Key α} (h : TracedTo deps p Q past) :
    TracedTo deps (withLock key p) Q past :=
  Prog.follows_withLock h

/-- One call that writes no order. -/
theorem traced_perform {c : Call} (hCall : c.writesOrder = false) :
    Traced deps (perform c : Action Key (Ans c)) past :=
  ⟨admits_of_writesOrder hCall, fun _ _ _ _ => trivial⟩

theorem traced_whenPresent {present : Bool} {p : Action Key Unit} (h : Traced deps p past) :
    Traced deps (whenPresent present p) past := by
  unfold whenPresent
  split
  · exact h
  · exact traced_ret trivial

/-- The answer of the whole program is wrapped up. -/
theorem traced_map {p : Action Key β} {f : β → α} (h : TracedTo deps p R past)
    (hWrap : ∀ b past', R b past' → Q (f b) past') :
    TracedTo deps (p >>= fun b => pure (f b)) Q past :=
  traced_bind h fun b past' _ hResult => traced_ret (hWrap b past' hResult)

end rules

/-- What was seen once stays seen. -/
theorem Saw.mono {past' : Past} {o : Order} (h : Saw past o) (hLong : past <:+ past') :
    Saw past' o :=
  h.imp (fun hMem => hLong.mem hMem) fun ⟨answer, hMem⟩ => ⟨answer, hLong.mem hMem⟩

section settlement

/-- What `fulfillOrder` returns for a paid order. -/
theorem traced_grant (order : Order) :
    TracedTo deps (SubscriptionService.grant deps order : Action Key (Order × Subscription))
      (fun result _ => result.1.status = .FULFILLED ∧ result.1.providerTxnId = order.providerTxnId ∧
        result.1.terms = order.terms) past := by
  unfold SubscriptionService.grant
  split
  · exact traced_throw _
  · next plan _ =>
      refine traced_skip rfl fun now _ _ => traced_skip rfl fun existing _ _ => ?_
      refine traced_bind (R := fun _ _ => True) ?_ fun sub _ _ _ => ?_
      · unfold SubscriptionService.writeSubscription
        split
        · exact traced_skip rfl fun _ _ _ => traced_ret trivial
        · exact traced_skip rfl fun _ _ _ => traced_skip rfl fun _ _ _ => traced_ret trivial
      · refine traced_ofExcept fun status hStatus => traced_ret ⟨?_, rfl, rfl⟩
        exact (assertTransition_ok hStatus).1

/-- Fulfilment returns the order as FULFILLED, with the terms and the transaction it had. -/
theorem traced_fulfillOrder {order : Order} (hNot : order.status ≠ .FULFILLED) :
    TracedTo deps (SubscriptionService.fulfillOrder deps order : Action Key (Order × Subscription))
      (fun result _ => result.1.status = .FULFILLED ∧ result.1.providerTxnId = order.providerTxnId ∧
        result.1.terms = order.terms) past := by
  unfold SubscriptionService.fulfillOrder
  rw [if_neg hNot]
  exact traced_grant order

/-- From the checked report to the end of the settlement. -/
theorem traced_settle {order : Order} {paid : PaidReport} {before : Past}
    (path : Settles order paid before) (done : before <:+ past) (payable : Payable order paid) :
    Traced deps (PaymentService.settle deps order paid : Action Key Order) past := by
  refine traced_skip rfl fun now past₁ hLong₁ => traced_ofExcept fun status hStatus => ?_
  obtain rfl := (assertTransition_ok hStatus).1
  refine traced_write ?_ fun past₂ hLong₂ => ?_
  · exact .settled order paid before path (done.trans hLong₁) payable (.inl rfl) rfl rfl
  refine traced_bind (traced_fulfillOrder nofun) fun fulfilled past₃ hLong₃ hFulfilled => ?_
  obtain ⟨hDone, hTxn, hTerms⟩ := hFulfilled
  refine traced_write ?_ fun past₄ _ => ?_
  · exact .settled order paid before path (done.trans (hLong₁.trans (hLong₂.trans hLong₃))) payable
      (.inr hDone) hTxn hTerms
  refine traced_bind (traced_whenPresent (traced_perform rfl)) fun _ _ _ _ => ?_
  refine traced_bind (traced_whenPresent (traced_perform rfl)) fun _ _ _ _ => ?_
  refine traced_bind (traced_whenPresent ?_) fun _ _ _ _ => traced_ret trivial
  exact traced_tryCatch (traced_perform rfl) fun _ _ _ => traced_ret trivial

/-- `reports` is what has led to the report, and it becomes the path of a
settlement once the order is read. -/
theorem traced_applyPayment {locker : String → Key} {orderId : String} {paid : PaidReport}
    (path : ∀ fresh : Order, fresh.id = orderId →
      Settles fresh paid (⟨.ordersFindById fresh.id, .ok (some fresh)⟩ :: past)) :
    Traced deps (PaymentService.applyPayment locker deps orderId paid) past := by
  refine traced_withLock (traced_call rfl fun order hFound => ?_)
  cases order with
  | none => exact traced_throw _
  | some fresh =>
      obtain rfl : fresh.id = orderId := hFound fresh rfl
      show Traced deps (PaymentService.settleFresh deps fresh paid) _
      unfold PaymentService.settleFresh
      split
      · exact traced_ret trivial
      next hOpen =>
        split
        · exact traced_throw _
        next hLive =>
          split
          · exact traced_throw _
          next hCurrency =>
            split
            · exact traced_throw _
            next hEnough =>
              refine traced_settle (path fresh rfl) (List.suffix_refl _) ⟨?_, ?_, ?_⟩
              · exact status_eq_pending hOpen hLive
              · exact not_not.mp hCurrency
              · simpa using hEnough

theorem traced_handleCallback (locker : String → Key) (method : PaymentMethod) (raw : RawCallback) :
    Traced deps (PaymentService.handleCallback locker deps method raw) [] := by
  refine traced_ofExcept fun provider _ => traced_call rfl fun result _ => ?_
  split
  · exact traced_ret trivial
  next hPaid =>
    refine traced_call rfl fun isNew _ => ?_
    split
    · exact traced_ret trivial
    next hNew =>
      obtain rfl : isNew = true := by simpa using hNew
      refine traced_call rfl fun order _ => ?_
      cases order with
      | none => exact traced_ret trivial
      | some found =>
          refine traced_tryCatch ?_ fun _ _ _ => traced_ret trivial
          refine traced_map (traced_applyPayment fun fresh hSame => ?_) fun _ _ _ => trivial
          exact .callback method raw result found (by simpa using hPaid) hSame.symm

theorem traced_syncOrder (locker : String → Key) (orderId : String) :
    Traced deps (PaymentService.syncOrder locker deps orderId) [] := by
  refine traced_call rfl fun order hFound => ?_
  cases order with
  | none => exact traced_throw _
  | some asked =>
      obtain rfl : asked.id = orderId := hFound asked rfl
      show Traced deps (if asked.status ≠ .PENDING then _ else _) _
      split
      · exact traced_ret trivial
      refine traced_ofExcept fun _ _ => traced_call rfl fun q _ => ?_
      split
      · next providerTxnId hPaid hTxn =>
          refine traced_call rfl fun isNew _ => ?_
          split
          · exact traced_skip rfl fun _ _ _ => traced_ret trivial
          next hNew =>
            obtain rfl : isNew = true := by simpa using hNew
            refine traced_applyPayment fun fresh hSame => ?_
            exact .query asked q providerTxnId hPaid hTxn hSame.symm
      · exact traced_ret trivial

end settlement

/-- Writing back an order that was read, with its payment as it was. -/
theorem origin_of_read {base o : Order} (hRead : ⟨.ordersFindById base.id, .ok (some base)⟩ ∈ past)
    (txn : o.providerTxnId = base.providerTxnId) (terms : o.terms = base.terms)
    (status : o.status = base.status ∨ o.status = .EXPIRED ∨ o.status = .FAILED ∨
      o.status = .REFUNDED) : Origin past o :=
  .kept base (.inl hRead) txn terms status

section expiry

theorem traced_expireOrder (locker : String → Key) (orderId : String) :
    Traced deps (PaymentService.expireOrder locker orderId) past := by
  refine traced_withLock (traced_call rfl fun order hFound => ?_)
  split
  · exact traced_ret trivial
  next fresh hFresh =>
    obtain ⟨hOrder, -⟩ := Option.filter_eq_some_iff.mp hFresh
    obtain rfl : fresh.id = orderId := hFound fresh (congrArg Except.ok hOrder)
    refine traced_ofExcept fun status hStatus => traced_skip rfl fun now past' hLong => ?_
    obtain rfl := (assertTransition_ok hStatus).1
    refine traced_write ?_ fun _ _ => traced_ret trivial
    refine @origin_of_read _ fresh _ (hLong.mem ?_) rfl rfl (.inr (.inl rfl))
    rw [hOrder]
    exact List.mem_cons_self

/-- By induction on the orders the pass has yet to visit. -/
theorem traced_expireEach (locker : String → Key) (now : Int) (orders : List Order) (count : Nat) :
    Traced deps (PaymentService.expireEach locker now orders count) past := by
  induction orders generalizing count past with
  | nil => exact traced_ret trivial
  | cons o rest ih =>
      unfold PaymentService.expireEach
      split
      · exact traced_bind (traced_expireOrder locker o.id) fun _ _ _ _ => ih _
      · exact ih _

theorem traced_expireStaleOrders (locker : String → Key) :
    Traced deps (PaymentService.expireStaleOrders locker) past :=
  traced_skip rfl fun now _ _ => traced_skip rfl fun all _ _ => traced_expireEach locker now all 0

end expiry

section refunds

/-- The order that a refund writes back was read in the same critical section. -/
theorem traced_reserveRefund {order : Order} (newRefundedTotal : Int) (settled : Bool)
    (hRead : ⟨.ordersFindById order.id, .ok (some order)⟩ ∈ past) :
    Traced deps (RefundService.reserveRefund order newRefundedTotal settled : Action Key Unit)
      past := by
  refine traced_skip rfl fun now past₁ hLong₁ => ?_
  -- the write-back, with the status it carries
  have hWrite : ∀ status : OrderStatus, status = order.status ∨ status = .REFUNDED →
      Traced deps (perform (Call.ordersUpdate
        { order with refundedAmount := some newRefundedTotal, updatedAt := now, status := status })
        >>= fun _ => pure () : Action Key Unit) past₁ := by
    intro status hStatus
    refine traced_write ?_ fun _ _ => traced_ret trivial
    refine @origin_of_read _ order _ (hLong₁.mem hRead) rfl rfl ?_
    exact hStatus.imp id fun h => .inr (.inr h)
  split
  · exact traced_ofExcept fun status hStatus => hWrite status (.inr (assertTransition_ok hStatus).1)
  · exact hWrite order.status (.inl rfl)

theorem traced_issueRefund {order : Order} (alreadyRefunded amount : Int)
    (provider : PaymentProvider) (input : RefundInput)
    (hRead : ⟨.ordersFindById order.id, .ok (some order)⟩ ∈ past) :
    Traced deps (RefundService.issueRefund deps order alreadyRefunded amount provider input :
      Action Key Refund) past := by
  refine traced_bind (R := fun _ _ => True) ?_ fun outRefundNo past₁ hLong₁ _ => ?_
  · unfold RefundService.refundNumber
    split
    · exact traced_ret trivial
    · exact traced_perform rfl
  refine traced_skip rfl fun now past₂ hLong₂ => ?_
  refine traced_bind (R := fun _ _ => True) ?_ fun result past₃ hLong₃ _ => ?_
  · unfold RefundService.requestRefund
    split
    · exact traced_perform rfl
    · exact traced_ret trivial
  refine traced_skip rfl fun id past₄ hLong₄ => traced_skip rfl fun refund past₅ hLong₅ => ?_
  have hLong := ((hLong₁.trans hLong₂).trans hLong₃).trans (hLong₄.trans hLong₅)
  refine traced_bind (R := fun _ _ => True) ?_ fun _ past₆ _ _ => ?_
  · unfold RefundService.reserveUnlessFailed
    split
    · exact traced_reserveRefund _ _ (hLong.mem hRead)
    · exact traced_ret trivial
  refine traced_bind (R := fun _ _ => True) ?_ fun _ _ _ _ => traced_ret trivial
  refine traced_bind (traced_whenPresent (traced_perform rfl)) fun _ _ _ _ => ?_
  exact traced_whenPresent (traced_perform rfl)

theorem traced_refundLocked (locker : String → Key) (orderId : String) (input : RefundInput) :
    Traced deps (RefundService.refundLocked locker deps orderId input) past := by
  refine traced_withLock (traced_call rfl fun order hFound => ?_)
  cases order with
  | none => exact traced_throw _
  | some order =>
      obtain rfl : order.id = orderId := hFound order rfl
      show Traced deps (RefundService.refundFresh deps order input) _
      unfold RefundService.refundFresh
      split
      · exact traced_throw _
      dsimp only
      split
      · exact traced_throw _
      split
      · exact traced_throw _
      split
      · exact traced_throw _
      · exact traced_issueRefund _ _ _ _ List.mem_cons_self

theorem traced_refundOrder (locker : String → Key) (orderId : String) (input : RefundInput) :
    Traced deps (RefundService.refundOrder locker deps orderId input) past := by
  unfold RefundService.refundOrder
  split
  · refine traced_skip rfl fun existing _ _ => ?_
    cases existing with
    | none => exact traced_refundLocked locker orderId input
    | some existing => exact traced_ret trivial
  · exact traced_refundLocked locker orderId input

theorem traced_applyRefundResult (locker : String → Key) (result : RefundCallbackResult)
    (orderId : String) :
    Traced deps (RefundService.applyRefundResult locker result orderId) past := by
  refine traced_withLock (traced_skip rfl fun refund _ _ => ?_)
  split
  · exact traced_ret trivial
  next fresh _ =>
    refine traced_skip rfl fun now _ _ => traced_skip rfl fun _ past₂ _ => ?_
    refine traced_call rfl fun order hFound => ?_
    cases order with
    | none => exact traced_ret trivial
    | some order =>
        have hSame : order.id = fresh.orderId := hFound order rfl
        have hRead : (⟨.ordersFindById order.id, .ok (some order)⟩ :
            Σ c : Call, Except AppError (Ans c)) ∈
            ⟨.ordersFindById fresh.orderId, .ok (some order)⟩ :: past₂ := by
          rw [hSame]
          exact List.mem_cons_self
        show Traced deps (RefundService.applyOutcome order result.status fresh.amount now) _
        unfold RefundService.applyOutcome
        split
        · exact traced_reserveRefund _ _ hRead
        · refine traced_write ?_ fun _ _ => traced_ret trivial
          exact origin_of_read hRead rfl rfl (.inl rfl)

theorem traced_handleRefundCallback (locker : String → Key) (method : PaymentMethod)
    (raw : RawCallback) :
    Traced deps (RefundService.handleRefundCallback locker deps method raw) past := by
  unfold RefundService.handleRefundCallback
  split
  · exact traced_throw _
  refine traced_skip rfl fun result _ _ => traced_skip rfl fun isNew _ _ => ?_
  split
  · exact traced_ret trivial
  refine traced_skip rfl fun refund _ _ => ?_
  cases refund with
  | none => exact traced_ret trivial
  | some refund =>
      refine traced_bind (R := fun _ _ => True) ?_ fun _ _ _ _ => traced_ret trivial
      exact traced_applyRefundResult locker result refund.orderId

end refunds

section creation

/-- The amount is the first one no pending order uses. -/
theorem not_mem_of_allocateUniqueAmount {base maxDelta amount : Int} {taken : List Int}
    (h : allocateUniqueAmount base taken maxDelta = .ok amount) : amount ∉ taken := by
  unfold allocateUniqueAmount at h
  split at h
  · next candidate hFound =>
      cases h
      simpa using List.find?_some hFound
  · cases h

/-- The amount of a USDT order in shared mode is free of what the task has read. -/
structure Priced (deps : Deps) (method : PaymentMethod) (amount : Int) (past past' : Past) :
    Prop where
  calls : ∃ extra, past' = extra ++ past ∧ ∀ h ∈ extra, h.1 = .ordersFindPendingByMethod .usdt
  unused : method = .usdt → deps.usdtAddressMode ≠ some .perOrder →
    ∃ pending : List Order, past'.newest (.ordersFindPendingByMethod .usdt) =
      some ⟨.ordersFindPendingByMethod .usdt, .ok pending⟩ ∧ ∀ x ∈ pending, x.amount ≠ amount

/-- The amount of a USDT order is the one that the allocation gave out. -/
theorem traced_resolveAmount (method : PaymentMethod) (priceCnyFen priceUsdtMicro : Int) :
    TracedTo deps (PaymentService.resolveAmount deps method priceCnyFen priceUsdtMicro :
      Action Key Int) (fun amount past' => Priced deps method amount past past') past := by
  unfold PaymentService.resolveAmount
  split
  · next hOther => exact traced_ret ⟨⟨[], rfl, by simp⟩, fun hUsdt => absurd hUsdt hOther⟩
  split
  · next hPerOrder => exact traced_ret ⟨⟨[], rfl, by simp⟩, fun _ hNot => absurd hPerOrder hNot⟩
  · refine traced_call rfl fun pending _ amount hAmount => ?_
    refine ⟨⟨[_], rfl, by simp⟩, fun _ _ => ⟨pending, by simp [Past.newest], fun x hx hEq => ?_⟩⟩
    exact not_mem_of_allocateUniqueAmount hAmount (hEq ▸ List.mem_map_of_mem hx)

/-- Only the deposit address is added to the order. -/
theorem traced_withDepositAddress (order : Order) :
    TracedTo deps (PaymentService.withDepositAddress deps order : Action Key Order)
      (fun o past' => o.core = order.core ∧
        ∃ extra, past' = extra ++ past ∧ ∀ h ∈ extra, h.1 = .allocate order.id) past := by
  unfold PaymentService.withDepositAddress
  split
  · split
    · exact traced_call rfl fun allocated _ => traced_ret ⟨rfl, [_], rfl, by simp⟩
    · exact traced_throw _
  · exact traced_ret ⟨rfl, [], rfl, by simp⟩

/-- What `createOrder` makes of its own order comes from that order. -/
theorem origin_of_created {base o answer : Order}
    (hCreated : ⟨.ordersCreate base, .ok answer⟩ ∈ past)
    (txn : o.providerTxnId = base.providerTxnId) (terms : o.terms = base.terms)
    (status : o.status = base.status ∨ o.status = .EXPIRED ∨ o.status = .FAILED ∨
      o.status = .REFUNDED) : Origin past o :=
  .kept base (.inr ⟨_, hCreated⟩) txn terms status

/-- The order returned is the one inserted. -/
theorem traced_requestPayment {order answer : Order}
    (hCreated : ⟨.ordersCreate order, .ok answer⟩ ∈ past) :
    TracedTo deps (PaymentService.requestPayment deps order : Action Key CreateOrderOutput)
      (fun output past' => past <:+ past' ∧ output.order.id = order.id) past := by
  refine traced_bind (R := fun _ _ => True) ?_ fun payInfo past₁ hLong₁ _ => ?_
  · refine traced_tryCatch (traced_perform rfl) fun err past₁ hLong₁ => ?_
    refine traced_ofExcept fun status hStatus => traced_skip rfl fun now past₂ hLong₂ => ?_
    obtain rfl := (assertTransition_ok hStatus).1
    refine traced_write ?_ fun _ _ => traced_throw _
    exact origin_of_created ((hLong₁.trans hLong₂).mem hCreated) rfl rfl (.inr (.inr (.inl rfl)))
  · refine traced_skip rfl fun now past₂ hLong₂ => traced_write ?_ fun past₃ hLong₃ => ?_
    · exact origin_of_created ((hLong₁.trans hLong₂).mem hCreated) rfl rfl (.inl rfl)
    · refine traced_bind (traced_whenPresent (traced_perform rfl)) fun _ past₄ hLong₄ _ => ?_
      exact traced_ret ⟨(hLong₁.trans hLong₂).trans (hLong₃.trans hLong₄), rfl⟩

/-- Other calls leave the newest answer of a call. -/
theorem Past.newest_append {extra : Past} {c : Call} (h : ∀ x ∈ extra, x.1 ≠ c) :
    Past.newest (extra ++ past) c = past.newest c := by
  unfold Past.newest
  rw [List.find?_append, List.find?_eq_none.mpr (by simpa using h), Option.none_or]

theorem Past.newest_cons {x : Σ c : Call, Except AppError (Ans c)} {c : Call} (h : x.1 ≠ c) :
    Past.newest (x :: past) c = past.newest c :=
  @Past.newest_append _ [x] c (by simpa using h)

/-- Where the order that `createOrder` returns comes from. -/
def Returned (input : CreateOrderInput) (output : CreateOrderOutput) (past : Past) : Prop :=
  (∃ k existing, truthy input.idempotencyKey = some k ∧
    ⟨.ordersFindByIdempotencyKey k, .ok (some existing)⟩ ∈ past ∧ output.order.id = existing.id) ∨
  ∃ o answer, ⟨.ordersCreate o, .ok answer⟩ ∈ past ∧ o.idempotencyKey = input.idempotencyKey ∧
    output.order.id = o.id

/-- A new order is inserted after the lookup found nothing, and returned. -/
theorem traced_createNewOrder (input : CreateOrderInput)
    (hFirst : ∀ h ∈ past, ∀ o, h.1 ≠ .ordersCreate o)
    (hUnseen : ∀ k, truthy input.idempotencyKey = some k →
      past.newest (.ordersFindByIdempotencyKey k) =
        some ⟨.ordersFindByIdempotencyKey k, .ok none⟩) :
    TracedTo deps (PaymentService.createNewOrder deps input : Action Key CreateOrderOutput)
      (Returned input) past := by
  unfold PaymentService.createNewOrder
  split
  · exact traced_throw _
  next plan _ =>
    refine traced_ofExcept fun _ _ => ?_
    refine traced_bind (traced_resolveAmount _ _ _) fun amount past₁ _ hPriced => ?_
    refine traced_call rfl fun now _ => traced_call rfl fun id _ => ?_
    refine traced_call rfl fun outTradeNo _ => ?_
    refine traced_bind (traced_withDepositAddress _) fun order past₂ _ hAddressed => ?_
    obtain ⟨hCore, extra, rfl, hAllocates⟩ := hAddressed
    obtain ⟨⟨reads, hReads, hOnlyReads⟩, hUnused⟩ := hPriced
    refine Prog.follows_perform (c := Call.ordersCreate order) ?_
      (fun answer _ => ?_) fun _ _ _ hOk => by cases hOk
    · -- neither the identifiers nor the address hide what was looked up before
      have hSkips : ∀ c : Call, c ≠ .now → c ≠ .uuid → c ≠ .newOutTradeNo "VPN" → (∀ id, c ≠ .allocate id) →
          Past.newest (extra ++ ⟨.newOutTradeNo "VPN", .ok outTradeNo⟩ :: ⟨.uuid, .ok id⟩ ::
            ⟨.now, .ok now⟩ :: past₁) c = Past.newest past₁ c := by
        intro c hNow hUuid hNo hAllocate
        rw [Past.newest_append fun x hx hEq => hAllocate _ (hEq.symm.trans (hAllocates x hx)),
          Past.newest_cons hNo.symm, Past.newest_cons hUuid.symm, Past.newest_cons hNow.symm]
      show Inserts deps _ order
      refine ⟨draft_of_core hCore ⟨rfl, rfl, rfl, rfl, rfl⟩, ?_, ?_, ?_, ?_, fun hUsdt hShared => ?_,
        fun k hKey => ?_⟩
      · rw [Order.eq_of_core Order.currency (fun _ => rfl) hCore,
          Order.eq_of_core Order.method (fun _ => rfl) hCore]
      · rw [Order.eq_of_core Order.expiresAt (fun _ => rfl) hCore,
          Order.eq_of_core Order.createdAt (fun _ => rfl) hCore]
      · rw [Order.eq_of_core Order.id (fun _ => rfl) hCore]
        simp
      · intro h hMem o hEq
        rw [hReads] at hMem
        simp only [List.mem_append, List.mem_cons] at hMem
        rcases hMem with hMem | rfl | rfl | rfl | hMem | hMem
        · cases (hAllocates h hMem).symm.trans hEq
        · cases hEq
        · cases hEq
        · cases hEq
        · cases (hOnlyReads h hMem).symm.trans hEq
        · exact hFirst h hMem o hEq
      · rw [Order.eq_of_core Order.method (fun _ => rfl) hCore] at hUsdt
        obtain ⟨pending, hNewest, hFree⟩ := hUnused hUsdt hShared
        refine ⟨pending, ?_, ?_⟩
        · exact (hSkips (.ordersFindPendingByMethod .usdt) (by simp) (by simp) (by simp)
            (by simp)).trans hNewest
        · rw [Order.eq_of_core Order.amount (fun _ => rfl) hCore]
          exact hFree
      · rw [Order.eq_of_core Order.idempotencyKey (fun _ => rfl) hCore] at hKey
        refine (hSkips (.ordersFindByIdempotencyKey k) (by simp) (by simp) (by simp) (by simp)).trans ?_
        have hOther : ∀ x ∈ reads, x.1 ≠ .ordersFindByIdempotencyKey k := by
          intro x hx hEq
          cases (hOnlyReads x hx).symm.trans hEq
        rw [hReads, Past.newest_append hOther]
        exact hUnseen k hKey
    · refine Prog.follows_mono (fun _ _ hAdmits => hAdmits) ?_ (traced_requestPayment List.mem_cons_self)
      intro result past' hThen output hOk
      obtain ⟨hLong, hId⟩ := hThen output hOk
      refine .inr ⟨order, answer, hLong.mem List.mem_cons_self, ?_, hId⟩
      exact Order.eq_of_core Order.idempotencyKey (fun _ => rfl) hCore

/-- `createOrder` returns the order it found by the key, or the one it inserted. -/
theorem traced_createOrder (input : CreateOrderInput) :
    TracedTo deps (PaymentService.createOrder deps input : Action Key CreateOrderOutput)
      (Returned input) [] := by
  unfold PaymentService.createOrder
  split
  · next key hKey =>
      refine traced_call rfl fun existing _ => ?_
      cases existing with
      | none =>
          refine traced_createNewOrder input (by simp) fun k hOther => ?_
          obtain rfl : key = k := Option.some.inj (hKey.symm.trans hOther)
          simp [Past.newest]
      | some existing =>
          show TracedTo deps (PaymentService.replayOrder deps existing) _ _
          unfold PaymentService.replayOrder
          split
          · exact traced_ret (.inl ⟨key, existing, hKey, List.mem_cons_self, rfl⟩)
          · refine traced_ofExcept fun _ _ => traced_skip rfl fun _ past' hLong => traced_ret ?_
            exact .inl ⟨key, existing, hKey, hLong.mem List.mem_cons_self, rfl⟩
  · next hKey =>
      exact traced_createNewOrder input (by simp) fun k hOther => nomatch hKey.symm.trans hOther

end creation

section expiry

/-- By induction on the subscriptions the reminder pass has yet to visit. -/
theorem traced_remindEach (now : Int) (subs : List Subscription) (sent : Nat) :
    Traced deps (ExpiryService.remindEach deps now subs sent : Action Key Nat) past := by
  induction subs generalizing sent past with
  | nil => exact traced_ret trivial
  | cons sub rest ih =>
      unfold ExpiryService.remindEach
      split
      · exact traced_skip rfl fun _ _ _ => traced_skip rfl fun _ _ _ => ih _
      · exact ih _

/-- By induction on the subscriptions the deactivation pass has yet to visit. -/
theorem traced_deactivateEach (now : Int) (subs : List Subscription) (count : Nat) :
    Traced deps (ExpiryService.deactivateEach now subs count : Action Key Nat) past := by
  induction subs generalizing count past with
  | nil => exact traced_ret trivial
  | cons sub rest ih =>
      unfold ExpiryService.deactivateEach
      split
      · exact ih _
      · exact traced_skip rfl fun _ _ _ => traced_skip rfl fun _ _ _ => ih _

end expiry

/-- An order is returned as new for a `createOrder` only. -/
def Serves (request : Request) (outcome : Outcome) (past : Past) : Prop :=
  ∀ output, outcome = .created output → ∃ input, request = .createOrder input ∧
    Returned input output past

/-- One case for each kind of request. -/
theorem traced_serve (locker : String → Key) (request : Request) :
    TracedTo deps (serve locker deps request) (Serves request) [] := by
  cases request with
  | createOrder input =>
      refine traced_map (traced_createOrder input) fun output past' hReturned => ?_
      rintro _ ⟨⟩
      exact ⟨input, rfl, hReturned⟩
  | handleCallback method raw =>
      exact traced_map (traced_handleCallback locker method raw) fun _ _ _ _ => nofun
  | syncOrder orderId => exact traced_map (traced_syncOrder locker orderId) fun _ _ _ _ => nofun
  | expireStaleOrders => exact traced_map (traced_expireStaleOrders locker) fun _ _ _ _ => nofun
  | refundOrder orderId input =>
      exact traced_map (traced_refundOrder locker orderId input) fun _ _ _ _ => nofun
  | handleRefundCallback method raw =>
      exact traced_map (traced_handleRefundCallback locker method raw) fun _ _ _ _ => nofun
  | fulfillOrder order =>
      refine traced_map (R := fun _ _ => True) ?_ fun _ _ _ _ => nofun
      unfold SubscriptionService.fulfillOrder
      split
      · refine traced_skip rfl fun existing _ _ => ?_
        cases existing with
        | none => exact traced_forget (traced_grant order)
        | some existing => exact traced_ret trivial
      · exact traced_forget (traced_grant order)
  | sendExpiryReminders =>
      refine traced_map (R := fun _ _ => True) (traced_skip rfl fun now _ _ => ?_)
        fun _ _ _ _ => nofun
      exact traced_skip rfl fun subs _ _ => traced_remindEach now subs 0
  | deactivateExpired =>
      refine traced_map (R := fun _ _ => True) (traced_skip rfl fun now _ _ => ?_)
        fun _ _ _ _ => nofun
      exact traced_skip rfl fun subs _ _ => traced_deactivateEach now subs 0
  | reconcile heal =>
      refine traced_map (R := fun _ _ => True) (traced_skip rfl fun now _ _ => ?_)
        fun _ _ _ _ => nofun
      refine traced_skip rfl fun orders _ _ => traced_skip rfl fun refunds _ _ => ?_
      cases heal with
      | true => exact traced_map (traced_expireStaleOrders locker) fun _ _ _ => trivial
      | false => exact traced_ret trivial
  | sweep olderThanMs => exact traced_map (traced_perform rfl) fun _ _ _ _ => nofun
  | tick => exact traced_map (traced_perform rfl) fun _ _ _ _ => nofun

end VpnPayment
