import VpnPayment.Providers.WechatPay
import VpnPayment.Settlement.Lineage
import VpnPayment.Settlement.StatusMachine

/-! An order counts as paid only after the provider of its own method has reported
a sufficient payment. -/
namespace VpnPayment

open Async Collections

/-- The number is at least `n`. -/
def JsNumber.covers (a : JsNumber) (n : Int) : Bool :=
  a.value ≠ .nan && !a.ltInt n

/-- The answer of a provider proves payment of the order. -/
def Order.provedBy (o : Order) : (c : Call) → Except AppError (Ans c) → Bool
  | .verifyCallback method _, .ok result => method = o.method && result.paid &&
      result.outTradeNo = o.outTradeNo && result.paidAmount.covers o.amount &&
      result.currency = o.currency
  | .queryPayment asked, .ok q => q.paid && asked.terms = o.terms &&
      q.paidAmount.any (fun amount => amount.covers o.amount) && o.method.currency = o.currency
  | _, _ => false

/-- A proof of payment is among the answers settled so far. -/
def World.Reported (w : World) (o : Order) : Prop :=
  ∃ e ∈ w.trace, o.provedBy e.call e.answer = true

/-- An answer that reports a payment says how much was paid. -/
def Reply.saysAmount : Reply → Bool
  | .callback result => !result.paid || result.paidAmount.value ≠ .nan
  | .query q => !q.paid || (truthy q.providerTxnId).isNone || q.paidAmount.any fun a => a.value ≠ .nan
  | _ => true

def verifies (method : PaymentMethod) : (Σ c : Call, Except AppError (Ans c)) → Bool
  | ⟨.verifyCallback method' _, _⟩ => method' = method
  | _ => false

variable {Instance Key : Type} {locker : Instance → String → Key} {deps : Deps}

/-- Answers say how much was paid, and a merchant order number is looked up only for
the provider with which its order was placed. -/
def asPlaced (b : Backend) (m : Deployment Key) : Label Reply (Instance × Request) → Bool
  | .spawn _ => true
  | .step i reply => reply.saysAmount && match m.nextCall i with
      | some (.ordersFindByOutTradeNo no) =>
          (m.world.store.orders.findByOutTradeNo b no).all fun o =>
            (m.world.past i).any (verifies o.method)
      | _ => true

section terms

variable {o o' : Order}

/-- What an order is paid by is a matter of its terms. -/
theorem Order.provedBy_eq_of_terms (hTerms : o.terms = o'.terms) (c : Call)
    (answer : Except AppError (Ans c)) : o.provedBy c answer = o'.provedBy c answer := by
  unfold Order.provedBy
  rw [Order.method_eq_of_terms hTerms, Order.outTradeNo_eq_of_terms hTerms,
    Order.amount_eq_of_terms hTerms, Order.currency_eq_of_terms hTerms, hTerms]

theorem World.Reported.of_terms {w : World} (h : w.Reported o) (hTerms : o.terms = o'.terms) :
    w.Reported o' := by
  obtain ⟨e, hMem, hProves⟩ := h
  exact ⟨e, hMem, (Order.provedBy_eq_of_terms hTerms e.call e.answer).symm.trans hProves⟩

end terms

namespace OrderStore

/-- The index of merchant order numbers points to the orders that have them. -/
def Numbered (b : Backend) (s : OrderStore) : Prop :=
  b = .memory → ∀ no entry, s.byOutTradeNo.get? no = some entry →
    ∃ row, s.byId.get? entry.2 = some row ∧ row.outTradeNo = no

variable {b : Backend} {s s' : OrderStore} {o row : Order} {no : String}

/-- An order is found under its own merchant order number. -/
theorem Numbered.find (h : s.Numbered b) (hFind : s.findByOutTradeNo b no = some o) :
    s.byId.get? o.id = some o ∧ o.outTradeNo = no := by
  cases b with
  | memory =>
      obtain ⟨id, hIndex, hRow⟩ := Option.bind_eq_some_iff.mp hFind
      obtain ⟨entry, hEntry, rfl⟩ :=
        Option.map_eq_some_iff.mp (Option.filter_eq_some_iff.mp hIndex).1
      obtain ⟨row, hRow', hNo⟩ := h rfl no entry hEntry
      obtain rfl : row = o := Option.some.inj (hRow'.symm.trans hRow)
      exact ⟨Table.key_of_get? hRow' ▸ hRow', hNo⟩
  | sql =>
      refine ⟨Table.get?_of_mem (List.mem_of_find?_eq_some hFind), ?_⟩
      simpa using List.find?_some hFind

theorem Numbered.create (h : s.Numbered b) (hCreate : s.create b o = .ok s')
    (hNew : s.byId.get? o.id = none) : s'.Numbered b := by
  rintro rfl no entry hEntry
  simp only [OrderStore.create, MemoryOrderRepository.create] at hCreate
  split at hCreate
  · cases hCreate
  cases hCreate
  rw [Table.get?_put] at hEntry
  split at hEntry
  · next hNo =>
      cases hEntry
      exact ⟨o, by simp, hNo⟩
  · obtain ⟨row, hRow, hNo⟩ := h rfl no entry hEntry
    refine ⟨row, ?_, hNo⟩
    have hNe : o.id ≠ entry.2 := by
      intro hEq
      rw [← hEq, hNew] at hRow
      cases hRow
    rw [Table.get?_put, if_neg hNe, hRow]

theorem Numbered.update (h : s.Numbered b) (hUpdate : s.update b o = .ok s')
    (hSame : ∀ row, s.byId.get? o.id = some row → o.outTradeNo = row.outTradeNo) :
    s'.Numbered b := by
  rintro rfl no entry hEntry
  obtain ⟨row', hRow', rfl⟩ | ⟨-, rfl⟩ := update_cases hUpdate
  swap
  · exact h rfl no entry hEntry
  obtain ⟨row, hRow, hNo⟩ := h rfl no entry hEntry
  show ∃ row, (s.byId.put o).get? entry.2 = some row ∧ _
  rw [Table.get?_put]
  split
  · next hId => exact ⟨o, rfl, (hSame row (hId ▸ hRow)).trans hNo⟩
  · exact ⟨row, hRow, hNo⟩

end OrderStore

/-- What a task knows from a call, in a world that has moved on since. -/
def Learned (w : World) (older : Past) : (Σ c : Call, Except AppError (Ans c)) → Prop
  | ⟨.ordersFindByOutTradeNo no, .ok (some found)⟩ => found.outTradeNo = no ∧
      (∃ row, w.order found.id = some row ∧ row.terms = found.terms) ∧
      older.any (verifies found.method) = true
  | ⟨.ordersFindById _, .ok (some o)⟩ => o.counted → w.Reported o
  | ⟨.ordersCreate o, _⟩ => o.status = .PENDING
  | ⟨.verifyCallback _ _, .ok result⟩ => result.paid = true → result.paidAmount.value ≠ .nan
  | ⟨.queryPayment _, .ok q⟩ => q.paid = true → (truthy q.providerTxnId).isSome = true →
      ∃ amount, q.paidAmount = some amount ∧ amount.value ≠ .nan
  | _ => True

/-- What holds as long as orders are paid as placed. -/
structure World.Evidenced (b : Backend) (w : World) : Prop where
  reported : ∀ id o, w.order id = some o → o.counted → w.Reported o
  currency : w.Denominated
  numbered : w.store.orders.Numbered b
  known : ∀ i, Along (Learned w) (w.past i)

theorem covers_of {a : JsNumber} {n : Int} (hNumber : a.value ≠ .nan) (hEnough : a.ltInt n = false) :
    a.covers n = true := by
  simp [JsNumber.covers, hNumber, hEnough]

section steps

variable {w w' : World} {i : Nat} {c : Call} {reply : Reply} {answer : Except AppError (Ans c)}
  {o : Order} {past : Past}

theorem World.reported_of_mem {h : Σ c : Call, Except AppError (Ans c)} (hMem : h ∈ w.past i)
    (hProves : o.provedBy h.1 h.2 = true) : w.Reported o := by
  obtain ⟨e, hEvent, rfl⟩ := World.exists_of_mem_past hMem
  exact ⟨e, hEvent, hProves⟩

/-- The settled calls before a settlement prove the payment. -/
theorem reported_of_settles {b : Backend} {fresh : Order} {paid : PaidReport} {before : Past}
    (hEvidenced : w.Evidenced b) (hLineage : w.Lineage) (path : Settles fresh paid before)
    (done : before <:+ w.past i) (payable : Payable fresh paid) : w.Reported fresh := by
  have hKnown := (hEvidenced.known i).suffix done
  have hSaw : ∀ {x : Order}, ⟨.ordersFindById x.id, .ok (some x)⟩ ∈ before →
      ∃ row, w.order x.id = some row ∧ row.terms = x.terms := fun hMem =>
    hLineage.saw i _ (.inl (done.mem hMem))
  cases path with
  | callback method raw result found isPaid same =>
      obtain ⟨-, ⟨hNo, ⟨foundRow, hFoundRow, hFoundTerms⟩, hVerifies⟩, -, hNumber, -⟩ := hKnown
      obtain ⟨row, hRow, hRowTerms⟩ := hSaw (x := fresh) List.mem_cons_self
      rw [same, hRow] at hFoundRow
      obtain rfl := Option.some.inj hFoundRow
      have hTerms : found.terms = fresh.terms := hFoundTerms.symm.trans hRowTerms
      obtain rfl : method = fresh.method := by
        rw [← Order.method_eq_of_terms hTerms]
        simpa [verifies] using hVerifies
      refine World.reported_of_mem (done.mem (List.mem_of_getLast? rfl)) ?_
      have hOrder : result.outTradeNo = fresh.outTradeNo :=
        hNo.symm.trans (Order.outTradeNo_eq_of_terms hTerms)
      have hCurrency : result.currency = fresh.currency := payable.currency
      have hCovers : result.paidAmount.covers fresh.amount = true :=
        covers_of (hNumber isPaid) payable.enough
      simp [Order.provedBy, isPaid, hOrder, hCovers, hCurrency]
  | query asked q providerTxnId isPaid txn same =>
      obtain ⟨-, -, hAmount, -⟩ := hKnown
      obtain ⟨amount, hReported, hNumber⟩ := hAmount isPaid (by rw [txn, Option.isSome_some])
      obtain ⟨row, hRow, hRowTerms⟩ := hSaw (x := fresh) List.mem_cons_self
      obtain ⟨askedRow, hAskedRow, hAskedTerms⟩ := hSaw (x := asked) (by simp)
      rw [same, hRow] at hAskedRow
      obtain rfl := Option.some.inj hAskedRow
      have hTerms : asked.terms = fresh.terms := hAskedTerms.symm.trans hRowTerms
      have hCurrency : fresh.method.currency = fresh.currency := by
        rw [← Order.method_eq_of_terms hRowTerms, ← Order.currency_eq_of_terms hRowTerms]
        exact hEvidenced.currency fresh.id row hRow
      have hEnough : amount.ltInt fresh.amount = false := by
        have hLt := payable.enough
        rwa [hReported] at hLt
      refine World.reported_of_mem (done.mem (by simp : ⟨.queryPayment asked, .ok q⟩ ∈ _)) ?_
      simp [Order.provedBy, isPaid, hTerms, hReported, covers_of hNumber hEnough, hCurrency]

/-- A task that writes an order as paid has a proof of its payment. -/
theorem reported_of_origin {b : Backend} (hEvidenced : w.Evidenced b) (hLineage : w.Lineage)
    (hOrigin : Origin (w.past i) o) (hCounted : o.counted) : w.Reported o := by
  cases hOrigin with
  | settled fresh paid before path done payable status txn terms =>
      exact (reported_of_settles hEvidenced hLineage path done payable).of_terms terms.symm
  | kept base saw txn terms status =>
      have hBase : base.counted := by
        rcases status with hEq | hEq | hEq | hEq
        · rwa [Order.counted, hEq] at hCounted
        all_goals rcases hCounted with h | h <;> cases hEq.symm.trans h
      rcases saw with hMem | ⟨answer, hMem⟩
      · obtain ⟨older, -, hKnown⟩ := (hEvidenced.known i).of_mem hMem
        exact (hKnown hBase).of_terms terms.symm
      · obtain ⟨older, -, hPending⟩ := (hEvidenced.known i).of_mem hMem
        have hStatus : base.status = .PENDING := hPending
        rcases hBase with h | h <;> cases hStatus.symm.trans h

theorem World.Reported.step {b : Backend} (h : w.Reported o) (hStep : OrderStep b i w w' c answer) :
    w'.Reported o := by
  obtain ⟨e, hMem, hProves⟩ := h
  obtain ⟨applied, hTrace⟩ := World.trace_of_step hStep
  refine ⟨e, ?_, hProves⟩
  rw [hTrace]
  exact List.mem_cons_of_mem _ hMem

theorem Learned.step {older : Past} {h : Σ c : Call, Except AppError (Ans c)}
    (hLineage : w.Lineage) (hAdmits : Admits deps (w.past i) c)
    (hStep : OrderStep deps.backend i w w' c answer) (hLearned : Learned w older h) :
    Learned w' older h := by
  unfold Learned at hLearned ⊢
  split
  · obtain ⟨hNo, ⟨row, hRow, hTerms⟩, hVerifies⟩ := hLearned
    obtain ⟨row', hRow', hSame⟩ := hLineage.kept hAdmits hStep hRow
    exact ⟨hNo, ⟨row', hRow', hSame.trans hTerms⟩, hVerifies⟩
  · exact fun hCounted => (hLearned hCounted).step hStep
  · exact hLearned
  · exact hLearned
  · exact hLearned
  · trivial

theorem World.Evidenced.reported_step (hEvidenced : w.Evidenced deps.backend)
    (hLineage : w.Lineage) (hAdmits : Admits deps (w.past i) c)
    (hStep : OrderStep deps.backend i w w' c answer) {id : String} (ho : w'.order id = some o)
    (hCounted : o.counted) : w'.Reported o := by
  rcases hLineage.row_of_step hAdmits hStep ho with
    hOld | ⟨new, -, -, hInserts, rfl, -⟩ | ⟨new, row, -, hRow, hOrigin, rfl, hTerms, hSame⟩
  · exact (hEvidenced.reported id o hOld hCounted).step hStep
  · have hStatus : (OrderStore.created deps.backend new).status = .PENDING := by
      have hPending := hInserts.draft.pending
      cases deps.backend <;> exact hPending
    rcases hCounted with hPaid | hPaid <;> cases hStatus.symm.trans hPaid
  · have hNew : new.counted := by
      rwa [Order.counted, OrderStore.status_written] at hCounted
    have hReported := reported_of_origin hEvidenced hLineage hOrigin hNew
    exact (hReported.step hStep).of_terms (hTerms.trans hSame).symm

theorem World.Evidenced.numbered_step (hEvidenced : w.Evidenced deps.backend) (hLineage : w.Lineage)
    (hAdmits : Admits deps (w.past i) c) (hStep : OrderStep deps.backend i w w' c answer) :
    w'.store.orders.Numbered deps.backend := by
  cases hStep with
  | same c answer applied trace orders failed =>
      rw [orders]
      exact hEvidenced.numbered
  | inserted new answer trace stored order =>
      exact hEvidenced.numbered.create stored (hLineage.new hAdmits)
  | rewritten new row answer trace found stored order =>
      refine hEvidenced.numbered.update stored fun row hRow => ?_
      obtain ⟨row', hRow', hTerms⟩ := hLineage.terms hAdmits
      obtain rfl := Option.some.inj (hRow.symm.trans hRow')
      exact (Order.outTradeNo_eq_of_terms hTerms).symm

/-- What a task learns from the call it has just made. -/
theorem learned_newest {b : Backend}
    (hReported : ∀ id o, w'.order id = some o → o.counted → w'.Reported o)
    (hNumbered : w.store.orders.Numbered b) (hAdmits : Admits deps (w.past i) c)
    (hStep : OrderStep b i w w' c answer) (hSays : reply.saysAmount = true)
    (hPlaced : ∀ no o, c = .ordersFindByOutTradeNo no →
      w.store.orders.findByOutTradeNo b no = some o → (w.past i).any (verifies o.method) = true)
    (hExec : exec b i c reply w = some (answer, w')) : Learned w' (w.past i) ⟨c, answer⟩ := by
  cases c with
  | ordersFindById id =>
      rcases answer with e | _ | o
      · trivial
      · trivial
      · have hFound : some o = w'.order id := exec_answers hExec
        exact hReported id o hFound.symm
  | ordersFindByOutTradeNo no =>
      rcases answer with e | _ | o
      · trivial
      · trivial
      · obtain ⟨s, hOk⟩ := effect_of_answer hExec rfl
        have hFind : w.store.orders.findByOutTradeNo b no = some o :=
          congrArg Prod.fst (Except.ok.inj hOk)
        obtain ⟨hRow, hNo⟩ := hNumbered.find hFind
        refine ⟨hNo, ⟨o, ?_, rfl⟩, hPlaced no o rfl hFind⟩
        cases hStep with
        | same c answer applied trace orders failed => exact (World.order_congr orders o.id).trans hRow
  | ordersCreate o => exact Inserts.draft (o := o) hAdmits |>.pending
  | verifyCallback method raw =>
      rcases answer with e | result
      · trivial
      obtain ⟨_, hEq, -⟩ | ⟨a, hAnswer, hEq, -⟩ := exec_outside hExec rfl
      · cases hEq
      · cases hEq
        cases reply <;> simp only [outsideAnswer, reduceCtorEq, Option.some.injEq] at hAnswer
        subst hAnswer
        intro hPaid
        simpa [Reply.saysAmount, hPaid] using hSays
  | queryPayment asked =>
      rcases answer with e | q
      · trivial
      obtain ⟨_, hEq, -⟩ | ⟨a, hAnswer, hEq, -⟩ := exec_outside hExec rfl
      · cases hEq
      · cases hEq
        cases reply <;> simp only [outsideAnswer, reduceCtorEq, Option.some.injEq] at hAnswer
        subst hAnswer
        intro hPaid hTxn
        simp only [Reply.saysAmount, hPaid, Bool.not_true, Bool.false_or, Bool.or_eq_true,
          Option.any_eq_true, decide_eq_true_eq] at hSays
        rcases hSays with hNone | hSome
        · rw [Option.isNone_iff_eq_none] at hNone
          rw [hNone] at hTxn
          cases hTxn
        · exact hSome
  | _ => trivial

theorem World.Evidenced.step (hEvidenced : w.Evidenced deps.backend) (hLineage : w.Lineage)
    (hAdmits : Admits deps (w.past i) c) (hSays : reply.saysAmount = true)
    (hPlaced : ∀ no o, c = .ordersFindByOutTradeNo no →
      w.store.orders.findByOutTradeNo deps.backend no = some o →
      (w.past i).any (verifies o.method) = true)
    (hExec : exec deps.backend i c reply w = some (answer, w')) : w'.Evidenced deps.backend := by
  have hStep := orderStep_of_exec hExec
  have hReported : ∀ id o, w'.order id = some o → o.counted → w'.Reported o := fun _ _ =>
    hEvidenced.reported_step hLineage hAdmits hStep
  refine ⟨hReported, hEvidenced.currency.step hLineage hAdmits hStep, hEvidenced.numbered_step hLineage hAdmits hStep, fun j => ?_⟩
  have hOld : Along (Learned w') (w.past j) :=
    (hEvidenced.known j).mono fun _ _ hLearned => hLearned.step hLineage hAdmits hStep
  rw [World.past_of_step hStep]
  split
  · next hMine =>
      subst hMine
      exact ⟨learned_newest hReported hEvidenced.numbered hAdmits hStep hSays hPlaced hExec, hOld⟩
  · exact hOld

end steps

/-- As long as providers say how much was paid, and a notification is matched with
an order of its own provider, only a proof of payment makes an order count as paid. -/
theorem paid_only_with_proof [DecidableEq Key] {clock : Int} {m : Deployment Key}
    (hRun : (system locker deps).Reaches (fun m label => asPlaced deps.backend m label = true)
      (Deployment.start Store.empty clock) m) (o : Order) (ho : m.world.order o.id = some o)
    (hPaid : o.status = .PAID ∨ o.status = .FULFILLED) :
    ∃ e ∈ m.world.trace, o.provedBy e.call e.answer = true := by
  have hStart : Tracked locker deps (Deployment.start Store.empty clock) ∧
      (World.start Store.empty clock).Evidenced deps.backend := by
    refine ⟨tracked_start, ⟨fun id o ho => ?_, fun id o ho => ?_, fun _ no entry hEntry => ?_,
      fun i => trivial⟩⟩
    · cases ho
    · cases ho
    · cases hEntry
  obtain ⟨-, hEvidenced⟩ := hRun.invariant (P := fun m => Tracked locker deps m ∧
    m.world.Evidenced deps.backend) (by
      rintro m label m' hPlaced hStep ⟨hTracked, hEvidenced⟩
      refine ⟨hTracked.step hStep, ?_⟩
      obtain hSame | ⟨i, reply, c, answer, rfl, hCall, hAdmits, hExec, -⟩ := hTracked.orderStep hStep
      · rw [hSame]
        exact hEvidenced
      · obtain ⟨hSays, hFound⟩ := Bool.and_eq_true_iff.mp hPlaced
        refine hEvidenced.step hTracked.lineage hAdmits hSays ?_ hExec
        rintro no o rfl hFind
        simpa only [hCall, hFind, Option.all_some] using hFound) hStart
  exact hEvidenced.reported o.id o ho hPaid

namespace Sample

/-- An order is placed with a provider. -/
def places (method : PaymentMethod) : List (Label Reply (Unit × Request)) :=
  [.spawn ((), .createOrder ⟨"alice", "monthly", method, none, none⟩), .step 0 .normal,
    .step 0 (.text "o1"), .step 0 (.text "VPN1"), .step 0 .normal, .step 0 (.payment payInfo)] ++
    steps 0 2

/-- The order is queried, and the answer applied. -/
def queries (q : QueryResult) : List (Label Reply (Unit × Request)) :=
  [.spawn ((), .syncOrder "o1"), .step 1 .normal, .step 1 (.query q)] ++ steps 1 5

/-- A notification is applied. -/
def notifies (method : PaymentMethod) (result : CallbackResult) :
    List (Label Reply (Unit × Request)) :=
  [.spawn ((), .handleCallback method ⟨"", []⟩), .step 1 (.callback result)] ++ steps 1 6

/-- WeChat reports success and no amount. -/
def bareTransaction : WechatPayProvider.Transaction := ⟨some "wx1", "SUCCESS", none⟩

def bareNotification : WechatPayProvider.Notification :=
  ⟨"VPN1", "wx1", "SUCCESS", some ⟨.undefined, .undefined⟩⟩

/-- The order is paid, and nothing proves it. -/
def unproved (m : Deployment String) : Bool :=
  (m.world.order "o1").any fun o => o.status = .PAID &&
    m.world.trace.all fun e => !o.provedBy e.call e.answer

/-- The run ends with a paid order and no proof. -/
def EndsUnproved (labels : List (Label Reply (Unit × Request))) : Prop :=
  ∃ m : Deployment String, (singleInstance (Sample.deps .memory)).run (fun _ _ => true)
    (Deployment.start Store.empty 0) labels = some m ∧ ∃ o, m.world.order "o1" = some o ∧
      o.status = .PAID ∧ ¬∃ e ∈ m.world.trace, o.provedBy e.call e.answer = true

theorem endsUnproved_of_run {labels : List (Label Reply (Unit × Request))}
    (hRun : ((singleInstance (Sample.deps .memory)).run (fun _ _ => true)
      (Deployment.start Store.empty 0) labels).any unproved = true) : EndsUnproved labels := by
  obtain ⟨m, hReaches, hCheck⟩ := (Option.any_eq_true _ _).mp hRun
  simp only [unproved, Option.any_eq_true, Bool.and_eq_true, decide_eq_true_eq, List.all_eq_true,
    Bool.not_eq_true'] at hCheck
  obtain ⟨o, ho, hPaid, hNone⟩ := hCheck
  refine ⟨m, hReaches, o, ho, hPaid, ?_⟩
  rintro ⟨e, hMem, hProves⟩
  rw [hNone e hMem] at hProves
  cases hProves

end Sample

/-- A WeChat order whose query reports the amount. -/
theorem paid_with_proof_sample : ∃ m : Deployment String,
    (singleInstance (Sample.deps .memory)).Reaches (fun m label => asPlaced .memory m label = true)
      (Deployment.start Store.empty 0) m ∧
    ∃ o, m.world.order "o1" = some o ∧ o.status = .PAID ∧
      ∃ e ∈ m.world.trace, o.provedBy e.call e.answer = true := by
  obtain ⟨m, hRun, hCheck⟩ := System.exists_reaches (singleInstance (Sample.deps .memory))
    (asPlaced .memory) (Deployment.start Store.empty 0)
    (Sample.places .wechat ++ Sample.queries ⟨true, some "wx1", some (.ofInt 1500), "SUCCESS"⟩)
    (fun m => (m.world.order "o1").any fun o => o.status = .PAID) (by decide +kernel)
  simp only [Option.any_eq_true, decide_eq_true_eq] at hCheck
  obtain ⟨o, ho, hPaid⟩ := hCheck
  have hId : o.id = "o1" := World.id_of_order ho
  exact ⟨m, hRun, o, ho, hPaid, paid_only_with_proof hRun o (hId ▸ ho) (.inl hPaid)⟩

/-- Three ways to a paid order without proof: WeChat's answer to a query has no
amount, WeChat's notification has none, and a notification of Alipay carries the
merchant order number of a WeChat order. -/
theorem paid_without_proof :
    (∃ q, WechatPayProvider.queryPayment 200 Sample.bareTransaction = .ok q ∧
      Sample.EndsUnproved (Sample.places .wechat ++ Sample.queries q)) ∧
    (∃ result, WechatPayProvider.verifyCallback "ev1" Sample.bareNotification = .ok result ∧
      Sample.EndsUnproved (Sample.places .wechat ++ Sample.notifies .wechat result)) ∧
    Sample.EndsUnproved (Sample.places .wechat ++
      Sample.notifies .alipay ⟨"VPN1", "al1", true, .ofInt 1500, .CNY, "ev1", "TRADE_SUCCESS"⟩) := by
  refine ⟨⟨_, rfl, ?_⟩, ⟨_, rfl, ?_⟩, ?_⟩
  · exact Sample.endsUnproved_of_run (by decide +kernel)
  · exact Sample.endsUnproved_of_run (by decide +kernel)
  · exact Sample.endsUnproved_of_run (by decide +kernel)

end VpnPayment
