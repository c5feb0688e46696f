import VpnPayment.Async.History
import VpnPayment.Settlement.CreatePrograms

/-! What a task of the running system has done before it writes an order, read off
the trace. -/
namespace VpnPayment

open Async Collections

/-- What a task has called, newest call first. -/
abbrev Past := History Call Ans AppError

/-- What task `i` has called, by the trace. -/
def pastOf (i : Nat) (trace : List Event) : Past :=
  (trace.filter fun e => e.task = i).map fun e => ⟨e.call, e.answer⟩

/-- An event extends the past of its own task. -/
theorem pastOf_cons {i : Nat} (e : Event) (trace : List Event) :
    pastOf i (e :: trace) =
      if e.task = i then ⟨e.call, e.answer⟩ :: pastOf i trace else pastOf i trace := by
  unfold pastOf
  rw [List.filter_cons]
  by_cases h : e.task = i <;> simp [h]

/-- Every call of a task has its place in the trace. -/
theorem exists_of_pastOf {i : Nat} {trace : List Event} {newer older : Past}
    {h : Σ c : Call, Except AppError (Ans c)} (hPast : pastOf i trace = newer ++ h :: older) :
    ∃ later e earlier, trace = later ++ e :: earlier ∧ e.task = i ∧
      (⟨e.call, e.answer⟩ : Σ c : Call, Except AppError (Ans c)) = h ∧
      pastOf i later = newer ∧ pastOf i earlier = older := by
  obtain ⟨first, second, hFilter, hFirst, hSecond⟩ := List.map_eq_append_iff.mp hPast
  obtain ⟨e, rest, rfl, hHead, hRest⟩ := List.map_eq_cons_iff.mp hSecond
  obtain ⟨before, tail, rfl, hBefore, hTail⟩ := List.filter_eq_append_iff.mp hFilter
  obtain ⟨skipped, earlier, rfl, hSkipped, hTask, hEarlier⟩ := List.filter_eq_cons_iff.mp hTail
  refine ⟨before ++ skipped, e, earlier, (List.append_assoc ..).symm, by simpa using hTask, hHead, ?_,
    by rw [pastOf, hEarlier, hRest]⟩
  rw [pastOf, List.filter_append, hBefore, List.filter_eq_nil_iff.mpr hSkipped, List.append_nil, hFirst]

namespace World

def past (w : World) (i : Nat) : Past :=
  pastOf i w.trace

theorem past_logged {w w' : World} {j : Nat} {e : Event} (hTrace : w'.trace = e :: w.trace) :
    w'.past j = if e.task = j then ⟨e.call, e.answer⟩ :: w.past j else w.past j := by
  unfold past
  rw [hTrace, pastOf_cons]

/-- Every entry of a past is an event. -/
theorem exists_of_mem_past {w : World} {i : Nat} {h : Σ c : Call, Except AppError (Ans c)}
    (hMem : h ∈ w.past i) :
    ∃ e ∈ w.trace, (⟨e.call, e.answer⟩ : Σ c : Call, Except AppError (Ans c)) = h := by
  obtain ⟨newer, older, hPast⟩ := List.mem_iff_append.mp hMem
  obtain ⟨later, e, earlier, hTrace, -, hHead, -⟩ := exists_of_pastOf hPast
  refine ⟨e, ?_, hHead⟩
  rw [hTrace]
  exact List.mem_append_right later List.mem_cons_self

end World

theorem noted_trace (i : Nat) (w : World) (c : Call) (reply : Reply) :
    (noted i w c reply).trace = w.trace := by
  unfold noted
  split <;> rfl

/-- Every call that settles is recorded. -/
theorem trace_of_exec {b : Backend} {i : Nat} {c : Call} {reply : Reply} {w w' : World}
    {answer : Except AppError (Ans c)} (hExec : exec b i c reply w = some (answer, w')) :
    ∃ applied, w'.trace = ⟨i, c, answer, applied⟩ :: w.trace := by
  cases hEffect : storeEffect b w.clock c with
  | none =>
      obtain ⟨e, rfl, rfl, -⟩ | ⟨a, -, rfl, rfl⟩ := exec_outside hExec hEffect
      · exact ⟨false, rfl⟩
      · exact ⟨false, by rw [World.log, noted_trace]⟩
  | some effect =>
      obtain ⟨e, rfl, rfl, -⟩ | ⟨a, s, -, rfl, -⟩ := exec_store hExec hEffect
      · exact ⟨false, rfl⟩
      · exact ⟨true, rfl⟩

/-- The trace records what every task has called. -/
def recording {Instance Key : Type} (locker : Instance → String → Key) (deps : Deps) :
    Recording (system locker deps) where
  own := World.past
  settles hExec := by
    obtain ⟨applied, hTrace⟩ := trace_of_exec hExec
    rw [World.past_logged hTrace, if_pos rfl]
  others hExec j hNe := by
    obtain ⟨applied, hTrace⟩ := trace_of_exec hExec
    rw [World.past_logged hTrace, if_neg (Ne.symm hNe)]

/-- What the newest call of this kind settled to. -/
def Past.newest (past : Past) (c : Call) : Option (Σ c : Call, Except AppError (Ans c)) :=
  past.find? fun h => h.1 = c

/-- The newest call of its kind, in the trace. -/
theorem exists_of_newest {i : Nat} {trace : List Event} {c : Call}
    {h : Σ c : Call, Except AppError (Ans c)} (hNewest : (pastOf i trace).newest c = some h) :
    ∃ later e earlier, trace = later ++ e :: earlier ∧ e.task = i ∧
      (⟨e.call, e.answer⟩ : Σ c : Call, Except AppError (Ans c)) = h ∧
      ∀ e' ∈ later, e'.task = i → e'.call ≠ c := by
  obtain ⟨-, newer, older, hPast, hNewer⟩ := List.find?_eq_some_iff_append.mp hNewest
  obtain ⟨later, e, earlier, hTrace, hTask, hHead, hLater, -⟩ := exists_of_pastOf hPast
  refine ⟨later, e, earlier, hTrace, hTask, hHead, fun e' hMem hSame hCall => ?_⟩
  have hIn : ⟨e'.call, e'.answer⟩ ∈ newer := by
    rw [← hLater]
    exact List.mem_map_of_mem (List.mem_filter.mpr ⟨hMem, by simpa using hSame⟩)
  simpa [hCall] using hNewer _ hIn

/-- A payment was recorded for the order, and was not refunded in full. -/
def Order.counted (o : Order) : Prop :=
  o.status = .PAID ∨ o.status = .FULFILLED

/-- What a method's payments are made in. -/
def PaymentMethod.currency : PaymentMethod → Currency
  | usdt => .USDT
  | _ => .CNY

/-- What no write of an order changes. -/
def Order.terms (o : Order) : Order × Option String :=
  (o.identity, o.metadata.depositAddress)

namespace Order

variable {o o' : Order}

/-- What the terms determine is equal for orders with the same terms. -/
theorem eq_of_terms {α : Type} (f : Order → α) (hf : ∀ x : Order, f x.identity = f x)
    (h : o.terms = o'.terms) : f o = f o' :=
  eq_of_identity f hf (congrArg Prod.fst h)

theorem id_eq_of_terms (h : o.terms = o'.terms) : o.id = o'.id :=
  eq_of_terms Order.id (fun _ => rfl) h

theorem amount_eq_of_terms (h : o.terms = o'.terms) : o.amount = o'.amount :=
  eq_of_terms Order.amount (fun _ => rfl) h

theorem method_eq_of_terms (h : o.terms = o'.terms) : o.method = o'.method :=
  eq_of_terms Order.method (fun _ => rfl) h

theorem currency_eq_of_terms (h : o.terms = o'.terms) : o.currency = o'.currency :=
  eq_of_terms Order.currency (fun _ => rfl) h

theorem outTradeNo_eq_of_terms (h : o.terms = o'.terms) : o.outTradeNo = o'.outTradeNo :=
  eq_of_terms Order.outTradeNo (fun _ => rfl) h

theorem createdAt_eq_of_terms (h : o.terms = o'.terms) : o.createdAt = o'.createdAt :=
  eq_of_terms Order.createdAt (fun _ => rfl) h

theorem expiresAt_eq_of_terms (h : o.terms = o'.terms) : o.expiresAt = o'.expiresAt :=
  eq_of_terms Order.expiresAt (fun _ => rfl) h

theorem idempotencyKey_eq_of_terms (h : o.terms = o'.terms) :
    o.idempotencyKey = o'.idempotencyKey :=
  eq_of_terms Order.idempotencyKey (fun _ => rfl) h

end Order

/-- The key under which a polled transaction is claimed. -/
def claimKey (method : PaymentMethod) (providerTxnId : String) : String :=
  s!"txn:{method.name}:{providerTxnId}"

/-- The task has read the order or has created it. -/
def Saw (past : Past) (o : Order) : Prop :=
  ⟨.ordersFindById o.id, .ok (some o)⟩ ∈ past ∨ ∃ answer, ⟨.ordersCreate o, .ok answer⟩ ∈ past

/-- The path of a settlement up to the locked read of the order: a provider
reported a payment, and the report had not been handled before. -/
inductive Settles (fresh : Order) : PaidReport → Past → Prop
  | callback (method : PaymentMethod) (raw : RawCallback) (result : CallbackResult) (found : Order)
      (paid : result.paid = true) (same : found.id = fresh.id) :
      Settles fresh ⟨result.providerTxnId, result.paidAmount, result.currency⟩
        [⟨.ordersFindById fresh.id, .ok (some fresh)⟩,
          ⟨.ordersFindByOutTradeNo result.outTradeNo, .ok (some found)⟩,
          ⟨.markIfNew s!"cb:{method.name}:{result.eventId}", .ok true⟩,
          ⟨.verifyCallback method raw, .ok result⟩]
  | query (asked : Order) (q : QueryResult) (providerTxnId : String) (paid : q.paid = true)
      (txn : truthy q.providerTxnId = some providerTxnId) (same : asked.id = fresh.id) :
      Settles fresh ⟨providerTxnId, q.paidAmount.getD (.ofInt asked.amount), asked.currency⟩
        [⟨.ordersFindById fresh.id, .ok (some fresh)⟩,
          ⟨.markIfNew (claimKey asked.method providerTxnId), .ok true⟩,
          ⟨.queryPayment asked, .ok q⟩,
          ⟨.ordersFindById asked.id, .ok (some asked)⟩]

/-- What `applyPayment` checks of a report before it settles the order. -/
structure Payable (fresh : Order) (paid : PaidReport) : Prop where
  pending : fresh.status = .PENDING
  currency : paid.currency = fresh.currency
  enough : paid.paidAmount.ltInt fresh.amount = false

/-- Where the order that a task writes comes from: it is one that the task has
seen, with a payment recorded or with no change to what was recorded. -/
inductive Origin (past : Past) (o : Order) : Prop
  | settled (fresh : Order) (paid : PaidReport) (before : Past) (path : Settles fresh paid before)
      (done : before <:+ past) (payable : Payable fresh paid)
      (status : o.status = .PAID ∨ o.status = .FULFILLED)
      (txn : o.providerTxnId = some paid.providerTxnId) (terms : o.terms = fresh.terms)
  | kept (base : Order) (saw : Saw past base) (txn : o.providerTxnId = base.providerTxnId)
      (terms : o.terms = base.terms)
      (status : o.status = base.status ∨ o.status = .EXPIRED ∨ o.status = .FAILED ∨
        o.status = .REFUNDED)

/-- What a task has done when it inserts an order. -/
structure Inserts (deps : Deps) (past : Past) (o : Order) : Prop where
  draft : Draft o
  currency : o.currency = if o.method = .usdt then .USDT else .CNY
  window : o.expiresAt = o.createdAt + deps.orderTtlMinutes * 60000
  drawn : ⟨.uuid, .ok o.id⟩ ∈ past
  first : ∀ h ∈ past, ∀ o', h.1 ≠ .ordersCreate o'
  unused : o.method = .usdt → deps.usdtAddressMode ≠ some .perOrder →
    ∃ pending : List Order, past.newest (.ordersFindPendingByMethod .usdt) =
      some ⟨.ordersFindPendingByMethod .usdt, .ok pending⟩ ∧ ∀ x ∈ pending, x.amount ≠ o.amount
  unseen : ∀ k, truthy o.idempotencyKey = some k →
    past.newest (.ordersFindByIdempotencyKey k) = some ⟨.ordersFindByIdempotencyKey k, .ok none⟩

/-- What a task has done before it writes an order. -/
def Admits (deps : Deps) (past : Past) : Call → Prop
  | .ordersCreate o => Inserts deps past o
  | .ordersUpdate o => Origin past o
  | _ => True

/-- An order is found under its own id, and an update answers what was written. -/
def Possible : (c : Call) → Except AppError (Ans c) → Prop
  | .ordersFindById id, answer => ∀ o : Order, answer = .ok (some o) → o.id = id
  | .ordersUpdate o, answer => ∀ saved : Order, answer = .ok saved → saved = o
  | _, _ => True

/-- What the repositories answer is of this kind. -/
theorem possible_of_exec {b : Backend} {i : Nat} {c : Call} {reply : Reply} {w w' : World}
    {answer : Except AppError (Ans c)} (hExec : exec b i c reply w = some (answer, w')) :
    Possible c answer := by
  cases c with
  | ordersFindById id =>
      rintro o rfl
      have hFound : some o = w'.order id := exec_answers hExec
      exact World.id_of_order hFound.symm
  | ordersUpdate o =>
      rintro saved rfl
      obtain ⟨_, hEq, -⟩ | ⟨a, s, hOk, -, hEq | ⟨_, hEq, -⟩⟩ := exec_store hExec rfl
      · cases hEq
      · obtain ⟨t, -, hSame⟩ := map_eq_ok_iff.mp hOk
        cases hSame
        exact (Except.ok.inj hEq)
      · cases hEq
  | _ => trivial

end VpnPayment
