import VpnPayment.Settlement.NumberedRefunds
import VpnPayment.Settlement.RefundLedger
import VpnPayment.Storage.RefundNumbers

/-! `refundOrder` looks the refund number up outside the lock of the order and without
regard to the order, and stores it in a later step. -/
namespace VpnPayment

open Async Collections

variable {Instance Key : Type} {locker : Instance → String → Key} {deps : Deps} {k : String}

/-- The order that a task is to refund under the number. -/
def refundsUnder (k : String) (requests : List (Instance × Request)) (i : Nat) : Option String :=
  requests[i]?.bind fun request => request.2.refundsUnder k

/-- The lookup of the number found no refund. -/
def foundNoRefund (k : String) : (Σ c : Call, Except AppError (Ans c)) → Bool
  | ⟨.refundsFindByOutRefundNo no, .ok none⟩ => no = k
  | _ => false

/-- The task has looked the number up in vain and has not returned. -/
def isRefunding (k : String) (requests : List (Instance × Request)) (m : Deployment Key) (i : Nat) :
    Bool :=
  (refundsUnder k requests i).isSome && !m.returned i && (m.world.past i).any (foundNoRefund k)

/-- The number is looked up for the order that the refund stored under it is of, and only
while no other task is refunding under it. No other number comes out the same. -/
def looksUpInTurn (b : Backend) (k : String) (requests : List (Instance × Request))
    (m : Deployment Key) : Label Reply (Instance × Request) → Bool
  | .spawn _ => true
  | .step i reply => match m.nextCall i with
      | some (.refundsFindByOutRefundNo no) => no ≠ k ||
          (refundsUnder k requests i).all fun orderId =>
            (m.world.store.refunds.findByOutRefundNo b k).all (fun r => r.orderId = orderId) &&
            (List.range m.tasks.length).all fun j => j = i || !isRefunding k requests m j
      | some (.newOutTradeNo _) => match reply with
          | .text s => s ≠ k
          | _ => true
      | _ => true

def Call.rewritesOrder : Call → Bool
  | .ordersUpdate _ => true
  | _ => false

theorem rewritesOrder_iff {c : Call} : c.rewritesOrder = true ↔ ∃ o, c = .ordersUpdate o := by
  constructor
  · intro hCall
    cases c <;> cases hCall
    exact ⟨_, rfl⟩
  · rintro ⟨o, rfl⟩
    rfl

/-- The order writes of the tasks that refund under the number. -/
def reservations (k : String) (requests : List (Instance × Request)) (w : World) : List Event :=
  w.trace.filter fun e => (refundsUnder k requests e.task).isSome && e.call.rewritesOrder

/-- The refund that a settled task has returned. -/
def refundOf (m : Deployment Key) (i : Nat) : Option Refund :=
  m.tasks[i]?.bind fun t => match t.prog with
    | .ret (.ok (.refund refund)) => some refund
    | _ => none

theorem refundOf_eq_some {m : Deployment Key} {i : Nat} {refund : Refund}
    (h : refundOf m i = some refund) :
    ∃ t, m.tasks[i]? = some t ∧ t.prog = .ret (.ok (.refund refund)) := by
  obtain ⟨t, ht, hProg⟩ := Option.bind_eq_some_iff.mp h
  split at hProg
  · next hRet => exact ⟨t, ht, Option.some.inj hProg ▸ hRet⟩
  · cases hProg

theorem foundNoRefund_iff {h : Σ c : Call, Except AppError (Ans c)} :
    foundNoRefund k h = true ↔ h = ⟨.refundsFindByOutRefundNo k, .ok none⟩ := by
  constructor
  · intro hFound
    unfold foundNoRefund at hFound
    split at hFound
    · obtain rfl := of_decide_eq_true hFound
      rfl
    · cases hFound
  · rintro rfl
    exact decide_eq_true rfl

theorem isRefunding_iff {requests : List (Instance × Request)} {m : Deployment Key} {i : Nat} :
    isRefunding k requests m i = true ↔ (refundsUnder k requests i).isSome = true ∧
      m.returned i = false ∧ ⟨.refundsFindByOutRefundNo k, .ok none⟩ ∈ m.world.past i := by
  simp only [isRefunding, Bool.and_eq_true, Bool.not_eq_true', List.any_eq_true, foundNoRefund_iff,
    exists_eq_right, and_assoc]

namespace World

variable {b : Backend} {i : Nat} {c : Call} {reply : Reply} {w w' : World}
  {answer : Except AppError (Ans c)} {request : Request}

/-- An event is in the past of its task. -/
theorem mem_past {e : Event} (hMem : e ∈ w.trace) : ⟨e.call, e.answer⟩ ∈ w.past e.task :=
  List.mem_map_of_mem (List.mem_filter.mpr ⟨hMem, decide_eq_true rfl⟩)

/-- The stored refund with the number has the terms of `r`. -/
def Stores (b : Backend) (w : World) (no : String) (r : Refund) : Prop :=
  ∃ x, w.store.refunds.findByOutRefundNo b no = some x ∧ x.terms = r.terms

/-- What is known of the stored refunds in every run without such a number. -/
structure RefundsKnown (b : Backend) (k : String) (w : World) : Prop where
  indexed : w.store.refunds.Indexed b
  fresh : w.RefundIdsFresh
  found : ∀ i no r, ⟨.refundsFindByOutRefundNo no, .ok (some r)⟩ ∈ w.past i → w.Stores b no r
  created : ∀ i r, ⟨.refundsCreate r, .ok r⟩ ∈ w.past i → r.outRefundNo = k → w.Stores b k r

/-- What a task updates it has read. -/
theorem RefundsKnown.updates (hKnown : w.RefundsKnown b k)
    (hWrites : WritesRefund k request (w.past i) c) : w.UpdatesStored c := by
  rintro r rfl
  obtain ⟨no, fresh, hMem, hTerms⟩ := hWrites
  obtain ⟨x, hFind, hSame⟩ := hKnown.found i no fresh hMem
  have hEq : r.terms = x.terms := hTerms.trans hSame.symm
  exact ⟨x, Refund.id_eq_of_terms hEq ▸ RefundStore.get?_of_find hFind, hEq⟩

/-- A refund is inserted under a new id. -/
theorem RefundsKnown.new {r : Refund} (hKnown : w.RefundsKnown b k)
    (hWrites : WritesRefund k request (w.past i) (.refundsCreate r)) : w.refund r.id = none :=
  hKnown.fresh i r.id hWrites.1 hWrites.2.1

/-- A refund stays stored under its number. -/
theorem RefundsKnown.stores (hKnown : w.RefundsKnown b k)
    (hWrites : WritesRefund k request (w.past i) c) (hExec : exec b i c reply w = some (answer, w'))
    {no : String} {r : Refund} (hStores : w.Stores b no r) : w'.Stores b no r := by
  have hNew : ∀ r, c = .refundsCreate r → w.refund r.id = none := by
    rintro r rfl
    exact hKnown.new hWrites
  obtain ⟨x, hFind, hTerms⟩ := hStores
  obtain ⟨x', hFind', hSame, -⟩ := finds_of_exec hNew (hKnown.updates hWrites) hExec hFind
  exact ⟨x', hFind', hSame.trans hTerms⟩

/-- A refund that is created is stored under its number. -/
theorem RefundsKnown.stores_created (hKnown : w.RefundsKnown b k) (hLineage : w.Lineage) {r a : Refund}
    (hWrites : WritesRefund k request (w.past i) (.refundsCreate r))
    (hExec : exec b i (.refundsCreate r) reply w = some (.ok a, w')) : w'.Stores b r.outRefundNo r := by
  obtain ⟨e, hEq, -⟩ | ⟨a', s, hOk, rfl, -⟩ := exec_store hExec rfl
  · cases hEq
  · obtain ⟨t, hCreate, hSame⟩ := map_eq_ok_iff.mp hOk
    cases hSame
    have hId := hLineage.nonempty _ (hLineage.drawn i r.id hWrites.1)
    exact ⟨r, RefundStore.find_created hCreate hId (hKnown.new hWrites), rfl⟩

/-- A call keeps what is known of the refunds. -/
theorem RefundsKnown.step (hKnown : w.RefundsKnown b k) (hLineage : w.Lineage)
    (hWrites : WritesRefund k request (w.past i) c) (hExec : exec b i c reply w = some (answer, w')) :
    w'.RefundsKnown b k := by
  have hUpdates := hKnown.updates hWrites
  refine ⟨?_, ?_, fun j no r hMem => ?_, fun j r hMem hNo => ?_⟩
  · rcases refunds_of_exec hExec with ⟨hSame, -⟩ | ⟨r, rfl, hCreate⟩ | ⟨r, rfl, hUpdate⟩
    · exact hSame ▸ hKnown.indexed
    · have hId := hLineage.nonempty _ (hLineage.drawn i r.id hWrites.1)
      exact hKnown.indexed.create hCreate hId (hKnown.new hWrites)
    · obtain ⟨row, hRow, hTerms⟩ := hUpdates r rfl
      rw [hUpdate]
      exact hKnown.indexed.update hRow
        (Refund.outRefundNo_eq_of_terms (RefundStore.terms_written hTerms))
  · refine hKnown.fresh.exec hLineage hUpdates ?_ hExec
    rintro r rfl
    exact hWrites.1
  · obtain hOld | ⟨rfl, hNew⟩ := mem_past_of_exec hExec hMem
    · exact hKnown.stores hWrites hExec (hKnown.found j no r hOld)
    · cases hNew
      have hFound : some r = w'.store.refunds.findByOutRefundNo b no := exec_answers hExec
      exact ⟨r, hFound.symm, rfl⟩
  · obtain hOld | ⟨rfl, hNew⟩ := mem_past_of_exec hExec hMem
    · exact hKnown.stores hWrites hExec (hKnown.created j r hOld hNo)
    · cases hNew
      exact hNo ▸ hKnown.stores_created hLineage hWrites hExec

end World

/-- Every task in flight keeps to what its request does about refunds. -/
abbrev RefundServing (locker : Instance → String → Key) (deps : Deps) (k : String)
    (requests : List (Instance × Request)) (m : Deployment Key) : Prop :=
  Serving (recording locker deps) (AnswersRefund k) (fun request => RefundCall k request.2)
    (fun request => Refunds k request.2) requests m

/-- What holds of a number that is looked up in turn. -/
structure OneRefund (b : Backend) (k : String) (requests : List (Instance × Request))
    (m : Deployment Key) : Prop where
  known : m.world.RefundsKnown b k
  creator : ∀ i j r r', ⟨.refundsCreate r, .ok r⟩ ∈ m.world.past i → r.outRefundNo = k →
    ⟨.refundsCreate r', .ok r'⟩ ∈ m.world.past j → r'.outRefundNo = k → i = j
  belongs : ∀ i orderId r, refundsUnder k requests i = some orderId →
    ⟨.refundsFindByOutRefundNo k, .ok (some r)⟩ ∈ m.world.past i → r.orderId = orderId
  alone : ∀ i j, isRefunding k requests m i = true → isRefunding k requests m j = true → i = j
  unstored : ∀ i, isRefunding k requests m i = true →
    (∀ h ∈ m.world.past i, ∀ r, h.1 ≠ .refundsCreate r) →
    m.world.store.refunds.findByOutRefundNo b k = none
  reserves : ∀ e ∈ m.world.trace, ∀ o, e.call = .ordersUpdate o →
    (refundsUnder k requests e.task).isSome = true → Reserves k (m.world.past e.task) o
  once : (reservations k requests m.world).length ≤ 1

section steps

variable {requests : List (Instance × Request)} {m m' : Deployment Key}
  {label : Label Reply (Instance × Request)} {i j : Nat} {c : Call}

/-- More requests leave the earlier ones. -/
theorem refundsUnder_append {more : List (Instance × Request)} (hLt : j < requests.length) :
    refundsUnder k (requests ++ more) j = refundsUnder k requests j := by
  rw [refundsUnder, List.getElem?_append_left hLt, refundsUnder]

/-- A task that has called something has taken its request before. -/
theorem lt_of_mem_past (hServing : RefundServing locker deps k requests m)
    {h : Σ c : Call, Except AppError (Ans c)} (hMem : h ∈ m.world.past j) : j < requests.length := by
  by_contra hLe
  have hNone : m.world.past j = [] :=
    hServing.each.unused j (by rw [← hServing.taken]; omega)
  rw [hNone] at hMem
  cases hMem

/-- What a task is about to call, by its request. -/
theorem refundCall_of_nextCall (hServing : RefundServing locker deps k requests m)
    (hCall : m.nextCall i = some c) : ∃ request : Request, WritesRefund k request (m.world.past i) c ∧
      refundsUnder k requests i = request.refundsUnder k ∧
      ∀ orderId, refundsUnder k requests i = some orderId → Numbered k (m.world.past i) c := by
  obtain ⟨request, hRequest, hWrites, hNumbered⟩ := hServing.nextCall hCall
  have hUnder : refundsUnder k requests i = request.2.refundsUnder k := by
    rw [refundsUnder, hRequest]
    rfl
  exact ⟨request.2, hWrites, hUnder, fun orderId hOrder => hNumbered orderId (hUnder ▸ hOrder)⟩

/-- The tasks that are refunding were so before the step, or the step is the lookup that
found nothing. -/
theorem isRefunding_before [DecidableEq Key] (hServing : RefundServing locker deps k requests m)
    (hStep : (system locker deps).step m label = some m')
    (hRefunding : isRefunding k (requests ++ label.requested) m' j = true) :
    isRefunding k requests m j = true ∨ ∃ reply, label = .step j reply ∧
      m.nextCall j = some (.refundsFindByOutRefundNo k) ∧ (refundsUnder k requests j).isSome = true ∧
      exec deps.backend j (.refundsFindByOutRefundNo k) reply m.world = some (.ok none, m'.world) := by
  obtain ⟨hUnder, hRuns, hLooked⟩ := isRefunding_iff.mp hRefunding
  have hRan : m.returned j = false := by
    by_contra hReturned
    rw [System.returned_of_step hStep (by simpa using hReturned)] at hRuns
    cases hRuns
  -- the request was taken before the step
  have hBefore : j < requests.length → (refundsUnder k requests j).isSome = true := fun hLt =>
    refundsUnder_append (k := k) hLt ▸ hUnder
  obtain hSame | ⟨i, reply, c, answer, rfl, hCall, hExec⟩ := System.world_of_step hStep
  · rw [hSame] at hLooked
    exact .inl (isRefunding_iff.mpr ⟨hBefore (lt_of_mem_past hServing hLooked), hRan, hLooked⟩)
  · obtain hOld | ⟨rfl, hNew⟩ := World.mem_past_of_exec hExec hLooked
    · exact .inl (isRefunding_iff.mpr ⟨hBefore (lt_of_mem_past hServing hOld), hRan, hOld⟩)
    · cases hNew
      refine .inr ⟨reply, rfl, hCall, hBefore ?_, hExec⟩
      obtain ⟨request, hRequest, -⟩ := hServing.nextCall hCall
      exact (List.getElem?_eq_some_iff.mp hRequest).1

/-- A task that is about to create a refund with the number refunds under it, and no
refund is stored under it. -/
theorem OneRefund.nothing_stored (hOne : OneRefund deps.backend k requests m)
    (hServing : RefundServing locker deps k requests m) {r : Refund}
    (hCall : m.nextCall i = some (.refundsCreate r)) (hNo : r.outRefundNo = k) :
    isRefunding k requests m i = true ∧
      m.world.store.refunds.findByOutRefundNo deps.backend k = none := by
  obtain ⟨request, ⟨hDrawn, hFirst, -, hOurs⟩, hUnder, hNumbered⟩ :=
    refundCall_of_nextCall hServing hCall
  have hOrder := hUnder.trans (hOurs hNo)
  have hRefunding : isRefunding k requests m i = true := by
    refine isRefunding_iff.mpr ⟨by rw [hOrder]; rfl, Machine.not_returned_of_nextCall hCall, ?_⟩
    exact (hNumbered _ hOrder).looked_of_not rfl
  exact ⟨hRefunding, hOne.unstored i hRefunding hFirst⟩

/-- The lookup answers what is stored before and after it. -/
theorem refunds_of_lookup {b : Backend} {no : String} {reply : Reply} {w w' : World}
    {answer : Except AppError (Option Refund)}
    (hExec : exec b i (.refundsFindByOutRefundNo no) reply w = some (answer, w')) :
    w'.store.refunds = w.store.refunds := by
  rcases refunds_of_exec hExec with ⟨hSame, -⟩ | ⟨r, hEq, -⟩ | ⟨r, hEq, -⟩
  · exact hSame
  · cases hEq
  · cases hEq

/-- The task that has looked the number up in vain creates its refund. -/
theorem OneRefund.creator_step (hOne : OneRefund deps.backend k requests m)
    (hServing : RefundServing locker deps k requests m) {reply : Reply}
    {answer : Except AppError (Ans c)} (hCall : m.nextCall i = some c)
    (hExec : exec deps.backend i c reply m.world = some (answer, m'.world)) {j l : Nat} {r r' : Refund}
    (hMem : ⟨.refundsCreate r, .ok r⟩ ∈ m'.world.past j) (hNo : r.outRefundNo = k)
    (hMem' : ⟨.refundsCreate r', .ok r'⟩ ∈ m'.world.past l) (hNo' : r'.outRefundNo = k) : j = l := by
  -- a refund that is created is the first one
  have hFirst : ∀ {r r' : Refund} {j : Nat}, c = .refundsCreate r → r.outRefundNo = k →
      ⟨.refundsCreate r', .ok r'⟩ ∈ m.world.past j → r'.outRefundNo ≠ k := by
    rintro r r' j rfl hNo hOld hNo'
    obtain ⟨-, hNone⟩ := hOne.nothing_stored hServing hCall hNo
    obtain ⟨x, hFind, -⟩ := hOne.known.created j r' hOld hNo'
    rw [hNone] at hFind
    cases hFind
  obtain hOld | ⟨rfl, hNew⟩ := World.mem_past_of_exec hExec hMem <;>
    obtain hOld' | ⟨rfl, hNew'⟩ := World.mem_past_of_exec hExec hMem'
  · exact hOne.creator j l r r' hOld hNo hOld' hNo'
  · exact absurd hNo (hFirst (congrArg Sigma.fst hNew').symm hNo' hOld)
  · exact absurd hNo' (hFirst (congrArg Sigma.fst hNew).symm hNo hOld')
  · rfl

/-- Until the refunding task has created its refund, nothing is stored under the number. -/
theorem OneRefund.unstored_step [DecidableEq Key] (hOne : OneRefund deps.backend k requests m)
    (hServing : RefundServing locker deps k requests m)
    (hStep : (system locker deps).step m label = some m')
    (hRefunding : isRefunding k (requests ++ label.requested) m' j = true)
    (hNone : ∀ h ∈ m'.world.past j, ∀ r, h.1 ≠ .refundsCreate r) :
    m'.world.store.refunds.findByOutRefundNo deps.backend k = none := by
  rcases isRefunding_before hServing hStep hRefunding with hOld | ⟨reply, -, -, -, hExec⟩
  swap
  · have hFound : none = m'.world.store.refunds.findByOutRefundNo deps.backend k := exec_answers hExec
    exact hFound.symm
  obtain hSame | ⟨i, reply, c, answer, rfl, hCall, hExec⟩ := System.world_of_step hStep
  · rw [hSame] at hNone ⊢
    exact hOne.unstored j hOld hNone
  change exec deps.backend i c reply m.world = some (answer, m'.world) at hExec
  have hBefore := hOne.unstored j hOld fun h hMem => hNone h (World.past_subset_of_exec hExec hMem)
  obtain ⟨request, hWrites, -, -⟩ := refundCall_of_nextCall hServing hCall
  rcases refunds_of_exec hExec with ⟨hSame, -⟩ | ⟨r, rfl, hCreate⟩ | ⟨r, rfl, hUpdate⟩
  · rw [hSame, hBefore]
  · by_cases hNo : r.outRefundNo = k
    · -- only the refunding task creates a refund under the number
      obtain ⟨hMine, -⟩ := hOne.nothing_stored hServing hCall hNo
      obtain rfl := hOne.alone i j hMine hOld
      refine absurd rfl (hNone ⟨.refundsCreate r, answer⟩ ?_ r)
      rw [World.past_of_exec hExec, if_pos rfl]
      exact List.mem_cons_self
    · exact RefundStore.find_create_other hOne.known.indexed hCreate (hOne.known.new hWrites) hNo hBefore
  · obtain ⟨row, hRow, hTerms⟩ := hOne.known.updates hWrites r rfl
    have hNo := Refund.outRefundNo_eq_of_terms (RefundStore.terms_written (b := deps.backend) hTerms)
    rw [hUpdate, RefundStore.find_update k hRow hNo, hBefore]
    rfl

/-- A reservation stays justified by what came before. -/
theorem Reserves.mono {past past' : Past} {o : Order} (h : Reserves k past o)
    (hMono : ∀ x ∈ past, x ∈ past') : Reserves k past' o := by
  obtain ⟨r, row, hCreated, hNo, hRead, hAmount⟩ := h
  exact ⟨r, row, hMono _ hCreated, hNo, hMono _ hRead, hAmount⟩

/-- The order writes of the others come to nothing new. -/
theorem OneRefund.once_step (hOne : OneRefund deps.backend k requests m)
    (hServing : RefundServing locker deps k requests m) {reply : Reply}
    {answer : Except AppError (Ans c)} (hCall : m.nextCall i = some c)
    (hExec : exec deps.backend i c reply m.world = some (answer, m'.world)) :
    (reservations k requests m'.world).length ≤ 1 := by
  obtain ⟨applied, hTrace⟩ := trace_of_exec hExec
  rw [reservations, hTrace, List.filter_cons]
  split
  swap
  · exact hOne.once
  next hNew =>
    obtain ⟨hUnder, hWrite⟩ := Bool.and_eq_true_iff.mp hNew
    obtain ⟨orderId, hOrder⟩ := Option.isSome_iff_exists.mp hUnder
    obtain ⟨request, -, -, hNumbered⟩ := refundCall_of_nextCall hServing hCall
    obtain ⟨o, rfl⟩ := rewritesOrder_iff.mp hWrite
    obtain ⟨⟨r, -, hCreated, hNo, -⟩, hFirst⟩ := (hNumbered orderId hOrder).reserves
    -- no task has written the order back before
    have hNone : reservations k requests m.world = [] := by
      rw [reservations, List.filter_eq_nil_iff]
      intro e hMem hOther
      obtain ⟨hTheirs, hWrote⟩ := Bool.and_eq_true_iff.mp hOther
      obtain ⟨o', hEq⟩ := rewritesOrder_iff.mp hWrote
      obtain ⟨r', -, hCreated', hNo', -⟩ := hOne.reserves e hMem o' hEq hTheirs
      have hSame := hOne.creator i e.task r r' hCreated hNo hCreated' hNo'
      have hPast := World.mem_past hMem
      rw [← hSame] at hPast
      exact hFirst _ hPast o' hEq
    show (_ :: reservations k requests m.world).length ≤ 1
    rw [hNone]
    exact Nat.le_refl 1

/-- Requests that are taken later change nothing for the calls that were made. -/
theorem reservations_append {more : List (Instance × Request)} {w : World}
    (hTaken : ∀ e ∈ w.trace, e.task < requests.length) :
    reservations k (requests ++ more) w = reservations k requests w := by
  unfold reservations
  refine List.filter_congr fun e hMem => ?_
  rw [refundsUnder_append (hTaken e hMem)]

/-- What the condition says of the step that looks the number up. -/
theorem looksUpInTurn_lookup {b : Backend} {reply : Reply} {orderId : String}
    (hTurn : looksUpInTurn b k requests m (.step i reply : Label Reply (Instance × Request)) = true)
    (hCall : m.nextCall i = some (.refundsFindByOutRefundNo k))
    (hOrder : refundsUnder k requests i = some orderId) :
    (∀ r, m.world.store.refunds.findByOutRefundNo b k = some r → r.orderId = orderId) ∧
      ∀ j < m.tasks.length, j = i ∨ isRefunding k requests m j = false := by
  simpa [looksUpInTurn, hCall, hOrder, Option.all_eq_true] using hTurn

/-- No other number comes out the same. -/
theorem not_generated {b : Backend} {reply : Reply} {lead s : String}
    (hTurn : looksUpInTurn b k requests m (.step i reply : Label Reply (Instance × Request)) = true)
    (hCall : m.nextCall i = some (.newOutTradeNo lead)) (hReply : reply = .text s) : s ≠ k := by
  subst hReply
  simpa [looksUpInTurn, hCall] using hTurn

/-- Generated numbers are none of the caller's. -/
theorem answersRefund_of_exec {b : Backend} {reply : Reply} {w w' : World}
    {answer : Except AppError (Ans c)}
    (hOther : ∀ lead s, c = .newOutTradeNo lead → reply = .text s → s ≠ k)
    (hExec : exec b i c reply w = some (answer, w')) : AnswersRefund k c answer := by
  cases c with
  | ordersFindById id => exact possible_of_exec hExec
  | refundsCreate r =>
      rintro saved rfl
      obtain ⟨_, hEq, -⟩ | ⟨a, s, hOk, -, hEq | ⟨_, hEq, -⟩⟩ := exec_store hExec rfl
      · cases hEq
      · obtain ⟨t, -, hSame⟩ := map_eq_ok_iff.mp hOk
        cases hSame
        exact Except.ok.inj hEq
      · cases hEq
  | newOutTradeNo lead =>
      rintro rfl
      obtain ⟨e, hEq, -⟩ | ⟨a, hAnswer, hEq, -⟩ := exec_outside hExec rfl
      · cases hEq
      · cases hEq
        cases reply <;> cases hAnswer
        exact hOther lead _ rfl rfl rfl
  | _ => trivial

/-- Nobody else looks the number up in between. -/
theorem OneRefund.alone_step [DecidableEq Key] (hOne : OneRefund deps.backend k requests m)
    (hServing : RefundServing locker deps k requests m)
    (hTurn : looksUpInTurn deps.backend k requests m label = true)
    (hStep : (system locker deps).step m label = some m') {j l : Nat}
    (hj : isRefunding k (requests ++ label.requested) m' j = true)
    (hl : isRefunding k (requests ++ label.requested) m' l = true) : j = l := by
  have hOthers : ∀ i j reply, label = .step i reply →
      m.nextCall i = some (.refundsFindByOutRefundNo k) → (refundsUnder k requests i).isSome = true →
      isRefunding k requests m j = true → j = i := by
    rintro i j reply rfl hCall hUnder hRefunding
    obtain ⟨orderId, hOrder⟩ := Option.isSome_iff_exists.mp hUnder
    obtain ⟨-, hRest⟩ := looksUpInTurn_lookup hTurn hCall hOrder
    obtain ⟨-, -, hLooked⟩ := isRefunding_iff.mp hRefunding
    rcases hRest j (hServing.taken ▸ lt_of_mem_past hServing hLooked) with hEq | hNot
    · exact hEq
    · rw [hRefunding] at hNot
      cases hNot
  rcases isRefunding_before hServing hStep hj with hj | ⟨reply, hLabel, hCall, hUnder, -⟩ <;>
    rcases isRefunding_before hServing hStep hl with hl | ⟨reply', hLabel', hCall', hUnder', -⟩
  · exact hOne.alone j l hj hl
  · exact hOthers l j reply' hLabel' hCall' hUnder' hj
  · exact (hOthers j l reply hLabel hCall hUnder hl).symm
  · cases hLabel.symm.trans hLabel'
    rfl

/-- Every call keeps one refund under the number. -/
theorem OneRefund.step [DecidableEq Key] (hOne : OneRefund deps.backend k requests m)
    (hServing : RefundServing locker deps k requests m) (hLineage : m.world.Lineage)
    (hTurn : looksUpInTurn deps.backend k requests m label = true)
    (hStep : (system locker deps).step m label = some m') :
    OneRefund deps.backend k (requests ++ label.requested) m' := by
  have hAlone : ∀ j l, isRefunding k (requests ++ label.requested) m' j = true →
      isRefunding k (requests ++ label.requested) m' l = true → j = l := fun j l hj hl =>
    hOne.alone_step hServing hTurn hStep hj hl
  have hUnstored : ∀ j, isRefunding k (requests ++ label.requested) m' j = true →
      (∀ h ∈ m'.world.past j, ∀ r, h.1 ≠ .refundsCreate r) →
      m'.world.store.refunds.findByOutRefundNo deps.backend k = none := fun j hj hNone =>
    hOne.unstored_step hServing hStep hj hNone
  have hTaken : ∀ e ∈ m.world.trace, e.task < requests.length := fun e hMem =>
    lt_of_mem_past hServing (World.mem_past hMem)
  obtain hSame | ⟨i, reply, c, answer, rfl, hCall, hExec⟩ := System.world_of_step hStep
  · -- nothing is called
    refine ⟨hSame ▸ hOne.known, hSame ▸ hOne.creator, fun j orderId r hOrder hMem => ?_, hAlone,
      hUnstored, fun e hMem o hEq hUnder => ?_, ?_⟩
    · rw [hSame] at hMem
      rw [refundsUnder_append (lt_of_mem_past hServing hMem)] at hOrder
      exact hOne.belongs j orderId r hOrder hMem
    · rw [hSame] at hMem ⊢
      rw [refundsUnder_append (hTaken e hMem)] at hUnder
      exact hOne.reserves e hMem o hEq hUnder
    · rw [hSame, reservations_append hTaken]
      exact hOne.once
  · rw [show requests ++ (Label.step i reply : Label Reply (Instance × Request)).requested = requests
      from List.append_nil requests] at hAlone hUnstored ⊢
    change exec deps.backend i c reply m.world = some (answer, m'.world) at hExec
    obtain ⟨request, hWrites, -, hNumbered⟩ := refundCall_of_nextCall hServing hCall
    refine ⟨hOne.known.step hLineage hWrites hExec,
      fun j l r r' hMem hNo hMem' hNo' => hOne.creator_step hServing hCall hExec hMem hNo hMem' hNo',
      fun j orderId r hOrder hMem => ?_, hAlone, hUnstored, fun e hMem o hEq hUnder => ?_,
      hOne.once_step hServing hCall hExec⟩
    · obtain hOld | ⟨rfl, hNew⟩ := World.mem_past_of_exec hExec hMem
      · exact hOne.belongs j orderId r hOrder hOld
      · cases hNew
        obtain ⟨hBelongs, -⟩ := looksUpInTurn_lookup hTurn hCall hOrder
        have hFound : some r = m'.world.store.refunds.findByOutRefundNo deps.backend k :=
          exec_answers hExec
        rw [refunds_of_lookup hExec] at hFound
        exact hBelongs r hFound.symm
    · obtain ⟨applied, hTrace⟩ := trace_of_exec hExec
      rw [hTrace] at hMem
      rcases List.mem_cons.mp hMem with rfl | hOld
      · cases hEq
        obtain ⟨orderId, hOrder⟩ := Option.isSome_iff_exists.mp hUnder
        exact (hNumbered orderId hOrder).reserves.1.mono fun x hx =>
          World.past_subset_of_exec hExec hx
      · exact (hOne.reserves e hOld o hEq hUnder).mono fun x hx =>
          World.past_subset_of_exec hExec hx

end steps

theorem oneRefund_start {b : Backend} {store : Store} {clock : Int}
    (hStore : store.refunds.Indexed b) :
    OneRefund b k ([] : List (Instance × Request)) (Deployment.start store clock : Deployment Key) where
  known := {
    indexed := hStore
    fresh := fun i id hMem => by cases hMem
    found := fun i no r hMem => by cases hMem
    created := fun i r hMem => by cases hMem }
  creator i j r r' hMem := by cases hMem
  belongs i orderId r hOrder := by cases hOrder
  alone i j hi := by cases (isRefunding_iff.mp hi).1
  unstored i hi := by cases (isRefunding_iff.mp hi).1
  reserves e hMem := by cases hMem
  once := Nat.zero_le 1

section settled

variable {requests : List (Instance × Request)} {m : Deployment Key} {i : Nat}

/-- What a settled task has returned, by its request. -/
theorem refunds_of_returned (hServing : RefundServing locker deps k requests m)
    {t : Task Key Call Ans AppError Outcome} {result : Except AppError Outcome} {orderId : String}
    (ht : m.tasks[i]? = some t) (hProg : t.prog = .ret result)
    (hOrder : refundsUnder k requests i = some orderId) :
    (∀ found, ⟨.refundsFindByOutRefundNo k, .ok (some found)⟩ ∈ m.world.past i →
      result = .ok (.refund found)) ∧
    ∀ refund, result = .ok (.refund refund) → HasRefund k orderId refund (m.world.past i) := by
  obtain ⟨request, hRequest, hRefunds⟩ := hServing.returned ht hProg
  refine hRefunds orderId ?_
  rw [refundsUnder, hRequest] at hOrder
  exact hOrder

/-- A refund that is returned is of the order, and the one stored under the number. -/
theorem OneRefund.returned (hOne : OneRefund deps.backend k requests m)
    (hServing : RefundServing locker deps k requests m) {orderId : String} {refund : Refund}
    (hOrder : refundsUnder k requests i = some orderId) (hRefund : refundOf m i = some refund) :
    refund.orderId = orderId ∧ m.world.Stores deps.backend k refund := by
  obtain ⟨t, ht, hProg⟩ := refundOf_eq_some hRefund
  obtain ⟨-, hHas⟩ := refunds_of_returned hServing ht hProg hOrder
  rcases hHas refund rfl with hFound | ⟨hCreated, hNo, hSame⟩
  · exact ⟨hOne.belongs i orderId refund hOrder hFound, hOne.known.found i k refund hFound⟩
  · exact ⟨hSame, hOne.known.created i refund hCreated hNo⟩

/-- A refund that is about to be created under the number is accepted. -/
theorem OneRefund.accepted (hOne : OneRefund deps.backend k requests m)
    (hServing : RefundServing locker deps k requests m) (hLineage : m.world.Lineage) {r : Refund}
    (hCall : m.nextCall i = some (.refundsCreate r)) (hNo : r.outRefundNo = k) :
    ∃ s, m.world.store.refunds.create deps.backend m.world.store.orders r = .ok s := by
  obtain ⟨-, hNone⟩ := hOne.nothing_stored hServing hCall hNo
  obtain ⟨request, hWrites, -, -⟩ := refundCall_of_nextCall hServing hCall
  obtain ⟨o, hId, hRead⟩ := hWrites.2.2.1
  obtain ⟨row, hRow, -⟩ := hLineage.saw i o (.inl hRead)
  refine RefundStore.create_of_not_taken ?_ (hOne.known.new hWrites) ?_
  · rw [hNo]
    exact RefundStore.not_taken hOne.known.indexed hNone
  · rw [← hId]
    exact Option.isSome_iff_exists.mpr ⟨row, hRow⟩

end settled

/-- As long as the number is looked up in turn, and for one order: the calls with the
number return one stored refund of their order, a call that finds it returns it, no
insertion collides, and the order is written back once, with the amount added. -/
theorem one_refund_per_number [DecidableEq Key] {store : Store} {clock : Int}
    {requests : List (Instance × Request)} {m : Deployment Key} (hk : k ≠ "")
    (hStore : store.refunds.Indexed deps.backend)
    (hRun : (system locker deps).Takes
      (fun requests m label => looksUpInTurn deps.backend k requests m label = true)
      (Deployment.start store clock) requests m) :
    (∀ i j orderId orderId' refund refund', refundsUnder k requests i = some orderId →
      refundsUnder k requests j = some orderId' → refundOf m i = some refund →
      refundOf m j = some refund' → refund.id = refund'.id) ∧
    (∀ i orderId refund, refundsUnder k requests i = some orderId → refundOf m i = some refund →
      refund.orderId = orderId ∧ m.world.Stores deps.backend k refund) ∧
    (∀ (i : Nat) (found : Refund) (t : Task Key Call Ans AppError Outcome) result,
      (refundsUnder k requests i).isSome = true →
      ⟨.refundsFindByOutRefundNo k, .ok (some found)⟩ ∈ m.world.past i → m.tasks[i]? = some t →
      t.prog = .ret result → result = .ok (.refund found)) ∧
    (∀ i r, m.nextCall i = some (.refundsCreate r) → r.outRefundNo = k →
      ∃ s, m.world.store.refunds.create deps.backend m.world.store.orders r = .ok s) ∧
    (reservations k requests m.world).length ≤ 1 ∧
    ∀ e ∈ m.world.trace, ∀ o, e.call = .ordersUpdate o →
      (refundsUnder k requests e.task).isSome = true → Reserves k (m.world.past e.task) o := by
  obtain ⟨hTracked, hServing, hOne⟩ := hRun.invariant (P := fun requests m =>
    Tracked locker deps m ∧ RefundServing locker deps k requests m ∧
      OneRefund deps.backend k requests m) (by
    rintro requests m label m' hTurn hStep ⟨hTracked, hServing, hOne⟩
    refine ⟨hTracked.step hStep, ?_, hOne.step hServing hTracked.lineage hTurn hStep⟩
    refine hServing.step (fun request _ => refunds_serve (locker request.1) hk request.2) ?_ hStep
    rintro i reply c answer w' rfl hCall hExec
    refine answersRefund_of_exec ?_ hExec
    rintro lead s rfl hReply
    exact not_generated hTurn hCall hReply)
    ⟨tracked_start, serving_start fun _ => rfl, oneRefund_start hStore⟩
  have hReturned : ∀ i orderId refund, refundsUnder k requests i = some orderId →
      refundOf m i = some refund → refund.orderId = orderId ∧ m.world.Stores deps.backend k refund :=
    fun i orderId refund => hOne.returned hServing
  refine ⟨fun i j orderId orderId' refund refund' hi hj hRefund hRefund' => ?_, hReturned,
    fun i found t result hUnder hFound ht hProg => ?_,
    fun i r hCall hNo => hOne.accepted hServing hTracked.lineage hCall hNo, hOne.once, hOne.reserves⟩
  · obtain ⟨-, x, hFind, hTerms⟩ := hReturned i orderId refund hi hRefund
    obtain ⟨-, x', hFind', hTerms'⟩ := hReturned j orderId' refund' hj hRefund'
    obtain rfl := Option.some.inj (hFind.symm.trans hFind')
    exact Refund.id_eq_of_terms (hTerms.symm.trans hTerms')
  · obtain ⟨orderId, hOrder⟩ := Option.isSome_iff_exists.mp hUnder
    exact (refunds_of_returned hServing ht hProg hOrder).1 found hFound

namespace Sample

/-- The request to refund part of an order under a number. -/
def numberedRefund (orderId : String) : Unit × Request :=
  ((), .refundOrder orderId ⟨some (.ofInt 500), none, some "K"⟩)

/-- What follows a lookup of the number that found nothing. -/
def refundsNumbered (task : Nat) (refundId : String) (count : Nat) :
    List (Label Reply (Unit × Request)) :=
  steps task 3 ++ [.step task (.refunded ⟨some "p1", .SUCCESS, ""⟩), .step task (.text refundId)] ++
    steps task count

/-- A store with two orders. -/
def storeOfTwo : Store :=
  let second := { fulfilled with id := "o2", outTradeNo := "VPN2" }
  { Store.empty with
    orders := ⟨(Table.empty.put fulfilled).put second,
      (Table.empty.put (fulfilled.outTradeNo, "o1")).put ("VPN2", "o2"), Table.empty⟩ }

end Sample

/-- A refund and its repetition. -/
theorem one_refund_sample : ∃ (requests : List (Unit × Request)) (m : Deployment String),
    (singleInstance (Sample.deps .memory)).Takes
      (fun requests m label => looksUpInTurn .memory "K" requests m label = true)
      (Deployment.start (Sample.storeOf Sample.fulfilled) 0) requests m ∧
    refundsUnder "K" requests 1 = some "o1" ∧ (refundOf m 1).map Refund.id = some "r1" ∧
    (reservations "K" requests m.world).length = 1 := by
  obtain ⟨requests, m, hRun, hCheck⟩ := System.exists_takes (singleInstance (Sample.deps .memory))
    (fun requests m label => looksUpInTurn .memory "K" requests m label)
    (Deployment.start (Sample.storeOf Sample.fulfilled) 0)
    (.spawn (Sample.numberedRefund "o1") :: .step 0 .normal :: Sample.refundsNumbered 0 "r1" 4 ++
      [.spawn (Sample.numberedRefund "o1"), .step 1 .normal])
    (fun (requests, m) => decide (refundsUnder "K" requests 0 = some "o1") &&
      decide (refundsUnder "K" requests 1 = some "o1") &&
      decide ((refundOf m 0).map Refund.id = some "r1") && (refundOf m 1).isSome &&
      !(reservations "K" requests m.world).isEmpty) (by decide +kernel)
  simp only [Bool.and_eq_true, decide_eq_true_eq, Option.isSome_iff_exists, Bool.not_eq_true',
    List.isEmpty_eq_false_iff] at hCheck
  obtain ⟨⟨⟨⟨hFirst, hSecond⟩, hId⟩, refund, hRefund⟩, hSome⟩ := hCheck
  obtain ⟨first, hRefund', hId'⟩ := Option.map_eq_some_iff.mp hId
  obtain ⟨hSame, -, -, -, hOnce, -⟩ := one_refund_per_number (by decide)
    (RefundStore.indexed_empty .memory) hRun
  refine ⟨requests, m, hRun, hSecond, ?_, ?_⟩
  · rw [hRefund, Option.map_some, ← hId', hSame 0 1 "o1" "o1" first refund hFirst hSecond hRefund' hRefund]
  · have hPos := List.length_pos_iff.mpr hSome
    omega

/-- The number of a refund of one order is used again for another order, which is
answered with the refund of the first. And two calls look the number up before either
has stored its refund: the provider is asked twice, and the second call fails. -/
theorem refund_number_collides : (∃ (requests : List (Unit × Request)) (m : Deployment String),
      (singleInstance (Sample.deps .memory)).Takes (fun _ _ _ => True)
        (Deployment.start Sample.storeOfTwo 0) requests m ∧
      refundsUnder "K" requests 1 = some "o2" ∧ (refundOf m 1).map Refund.orderId = some "o1") ∧
    ∃ (requests : List (Unit × Request)) (m : Deployment String),
      (singleInstance (Sample.deps .memory)).Takes (fun _ _ _ => True)
        (Deployment.start (Sample.storeOf Sample.fulfilled) 0) requests m ∧
      refundsUnder "K" requests 0 = some "o1" ∧ refundsUnder "K" requests 1 = some "o1" ∧
      (refundOf m 0).map Refund.id = some "r1" ∧
      m.rejection 1 = some (plainError "duplicate outRefundNo: K") := by
  constructor
  · obtain ⟨requests, m, hRun, hCheck⟩ := System.exists_takes (singleInstance (Sample.deps .memory))
      (fun _ _ _ => true) (Deployment.start Sample.storeOfTwo 0)
      (.spawn (Sample.numberedRefund "o1") :: .step 0 .normal :: Sample.refundsNumbered 0 "r1" 4 ++
        [.spawn (Sample.numberedRefund "o2"), .step 1 .normal])
      (fun (requests, m) => decide (refundsUnder "K" requests 1 = some "o2") &&
        decide ((refundOf m 1).map Refund.orderId = some "o1")) (by decide +kernel)
    simp only [Bool.and_eq_true, decide_eq_true_eq] at hCheck
    exact ⟨requests, m, hRun.mono fun _ _ _ _ => trivial, hCheck⟩
  · obtain ⟨requests, m, hRun, hCheck⟩ := System.exists_takes (singleInstance (Sample.deps .memory))
      (fun _ _ _ => true) (Deployment.start (Sample.storeOf Sample.fulfilled) 0)
      (.spawn (Sample.numberedRefund "o1") :: .step 0 .normal :: .spawn (Sample.numberedRefund "o1") ::
        .step 1 .normal :: Sample.refundsNumbered 0 "r1" 4 ++ Sample.refundsNumbered 1 "r2" 2)
      (fun (requests, m) => decide (refundsUnder "K" requests 0 = some "o1") &&
        decide (refundsUnder "K" requests 1 = some "o1") &&
        decide ((refundOf m 0).map Refund.id = some "r1") &&
        decide (m.rejection 1 = some (plainError "duplicate outRefundNo: K"))) (by decide +kernel)
    simp only [Bool.and_eq_true, decide_eq_true_eq] at hCheck
    obtain ⟨⟨⟨hFirst, hSecond⟩, hId⟩, hFails⟩ := hCheck
    exact ⟨requests, m, hRun.mono fun _ _ _ _ => trivial, hFirst, hSecond, hId, hFails⟩

end VpnPayment
