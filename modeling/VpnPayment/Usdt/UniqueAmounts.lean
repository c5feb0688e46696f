import VpnPayment.Settlement.Lineage
import VpnPayment.Settlement.StatusMachine

/-! With one shared receiving address the amount is all that tells the pending
orders apart. It is chosen from a snapshot of the pending orders. -/
namespace VpnPayment

open Async Collections

/-- The requests that create orders. -/
def Request.createsOrder : Request → Bool
  | .createOrder _ => true
  | _ => false

/-- A USDT order that waits for its transfer. -/
def Order.awaitsUsdt (o : Order) : Bool :=
  o.method = .usdt && o.status = .PENDING

/-- The event stored a new USDT order. -/
def Event.insertsUsdt (e : Event) : Bool :=
  e.applied && match e.call with
    | .ordersCreate o => o.method = .usdt
    | _ => false

/-- The event is a task's look at the pending USDT orders. -/
def Event.looksAtPending (i : Nat) (e : Event) : Bool :=
  e.task = i && e.call = .ordersFindPendingByMethod .usdt

/-- A USDT order is inserted only if no other one was since the task looked at the
pending ones, and an order is written back as PENDING only while it still is. -/
def allocatesAlone {Instance Key : Type} (m : Deployment Key) : Label Reply (Instance × Request) → Bool
  | .spawn _ => true
  | .step i _ => match m.nextCall i with
      | some (.ordersCreate o) => o.method ≠ .usdt ||
          (m.world.trace.takeWhile fun e => !e.looksAtPending i).all fun e => !e.insertsUsdt
      | some (.ordersUpdate o) => !o.awaitsUsdt || (m.world.order o.id).all Order.awaitsUsdt
      | _ => true

namespace World

/-- Any two orders that wait for their transfers have different amounts. -/
def UniqueAmounts (w : World) : Prop :=
  ∀ id id' o o', w.order id = some o → w.order id' = some o' → o.awaitsUsdt = true →
    o'.awaitsUsdt = true → o.amount = o'.amount → id = id'

/-- What was pending when a task looked is all that is pending now, but for the
orders inserted since. -/
def Covered (w : World) : Prop :=
  ∀ later e earlier (pending : List Order), w.trace = later ++ e :: earlier →
    (⟨e.call, e.answer⟩ : Σ c : Call, Except AppError (Ans c)) =
      ⟨.ordersFindPendingByMethod .usdt, .ok pending⟩ →
    ∀ id o, w.order id = some o → o.awaitsUsdt = true →
      (∃ x ∈ pending, x.amount = o.amount) ∨ ∃ e' ∈ later, e'.insertsUsdt = true

end World

theorem Order.awaitsUsdt_eq_of_terms {o o' : Order} (hTerms : o.terms = o'.terms)
    (hStatus : o.status = o'.status) : o.awaitsUsdt = o'.awaitsUsdt := by
  have hMethod := Order.method_eq_of_terms hTerms
  simp [Order.awaitsUsdt, hMethod, hStatus]

section steps

variable {deps : Deps} {i : Nat} {w w' : World} {c : Call} {answer : Except AppError (Ans c)}

/-- An order that waits after a step waited before it, or it is new. -/
theorem awaited_before (hLineage : w.Lineage) (hAdmits : Admits deps (w.past i) c)
    (hBack : ∀ o row, c = .ordersUpdate o → w.order o.id = some row → o.awaitsUsdt = true →
      row.awaitsUsdt = true)
    (hStep : OrderStep deps.backend i w w' c answer) {id : String} {o : Order}
    (ho : w'.order id = some o) (hAwaits : o.awaitsUsdt = true) :
    (∃ row, w.order id = some row ∧ row.awaitsUsdt = true ∧ row.amount = o.amount) ∨
    (∃ new, c = .ordersCreate new ∧ id = new.id ∧ new.awaitsUsdt = true ∧ new.amount = o.amount ∧
      w'.trace = ⟨i, c, answer, true⟩ :: w.trace) := by
  cases hStep with
  | same c answer applied trace orders failed =>
      exact .inl ⟨o, (World.order_congr orders id).symm.trans ho, hAwaits, rfl⟩
  | inserted new answer trace stored order =>
      rw [order] at ho
      split at ho
      · next hId =>
          cases ho
          have hTerms := OrderStore.terms_created (b := deps.backend) (Draft.merchant hAdmits.draft)
          have hStatus : (OrderStore.created deps.backend new).status = new.status := by
            cases deps.backend <;> rfl
          refine .inr ⟨new, rfl, hId.symm, ?_, (Order.amount_eq_of_terms hTerms).symm, trace⟩
          rwa [← Order.awaitsUsdt_eq_of_terms hTerms hStatus]
      · exact .inl ⟨o, ho, hAwaits, rfl⟩
  | rewritten new row answer trace found stored order =>
      rw [order] at ho
      split at ho
      · next hId =>
          cases ho
          obtain ⟨row', hRow', hTerms⟩ := hLineage.terms hAdmits
          obtain rfl := Option.some.inj (found.symm.trans hRow')
          have hSame : (OrderStore.written deps.backend row new).terms = new.terms :=
            (OrderStore.terms_written hTerms).trans hTerms
          rw [Order.awaitsUsdt_eq_of_terms hSame OrderStore.status_written] at hAwaits
          refine .inl ⟨row, hId ▸ found, hBack new row rfl found hAwaits, ?_⟩
          exact (Order.amount_eq_of_terms (OrderStore.terms_written hTerms)).symm
      · exact .inl ⟨o, ho, hAwaits, rfl⟩

/-- A snapshot of the pending orders covers them. -/
theorem covered_step {reply : Reply} (hCovered : w.Covered) (hLineage : w.Lineage)
    (hAdmits : Admits deps (w.past i) c)
    (hBack : ∀ o row, c = .ordersUpdate o → w.order o.id = some row → o.awaitsUsdt = true →
      row.awaitsUsdt = true)
    (hExec : exec deps.backend i c reply w = some (answer, w')) : w'.Covered := by
  have hStep := orderStep_of_exec hExec
  intro later e earlier pending hSplit hLook id o ho hAwaits
  obtain ⟨applied, hTrace⟩ := trace_of_exec hExec
  rw [hTrace] at hSplit
  rcases List.cons_eq_append_iff.mp hSplit with ⟨rfl, hHead⟩ | ⟨rest, rfl, hTail⟩
  · -- the snapshot has just been taken
    cases hHead
    cases hLook
    left
    obtain ⟨_, hEq, -⟩ | ⟨a, s, hOk, rfl, hEq | ⟨_, hEq, -⟩⟩ := exec_store hExec rfl
    · cases hEq
    · cases hOk
      cases hEq
      refine ⟨o, ?_, rfl⟩
      rw [OrderStore.findPendingByMethod_eq]
      refine List.mem_filter.mpr ⟨Table.mem_of_get? ho, ?_⟩
      simpa [Order.awaitsUsdt] using hAwaits
    · cases hEq
  · rcases awaited_before hLineage hAdmits hBack hStep ho hAwaits with
      ⟨row, hRow, hRowAwaits, hAmount⟩ | ⟨new, rfl, -, hNewAwaits, -, hApplied⟩
    · rcases hCovered rest e earlier pending hTail hLook id row hRow hRowAwaits with
        ⟨x, hx, hSame⟩ | ⟨e', hMem, hInserts⟩
      · exact .inl ⟨x, hx, hSame.trans hAmount⟩
      · exact .inr ⟨e', List.mem_cons_of_mem _ hMem, hInserts⟩
    · refine .inr ⟨_, List.mem_cons_self, ?_⟩
      rw [hTrace] at hApplied
      cases hApplied
      simp only [Order.awaitsUsdt, Bool.and_eq_true, decide_eq_true_eq] at hNewAwaits
      simp [Event.insertsUsdt, hNewAwaits.1]

/-- The events since a task looked. -/
theorem takeWhile_of_newest {trace : List Event} {h : Σ c : Call, Except AppError (Ans c)}
    (hNewest : (pastOf i trace).newest (.ordersFindPendingByMethod .usdt) = some h) :
    ∃ e earlier, trace = (trace.takeWhile fun e => !e.looksAtPending i) ++ e :: earlier ∧
      (⟨e.call, e.answer⟩ : Σ c : Call, Except AppError (Ans c)) = h := by
  obtain ⟨later, e, earlier, hTrace, hTask, hHead, hLater⟩ := exists_of_newest hNewest
  have hCall : h.1 = .ordersFindPendingByMethod .usdt := by simpa using List.find?_some hNewest
  have hLooks : e.looksAtPending i = true := by
    rw [← hHead] at hCall
    have hSame : e.call = .ordersFindPendingByMethod .usdt := hCall
    simp [Event.looksAtPending, hTask, hSame]
  have hNot : ∀ e' ∈ later, (!e'.looksAtPending i) = true := by
    intro e' hMem
    simpa [Event.looksAtPending, imp_iff_not_or] using hLater e' hMem
  refine ⟨e, earlier, ?_, hHead⟩
  have hTake : (trace.takeWhile fun e => !e.looksAtPending i) = later := by
    rw [hTrace, List.takeWhile_append_of_pos hNot, List.takeWhile_cons_of_neg (by simp [hLooks]),
      List.append_nil]
  rw [hTake]
  exact hTrace

/-- The amount of a new order is not that of any order that waits. -/
theorem new_amount {new row : Order} {id : String} (hShared : deps.usdtAddressMode ≠ some .perOrder)
    (hCovered : w.Covered) (hInserts : Inserts deps (w.past i) new)
    (hAwaits : new.awaitsUsdt = true)
    (hAlone : ∀ e ∈ w.trace.takeWhile fun e => !e.looksAtPending i, e.insertsUsdt = false)
    (hRow : w.order id = some row) (hRowAwaits : row.awaitsUsdt = true) :
    row.amount ≠ new.amount := by
  have hUsdt : new.method = .usdt := by
    simp only [Order.awaitsUsdt, Bool.and_eq_true, decide_eq_true_eq] at hAwaits
    exact hAwaits.1
  obtain ⟨pending, hNewest, hFree⟩ := hInserts.unused hUsdt hShared
  obtain ⟨e, earlier, hTrace, hLook⟩ := takeWhile_of_newest hNewest
  intro hAmount
  rcases hCovered _ e earlier pending hTrace hLook id row hRow hRowAwaits with
    ⟨x, hx, hSame⟩ | ⟨e', hMem, hInsertsUsdt⟩
  · exact hFree x hx (hSame.trans hAmount)
  · rw [hAlone e' hMem] at hInsertsUsdt
    cases hInsertsUsdt

theorem uniqueAmounts_step (hShared : deps.usdtAddressMode ≠ some .perOrder)
    (hUnique : w.UniqueAmounts) (hCovered : w.Covered) (hLineage : w.Lineage)
    (hAdmits : Admits deps (w.past i) c)
    (hBack : ∀ o row, c = .ordersUpdate o → w.order o.id = some row → o.awaitsUsdt = true →
      row.awaitsUsdt = true)
    (hAlone : ∀ o, c = .ordersCreate o → o.awaitsUsdt = true →
      ∀ e ∈ w.trace.takeWhile fun e => !e.looksAtPending i, e.insertsUsdt = false)
    (hStep : OrderStep deps.backend i w w' c answer) : w'.UniqueAmounts := by
  intro id id' o o' ho ho' hAwaits hAwaits' hAmount
  rcases awaited_before hLineage hAdmits hBack hStep ho hAwaits with
    ⟨row, hRow, hRowAwaits, hRowAmount⟩ | ⟨new, hCall, hId, hNewAwaits, hNewAmount, -⟩ <;>
  rcases awaited_before hLineage hAdmits hBack hStep ho' hAwaits' with
    ⟨row', hRow', hRowAwaits', hRowAmount'⟩ | ⟨new', hCall', hId', hNewAwaits', hNewAmount', -⟩
  · exact hUnique id id' row row' hRow hRow' hRowAwaits hRowAwaits'
      (hRowAmount.trans (hAmount.trans hRowAmount'.symm))
  · subst hCall'
    refine absurd ?_ (new_amount hShared hCovered hAdmits hNewAwaits' (hAlone new' rfl hNewAwaits')
      hRow hRowAwaits)
    exact hRowAmount.trans (hAmount.trans hNewAmount'.symm)
  · subst hCall
    refine absurd ?_ (new_amount hShared hCovered hAdmits hNewAwaits (hAlone new rfl hNewAwaits)
      hRow' hRowAwaits')
    exact hRowAmount'.trans (hAmount.symm.trans hNewAmount.symm)
  · cases hCall.symm.trans hCall'
    rw [hId, hId']

end steps

/-- The pending orders of a store have different amounts. -/
def Store.UniqueAmounts (store : Store) : Prop :=
  (World.start store 0).UniqueAmounts

/-- As long as no other USDT order comes in between the look and the insertion, no
two orders wait for the same amount. -/
theorem pending_amounts_unique {Instance Key : Type} [DecidableEq Key]
    {locker : Instance → String → Key} {deps : Deps} {store : Store} {clock : Int}
    {m : Deployment Key} (hShared : deps.usdtAddressMode ≠ some .perOrder)
    (hStore : store.UniqueAmounts)
    (hRun : (system locker deps).Reaches (fun m label => allocatesAlone m label = true)
      (Deployment.start store clock) m) : m.world.UniqueAmounts := by
  have hStart : Tracked locker deps (Deployment.start store clock) ∧
      (World.start store clock).UniqueAmounts ∧ (World.start store clock).Covered := by
    refine ⟨tracked_start, hStore, fun later e earlier pending hTrace => ?_⟩
    cases later <;> cases hTrace
  refine (hRun.invariant (P := fun m => Tracked locker deps m ∧ m.world.UniqueAmounts ∧
    m.world.Covered) ?_ hStart).2.1
  rintro m label m' hAlone hStep ⟨hTracked, hUnique, hCovered⟩
  refine ⟨hTracked.step hStep, ?_⟩
  obtain hSame | ⟨i, reply, c, answer, rfl, hCall, hAdmits, hExec, hOrders⟩ :=
    hTracked.orderStep hStep
  · rw [hSame]
    exact ⟨hUnique, hCovered⟩
  · have hBack : ∀ o row, c = .ordersUpdate o → m.world.order o.id = some row →
        o.awaitsUsdt = true → row.awaitsUsdt = true := by
      rintro o row rfl hRow hAwaits
      simpa [allocatesAlone, hCall, hAwaits, hRow] using hAlone
    refine ⟨uniqueAmounts_step hShared hUnique hCovered hTracked.lineage hAdmits hBack ?_ hOrders,
      covered_step hCovered hTracked.lineage hAdmits hBack hExec⟩
    rintro o rfl hAwaits e hMem
    simp only [Order.awaitsUsdt, Bool.and_eq_true, decide_eq_true_eq] at hAwaits
    simp only [allocatesAlone, hCall, hAwaits.1, ne_eq, not_true_eq_false, decide_false,
      Bool.false_or, List.all_eq_true, Bool.not_eq_true'] at hAlone
    exact hAlone e hMem

namespace Sample

/-- Shared-address USDT mode. -/
def sharedDeps (backend : Backend) : Deps :=
  { deps backend with usdtAddressMode := some .shared }

def usdtInput : CreateOrderInput := ⟨"alice", "monthly", .usdt, none, none⟩

/-- A task creates a USDT order up to its insertion. -/
def allocates (task : Nat) : List (Label Reply (Unit × Request)) :=
  [.spawn ((), .createOrder usdtInput), .step task .normal]

/-- The order is inserted. -/
def inserts (task : Nat) (id outTradeNo : String) : List (Label Reply (Unit × Request)) :=
  [.step task .normal, .step task (.text id), .step task (.text outTradeNo), .step task .normal]

end Sample

/-- Two orders, one after the other. -/
theorem pending_amounts_sample : ∃ m : Deployment String,
    (singleInstance (Sample.sharedDeps .memory)).Reaches
      (fun m label => allocatesAlone m label = true) (Deployment.start Store.empty 0) m ∧
    ∃ o o', m.world.order "o1" = some o ∧ m.world.order "o2" = some o' ∧ o.awaitsUsdt = true ∧
      o'.awaitsUsdt = true ∧ o.amount ≠ o'.amount := by
  obtain ⟨m, hRun, hCheck⟩ := System.exists_reaches (singleInstance (Sample.sharedDeps .memory))
    allocatesAlone (Deployment.start Store.empty 0)
    (Sample.allocates 0 ++ Sample.inserts 0 "o1" "VPN1" ++ Sample.allocates 1 ++
      Sample.inserts 1 "o2" "VPN2")
    (fun m => (m.world.order "o1").any Order.awaitsUsdt && (m.world.order "o2").any Order.awaitsUsdt)
    (by decide +kernel)
  simp only [Bool.and_eq_true, Option.any_eq_true] at hCheck
  obtain ⟨⟨o, ho, hAwaits⟩, o', ho', hAwaits'⟩ := hCheck
  have hStore : Store.empty.UniqueAmounts := fun id id' o o' ho => by cases ho
  refine ⟨m, hRun, o, o', ho, ho', hAwaits, hAwaits', fun hAmount => ?_⟩
  have hId := pending_amounts_unique (by decide) hStore hRun "o1" "o2" o o' ho ho' hAwaits hAwaits'
    hAmount
  exact absurd hId (by decide)

/-- Two tasks look at the pending orders before either has inserted its own. Both
find the plain price unused. -/
theorem pending_amounts_collide : ∃ m : Deployment String,
    (singleInstance (Sample.sharedDeps .memory)).Reaches
      (fun _ label => onlySpawns (fun r => r.createsOrder) label = true)
      (Deployment.start Store.empty 0) m ∧
    ∃ o o', m.world.order "o1" = some o ∧ m.world.order "o2" = some o' ∧ o.awaitsUsdt = true ∧
      o'.awaitsUsdt = true ∧ o.amount = o'.amount := by
  obtain ⟨m, hRun, hCheck⟩ := System.exists_reaches (singleInstance (Sample.sharedDeps .memory))
    (fun _ label => onlySpawns (fun r => r.createsOrder) label) (Deployment.start Store.empty 0)
    (Sample.allocates 0 ++ Sample.allocates 1 ++ Sample.inserts 0 "o1" "VPN1" ++
      Sample.inserts 1 "o2" "VPN2")
    (fun m => (m.world.order "o1").any fun o => (m.world.order "o2").any fun o' =>
      o.awaitsUsdt && (o'.awaitsUsdt && o.amount = o'.amount)) (by decide +kernel)
  simp only [Bool.and_eq_true, Option.any_eq_true, decide_eq_true_eq] at hCheck
  obtain ⟨o, ho, o', ho', hAwaits, hAwaits', hAmount⟩ := hCheck
  exact ⟨m, hRun, o, o', ho, ho', hAwaits, hAwaits', hAmount⟩

end VpnPayment
