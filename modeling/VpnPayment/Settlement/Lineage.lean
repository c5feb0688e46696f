import VpnPayment.Settlement.Origins

/-! What holds in every run of the system, without any condition on how tasks
interleave: an order keeps its terms from its insertion on, and no identifier is
used for two orders. -/
namespace VpnPayment

open Async Collections

theorem World.order_congr {w w' : World} (h : w'.store.orders = w.store.orders) (id : String) :
    w'.order id = w.order id := by
  rw [World.order, h, World.order]

section calls

variable {b : Backend} {i : Nat} {c : Call} {reply : Reply} {w w' : World}
  {answer : Except AppError (Ans c)}

/-- A call that writes no order leaves the orders. -/
theorem storeEffect_orders {effect : Store → Except AppError (Ans c × Store)} {a : Ans c}
    {clock : Int} {s s' : Store} (hEffect : storeEffect b clock c = some effect)
    (hCall : c.writesOrder = false) (hOk : effect s = .ok (a, s')) : s'.orders = s.orders := by
  cases c <;> simp only [storeEffect, Option.some.injEq, reduceCtorEq] at hEffect <;>
    subst hEffect <;> simp only [Call.writesOrder, Bool.true_eq_false] at hCall <;>
    try (cases hOk; rfl)
  all_goals
    obtain ⟨t, -, hEq⟩ := map_eq_ok_iff.mp hOk
    cases hEq
    rfl

/-- A call that writes no order leaves all of them alone. -/
theorem orders_of_exec (hCall : c.writesOrder = false)
    (hExec : exec b i c reply w = some (answer, w')) : w'.store.orders = w.store.orders := by
  cases hEffect : storeEffect b w.clock c with
  | none =>
      obtain ⟨e, -, rfl, -⟩ | ⟨a, -, -, rfl⟩ := exec_outside hExec hEffect
      · rfl
      · unfold noted
        split <;> rfl
  | some effect =>
      obtain ⟨e, -, rfl, -⟩ | ⟨a, s, hOk, rfl, -⟩ := exec_store hExec hEffect
      · rfl
      · exact storeEffect_orders hEffect hCall hOk

/-- What a call does to the orders, and what the trace says of it. -/
inductive OrderStep (b : Backend) (i : Nat) (w w' : World) :
    (c : Call) → Except AppError (Ans c) → Prop
  | same (c : Call) (answer : Except AppError (Ans c)) (applied : Bool)
      (trace : w'.trace = ⟨i, c, answer, applied⟩ :: w.trace)
      (orders : w'.store.orders = w.store.orders)
      (failed : ∀ o, c = .ordersCreate o → ∃ e, answer = .error e) : OrderStep b i w w' c answer
  | inserted (o : Order) (answer : Except AppError Order)
      (trace : w'.trace = ⟨i, .ordersCreate o, answer, true⟩ :: w.trace)
      (stored : w.store.orders.create b o = .ok w'.store.orders)
      (order : ∀ k, w'.order k = if o.id = k then some (OrderStore.created b o) else w.order k) :
      OrderStep b i w w' (.ordersCreate o) answer
  | rewritten (o row : Order) (answer : Except AppError Order)
      (trace : w'.trace = ⟨i, .ordersUpdate o, answer, true⟩ :: w.trace)
      (found : w.order o.id = some row)
      (stored : w.store.orders.update b o = .ok w'.store.orders)
      (order : ∀ k, w'.order k =
        if o.id = k then some (OrderStore.written b row o) else w.order k) :
      OrderStep b i w w' (.ordersUpdate o) answer

/-- What a call does to the orders. -/
theorem orderStep_of_exec (hExec : exec b i c reply w = some (answer, w')) :
    OrderStep b i w w' c answer := by
  by_cases hCall : c.writesOrder = false
  · obtain ⟨applied, hTrace⟩ := trace_of_exec hExec
    refine .same c answer applied hTrace (orders_of_exec hCall hExec) ?_
    rintro o rfl
    cases hCall
  cases c with
  | ordersCreate o =>
      obtain ⟨e, rfl, rfl, -⟩ | ⟨a, s, hOk, rfl, -⟩ := exec_store hExec rfl
      · exact .same _ _ false rfl rfl fun _ _ => ⟨e, rfl⟩
      · obtain ⟨t, ht, hEq⟩ := map_eq_ok_iff.mp hOk
        cases hEq
        refine .inserted o answer rfl ht fun k => ?_
        show t.byId.get? k = _
        rw [OrderStore.create_ok ht, Table.get?_put, OrderStore.created_id]
        rfl
  | ordersUpdate o =>
      obtain ⟨e, rfl, rfl, -⟩ | ⟨a, s, hOk, rfl, -⟩ := exec_store hExec rfl
      · exact .same _ _ false rfl rfl fun _ hEq => by cases hEq
      · obtain ⟨t, ht, hEq⟩ := map_eq_ok_iff.mp hOk
        cases hEq
        obtain ⟨row, hRow, hRows⟩ | ⟨hNone, rfl⟩ := OrderStore.update_cases ht
        · refine .rewritten o row answer rfl hRow ht fun k => ?_
          show t.byId.get? k = _
          rw [hRows, Table.get?_put, OrderStore.written_id (Table.key_of_get? hRow)]
          rfl
        · exact .same _ _ true rfl rfl fun _ hEq => by cases hEq
  | _ => exact absurd rfl hCall

/-- Only drawing an identifier adds to those in use. -/
theorem issued_of_exec (hExec : exec b i c reply w = some (answer, w')) :
    w'.issued = w.issued ∧ (∀ id, (⟨c, answer⟩ : Σ c : Call, Except AppError (Ans c)) ≠
      ⟨.uuid, .ok id⟩) ∨
    ∃ id, (⟨c, answer⟩ : Σ c : Call, Except AppError (Ans c)) = ⟨.uuid, .ok id⟩ ∧ w.Unused id ∧
      w'.issued = (i, id) :: w.issued := by
  by_cases hUuid : c = .uuid
  · subst hUuid
    obtain ⟨e, -, -, hMay, -⟩ | ⟨id, hAnswer, rfl, rfl⟩ := exec_outside hExec rfl
    · cases hMay
    · cases reply <;> simp only [outsideAnswer, reduceCtorEq] at hAnswer
      obtain ⟨hUnused, hEq⟩ := Option.ite_none_right_eq_some.mp hAnswer
      cases hEq
      exact .inr ⟨_, rfl, hUnused, rfl⟩
  · refine .inl ⟨?_, fun id hEq => hUuid (congrArg Sigma.fst hEq)⟩
    cases hEffect : storeEffect b w.clock c with
    | none =>
        obtain ⟨e, -, rfl, -⟩ | ⟨a, -, -, rfl⟩ := exec_outside hExec hEffect
        · rfl
        · show (noted i w c reply).issued = w.issued
          unfold noted
          split
          · exact absurd rfl hUuid
          · rfl
          · rfl
    | some effect =>
        obtain ⟨e, -, rfl, -⟩ | ⟨a, s, -, rfl, -⟩ := exec_store hExec hEffect
        · rfl
        · rfl

end calls
namespace OrderStore

variable {b : Backend} {row o : Order}

/-- An insertion keeps the terms. -/
theorem terms_created (hMerchant : o.merchantId.isSome) : (created b o).terms = o.terms := by
  cases b with
  | memory => rfl
  | sql =>
      obtain ⟨merchant, hSome⟩ := Option.isSome_iff_exists.mp hMerchant
      simp [created, SqlOrderRepository.toRow, Order.terms, Order.identity, hSome]

/-- So does an update. -/
theorem terms_written (h : row.terms = o.terms) : (written b row o).terms = row.terms := by
  cases b with
  | memory => exact h.symm
  | sql => exact Prod.ext rfl (congrArg Prod.snd h).symm

end OrderStore

namespace World

/-- Where identifiers come from, and what tasks know of stored orders. -/
structure Lineage (w : World) : Prop where
  issued : (w.issued.map Prod.snd).Nodup
  nonempty : ∀ entry ∈ w.issued, entry.2 ≠ ""
  drawn : ∀ i id, ⟨.uuid, .ok id⟩ ∈ w.past i → (i, id) ∈ w.issued
  absent : ∀ i id, ⟨.uuid, .ok id⟩ ∈ w.past i → (∀ h ∈ w.past i, ∀ o, h.1 ≠ .ordersCreate o) →
    w.order id = none
  saw : ∀ i o, Saw (w.past i) o → ∃ row, w.order o.id = some row ∧ row.terms = o.terms

/-- Before the first call, nothing has been read or drawn. -/
theorem lineage_start (store : Store) (clock : Int) : (World.start store clock).Lineage where
  issued := List.nodup_nil
  nonempty := nofun
  drawn i id hMem := by cases hMem
  absent i id hMem := by cases hMem
  saw i o hSaw := by rcases hSaw with hMem | ⟨answer, hMem⟩ <;> cases hMem

variable {deps : Deps} {w w' : World} {i : Nat} {c : Call} {answer : Except AppError (Ans c)}

theorem trace_of_step {b : Backend} (hStep : OrderStep b i w w' c answer) :
    ∃ applied, w'.trace = ⟨i, c, answer, applied⟩ :: w.trace := by
  cases hStep with
  | same c answer applied trace orders failed => exact ⟨applied, trace⟩
  | inserted o answer trace stored order => exact ⟨true, trace⟩
  | rewritten o row answer trace found stored order => exact ⟨true, trace⟩

/-- A step extends the past of its own task. -/
theorem past_of_step {b : Backend} (hStep : OrderStep b i w w' c answer) (j : Nat) :
    w'.past j = if i = j then ⟨c, answer⟩ :: w.past j else w.past j := by
  obtain ⟨applied, hTrace⟩ := trace_of_step hStep
  exact past_logged hTrace

theorem mem_past_of_step {b : Backend} (hStep : OrderStep b i w w' c answer) {j : Nat}
    {h : Σ c : Call, Except AppError (Ans c)} (hMem : h ∈ w'.past j) :
    h ∈ w.past j ∨ i = j ∧ h = ⟨c, answer⟩ := by
  rw [past_of_step hStep] at hMem
  split at hMem
  · next hSame => exact (List.mem_cons.mp hMem).symm.imp id fun hEq => ⟨hSame, hEq⟩
  · exact .inl hMem

/-- What a task is about to insert is not there yet. -/
theorem Lineage.new {o : Order} (hLineage : w.Lineage) (hInserts : Inserts deps (w.past i) o) :
    w.order o.id = none :=
  hLineage.absent i o.id hInserts.drawn hInserts.first

/-- What a task writes back has the terms of the stored order. -/
theorem Lineage.terms {o : Order} (hLineage : w.Lineage) (hOrigin : Origin (w.past i) o) :
    ∃ row, w.order o.id = some row ∧ row.terms = o.terms := by
  have hSame : ∀ {base : Order}, o.terms = base.terms → Saw (w.past i) base →
      ∃ row, w.order o.id = some row ∧ row.terms = o.terms := by
    intro base hTerms hSaw
    obtain ⟨row, hRow, hRowTerms⟩ := hLineage.saw i base hSaw
    have hId : o.id = base.id := Order.id_eq_of_terms hTerms
    exact ⟨row, hId ▸ hRow, hRowTerms.trans hTerms.symm⟩
  cases hOrigin with
  | settled fresh paid before path done payable status txn terms =>
      refine hSame terms (.inl (done.mem ?_))
      cases path <;> exact List.mem_cons_self
  | kept base saw txn terms status => exact hSame terms saw

/-- Stored orders stay, on the same terms. -/
theorem Lineage.kept (hLineage : w.Lineage) (hAdmits : Admits deps (w.past i) c)
    (hStep : OrderStep deps.backend i w w' c answer) {id : String} {o : Order}
    (ho : w.order id = some o) : ∃ o', w'.order id = some o' ∧ o'.terms = o.terms := by
  cases hStep with
  | same c answer applied trace orders failed =>
      exact ⟨o, (World.order_congr orders id).trans ho, rfl⟩
  | inserted new answer trace stored order =>
      have hNone := hLineage.new hAdmits
      have hNe : new.id ≠ id := by
        rintro rfl
        rw [hNone] at ho
        cases ho
      exact ⟨o, by rw [order, if_neg hNe, ho], rfl⟩
  | rewritten new row answer trace found stored order =>
      by_cases hId : new.id = id
      · subst hId
        obtain ⟨row', hRow', hTerms⟩ := hLineage.terms hAdmits
        obtain rfl := Option.some.inj (found.symm.trans hRow')
        obtain rfl := Option.some.inj (found.symm.trans ho)
        exact ⟨_, by rw [order, if_pos rfl], OrderStore.terms_written hTerms⟩
      · exact ⟨o, by rw [order, if_neg hId, ho], rfl⟩

/-- Where a stored order comes from: it was there, it has been inserted, or a row on
its terms has been rewritten. -/
theorem Lineage.row_of_step (hLineage : w.Lineage) (hAdmits : Admits deps (w.past i) c)
    (hStep : OrderStep deps.backend i w w' c answer) {id : String} {o : Order}
    (ho : w'.order id = some o) : w.order id = some o ∨
      (∃ new, c = .ordersCreate new ∧ new.id = id ∧ Inserts deps (w.past i) new ∧
        o = OrderStore.created deps.backend new ∧ o.terms = new.terms) ∨
      ∃ new row, c = .ordersUpdate new ∧ w.order id = some row ∧ Origin (w.past i) new ∧
        o = OrderStore.written deps.backend row new ∧ o.terms = row.terms ∧
        row.terms = new.terms := by
  cases hStep with
  | same c answer applied trace orders failed =>
      exact .inl ((World.order_congr orders id).symm.trans ho)
  | inserted new answer trace stored order =>
      rw [order] at ho
      split at ho
      · next hId =>
          have hInserts : Inserts deps (w.past i) new := hAdmits
          obtain rfl := Option.some.inj ho
          exact .inr (.inl ⟨new, rfl, hId, hInserts, rfl,
            OrderStore.terms_created hInserts.draft.merchant⟩)
      · exact .inl ho
  | rewritten new row answer trace found stored order =>
      rw [order] at ho
      split at ho
      · next hId =>
          obtain ⟨row', hRow', hTerms⟩ := hLineage.terms hAdmits
          obtain rfl := Option.some.inj (found.symm.trans hRow')
          obtain rfl := Option.some.inj ho
          exact .inr (.inr ⟨new, row, rfl, hId ▸ found, hAdmits, rfl,
            OrderStore.terms_written hTerms, hTerms⟩)
      · exact .inl ho

/-- Orders are in the currency of their method. -/
def Denominated (w : World) : Prop :=
  ∀ id o, w.order id = some o → o.method.currency = o.currency

/-- A step keeps the currency of every order that of its method. -/
theorem Denominated.step (hDenominated : w.Denominated) (hLineage : w.Lineage)
    (hAdmits : Admits deps (w.past i) c) (hStep : OrderStep deps.backend i w w' c answer) :
    w'.Denominated := by
  intro id o ho
  rcases hLineage.row_of_step hAdmits hStep ho with
    hOld | ⟨new, -, -, hInserts, -, hTerms⟩ | ⟨new, row, -, hRow, -, -, hTerms, -⟩
  · exact hDenominated id o hOld
  · rw [Order.method_eq_of_terms hTerms, Order.currency_eq_of_terms hTerms, hInserts.currency]
    cases new.method <;> rfl
  · rw [Order.method_eq_of_terms hTerms, Order.currency_eq_of_terms hTerms]
    exact hDenominated id row hRow

/-- What is not stored is stored next only if it is inserted. -/
theorem order_eq_none_of_step {b : Backend} (hStep : OrderStep b i w w' c answer) {id : String}
    (hNone : w.order id = none) (hNot : ∀ o, c = .ordersCreate o → o.id ≠ id) :
    w'.order id = none := by
  cases hStep with
  | same c answer applied trace orders failed => exact (World.order_congr orders id).trans hNone
  | inserted o answer trace stored order => rw [order, if_neg (hNot o rfl), hNone]
  | rewritten o row answer trace found stored order =>
      have hNe : o.id ≠ id := by
        rintro rfl
        rw [hNone] at found
        cases found
      rw [order, if_neg hNe, hNone]

/-- A call that is admitted keeps the lineage. -/
theorem Lineage.step {reply : Reply} (hLineage : w.Lineage) (hAdmits : Admits deps (w.past i) c)
    (hExec : exec deps.backend i c reply w = some (answer, w')) : w'.Lineage := by
  have hStep := orderStep_of_exec hExec
  have hIssued := issued_of_exec hExec
  refine ⟨?_, ?_, fun j id hMem => ?_, fun j id hMem hFirst => ?_, fun j o hSaw => ?_⟩
  · obtain ⟨hSame, -⟩ | ⟨id, -, hUnused, hDrawn⟩ := hIssued
    · rw [hSame]
      exact hLineage.issued
    · rw [hDrawn, List.map_cons, List.nodup_cons]
      refine ⟨fun hMem => ?_, hLineage.issued⟩
      obtain ⟨entry, hEntry, hEq⟩ := List.mem_map.mp hMem
      exact hUnused.1 entry hEntry hEq
  · obtain ⟨hSame, -⟩ | ⟨id, -, hUnused, hDrawn⟩ := hIssued
    · rw [hSame]
      exact hLineage.nonempty
    · rw [hDrawn, List.forall_mem_cons]
      exact ⟨hUnused.2.2.2.2, hLineage.nonempty⟩
  · obtain hOld | ⟨rfl, hNew⟩ := mem_past_of_step hStep hMem
    · have hDrawn := hLineage.drawn j id hOld
      obtain ⟨hSame, -⟩ | ⟨_, -, -, hMore⟩ := hIssued
      · exact hSame ▸ hDrawn
      · rw [hMore]
        exact List.mem_cons_of_mem _ hDrawn
    · obtain ⟨-, hNot⟩ | ⟨id', hCall, -, hMore⟩ := hIssued
      · exact absurd hNew.symm (hNot id)
      · cases hNew.trans hCall
        rw [hMore]
        exact List.mem_cons_self
  · obtain hOld | ⟨rfl, hNew⟩ := mem_past_of_step hStep hMem
    · have hBefore : ∀ h ∈ w.past j, ∀ o, h.1 ≠ .ordersCreate o := fun h hMem' => by
        refine hFirst h ?_
        rw [past_of_step hStep]
        split
        · exact List.mem_cons_of_mem _ hMem'
        · exact hMem'
      refine order_eq_none_of_step hStep (hLineage.absent j id hOld hBefore) ?_
      rintro o rfl rfl
      -- the inserting task has drawn the identifier, and nobody else can have
      have hMine := hLineage.drawn i o.id (Inserts.drawn hAdmits)
      have hTheirs := hLineage.drawn j o.id hOld
      obtain rfl : i = j := by
        have hEq := List.inj_on_of_nodup_map hLineage.issued hMine hTheirs rfl
        exact congrArg Prod.fst hEq
      refine hFirst ⟨.ordersCreate o, answer⟩ ?_ o rfl
      rw [past_of_step hStep, if_pos rfl]
      exact List.mem_cons_self
    · obtain ⟨-, hNot⟩ | ⟨id', hCall, hUnused, -⟩ := hIssued
      · exact absurd hNew.symm (hNot id)
      · cases hNew.trans hCall
        refine order_eq_none_of_step hStep hUnused.2.1 fun o hEq => ?_
        have hUuid := congrArg Sigma.fst hNew
        exact nomatch hUuid.trans hEq
  · have hKept : ∀ {row : Order}, w.order o.id = some row → row.terms = o.terms →
        ∃ row', w'.order o.id = some row' ∧ row'.terms = o.terms := by
      intro row hRow hTerms
      obtain ⟨row', hRow', hSame⟩ := hLineage.kept hAdmits hStep hRow
      exact ⟨row', hRow', hSame.trans hTerms⟩
    rcases hSaw with hMem | ⟨created, hMem⟩
    · obtain hOld | ⟨rfl, hNew⟩ := mem_past_of_step hStep hMem
      · obtain ⟨row, hRow, hTerms⟩ := hLineage.saw j o (.inl hOld)
        exact hKept hRow hTerms
      · cases hNew
        have hFound : some o = w'.order o.id := exec_answers hExec
        exact ⟨o, hFound.symm, rfl⟩
    · obtain hOld | ⟨rfl, hNew⟩ := mem_past_of_step hStep hMem
      · obtain ⟨row, hRow, hTerms⟩ := hLineage.saw j o (.inr ⟨created, hOld⟩)
        exact hKept hRow hTerms
      · cases hNew
        cases hStep with
        | same c answer applied trace orders failed =>
            obtain ⟨e, hError⟩ := failed o rfl
            cases hError
        | inserted o answer trace stored order =>
            exact ⟨_, by rw [order, if_pos rfl], OrderStore.terms_created hAdmits.draft.merchant⟩

end World

section runs

variable {Instance Key : Type} {locker : Instance → String → Key} {deps : Deps}
  {allowed : Deployment Key → Label Reply (Instance × Request) → Prop}
  {m m' : Deployment Key} {label : Label Reply (Instance × Request)} {store : Store} {clock : Int}

/-- What is known in every state of every run. -/
structure Tracked (locker : Instance → String → Key) (deps : Deps) (m : Deployment Key) : Prop where
  following : Following (recording locker deps) Possible (Admits deps) (fun _ _ => True) m
  lineage : m.world.Lineage

theorem tracked_start : Tracked locker deps (Deployment.start store clock) where
  following := following_start fun _ => rfl
  lineage := World.lineage_start store clock

theorem Tracked.admits {i : Nat} {c : Call} (hTracked : Tracked locker deps m)
    (hCall : m.nextCall i = some c) : Admits deps (m.world.past i) c :=
  hTracked.following.nextCall hCall

/-- A step keeps the machine tracked. -/
theorem Tracked.step [DecidableEq Key] (hTracked : Tracked locker deps m)
    (hStep : (system locker deps).step m label = some m') : Tracked locker deps m' where
  following := hTracked.following.step (fun request _ => Prog.follows_mono (fun _ _ => id)
    (fun _ _ _ => trivial) (traced_serve (locker request.1) request.2)) (fun _ _ _ _ _ _ _ hExec => possible_of_exec hExec) hStep
  lineage := by
    obtain hSame | ⟨i, reply, c, answer, -, hCall, hExec⟩ := System.world_of_step hStep
    · rw [hSame]
      exact hTracked.lineage
    · exact hTracked.lineage.step (hTracked.admits hCall) hExec

/-- What one step of the system does to the orders. -/
theorem Tracked.orderStep [DecidableEq Key] (hTracked : Tracked locker deps m)
    (hStep : (system locker deps).step m label = some m') : m'.world = m.world ∨
      ∃ i reply c answer, label = .step i reply ∧ m.nextCall i = some c ∧
        Admits deps (m.world.past i) c ∧ exec deps.backend i c reply m.world = some (answer, m'.world) ∧
        OrderStep deps.backend i m.world m'.world c answer := by
  obtain hSame | ⟨i, reply, c, answer, hLabel, hCall, hExec⟩ := System.world_of_step hStep
  · exact .inl hSame
  · exact .inr ⟨i, reply, c, answer, hLabel, hCall, hTracked.admits hCall, hExec,
      orderStep_of_exec hExec⟩

end runs
end VpnPayment
