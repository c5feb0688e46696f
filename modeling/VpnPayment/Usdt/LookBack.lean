import VpnPayment.Usdt.Transfers

/-! A deposit to the shared address and the orders that were open when it was made.
Polling looks back to before an order was created, and by then its amount may have
been the amount of another order. -/
namespace VpnPayment

open Async Collections
open UsdtTronProvider (Fits)

variable {Instance Key : Type} {locker : Instance → String → Key} {deps : Deps} {cfg : UsdtConfig}

/-- An amount is given out again only when the windows of its earlier orders closed
before the time that polling looks back to. -/
def reusesLate (m : Deployment Key) : Label Reply (Instance × Request) → Bool
  | .spawn _ => true
  | .step i _ => match m.nextCall i with
      | some (.ordersCreate o) => o.method ≠ .usdt || m.world.store.orders.byId.rows.all fun row =>
          row.method ≠ .usdt || row.amount ≠ o.amount || row.expiresAt < o.earliest
      | _ => true

namespace World

/-- Of two USDT orders of one amount the later one looks back to a time when the
other was closed. -/
def WindowsApart (w : World) : Prop :=
  ∀ a b, w.order a.id = some a → w.order b.id = some b → a.method = .usdt → b.method = .usdt →
    a.id ≠ b.id → a.amount = b.amount → a.expiresAt < b.earliest ∨ b.expiresAt < a.earliest

/-- Every order is open for the same time. -/
def Windowed (deps : Deps) (w : World) : Prop :=
  ∀ id o, w.order id = some o → o.expiresAt = o.createdAt + deps.orderTtlMinutes * 60000

section steps

variable {w w' : World} {i : Nat} {c : Call} {answer : Except AppError (Ans c)}

/-- A stored order is there on the same terms before the step, or it is inserted. -/
theorem Lineage.row_or_new (hLineage : w.Lineage) (hAdmits : Admits deps (w.past i) c)
    (hStep : OrderStep deps.backend i w w' c answer) {o : Order} (ho : w'.order o.id = some o) :
    (∃ row, w.order row.id = some row ∧ row.terms = o.terms) ∨
    ∃ new, c = .ordersCreate new ∧ Inserts deps (w.past i) new ∧ new.terms = o.terms := by
  rcases hLineage.row_of_step hAdmits hStep ho with
    hOld | ⟨new, hCall, -, hInserts, -, hTerms⟩ | ⟨new, row, -, hRow, -, -, hTerms, -⟩
  · exact .inl ⟨o, hOld, rfl⟩
  · exact .inr ⟨new, hCall, hInserts, hTerms.symm⟩
  · exact .inl ⟨row, by rw [Order.id_eq_of_terms hTerms.symm, hRow], hTerms.symm⟩

theorem Windowed.step (hWindowed : w.Windowed deps) (hLineage : w.Lineage)
    (hAdmits : Admits deps (w.past i) c) (hStep : OrderStep deps.backend i w w' c answer) :
    w'.Windowed deps := by
  intro id o ho
  have hId := World.id_of_order ho
  rcases hLineage.row_or_new hAdmits hStep (hId ▸ ho) with
    ⟨row, hRow, hTerms⟩ | ⟨new, -, hInserts, hTerms⟩
  all_goals rw [← Order.expiresAt_eq_of_terms hTerms, ← Order.createdAt_eq_of_terms hTerms]
  · exact hWindowed row.id row hRow
  · exact hInserts.window

theorem WindowsApart.step (hApart : w.WindowsApart) (hLineage : w.Lineage) (hAdmits : Admits deps (w.past i) c)
    (hLate : ∀ new row, c = .ordersCreate new → new.method = .usdt → w.order row.id = some row →
      row.method = .usdt → row.amount = new.amount → row.expiresAt < new.earliest)
    (hStep : OrderStep deps.backend i w w' c answer) : w'.WindowsApart := by
  intro a b ha hb hUsdtA hUsdtB hNe hAmount
  have hEarliest : ∀ {x y : Order}, x.terms = y.terms → x.earliest = y.earliest := fun hTerms => by
    rw [Order.earliest, Order.earliest, Order.createdAt_eq_of_terms hTerms]
  rcases hLineage.row_or_new hAdmits hStep ha with ⟨rowA, hRowA, hA⟩ | ⟨newA, hCallA, -, hA⟩ <;>
    rcases hLineage.row_or_new hAdmits hStep hb with ⟨rowB, hRowB, hB⟩ | ⟨newB, hCallB, -, hB⟩ <;>
    rw [← Order.method_eq_of_terms hA] at hUsdtA <;>
    rw [← Order.method_eq_of_terms hB] at hUsdtB <;>
    rw [← Order.amount_eq_of_terms hA, ← Order.amount_eq_of_terms hB] at hAmount <;>
    rw [← Order.expiresAt_eq_of_terms hA, ← Order.expiresAt_eq_of_terms hB, ← hEarliest hA,
      ← hEarliest hB]
  · refine hApart rowA rowB hRowA hRowB hUsdtA hUsdtB ?_ hAmount
    rwa [Order.id_eq_of_terms hA, Order.id_eq_of_terms hB]
  · exact .inl (hLate newB rowA hCallB hUsdtB hRowA hUsdtA hAmount)
  · exact .inr (hLate newA rowB hCallA hUsdtA hRowB hUsdtB hAmount.symm)
  · cases hCallA.symm.trans hCallB
    exact absurd (Order.id_eq_of_terms (hA.symm.trans hB)) hNe

end steps
end World

/-- What was settled is stored. -/
theorem SettledBy.stored {w : World} {o : Order} {t : Trc20Transfer} (hLineage : w.Lineage)
    (h : SettledBy cfg w.trace o t) :
    ∃ row, w.order row.id = some row ∧ row.terms = o.terms ∧ row.method = .usdt := by
  obtain ⟨fresh, asked, transfers, later, earlier, e, split, read, path, found, pending, terms, -⟩ := h
  have hMem : (⟨e.call, e.answer⟩ : Σ c : Call, Except AppError (Ans c)) ∈ w.past e.task := by
    refine List.mem_map_of_mem (List.mem_filter.mpr ⟨?_, by simp⟩)
    rw [split]
    exact List.mem_append_right later List.mem_cons_self
  rw [read] at hMem
  obtain ⟨row, hRow, hTerms⟩ := hLineage.saw e.task fresh (.inl hMem)
  have hUsdt : fresh.method = .usdt := by
    simp only [Order.awaitsUsdt, Bool.and_eq_true, decide_eq_true_eq] at pending
    exact pending.1
  exact ⟨row, by rw [World.id_of_order hRow, hRow], hTerms.trans terms,
    (Order.method_eq_of_terms hTerms).trans hUsdt⟩

/-- As long as an amount is given out late enough, no deposit made while an order of
its amount was open settles an order that was created only afterwards. -/
theorem no_foreign_deposit [DecidableEq Key] {clock : Int} {m : Deployment Key}
    (hShared : cfg.addressMode = .shared)
    (hRun : (system locker deps).Reaches (fun m label => reusesLate m label = true)
      (Deployment.start Store.empty clock) m) {t : Trc20Transfer} {b : Order}
    (hSettled : SettledBy cfg m.world.trace b t) :
    ¬∃ a, m.world.order a.id = some a ∧ a.id ≠ b.id ∧ a.method = .usdt ∧ a.amount = t.valueMicro ∧
      a.createdAt ≤ t.timestampMs ∧ t.timestampMs ≤ a.expiresAt ∧ t.timestampMs < b.createdAt := by
  have hStart : Tracked locker deps (Deployment.start Store.empty clock) ∧
      (World.start Store.empty clock).WindowsApart ∧ (World.start Store.empty clock).Windowed deps := by
    refine ⟨tracked_start, fun a b ha => ?_, fun id o ho => ?_⟩
    · cases ha
    · cases ho
  obtain ⟨hTracked, hApart, hWindowed⟩ := hRun.invariant (P := fun m => Tracked locker deps m ∧
    m.world.WindowsApart ∧ m.world.Windowed deps) (by
      rintro m label m' hLate hStep ⟨hTracked, hApart, hWindowed⟩
      refine ⟨hTracked.step hStep, ?_⟩
      obtain hSame | ⟨i, reply, c, answer, rfl, hCall, hAdmits, -, hOrders⟩ := hTracked.orderStep hStep
      · rw [hSame]
        exact ⟨hApart, hWindowed⟩
      · refine ⟨hApart.step hTracked.lineage hAdmits ?_ hOrders,
          hWindowed.step hTracked.lineage hAdmits hOrders⟩
        rintro new row rfl hUsdt hRow hRowUsdt hAmount
        simp only [reusesLate, hCall, hUsdt, ne_eq, not_true_eq_false, decide_false, Bool.false_or,
          List.all_eq_true] at hLate
        simpa [hRowUsdt, hAmount] using hLate row (Table.mem_of_get? hRow)) hStart
  rintro ⟨a, ha, hNe, hUsdt, hAmount, hOpened, hOpen, hLater⟩
  obtain ⟨row, hRow, hTerms, hRowUsdt⟩ := hSettled.stored hTracked.lineage
  have hFits := hSettled.fits
  have hValue : t.valueMicro = b.amount := by
    have hValue := hFits.value
    rwa [if_neg (by simp [UsdtTronProvider.perOrder, hShared])] at hValue
  have hInTime : b.createdAt - 5 * 60000 ≤ t.timestampMs := hFits.inTime
  have hCreated := Order.createdAt_eq_of_terms hTerms
  have hWindowA := hWindowed a.id a ha
  have hWindowB := hWindowed row.id row hRow
  have hIds : a.id ≠ row.id := by rwa [Order.id_eq_of_terms hTerms]
  have hSame : a.amount = row.amount := by rw [hAmount, hValue, Order.amount_eq_of_terms hTerms]
  rcases hApart a row ha hRow hUsdt hRowUsdt hIds hSame with hBefore | hAfter
  · -- the other order was closed before polling looks back to
    rw [Order.earliest, hCreated] at hBefore
    omega
  · -- the other order was created after this one had been closed
    rw [Order.earliest] at hAfter
    omega

namespace Sample

/-- The stored order with the deposit's transaction was settled by it. -/
theorem settledBy_deposit {m : Deployment String} {txId : String} {timestampMs : Int} {o : Order}
    (hRun : (singleInstance (sharedDeps .memory)).Reaches
      (fun m label => keepsRecord (deposit txId timestampMs) m label = true)
      (Deployment.start Store.empty 0) m) (ho : m.world.order o.id = some o)
    (hUsdt : o.method = .usdt) (hTxn : o.providerTxnId = some txId) :
    SettledBy usdtConfig m.world.trace o (deposit txId timestampMs) := by
  have hTransfers := transfers_of_reaches (hRun.mono fun _ _ _ hAllowed _ =>
    allowed_of_keepsRecord hAllowed)
  obtain ⟨t, rfl, -, hSettled⟩ := hTransfers.stored o.id o ho hUsdt txId hTxn
  exact hSettled

end Sample

/-- Two orders are open, and the deposit settles the one whose amount it has. -/
theorem no_foreign_deposit_sample : ∃ m : Deployment String,
    (singleInstance (Sample.sharedDeps .memory)).Reaches (fun m label => reusesLate m label = true)
      (Deployment.start Store.empty 0) m ∧
    ∃ b, m.world.order "o1" = some b ∧
      SettledBy Sample.usdtConfig m.world.trace b (Sample.deposit "tx1" 0) ∧
      ¬∃ a, m.world.order a.id = some a ∧ a.id ≠ b.id ∧ a.method = .usdt ∧ a.amount = 2000000 ∧
        a.createdAt ≤ 0 ∧ 0 ≤ a.expiresAt ∧ 0 < b.createdAt := by
  obtain ⟨m, hRun, hCheck⟩ := System.exists_reaches (singleInstance (Sample.sharedDeps .memory))
    (fun m label => Sample.keepsRecord (Sample.deposit "tx1" 0) m label && reusesLate m label)
    (Deployment.start Store.empty 0)
    (Sample.ordersUsdt 0 "o1" "VPN1" ++ Sample.ordersUsdt 1 "o2" "VPN2" ++
      Sample.polls 2 "o1" "tx1" "s1")
    (fun m => (m.world.order "o1").any fun o => o.method = .usdt && o.providerTxnId = some "tx1")
    (by decide +kernel)
  simp only [Option.any_eq_true, Bool.and_eq_true, decide_eq_true_eq] at hCheck
  obtain ⟨b, hb, hUsdt, hTxn⟩ := hCheck
  have hId : b.id = "o1" := World.id_of_order hb
  have hSettled := Sample.settledBy_deposit
    (hRun.mono fun _ _ _ hAllowed _ => (Bool.and_eq_true_iff.mp hAllowed).1) (hId ▸ hb) hUsdt hTxn
  have hLate := hRun.mono fun _ _ _ hAllowed _ => (Bool.and_eq_true_iff.mp hAllowed).2
  exact ⟨m, hLate, b, hb, hSettled, no_foreign_deposit rfl hLate hSettled⟩

/-- The first order is expired, and its amount is given out again at once. A deposit
made a second before the first order's window closed settles the second order. -/
theorem deposit_of_expired_order : ∃ m : Deployment String,
    (singleInstance (Sample.sharedDeps .memory)).Reaches (fun m label =>
      polled Sample.usdtConfig (· = Sample.deposit "tx1" 1799000) m label)
      (Deployment.start Store.empty 0) m ∧
    ∃ a b, m.world.order "o1" = some a ∧ m.world.order "o2" = some b ∧
      SettledBy Sample.usdtConfig m.world.trace b (Sample.deposit "tx1" 1799000) ∧
      a.method = .usdt ∧ a.amount = 2000000 ∧ a.createdAt ≤ 1799000 ∧ 1799000 ≤ a.expiresAt ∧
      1799000 < b.createdAt := by
  obtain ⟨m, hRun, hCheck⟩ := System.exists_reaches (singleInstance (Sample.sharedDeps .memory))
    (Sample.keepsRecord (Sample.deposit "tx1" 1799000)) (Deployment.start Store.empty 0)
    (Sample.ordersUsdt 0 "o1" "VPN1" ++ Sample.waits 1 1800000 ++
      [.spawn ((), .expireStaleOrders)] ++ Sample.steps 2 7 ++ Sample.ordersUsdt 3 "o2" "VPN2" ++
      Sample.polls 4 "o2" "tx1" "s2")
    (fun m => (m.world.order "o1").any fun a => (m.world.order "o2").any fun b =>
      b.method = .usdt && b.providerTxnId = some "tx1" && (a.method = .usdt && a.amount = 2000000 &&
        a.createdAt ≤ 1799000 && 1799000 ≤ a.expiresAt && 1799000 < b.createdAt))
    (by decide +kernel)
  simp only [Option.any_eq_true, Bool.and_eq_true, decide_eq_true_eq] at hCheck
  obtain ⟨a, ha, b, hb, ⟨hUsdt, hTxn⟩, ⟨⟨⟨hUsdtA, hAmount⟩, hOpened⟩, hOpen⟩, hLater⟩ := hCheck
  have hId : b.id = "o2" := World.id_of_order hb
  have hSettled := Sample.settledBy_deposit hRun (hId ▸ hb) hUsdt hTxn
  exact ⟨m, hRun.mono fun _ _ _ hAllowed _ => (Sample.allowed_of_keepsRecord hAllowed).1, a, b, ha,
    hb, hSettled, hUsdtA, hAmount, hOpened, hOpen, hLater⟩

end VpnPayment
