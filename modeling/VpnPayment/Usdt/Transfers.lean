import VpnPayment.Providers.UsdtTron
import VpnPayment.Usdt.UniqueAmounts

/-! Which transfer has settled an order, read off the trace. -/
namespace VpnPayment

open Async Collections
open UsdtTronProvider (Fits matched)

variable {Instance Key : Type} {locker : Instance → String → Key} {deps : Deps} {cfg : UsdtConfig}
  {chain : Trc20Transfer → Prop}

/-- What the payment providers can answer: a USDT order is queried on the chain, and
notifications are in CNY. -/
def polled (cfg : UsdtConfig) (chain : Trc20Transfer → Prop) (m : Deployment Key) :
    Label Reply (Instance × Request) → Prop
  | .step _ (.callback result) => result.currency = .CNY
  | .step i (.query q) => ∀ order : Order, m.nextCall i = some (.queryPayment order) →
      order.method = .usdt → ∃ transfers : List Trc20Transfer, (∀ t ∈ transfers, chain t) ∧
        q = UsdtTronProvider.queryPayment cfg order transfers
  | _ => True

/-- The same, of a settled call. -/
def Honest (cfg : UsdtConfig) (chain : Trc20Transfer → Prop) :
    (Σ c : Call, Except AppError (Ans c)) → Prop
  | ⟨.verifyCallback _ _, .ok result⟩ => result.currency = .CNY
  | ⟨.queryPayment order, .ok q⟩ => order.method = .usdt →
      ∃ transfers : List Trc20Transfer, (∀ t ∈ transfers, chain t) ∧
        q = UsdtTronProvider.queryPayment cfg order transfers
  | _ => True

/-- The order `o` was settled by the transfer `t`: a poll of the order found it, its
id was claimed, and the order was still PENDING under its lock. -/
inductive SettledBy (cfg : UsdtConfig) (trace : List Event) (o : Order) (t : Trc20Transfer) : Prop
  | poll (fresh asked : Order) (transfers : List Trc20Transfer) (later earlier : List Event)
      (e : Event) (split : trace = later ++ e :: earlier)
      (read : (⟨e.call, e.answer⟩ : Σ c : Call, Except AppError (Ans c)) =
        ⟨.ordersFindById fresh.id, .ok (some fresh)⟩)
      (path : pastOf e.task earlier = [⟨.markIfNew (claimKey .usdt t.txId), .ok true⟩,
        ⟨.queryPayment asked, .ok (UsdtTronProvider.queryPayment cfg asked transfers)⟩,
        ⟨.ordersFindById asked.id, .ok (some asked)⟩])
      (found : matched cfg asked transfers = some t) (pending : fresh.awaitsUsdt = true)
      (terms : fresh.terms = o.terms) (asked_terms : asked.terms = o.terms)
      (txn : o.providerTxnId = some t.txId)

/-- How often the id of a transfer was claimed. -/
def claims (txId : String) (trace : List Event) : Nat :=
  trace.countP fun e => match e.call, e.answer with
    | .markIfNew key, .ok true => key = claimKey .usdt txId
    | _, _ => false

/-- The dedupe record of a transfer was swept: it has been claimed and is not there
any more, or has been claimed anew. -/
def World.swept (w : World) (txId : String) : Prop :=
  (claims txId w.trace = 1 ∧ w.store.processed.has (claimKey .usdt txId) = false) ∨
    2 ≤ claims txId w.trace

instance (w : World) (txId : String) : Decidable (w.swept txId) :=
  inferInstanceAs (Decidable (_ ∨ _))

/-- The order that a settled call has read or written. -/
def handled : (Σ c : Call, Except AppError (Ans c)) → Option Order
  | ⟨.ordersCreate o, _⟩ => some o
  | ⟨.ordersUpdate o, _⟩ => some o
  | ⟨.ordersFindById _, .ok found⟩ => found
  | _ => none

section settled

variable {trace : List Event} {o o' : Order} {t t' : Trc20Transfer}

theorem SettledBy.cons (h : SettledBy cfg trace o t) (newest : Event) :
    SettledBy cfg (newest :: trace) o t := by
  obtain ⟨fresh, asked, transfers, later, earlier, e, rfl, read, path, found, pending, terms,
    asked_terms, txn⟩ := h
  exact .poll fresh asked transfers (newest :: later) earlier e rfl read path found pending terms
    asked_terms txn

theorem SettledBy.of_terms (h : SettledBy cfg trace o t) (hTerms : o.terms = o'.terms)
    (hTxn : o'.providerTxnId = o.providerTxnId) : SettledBy cfg trace o' t := by
  obtain ⟨fresh, asked, transfers, later, earlier, e, split, read, path, found, pending, terms,
    asked_terms, txn⟩ := h
  exact .poll fresh asked transfers later earlier e split read path found pending
    (terms.trans hTerms) (asked_terms.trans hTerms) (hTxn.trans txn)

theorem fits_of_terms (h : Fits cfg o t) (hTerms : o.terms = o'.terms) :
    Fits cfg o' t :=
  UsdtTronProvider.Fits.of_terms h (Order.createdAt_eq_of_terms hTerms)
    (Order.amount_eq_of_terms hTerms) (congrArg Prod.snd hTerms)

/-- What settled an order fits it. -/
theorem SettledBy.fits (h : SettledBy cfg trace o t) : Fits cfg o t := by
  obtain ⟨fresh, asked, transfers, later, earlier, e, split, read, path, found, pending, terms,
    asked_terms, txn⟩ := h
  exact fits_of_terms (UsdtTronProvider.matched_eq_some found).2 asked_terms

end settled

/-- The payment of an order is one from the chain. -/
def Grounded (cfg : UsdtConfig) (chain : Trc20Transfer → Prop) (trace : List Event) (o : Order) :
    Prop :=
  o.method = .usdt → ∀ txId, o.providerTxnId = some txId →
    ∃ t, chain t ∧ t.txId = txId ∧ SettledBy cfg trace o t

/-- What holds as long as dedupe records are kept while they are needed. -/
structure World.Transfers (cfg : UsdtConfig) (chain : Trc20Transfer → Prop) (w : World) : Prop where
  denominated : w.Denominated
  honest : ∀ e ∈ w.trace, Honest cfg chain ⟨e.call, e.answer⟩
  claimed : ∀ later e earlier fresh, w.trace = later ++ e :: earlier →
    (⟨e.call, e.answer⟩ : Σ c : Call, Except AppError (Ans c)) =
      ⟨.ordersFindById fresh.id, .ok (some fresh)⟩ → fresh.awaitsUsdt = true →
    ∀ t, chain t → Fits cfg fresh t → claims t.txId earlier ≤ 1
  handled : ∀ e ∈ w.trace, ∀ o, handled ⟨e.call, e.answer⟩ = some o → Grounded cfg chain w.trace o
  stored : ∀ id o, w.order id = some o → Grounded cfg chain w.trace o

theorem Grounded.cons {trace : List Event} {o : Order} (h : Grounded cfg chain trace o)
    (newest : Event) : Grounded cfg chain (newest :: trace) o := by
  intro hUsdt txId hTxn
  obtain ⟨t, hChain, hId, hSettled⟩ := h hUsdt txId hTxn
  exact ⟨t, hChain, hId, hSettled.cons newest⟩

theorem Grounded.of_terms {trace : List Event} {o o' : Order} (h : Grounded cfg chain trace o)
    (hTerms : o.terms = o'.terms) (hTxn : o'.providerTxnId = o.providerTxnId) :
    Grounded cfg chain trace o' := by
  intro hUsdt txId hSome
  obtain ⟨t, hChain, hId, hSettled⟩ :=
    h ((Order.method_eq_of_terms hTerms).trans hUsdt) txId (hTxn.symm.trans hSome)
  exact ⟨t, hChain, hId, hSettled.of_terms hTerms hTxn⟩

section steps

variable {w w' : World} {i : Nat} {c : Call} {reply : Reply} {answer : Except AppError (Ans c)}

/-- A settlement read off the task's own history. -/
theorem settledBy_of_origin {fresh : Order} {paid : PaidReport} {before : Past} {o : Order}
    (hTransfers : w.Transfers cfg chain) (hLineage : w.Lineage) (hUsdt : o.method = .usdt)
    (path : Settles fresh paid before) (done : before <:+ w.past i) (payable : Payable fresh paid)
    (txn : o.providerTxnId = some paid.providerTxnId) (terms : o.terms = fresh.terms) :
    ∃ t, chain t ∧ t.txId = paid.providerTxnId ∧ SettledBy cfg w.trace o t := by
  have hSaw : ∀ {x : Order}, ⟨.ordersFindById x.id, .ok (some x)⟩ ∈ before →
      ∃ row, w.order x.id = some row ∧ row.terms = x.terms := fun hMem =>
    hLineage.saw i _ (.inl (done.mem hMem))
  have hMethod : fresh.method = .usdt := (Order.method_eq_of_terms terms).symm.trans hUsdt
  obtain ⟨newer, hPast⟩ := done
  cases path with
  | callback method raw result found isPaid same =>
      -- notifications are in CNY, the order is in USDT
      obtain ⟨row, hRow, hTerms⟩ := hSaw (x := fresh) List.mem_cons_self
      obtain ⟨e, hMem, hEvent⟩ := World.exists_of_mem_past (i := i)
        (h := ⟨.verifyCallback method raw, .ok result⟩) (by rw [← hPast]; simp)
      have hHonest := hTransfers.honest e hMem
      rw [hEvent] at hHonest
      have hCny : result.currency = .CNY := hHonest
      have hFresh : fresh.currency = .USDT := by
        have hCurrency := hTransfers.denominated fresh.id row hRow
        rw [Order.method_eq_of_terms hTerms, Order.currency_eq_of_terms hTerms, hMethod] at hCurrency
        exact hCurrency.symm
      have hEq : result.currency = fresh.currency := payable.currency
      rw [hCny, hFresh] at hEq
      cases hEq
  | query asked q providerTxnId isPaid truthyTxn same =>
      obtain ⟨row, hRow, hTerms⟩ := hSaw (x := fresh) List.mem_cons_self
      obtain ⟨row', hRow', hTerms'⟩ := hSaw (x := asked) (by simp)
      rw [same, hRow] at hRow'
      obtain rfl := Option.some.inj hRow'
      have hAsked : asked.terms = o.terms := hTerms'.symm.trans (hTerms.trans terms.symm)
      have hAskedUsdt : asked.method = .usdt := (Order.method_eq_of_terms hAsked).trans hUsdt
      obtain ⟨e, hMem, hEvent⟩ := World.exists_of_mem_past (i := i)
        (h := ⟨.queryPayment asked, .ok q⟩) (by rw [← hPast]; simp)
      have hHonest := hTransfers.honest e hMem
      rw [hEvent] at hHonest
      obtain ⟨transfers, hChain, rfl⟩ := hHonest hAskedUsdt
      obtain ⟨t, hFound, hQuery⟩ := UsdtTronProvider.queryPayment_paid isPaid
      have hId : t.txId = providerTxnId := by
        rw [hQuery] at truthyTxn
        exact Option.some.inj (Option.filter_eq_some_iff.mp truthyTxn).1
      subst hId
      refine ⟨t, hChain t (UsdtTronProvider.matched_eq_some hFound).1, rfl, ?_⟩
      obtain ⟨later, e', earlier, hTrace, rfl, hHead, -, hEarlier⟩ := exists_of_pastOf hPast.symm
      rw [hAskedUsdt] at hEarlier
      refine .poll fresh asked transfers later earlier e' hTrace hHead hEarlier hFound ?_ terms.symm
        hAsked txn
      simp [Order.awaitsUsdt, hMethod, payable.pending]

/-- What a task writes back is paid by a transfer, or is not paid yet. -/
theorem grounded_of_admits (hTransfers : w.Transfers cfg chain) (hLineage : w.Lineage) {o : Order}
    (hOrigin : Origin (w.past i) o) : Grounded cfg chain w.trace o := by
  cases hOrigin with
  | settled fresh paid before path done payable status txn terms =>
      intro hUsdt txId hTxn
      obtain rfl := Option.some.inj (txn.symm.trans hTxn)
      exact settledBy_of_origin hTransfers hLineage hUsdt path done payable txn terms
  | kept base saw txn terms status =>
      have hBase : Grounded cfg chain w.trace base := by
        rcases saw with hMem | ⟨answer, hMem⟩
        all_goals
          obtain ⟨e, hEvent, hHead⟩ := World.exists_of_mem_past hMem
          exact hTransfers.handled e hEvent base (by rw [hHead]; rfl)
      exact hBase.of_terms terms.symm txn

theorem grounded_of_inserts {o : Order} {trace : List Event} (hInserts : Inserts deps (w.past i) o) :
    Grounded cfg chain trace o := by
  intro _ txId hTxn
  rw [hInserts.draft.noTxn] at hTxn
  cases hTxn

theorem honest_of_exec {b : Backend} {m : Deployment Key}
    (hPolled : polled cfg chain m (.step i reply : Label Reply (Instance × Request)))
    (hCall : m.nextCall i = some c) (hExec : exec b i c reply w = some (answer, w')) :
    Honest cfg chain ⟨c, answer⟩ := by
  cases c with
  | verifyCallback method raw =>
      rcases answer with e | result
      · trivial
      obtain ⟨_, hEq, -⟩ | ⟨a, hAnswer, hEq, -⟩ := exec_outside hExec rfl
      · cases hEq
      · cases hEq
        cases reply <;> simp only [outsideAnswer, reduceCtorEq, Option.some.injEq] at hAnswer
        subst hAnswer
        exact hPolled
  | queryPayment asked =>
      rcases answer with e | q
      · trivial
      obtain ⟨_, hEq, -⟩ | ⟨a, hAnswer, hEq, -⟩ := exec_outside hExec rfl
      · cases hEq
      · cases hEq
        cases reply <;> simp only [outsideAnswer, reduceCtorEq, Option.some.injEq] at hAnswer
        subst hAnswer
        exact hPolled asked hCall
  | _ => trivial

theorem World.Transfers.step (hTransfers : w.Transfers cfg chain) (hLineage : w.Lineage)
    (hAdmits : Admits deps (w.past i) c) (hHonest : Honest cfg chain ⟨c, answer⟩)
    (hKept : ∀ o, w.order o.id = some o → o.awaitsUsdt = true → ∀ t, chain t → Fits cfg o t →
      ¬w.swept t.txId)
    (hExec : exec deps.backend i c reply w = some (answer, w')) : w'.Transfers cfg chain := by
  have hStep := orderStep_of_exec hExec
  obtain ⟨applied, hTrace⟩ := trace_of_exec hExec
  have hStored : ∀ id o, w'.order id = some o → Grounded cfg chain w'.trace o := by
    intro id o ho
    rw [hTrace]
    rcases hLineage.row_of_step hAdmits hStep ho with
      hOld | ⟨new, -, -, hInserts, rfl, hTerms⟩ | ⟨new, row, -, hRow, hOrigin, rfl, hTerms, hSame⟩
    · exact (hTransfers.stored id o hOld).cons _
    · refine (grounded_of_inserts hInserts).of_terms hTerms.symm ?_
      cases deps.backend <;> rfl
    · refine ((grounded_of_admits hTransfers hLineage hOrigin).cons _).of_terms
        (hTerms.trans hSame).symm ?_
      rw [OrderStore.providerTxnId_written]
  refine ⟨hTransfers.denominated.step hLineage hAdmits hStep, fun e hMem => ?_,
    fun later e earlier fresh hSplit hRead hAwaits t hChain hFits => ?_, fun e hMem o hOrder => ?_,
    hStored⟩
  · rw [hTrace] at hMem
    rcases List.mem_cons.mp hMem with rfl | hOld
    · exact hHonest
    · exact hTransfers.honest e hOld
  · rw [hTrace] at hSplit
    rcases List.cons_eq_append_iff.mp hSplit with ⟨rfl, hHead⟩ | ⟨rest, rfl, hTail⟩
    · -- the order has just been read
      cases hHead
      cases hRead
      have hFound : some fresh = w'.order fresh.id := exec_answers hExec
      have hRow : w.order fresh.id = some fresh := by
        rw [hFound]
        exact (World.order_congr (orders_of_exec rfl hExec) fresh.id).symm
      have hNot := hKept fresh hRow hAwaits t hChain hFits
      unfold World.swept at hNot
      omega
    · exact hTransfers.claimed rest e earlier fresh hTail hRead hAwaits t hChain hFits
  · rw [hTrace] at hMem
    rcases List.mem_cons.mp hMem with rfl | hOld
    · cases c with
      | ordersCreate new =>
          obtain rfl := Option.some.inj hOrder
          exact grounded_of_inserts hAdmits
      | ordersUpdate new =>
          obtain rfl := Option.some.inj hOrder
          rw [hTrace]
          exact (grounded_of_admits hTransfers hLineage hAdmits).cons _
      | ordersFindById id =>
          rcases answer with e | found
          · cases hOrder
          · have hFound : found = w'.order id := exec_answers hExec
            have hSome : found = some o := hOrder
            exact hStored id o (hFound.symm.trans hSome)
      | _ => cases hOrder
    · rw [hTrace]
      exact (hTransfers.handled e hOld o hOrder).cons _

end steps

section once

variable {w : World} {o o' : Order} {t t' : Trc20Transfer}

/-- What happens at most once has one place in a list. -/
theorem eq_of_countP_le_one {α : Type} {p : α → Bool} {l a a' b b' : List α} {x x' : α}
    (hOnce : l.countP p ≤ 1) (hSplit : l = a ++ x :: b) (hSplit' : l = a' ++ x' :: b')
    (hx : p x = true) (hx' : p x' = true) : x = x' ∧ b = b' := by
  have hApart : ∀ {a₁ b₁ b₂ : List α} {y z : α}, l = a₁ ++ y :: (b₁ ++ z :: b₂) → p y = true →
      p z = true → False := by
    intro a₁ b₁ b₂ y z hEq hy hz
    rw [hEq] at hOnce
    simp only [List.countP_append, List.countP_cons, hy, hz, if_true] at hOnce
    omega
  rcases List.append_eq_append_iff.mp (hSplit.symm.trans hSplit') with
    ⟨between, rfl, hRest⟩ | ⟨between, rfl, hRest⟩
  all_goals
    cases between with
    | nil =>
        cases hRest
        exact ⟨rfl, rfl⟩
    | cons y rest =>
        cases hRest
        first
          | exact (hApart hSplit hx hx').elim
          | exact (hApart hSplit' hx' hx).elim

/-- A claim of the transfer, as it stands in the history of a task. -/
theorem asked_eq_of_claimed {i i' : Nat} {earlier earlier' : List Event} {txId : String}
    {asked asked' : Order} {q q' : QueryResult} (hOnce : claims txId earlier ≤ 1)
    (hPath : pastOf i earlier = [⟨.markIfNew (claimKey .usdt txId), .ok true⟩,
      ⟨.queryPayment asked, .ok q⟩, ⟨.ordersFindById asked.id, .ok (some asked)⟩])
    (hPath' : pastOf i' earlier' = [⟨.markIfNew (claimKey .usdt txId), .ok true⟩,
      ⟨.queryPayment asked', .ok q'⟩, ⟨.ordersFindById asked'.id, .ok (some asked')⟩])
    (hSuffix : earlier' <:+ earlier) : asked = asked' := by
  obtain ⟨between, rfl⟩ := hSuffix
  obtain ⟨a, e, b, hSplit, rfl, hHead, -, hOlder⟩ := @exists_of_pastOf _ _ [] _ _ hPath
  obtain ⟨a', e', b', hSplit', rfl, hHead', -, hOlder'⟩ := @exists_of_pastOf _ _ [] _ _ hPath'
  have hClaims : ∀ {x : Event}, (⟨x.call, x.answer⟩ : Σ c : Call, Except AppError (Ans c)) =
      ⟨.markIfNew (claimKey .usdt txId), .ok true⟩ → (match x.call, x.answer with
        | .markIfNew key, .ok true => decide (key = claimKey .usdt txId)
        | _, _ => false) = true := by
    rintro ⟨task, call, answer, applied⟩ hEq
    cases hEq
    simp
  have hSplit'' : between ++ earlier' = (between ++ a') ++ e' :: b' := by
    rw [hSplit', List.append_assoc]
  obtain ⟨rfl, rfl⟩ := eq_of_countP_le_one hOnce hSplit hSplit'' (hClaims hHead) (hClaims hHead')
  have hSame := hOlder.symm.trans hOlder'
  cases hSame
  rfl

/-- A transfer settles one order. -/
theorem World.Transfers.one_order (hTransfers : w.Transfers cfg chain) (hChain : chain t)
    (hChain' : chain t') (hTxn : t.txId = t'.txId) (h : SettledBy cfg w.trace o t)
    (h' : SettledBy cfg w.trace o' t') : o.terms = o'.terms := by
  obtain ⟨fresh, asked, transfers, later, earlier, e, split, read, path, found, pending, terms,
    asked_terms, -⟩ := h
  obtain ⟨fresh', asked', transfers', later', earlier', e', split', read', path', found', pending',
    terms', asked_terms', -⟩ := h'
  have hFits := fits_of_terms (UsdtTronProvider.matched_eq_some found).2
    (asked_terms.trans terms.symm)
  have hFits' := fits_of_terms (UsdtTronProvider.matched_eq_some found').2
    (asked_terms'.trans terms'.symm)
  have hOnce := hTransfers.claimed later e earlier fresh split read pending t hChain hFits
  have hOnce' := hTransfers.claimed later' e' earlier' fresh' split' read' pending' t' hChain' hFits'
  have hAsked : asked = asked' := by
    -- the later of the two reads has seen both claims
    rcases List.append_eq_append_iff.mp (split.symm.trans split') with
      ⟨between, -, hRest⟩ | ⟨between, -, hRest⟩
    · refine asked_eq_of_claimed hOnce path (hTxn ▸ path') ?_
      cases between with
      | nil => exact (List.cons.inj hRest).2 ▸ List.suffix_refl _
      | cons x rest => exact ⟨rest ++ [e'], by rw [(List.cons.inj hRest).2]; simp⟩
    · refine (asked_eq_of_claimed hOnce' path' (hTxn ▸ path) ?_).symm
      cases between with
      | nil => exact (List.cons.inj hRest).2 ▸ List.suffix_refl _
      | cons x rest => exact ⟨rest ++ [e], by rw [(List.cons.inj hRest).2]; simp⟩
  rw [← asked_terms, hAsked, asked_terms']

end once

/-- No PENDING order fits a transfer whose dedupe record was swept. -/
def retained (cfg : UsdtConfig) (chain : Trc20Transfer → Prop) (w : World) : Prop :=
  ∀ o, w.order o.id = some o → o.awaitsUsdt = true → ∀ t, chain t → Fits cfg o t → ¬w.swept t.txId

/-- The order is stored, or was written before. -/
def World.Held (w : World) (o : Order) : Prop :=
  w.order o.id = some o ∨ ∃ e ∈ w.trace, e.call = .ordersUpdate o

theorem transfers_of_reaches [DecidableEq Key] {clock : Int} {m : Deployment Key}
    (hRun : (system locker deps).Reaches
      (fun m label => polled cfg chain m label ∧ retained cfg chain m.world)
      (Deployment.start Store.empty clock) m) : m.world.Transfers cfg chain := by
  have hStart : Tracked locker deps (Deployment.start Store.empty clock) ∧
      (World.start Store.empty clock).Transfers cfg chain := by
    refine ⟨tracked_start, ⟨fun id o ho => ?_, fun e hMem => ?_, fun later e earlier fresh hSplit => ?_,
      fun e hMem => ?_, fun id o ho => ?_⟩⟩
    · cases ho
    · cases hMem
    · cases later <;> cases hSplit
    · cases hMem
    · cases ho
  refine (hRun.invariant (P := fun m => Tracked locker deps m ∧ m.world.Transfers cfg chain) ?_
    hStart).2
  rintro m label m' ⟨hPolled, hRetained⟩ hStep ⟨hTracked, hTransfers⟩
  refine ⟨hTracked.step hStep, ?_⟩
  obtain hSame | ⟨i, reply, c, answer, rfl, hCall, hAdmits, hExec, -⟩ := hTracked.orderStep hStep
  · rw [hSame]
    exact hTransfers
  · exact hTransfers.step hTracked.lineage hAdmits (honest_of_exec hPolled hCall hExec) hRetained hExec

/-- As long as no order that a transfer could settle is PENDING once the transfer's
dedupe record was swept, a transaction pays at most one order, and one that it fits. -/
theorem one_order_per_transfer [DecidableEq Key] {clock : Int} {m : Deployment Key}
    (hRun : (system locker deps).Reaches
      (fun m label => polled cfg chain m label ∧ retained cfg chain m.world)
      (Deployment.start Store.empty clock) m) :
    (∀ o o' txId, m.world.Held o → m.world.Held o' → o.method = .usdt → o'.method = .usdt →
      o.providerTxnId = some txId → o'.providerTxnId = some txId → o.id = o'.id) ∧
    ∀ o txId, m.world.Held o → o.method = .usdt → o.providerTxnId = some txId →
      ∃ t, chain t ∧ t.txId = txId ∧ SettledBy cfg m.world.trace o t ∧ Fits cfg o t := by
  have hTransfers := transfers_of_reaches hRun
  have hGrounded : ∀ {o}, m.world.Held o → Grounded cfg chain m.world.trace o := by
    rintro o (hStored | ⟨e, hMem, hCall⟩)
    · exact hTransfers.stored o.id o hStored
    · refine hTransfers.handled e hMem o ?_
      obtain ⟨task, call, answer, applied⟩ := e
      subst hCall
      rfl
  refine ⟨fun o o' txId ho ho' hUsdt hUsdt' hTxn hTxn' => ?_, fun o txId ho hUsdt hTxn => ?_⟩
  · obtain ⟨t, hChain, hId, hSettled⟩ := hGrounded ho hUsdt txId hTxn
    obtain ⟨t', hChain', hId', hSettled'⟩ := hGrounded ho' hUsdt' txId hTxn'
    exact Order.id_eq_of_terms
      (hTransfers.one_order hChain hChain' (hId.trans hId'.symm) hSettled hSettled')
  · obtain ⟨t, hChain, hId, hSettled⟩ := hGrounded ho hUsdt txId hTxn
    exact ⟨t, hChain, hId, hSettled, hSettled.fits⟩

/-- The weaker rule: a sweep finds no PENDING order that a transfer could settle. -/
def sweepsIdle (cfg : UsdtConfig) (chain : Trc20Transfer → Prop) (m : Deployment Key) :
    Label Reply (Instance × Request) → Prop
  | .spawn _ => True
  | .step i _ => ∀ olderThanMs, m.nextCall i = some (.sweep olderThanMs) → ∀ o,
      m.world.order o.id = some o → o.awaitsUsdt = true → ∀ t, chain t → ¬Fits cfg o t

namespace Sample

def usdtConfig : UsdtConfig := ⟨.shared, "TShared"⟩

/-- A deposit of the plain price. -/
def deposit (txId : String) (timestampMs : Int) : Trc20Transfer :=
  ⟨txId, "TShared", "TAlice", 2000000, timestampMs, true⟩

/-- A USDT order is created and shown to the customer. -/
def ordersUsdt (task : Nat) (id outTradeNo : String) : List (Label Reply (Unit × Request)) :=
  allocates task ++ inserts task id outTradeNo ++
    [.step task (.payment ⟨.usdt, "TShared", .address, []⟩)] ++ steps task 2

/-- The order is polled while its deposit is on the chain, and is fulfilled. -/
def polls (task : Nat) (id txId subscriptionId : String) : List (Label Reply (Unit × Request)) :=
  [.spawn ((), .syncOrder id), .step task .normal,
    .step task (.query ⟨true, some txId, some (.ofInt 2000000), "CONFIRMED"⟩)] ++ steps task 7 ++
    [.step task (.text subscriptionId)] ++ steps task 3

/-- Time passes. -/
def waits (task : Nat) (clock : Int) : List (Label Reply (Unit × Request)) :=
  [.spawn ((), .tick), .step task (.time clock)]

/-- Queries are answered from the one transfer on the chain. -/
def polledFrom (t : Trc20Transfer) (m : Deployment String) : Label Reply (Unit × Request) → Bool
  | .step _ (.callback _) => false
  | .step i (.query q) => (m.nextCall i).all fun c => match c with
      | .queryPayment order => q = UsdtTronProvider.queryPayment usdtConfig order [t]
      | _ => true
  | _ => true

theorem polled_of_polledFrom {t : Trc20Transfer} {m : Deployment String}
    {label : Label Reply (Unit × Request)} (h : polledFrom t m label = true) :
    polled usdtConfig (· = t) m label := by
  match label with
  | .spawn _ => trivial
  | .step i reply =>
      cases reply with
      | callback result => cases h
      | query q =>
          intro order hCall _
          refine ⟨[t], by simp, ?_⟩
          simpa [polledFrom, hCall] using h
      | _ => trivial

/-- No pending order fits the transfer. -/
def noneFits (t : Trc20Transfer) (m : Deployment String) : Bool :=
  m.world.store.orders.byId.rows.all fun o => !(o.awaitsUsdt && Fits usdtConfig o t)

theorem not_fits_of_noneFits {t : Trc20Transfer} {m : Deployment String} (h : noneFits t m = true)
    {o : Order} (ho : m.world.order o.id = some o) (hAwaits : o.awaitsUsdt = true) :
    ¬Fits usdtConfig o t := by
  intro hFits
  have hNot := List.all_eq_true.mp h o (Table.mem_of_get? ho)
  simp [hAwaits, hFits] at hNot

/-- The deposit on the chain answers the queries, and its record is kept. -/
def keepsRecord (t : Trc20Transfer) (m : Deployment String) (label : Label Reply (Unit × Request)) :
    Bool :=
  polledFrom t m label && (noneFits t m || !decide (m.world.swept t.txId))

theorem allowed_of_keepsRecord {t : Trc20Transfer} {m : Deployment String}
    {label : Label Reply (Unit × Request)} (h : keepsRecord t m label = true) :
    polled usdtConfig (· = t) m label ∧ retained usdtConfig (· = t) m.world := by
  obtain ⟨hPolled, hRetained⟩ := Bool.and_eq_true_iff.mp h
  refine ⟨polled_of_polledFrom hPolled, ?_⟩
  rintro o ho hAwaits t rfl hFits
  rcases Bool.or_eq_true_iff.mp hRetained with hNone | hKept
  · exact absurd hFits (not_fits_of_noneFits hNone ho hAwaits)
  · exact of_decide_eq_false (Bool.not_eq_true' _ |>.mp hKept)

/-- When the dedupe records are swept no pending order fits the transfer. -/
def sweepsUnfitting (t : Trc20Transfer) (m : Deployment String) :
    Label Reply (Unit × Request) → Bool
  | .spawn _ => true
  | .step i _ => match m.nextCall i with
    | some (.sweep _) => noneFits t m
    | _ => true

end Sample

/-- One order, settled by its deposit. -/
theorem one_order_per_transfer_sample : ∃ m : Deployment String,
    (singleInstance (Sample.sharedDeps .memory)).Reaches (fun m label =>
      polled Sample.usdtConfig (· = Sample.deposit "tx1" 0) m label ∧
        retained Sample.usdtConfig (· = Sample.deposit "tx1" 0) m.world)
      (Deployment.start Store.empty 0) m ∧
    ∃ o, m.world.order "o1" = some o ∧ o.status = .FULFILLED ∧
      SettledBy Sample.usdtConfig m.world.trace o (Sample.deposit "tx1" 0) := by
  obtain ⟨m, hRun, hCheck⟩ := System.exists_reaches (singleInstance (Sample.sharedDeps .memory))
    (Sample.keepsRecord (Sample.deposit "tx1" 0)) (Deployment.start Store.empty 0)
    (Sample.ordersUsdt 0 "o1" "VPN1" ++ Sample.polls 1 "o1" "tx1" "s1")
    (fun m => (m.world.order "o1").any fun o => o.status = .FULFILLED && o.method = .usdt &&
      o.providerTxnId = some "tx1") (by decide +kernel)
  simp only [Option.any_eq_true, Bool.and_eq_true, decide_eq_true_eq] at hCheck
  obtain ⟨o, ho, ⟨hFulfilled, hUsdt⟩, hTxn⟩ := hCheck
  have hRun' := hRun.mono fun _ _ _ hAllowed _ => Sample.allowed_of_keepsRecord hAllowed
  obtain ⟨-, hSettled⟩ := one_order_per_transfer hRun'
  have hId : o.id = "o1" := World.id_of_order ho
  obtain ⟨t, rfl, -, hBy, -⟩ := hSettled o "tx1" (.inl (hId ▸ ho)) hUsdt hTxn
  exact ⟨m, hRun', o, ho, hFulfilled, hBy⟩

/-- The dedupe record of a deposit is swept while no pending order could be settled
by it. A minute after the deposit the plain price is asked for again, and the same
deposit settles the second order. -/
theorem transfer_pays_twice : ∃ m : Deployment String,
    (singleInstance (Sample.sharedDeps .memory)).Reaches (fun m label =>
      polled Sample.usdtConfig (· = Sample.deposit "tx1" 0) m label ∧
        sweepsIdle Sample.usdtConfig (· = Sample.deposit "tx1" 0) m label)
      (Deployment.start Store.empty 0) m ∧
    ∃ o o', m.world.order "o1" = some o ∧ m.world.order "o2" = some o' ∧
      o.providerTxnId = some "tx1" ∧ o'.providerTxnId = some "tx1" := by
  obtain ⟨m, hRun, hCheck⟩ := System.exists_reaches (singleInstance (Sample.sharedDeps .memory))
    (fun m label => Sample.polledFrom (Sample.deposit "tx1" 0) m label &&
      Sample.sweepsUnfitting (Sample.deposit "tx1" 0) m label)
    (Deployment.start Store.empty 0)
    (Sample.ordersUsdt 0 "o1" "VPN1" ++ Sample.polls 1 "o1" "tx1" "s1" ++ Sample.waits 2 60000 ++
      [.spawn ((), .sweep 0), .step 3 .normal] ++ Sample.ordersUsdt 4 "o2" "VPN2" ++
      (Sample.polls 5 "o2" "tx1" "s2").take 8)
    (fun m => (m.world.order "o1").any fun o => (m.world.order "o2").any fun o' =>
      o.providerTxnId = some "tx1" && o'.providerTxnId = some "tx1") (by decide +kernel)
  simp only [Option.any_eq_true, Bool.and_eq_true, decide_eq_true_eq] at hCheck
  obtain ⟨o, ho, o', ho', hTxn, hTxn'⟩ := hCheck
  refine ⟨m, hRun.mono fun m label _ hAllowed _ => ?_, o, o', ho, ho', hTxn, hTxn'⟩
  obtain ⟨hPolled, hIdle⟩ := Bool.and_eq_true_iff.mp hAllowed
  refine ⟨Sample.polled_of_polledFrom hPolled, ?_⟩
  cases label with
  | spawn request => trivial
  | step i reply =>
      rintro olderThanMs hCall o ho hAwaits t rfl
      simp only [Sample.sweepsUnfitting, hCall] at hIdle
      exact Sample.not_fits_of_noneFits hIdle ho hAwaits

end VpnPayment
