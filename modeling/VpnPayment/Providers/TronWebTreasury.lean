import Mathlib.Data.Int.Order.Basic

/-! `TronWebTreasury.isConfirmed`: what it concludes about a transaction from three
calls of the node, and when the conclusion is right. -/
namespace VpnPayment

/-- A transaction that was included in a block, with the result of its execution. -/
structure MinedTransaction where
  block : Int
  contractRet : String
deriving DecidableEq

/-- The chain: what has been mined under a transaction id, and the head block. -/
structure TronChain where
  transaction : String → Option MinedTransaction
  head : Int

namespace TronWebTreasury

/-- The part of `trx.getTransactionInfo` that is used. -/
structure TronTransactionInfo where
  blockNumber : Option Int

structure TransactionRet where
  contractRet : Option String

structure TronConfirmedTransaction where
  ret : Option (List TransactionRet)

structure BlockRawData where
  number : Option Int

structure BlockHeader where
  raw_data : Option BlockRawData

structure TronBlock where
  block_header : Option BlockHeader

/-- `confirmed.ret?.[0]?.contractRet` -/
def TronConfirmedTransaction.contractRet (confirmed : TronConfirmedTransaction) : Option String :=
  (confirmed.ret.bind List.head?).bind TransactionRet.contractRet

/-- `block.block_header?.raw_data?.number` -/
def TronBlock.number (block : TronBlock) : Option Int :=
  (block.block_header.bind BlockHeader.raw_data).bind BlockRawData.number

/-- The calls of the node while one check runs. Each of them may fail. -/
structure TronTrxNamespace where
  getTransactionInfo : String → Except String TronTransactionInfo
  getConfirmedTransaction : String → Except String TronConfirmedTransaction
  getCurrentBlock : Except String TronBlock

structure TronWebTreasuryConfig where
  minConfirmations : Int

/-- The body of the `try` statement. -/
def checkConfirmed (cfg : TronWebTreasuryConfig) (trx : TronTrxNamespace) (txId : String) :
    Except String Bool := do
  let info ← trx.getTransactionInfo txId
  match info.blockNumber with
  | none => do
      -- Not mined as far as the node knows: the confirmed lookup decides.
      let confirmed ← trx.getConfirmedTransaction txId
      pure (confirmed.contractRet = some "SUCCESS")
  | some blockNumber => do
      let block ← trx.getCurrentBlock
      match block.number with
      | some head => pure (cfg.minConfirmations ≤ head - blockNumber)
      | none => pure (cfg.minConfirmations ≤ 1)

/-- Whether a transaction has reached `minConfirmations`. Every failure counts as no. -/
def isConfirmed (cfg : TronWebTreasuryConfig) (trx : TronTrxNamespace) (txId : String) : Bool :=
  match checkConfirmed cfg trx txId with
  | .ok confirmed => confirmed
  | .error _ => false

/-- What the node answers is so. A mined transaction may be missing in the info for a while. -/
structure TronTrxNamespace.Reports (trx : TronTrxNamespace) (chain : TronChain) : Prop where
  mined : ∀ txId info b, trx.getTransactionInfo txId = .ok info → info.blockNumber = some b →
    ∃ tx, chain.transaction txId = some tx ∧ tx.block = b
  executed : ∀ txId confirmed result, trx.getConfirmedTransaction txId = .ok confirmed →
    confirmed.contractRet = some result →
    ∃ tx, chain.transaction txId = some tx ∧ tx.contractRet = result
  height : ∀ block h, trx.getCurrentBlock = .ok block → block.number = some h → h = chain.head

end TronWebTreasury

/-- The blocks on top of a transaction's own. -/
def TronChain.depth (chain : TronChain) (tx : MinedTransaction) : Int :=
  chain.head - tx.block

/-- The transaction was mined, its execution succeeded, and enough blocks follow it. -/
def TronChain.Confirmed (chain : TronChain) (minConfirmations : Int) (txId : String) : Prop :=
  ∃ tx, chain.transaction txId = some tx ∧ tx.contractRet = "SUCCESS" ∧
    minConfirmations ≤ chain.depth tx

namespace TronWebTreasury

/-- The evidence that a check rests on suffices. By depth alone a transaction is
accepted that failed, by a head block without a number also one that is not deep
enough for one confirmation, and by the confirmed lookup one of any depth. -/
def Conclusive (cfg : TronWebTreasuryConfig) (chain : TronChain) (trx : TronTrxNamespace)
    (txId : String) : Prop :=
  ∀ tx, chain.transaction txId = some tx → ∀ info, trx.getTransactionInfo txId = .ok info →
    match info.blockNumber with
    | some _ => ∀ block, trx.getCurrentBlock = .ok block →
        match block.number with
        | some _ => tx.contractRet = "SUCCESS" ∨ chain.depth tx < cfg.minConfirmations
        | none => 1 < cfg.minConfirmations ∨
            tx.contractRet = "SUCCESS" ∧ cfg.minConfirmations ≤ chain.depth tx
    | none => ∀ confirmed, trx.getConfirmedTransaction txId = .ok confirmed →
        confirmed.contractRet = some "SUCCESS" → cfg.minConfirmations ≤ chain.depth tx

section check

variable {cfg : TronWebTreasuryConfig} {chain : TronChain} {trx : TronTrxNamespace} {txId : String}

/-- The three ways to a positive answer. -/
theorem isConfirmed_eq_true : isConfirmed cfg trx txId = true ↔
    ∃ info, trx.getTransactionInfo txId = .ok info ∧
      ((∃ b block, info.blockNumber = some b ∧ trx.getCurrentBlock = .ok block ∧
          ((∃ h, block.number = some h ∧ cfg.minConfirmations ≤ h - b) ∨
            block.number = none ∧ cfg.minConfirmations ≤ 1)) ∨
        ∃ confirmed, info.blockNumber = none ∧ trx.getConfirmedTransaction txId = .ok confirmed ∧
          confirmed.contractRet = some "SUCCESS") := by
  cases hInfo : trx.getTransactionInfo txId with
  | error e => simp [isConfirmed, checkConfirmed, hInfo, bind, Except.bind]
  | ok info =>
      cases hNumber : info.blockNumber with
      | none =>
          cases hLookup : trx.getConfirmedTransaction txId <;>
            simp [isConfirmed, checkConfirmed, hInfo, hNumber, hLookup, bind, Except.bind, pure,
              Except.pure]
      | some b =>
          cases hBlock : trx.getCurrentBlock with
          | error e =>
              simp [isConfirmed, checkConfirmed, hInfo, hNumber, hBlock, bind, Except.bind]
          | ok block =>
              cases hHead : block.number <;>
                simp [isConfirmed, checkConfirmed, hInfo, hNumber, hBlock, hHead, bind, Except.bind,
                  pure, Except.pure]

/-- A positive answer is right exactly if the evidence for it suffices. -/
theorem confirmed_iff_conclusive (hReports : trx.Reports chain) :
    (isConfirmed cfg trx txId = true → chain.Confirmed cfg.minConfirmations txId) ↔
      Conclusive cfg chain trx txId := by
  constructor
  · intro hRight tx hTx info hInfo
    have hSame : isConfirmed cfg trx txId = true →
        tx.contractRet = "SUCCESS" ∧ cfg.minConfirmations ≤ chain.depth tx := by
      intro hYes
      obtain ⟨tx', hTx', hResult, hDepth⟩ := hRight hYes
      cases hTx.symm.trans hTx'
      exact ⟨hResult, hDepth⟩
    cases hNumber : info.blockNumber with
    | some b =>
        intro block hBlock
        obtain ⟨tx', hTx', hAt⟩ := hReports.mined txId info b hInfo hNumber
        cases hTx.symm.trans hTx'
        cases hHead : block.number with
        | some h =>
            have hHeight := hReports.height block h hBlock hHead
            by_cases hDeep : cfg.minConfirmations ≤ chain.depth tx
            · have hYes : cfg.minConfirmations ≤ h - b := by
                rwa [hHeight, ← hAt]
              exact .inl (hSame (isConfirmed_eq_true.mpr
                ⟨info, hInfo, .inl ⟨b, block, hNumber, hBlock, .inl ⟨h, hHead, hYes⟩⟩⟩)).1
            · exact .inr (Int.not_le.mp hDeep)
        | none =>
            by_cases hFew : cfg.minConfirmations ≤ 1
            · exact .inr (hSame (isConfirmed_eq_true.mpr
                ⟨info, hInfo, .inl ⟨b, block, hNumber, hBlock, .inr ⟨hHead, hFew⟩⟩⟩))
            · exact .inl (Int.not_le.mp hFew)
    | none =>
        intro confirmed hLookup hSuccess
        exact (hSame (isConfirmed_eq_true.mpr
          ⟨info, hInfo, .inr ⟨confirmed, hNumber, hLookup, hSuccess⟩⟩)).2
  · intro hConclusive hYes
    obtain ⟨info, hInfo, hWay⟩ := isConfirmed_eq_true.mp hYes
    rcases hWay with ⟨b, block, hNumber, hBlock, hHead⟩ | ⟨confirmed, hNumber, hLookup, hSuccess⟩
    · obtain ⟨tx, hTx, hAt⟩ := hReports.mined txId info b hInfo hNumber
      have hSuffices := hConclusive tx hTx info hInfo
      simp only [hNumber] at hSuffices
      have hSuffices := hSuffices block hBlock
      rcases hHead with ⟨h, hHead, hDeep⟩ | ⟨hHead, hFew⟩
      · simp only [hHead] at hSuffices
        have hDepth : cfg.minConfirmations ≤ chain.depth tx := by
          rwa [TronChain.depth, ← hReports.height block h hBlock hHead, hAt]
        rcases hSuffices with hResult | hShallow
        · exact ⟨tx, hTx, hResult, hDepth⟩
        · exact absurd hDepth (Int.not_le.mpr hShallow)
      · simp only [hHead] at hSuffices
        rcases hSuffices with hMany | ⟨hResult, hDepth⟩
        · exact absurd hFew (Int.not_le.mpr hMany)
        · exact ⟨tx, hTx, hResult, hDepth⟩
    · obtain ⟨tx, hTx, hResult⟩ := hReports.executed txId confirmed "SUCCESS" hLookup hSuccess
      have hSuffices := hConclusive tx hTx info hInfo
      simp only [hNumber] at hSuffices
      exact ⟨tx, hTx, hResult, hSuffices confirmed hLookup hSuccess⟩

end check
end TronWebTreasury
end VpnPayment
