import VpnPayment.Sweep.Jobs

/-! Alerting for the sweep pipeline. The watcher keeps two guards between its
ticks; what it reads and what its sink does is the input of a tick. -/
namespace VpnPayment

open Collections

inductive AlertSeverity
  | info | warning | critical
deriving DecidableEq

/-- A normalized alert. -/
structure Alert where
  severity : AlertSeverity
  title : String
  summary : String
  details : List String
deriving DecidableEq

namespace SweepAlerts

/-- Cap on detail lines per alert. -/
def maxDetailLines : Nat := 50

/-- Millionths, as a number with six decimals. -/
def formatMillionths (n : Int) : String :=
  let digits := toString (n.natAbs % 1000000)
  (if n < 0 then "-" else "") ++ toString (n.natAbs / 1000000) ++ "." ++
    String.ofList (List.replicate (6 - digits.length) '0') ++ digits

/-- micro-USDT as USDT -/
def formatMicroUsdt (micro : Int) : String :=
  formatMillionths micro

/-- TRON sun as TRX -/
def formatSun (sun : Int) : String :=
  formatMillionths sun

/-- The jobs whose retries are exhausted. -/
def failedJobs (all : List SweepJob) : List SweepJob :=
  all.filter fun job => job.status = .FAILED

def formatFailedSweepsAlert (failed : List SweepJob) : Option Alert :=
  if failed.length = 0 then none
  else
    let totalMicro := (failed.map SweepJob.amountMicro).sum
    let details := (failed.take maxDetailLines).map fun job =>
      s!"order {job.orderId} ({job.depositAddress}): " ++ job.lastError.getD "unknown error"
    some {
      severity := .critical
      title := "USDT sweep failures"
      summary := s!"{failed.length} sweep job(s) FAILED — " ++ formatMicroUsdt totalMicro ++
        s!" USDT stuck ({totalMicro} micro-USDT)"
      details := if maxDetailLines < failed.length then
        details ++ [s!"… and {failed.length - maxDetailLines} more"] else details }

def formatFeeWalletLowAlert (balanceSun thresholdSun : Int) : Option Alert :=
  if thresholdSun ≤ balanceSun then none
  else
    some {
      severity := if balanceSun = 0 then .critical else .warning
      title := "USDT fee wallet low"
      summary := "fee wallet balance " ++ formatSun balanceSun ++ " TRX is below the " ++
        formatSun thresholdSun ++ " TRX threshold"
      details := ["top up the fee wallet to keep sweeps flowing"] }

/-- The guards of the watcher: the number of FAILED jobs at the last alert, and
whether the fee wallet was low at the last alert. -/
structure Watcher where
  lastAlertedFailedCount : Nat
  feeLowAlerted : Bool

def Watcher.init : Watcher := ⟨0, false⟩

/-- What one tick meets: the stored jobs, the answer of the balance probe, if there
is one, and the sink. -/
structure Tick where
  jobs : SweepJobStore
  feeBalanceSun : Option (Except String (Option Int))
  alertSink : Alert → Except String Unit

/-- What a check leaves behind: the guards, the alerts it handed to the sink, and
what it threw. -/
structure Checked where
  watcher : Watcher
  alerts : List Alert
  thrown : Option String

/-- Hand an alert to the sink, and move the guard once the sink has taken it. -/
def raise (tick : Tick) (w moved : Watcher) (alert : Alert) : Checked :=
  match tick.alertSink alert with
  | .ok () => ⟨moved, [alert], none⟩
  | .error e => ⟨w, [alert], some e⟩

def checkFailedSweeps (tick : Tick) (w : Watcher) : Checked :=
  let failed := failedJobs tick.jobs.byId.rows
  if failed.length = 0 then ⟨{ w with lastAlertedFailedCount := 0 }, [], none⟩
  else if failed.length ≤ w.lastAlertedFailedCount then ⟨w, [], none⟩
  else
    let moved := { w with lastAlertedFailedCount := failed.length }
    match formatFailedSweepsAlert failed with
    | some alert => raise tick w moved alert
    | none => ⟨moved, [], none⟩

def checkFeeWallet (feeThresholdSun : Int) (tick : Tick) (w : Watcher) : Checked :=
  match tick.feeBalanceSun with
  | some (.ok (some balanceSun)) =>
      match formatFeeWalletLowAlert balanceSun feeThresholdSun with
      | none => ⟨{ w with feeLowAlerted := false }, [], none⟩
      | some alert =>
          if w.feeLowAlerted then ⟨w, [], none⟩
          else raise tick w { w with feeLowAlerted := true } alert
  -- no probe, a probe that throws, or a balance it does not know
  | _ => ⟨w, [], none⟩

/-- One monitoring pass. What a check throws is logged, and ends the pass. -/
def runOnce (feeThresholdSun : Int) (tick : Tick) (w : Watcher) : Watcher × List Alert :=
  let failed := checkFailedSweeps tick w
  match failed.thrown with
  | some _ => (failed.watcher, failed.alerts)
  | none =>
      let fee := checkFeeWallet feeThresholdSun tick failed.watcher
      (fee.watcher, failed.alerts ++ fee.alerts)

/-- The watcher after the given ticks, the newest first. -/
def watch (feeThresholdSun : Int) : List Tick → Watcher
  | [] => .init
  | tick :: older => (runOnce feeThresholdSun tick (watch feeThresholdSun older)).1

/-- What the sink is handed at a tick. -/
def alertsAt (feeThresholdSun : Int) (older : List Tick) (tick : Tick) : List Alert :=
  (runOnce feeThresholdSun tick (watch feeThresholdSun older)).2

namespace Tick

/-- The jobs that are FAILED at a tick, by their ids. -/
def failedIds (tick : Tick) : List String :=
  (failedJobs tick.jobs.byId.rows).map SweepJob.id

theorem nodup_failedIds (tick : Tick) : tick.failedIds.Nodup :=
  tick.jobs.byId.nodup.sublist (List.filter_sublist.map _)

/-- The sink takes every alert. -/
def SinkTakes (tick : Tick) : Prop :=
  ∀ alert, tick.alertSink alert = .ok ()

end Tick

/-- The jobs that were FAILED at the previous tick. -/
def failedBefore : List Tick → List String
  | [] => []
  | tick :: _ => tick.failedIds

/-- A failed-sweep alert is among the alerts. -/
def Emitted (alerts : List Alert) : Prop :=
  ∃ alert ∈ alerts, alert.title = "USDT sweep failures"

/-- Newly failed jobs raise an alert, and unchanged ones do not. -/
def AlertsRightly (feeThresholdSun : Int) (older : List Tick) (tick : Tick) : Prop :=
  ((∃ id ∈ tick.failedIds, id ∉ failedBefore older) →
    Emitted (alertsAt feeThresholdSun older tick)) ∧
  ((∀ id, id ∈ tick.failedIds ↔ id ∈ failedBefore older) →
    ¬Emitted (alertsAt feeThresholdSun older tick))

/-- More jobs are FAILED than at any tick since the last one without such a job. -/
def MoreThanSince (older : List Tick) (tick : Tick) : Prop :=
  ∀ before ∈ older.takeWhile (fun before => before.failedIds.length ≠ 0),
    before.failedIds.length < tick.failedIds.length

variable {feeThresholdSun : Int} {tick : Tick} {older : List Tick} {w : Watcher}

section checks

theorem formatFailedSweepsAlert_eq {failed : List SweepJob} (h : failed.length ≠ 0) :
    ∃ alert, formatFailedSweepsAlert failed = some alert ∧ alert.title = "USDT sweep failures" := by
  unfold formatFailedSweepsAlert
  rw [if_neg h]
  exact ⟨_, rfl, rfl⟩

theorem length_failedIds (tick : Tick) :
    (failedJobs tick.jobs.byId.rows).length = tick.failedIds.length := by
  rw [Tick.failedIds, List.length_map]

/-- The guard after the check, and whether the check raises its alert. -/
theorem checkFailedSweeps_spec (hSink : tick.SinkTakes) (w : Watcher) :
    (checkFailedSweeps tick w).thrown = none ∧
    (checkFailedSweeps tick w).watcher.lastAlertedFailedCount =
      (if tick.failedIds.length = 0 then 0
       else max w.lastAlertedFailedCount tick.failedIds.length) ∧
    (Emitted (checkFailedSweeps tick w).alerts ↔
      w.lastAlertedFailedCount < tick.failedIds.length) := by
  unfold checkFailedSweeps
  rw [← length_failedIds]
  dsimp only
  by_cases hNone : (failedJobs tick.jobs.byId.rows).length = 0
  · rw [if_pos hNone, if_pos hNone]
    exact ⟨rfl, rfl, by simp [Emitted, hNone]⟩
  · rw [if_neg hNone, if_neg hNone]
    by_cases hLe : (failedJobs tick.jobs.byId.rows).length ≤ w.lastAlertedFailedCount
    · rw [if_pos hLe, max_eq_left hLe]
      exact ⟨rfl, rfl, by simp [Emitted, hLe]⟩
    · obtain ⟨alert, hAlert, hTitle⟩ := formatFailedSweepsAlert_eq hNone
      have hRaise : ∀ moved, raise tick w moved alert = ⟨moved, [alert], none⟩ := by
        intro moved
        rw [raise, hSink alert]
      rw [if_neg hLe, hAlert, max_eq_right (by omega)]
      dsimp only
      rw [hRaise]
      exact ⟨rfl, rfl, by simp [Emitted, hTitle]; omega⟩

theorem checkFeeWallet_spec (feeThresholdSun : Int) (tick : Tick) (w : Watcher) :
    (checkFeeWallet feeThresholdSun tick w).watcher.lastAlertedFailedCount =
      w.lastAlertedFailedCount ∧
    ¬Emitted (checkFeeWallet feeThresholdSun tick w).alerts := by
  have hTitle : ∀ balanceSun alert, formatFeeWalletLowAlert balanceSun feeThresholdSun = some alert →
      alert.title ≠ "USDT sweep failures" := by
    intro balanceSun alert hAlert
    unfold formatFeeWalletLowAlert at hAlert
    split at hAlert
    · cases hAlert
    · cases hAlert
      show "USDT fee wallet low" ≠ "USDT sweep failures"
      decide
  unfold checkFeeWallet
  split
  · split
    · exact ⟨rfl, by simp [Emitted]⟩
    · next alert hAlert =>
        split
        · exact ⟨rfl, by simp [Emitted]⟩
        · unfold raise
          split
          · exact ⟨rfl, by simpa [Emitted] using hTitle _ _ hAlert⟩
          · exact ⟨rfl, by simpa [Emitted] using hTitle _ _ hAlert⟩
  · exact ⟨rfl, by simp [Emitted]⟩

/-- What a tick does to the guard, and when it raises the alert. -/
theorem runOnce_spec (feeThresholdSun : Int) (hSink : tick.SinkTakes) (w : Watcher) :
    (runOnce feeThresholdSun tick w).1.lastAlertedFailedCount =
      (if tick.failedIds.length = 0 then 0
       else max w.lastAlertedFailedCount tick.failedIds.length) ∧
    (Emitted (runOnce feeThresholdSun tick w).2 ↔
      w.lastAlertedFailedCount < tick.failedIds.length) := by
  obtain ⟨hThrown, hWatcher, hEmitted⟩ := checkFailedSweeps_spec hSink w
  obtain ⟨hKept, hOther⟩ :=
    checkFeeWallet_spec feeThresholdSun tick (checkFailedSweeps tick w).watcher
  unfold runOnce
  dsimp only
  rw [hThrown]
  constructor
  · rw [hKept, hWatcher]
  · rw [← hEmitted]
    unfold Emitted at hOther ⊢
    constructor
    · intro h
      obtain ⟨alert, hAlert, hTitle⟩ := h
      obtain hAlert | hAlert := List.mem_append.mp hAlert
      · exact ⟨alert, hAlert, hTitle⟩
      · exact absurd ⟨alert, hAlert, hTitle⟩ hOther
    · intro h
      obtain ⟨alert, hAlert, hTitle⟩ := h
      exact ⟨alert, List.mem_append_left _ hAlert, hTitle⟩

end checks

section history

/-- The guard is the largest number of FAILED jobs since the last tick without one. -/
theorem guard_lt_iff (hSink : ∀ before ∈ older, before.SinkTakes) {n : Nat} (hPos : 0 < n) :
    (watch feeThresholdSun older).lastAlertedFailedCount < n ↔
      ∀ before ∈ older.takeWhile (fun before => before.failedIds.length ≠ 0),
        before.failedIds.length < n := by
  induction older with
  | nil => simpa [watch, Watcher.init] using hPos
  | cons tick older ih =>
      have hRest := ih fun before hBefore => hSink before (List.mem_cons_of_mem _ hBefore)
      have hGuard := (runOnce_spec feeThresholdSun (hSink tick List.mem_cons_self)
        (watch feeThresholdSun older)).1
      rw [watch, hGuard]
      by_cases hNone : tick.failedIds.length = 0
      · rw [if_pos hNone, List.takeWhile_cons_of_neg (by simpa using hNone)]
        simpa using hPos
      · rw [if_neg hNone, max_lt_iff, hRest, List.takeWhile_cons_of_pos (by simpa using hNone),
          List.forall_mem_cons, and_comm]

/-- No new FAILED job, no more of them than before. -/
theorem length_le_of_same (h : ∀ id, id ∈ tick.failedIds ↔ id ∈ failedBefore older) :
    tick.failedIds.length = (failedBefore older).length := by
  have hNodup : (failedBefore older).Nodup := by
    cases older with
    | nil => exact List.nodup_nil
    | cons before older => exact before.nodup_failedIds
  exact ((List.perm_ext_iff_of_nodup tick.nodup_failedIds hNodup).mpr h).length_eq

end history

/-- The alerts are right at a tick exactly when newly FAILED jobs come with a number
of them that was not reached since the last tick without one. -/
theorem alertsRightly_iff (feeThresholdSun : Int) (older : List Tick) (tick : Tick)
    (hSink : ∀ t ∈ tick :: older, t.SinkTakes) :
    AlertsRightly feeThresholdSun older tick ↔
      ((∃ id ∈ tick.failedIds, id ∉ failedBefore older) → MoreThanSince older tick) := by
  have hOlder : ∀ before ∈ older, before.SinkTakes :=
    fun before hBefore => hSink before (List.mem_cons_of_mem _ hBefore)
  have hEmitted : Emitted (alertsAt feeThresholdSun older tick) ↔
      0 < tick.failedIds.length ∧ MoreThanSince older tick := by
    rw [alertsAt, (runOnce_spec feeThresholdSun (hSink tick List.mem_cons_self) _).2]
    constructor
    · intro hLess
      have hPos : 0 < tick.failedIds.length := by omega
      exact ⟨hPos, (guard_lt_iff hOlder hPos).mp hLess⟩
    · intro h
      exact (guard_lt_iff hOlder h.1).mpr h.2
  have hQuiet : (∀ id, id ∈ tick.failedIds ↔ id ∈ failedBefore older) →
      ¬Emitted (alertsAt feeThresholdSun older tick) := by
    intro hSame hAlert
    obtain ⟨hPos, hMore⟩ := hEmitted.mp hAlert
    have hLength := length_le_of_same hSame
    cases older with
    | nil =>
        rw [hLength] at hPos
        cases hPos
    | cons before older =>
        have hNonzero : before.failedIds.length ≠ 0 := by
          rw [hLength] at hPos
          exact Nat.ne_of_gt hPos
        have hLess := hMore before
          (by rw [List.takeWhile_cons_of_pos (by simpa using hNonzero)]; exact List.mem_cons_self)
        exact absurd hLength (Nat.ne_of_gt hLess)
  constructor
  · intro hRight hNew
    exact (hEmitted.mp (hRight.1 hNew)).2
  · intro hMore
    refine ⟨fun hNew => ?_, hQuiet⟩
    have hSince := hMore hNew
    obtain ⟨id, hId, -⟩ := hNew
    exact hEmitted.mpr ⟨List.length_pos_of_mem hId, hSince⟩

/-- A tick that finds the jobs with the given ids FAILED. -/
def tickOf (ids : List String) : Tick where
  jobs := {
    byId := ids.foldl (fun jobs id => jobs.put
      { id, orderId := id, depositIndex := 0, depositAddress := "TA", collectionAddress := "TC",
        amountMicro := 1500000, status := .FAILED, gasTxId := none, sweepTxId := none,
        attempts := 5, lastError := none, createdAt := 0, updatedAt := 0, nextAttemptAt := 0 }) .empty
    byOrderId := .empty }
  feeBalanceSun := none
  alertSink := fun _ => .ok ()

theorem sinkTakes_tickOf (ids : List String) : (tickOf ids).SinkTakes :=
  fun _ => rfl

/-- A second job fails besides the first. -/
theorem alertsRightly_second : AlertsRightly 0 [tickOf ["j1"]] (tickOf ["j1", "j2"]) := by
  apply (alertsRightly_iff 0 [tickOf ["j1"]] (tickOf ["j1", "j2"]) (by
    simp [sinkTakes_tickOf])).mpr
  intro _
  unfold MoreThanSince
  decide

/-- The first job is requeued and succeeds, and another one fails. -/
theorem new_failure_unalerted : ¬∀ feeThresholdSun older tick,
    (∀ t ∈ tick :: older, t.SinkTakes) → AlertsRightly feeThresholdSun older tick := by
  intro hAll
  have hRight := hAll 0 [tickOf ["j1"]] (tickOf ["j2"]) (by simp [sinkTakes_tickOf])
  have hNone : alertsAt 0 [tickOf ["j1"]] (tickOf ["j2"]) = [] := by decide
  have hNew : ∃ id ∈ (tickOf ["j2"]).failedIds, id ∉ failedBefore [tickOf ["j1"]] := by decide
  obtain ⟨alert, hAlert, -⟩ := hRight.1 hNew
  rw [hNone] at hAlert
  cases hAlert

end SweepAlerts
end VpnPayment
