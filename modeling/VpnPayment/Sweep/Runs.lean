import VpnPayment.Sweep.Pipeline

/-! What the discipline of the sweep pipeline means for whole runs, and which
runs are sequential. -/
namespace VpnPayment

open Async Collections

abbrev SweepLabel := Label SweepReply SweepRequest

/-- The runs the discipline of a mode speaks about. -/
abbrev SweepDisciplined (mode : SweepMode) (deps : SweepDeps) : Sweeper → SweepLabel → Prop :=
  (sweepDiscipline mode deps).Permits fun _ => True

section runs

variable {mode : SweepMode} {deps : SweepDeps} {clock : Int} {m m' : Sweeper}
  {label : SweepLabel}

theorem sweepSound_start : (SweepWorld.start .empty clock).Sound mode deps.policy where
  rows id row hRow := by cases hRow
  known id _ := ⟨rfl, fun i hTook => by
    obtain ⟨e, hMem, -⟩ := hTook
    cases hMem⟩
  distinct := List.nodup_nil

theorem sweepCoherent_start : (sweepDiscipline mode deps).Coherent (Sweeper.start .empty clock) :=
  Discipline.coherent_start sweepSound_start (fun _ => trivial) fun _ _ hMem => by cases hMem

/-- One disciplined step. -/
theorem SweepDisciplined.step (hCoh : (sweepDiscipline mode deps).Coherent m)
    (hAllowed : SweepDisciplined mode deps m label)
    (hStep : (sweepSystem deps).step m label = some m') :
    (sweepDiscipline mode deps).Coherent m' ∧
      (m'.world = m.world ∨ ∃ i, m.world.Moves mode i m'.world) := by
  obtain ⟨hCoh', hSame | ⟨i, t, -, hMoves⟩⟩ := hCoh.step
    (fun request _ _ _ hSound hFresh => sweep_entry request hSound hFresh) hAllowed hStep
  · exact ⟨hCoh', .inl hSame⟩
  · exact ⟨hCoh', .inr ⟨i, hMoves⟩⟩

/-- What a step has to meet for the discipline to speak about it. -/
theorem sweepDisciplined_of (hStep : (sweepSystem deps).step m label = some m')
    (hCall : ∀ i reply c, label = .step i reply → m.nextCall i = some c →
      sweepCond mode deps i c reply m.world) : SweepDisciplined mode deps m label :=
  Discipline.permits_of_step (Function.injective_of_subsingleton _) hStep (fun _ _ => trivial)
    fun i reply _ c hLabel _ hNext => hCall i reply c hLabel hNext

end runs

section order

/-- Later tasks have made the later calls. Passing time does not count. -/
def InOrder (trace : List SweepEvent) : Prop :=
  trace.Pairwise fun newer older =>
    newer.call ≠ .tick → older.call ≠ .tick → older.task ≤ newer.task

/-- No later task has made a call yet. -/
def Foremost (w : SweepWorld) (i : Nat) : Prop :=
  ∀ e ∈ w.trace, e.call ≠ .tick → e.task ≤ i

theorem call_ne_tick_of_taken {e : SweepEvent} {job : SweepJob}
    (h : job ∈ e.call.taken e.answer) : e.call ≠ .tick := by
  obtain ⟨i, c, answer, applied⟩ := e
  rintro rfl
  cases h

theorem undisturbed_of_inOrder {trace : List SweepEvent} {i : Nat} {id : String}
    (hOrder : InOrder trace) (hForemost : ∀ e ∈ trace, e.call ≠ .tick → e.task ≤ i) :
    UndisturbedIn i id trace := by
  induction trace with
  | nil => trivial
  | cons e older ih =>
      obtain ⟨hNewest, hOlder⟩ := List.pairwise_cons.mp hOrder
      refine ⟨ih hOlder fun e' hMem => hForemost e' (List.mem_cons_of_mem _ hMem), ?_⟩
      rintro hNe ⟨job, hTaken, -⟩ ⟨e', hMem, hTask, job', hTaken', -⟩
      have hLe := hForemost e List.mem_cons_self (call_ne_tick_of_taken hTaken)
      have hGe := hNewest e' hMem (call_ne_tick_of_taken hTaken) (call_ne_tick_of_taken hTaken')
      omega

variable {deps : SweepDeps} {m m' : Sweeper} {label : SweepLabel}

/-- A run whose calls are each made by the foremost task stays in order. -/
theorem inOrder_step (hOrder : InOrder m.world.trace)
    (hStep : (sweepSystem deps).step m label = some m')
    (hForemost : ∀ i reply c, label = .step i reply → m.nextCall i = some c → c ≠ .tick →
      Foremost m.world i) : InOrder m'.world.trace := by
  obtain hSame | ⟨i, reply, c, answer, hLabel, hCall, hExec⟩ := System.world_of_step hStep
  · rwa [hSame]
  · obtain ⟨⟨applied, hTrace⟩, -, -⟩ := sweepExec_logged hExec
    rw [hTrace]
    refine List.pairwise_cons.mpr ⟨fun e hMem hNewer hOlder => ?_, hOrder⟩
    exact hForemost i reply c hLabel hCall hNewer e hMem hOlder

end order
end VpnPayment
