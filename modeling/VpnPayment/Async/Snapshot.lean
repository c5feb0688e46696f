import VpnPayment.Async.History

/-! What tasks hold of the rows they have read. A log of events, newest first, says
which rows were read by whom and which were written. What a task read is current as
long as the row was not written since. -/
namespace Async

/-- How the events of a log read and write the rows under keys. -/
structure RowLog (Event κ Row : Type) where
  task : Event → Nat
  reads : Event → κ → Option Row
  writes : Event → κ → Bool

namespace RowLog

variable {Event κ Row : Type} (L : RowLog Event κ Row)

/-- What a task has read last under a key, unless the row was written since. -/
def held (i : Nat) (k : κ) : List Event → Option Row
  | [] => none
  | e :: older =>
      if L.task e = i ∧ (L.reads e k).isSome then L.reads e k
      else if L.writes e k then none else held i k older

/-- What a task has read last under a key. -/
def lastRead (i : Nat) (k : κ) (log : List Event) : Option Row :=
  (log.filter fun e => L.task e = i).findSome? fun e => L.reads e k

variable {L} {i : Nat} {k : κ} {r : Row} {e : Event} {log : List Event}

theorem lastRead_of_held (h : L.held i k log = some r) : L.lastRead i k log = some r := by
  induction log with
  | nil => cases h
  | cons e older ih =>
      rw [held] at h
      split at h
      · next hOwn => simp [lastRead, hOwn.1, h]
      · next hOther =>
          split at h
          · cases h
          · have hOlder := ih h
            by_cases hTask : L.task e = i
            · have hNone : L.reads e k = none := by simpa [hTask] using hOther
              simpa [lastRead, hTask, hNone] using hOlder
            · simpa [lastRead, hTask] using hOlder

/-- What a task has read last, among its own calls. -/
theorem lastRead_ownCalls {Call : Type} {Ans : Call → Type} {Err : Type}
    (done : Event → Σ c : Call, Except Err (Ans c))
    (reads : (Σ c : Call, Except Err (Ans c)) → κ → Option Row)
    (hReads : ∀ e, L.reads e k = reads (done e) k) :
    (ownCalls L.task done i log).findSome? (fun h => reads h k) = L.lastRead i k log := by
  rw [ownCalls, List.findSome?_map, lastRead]
  congr 1
  funext e
  exact (hReads e).symm

/-- One more event: what is held stays what is stored, if the event reads what is stored
and changes no row that it does not write. -/
theorem stored_of_held {row row' : κ → Option Row}
    (hHeld : ∀ i k r, L.held i k log = some r → row k = some r)
    (hReads : ∀ k r, L.reads e k = some r → row' k = some r)
    (hWrites : ∀ k, L.writes e k = false → row' k = row k) (h : L.held i k (e :: log) = some r) :
    row' k = some r := by
  rw [held] at h
  split at h
  · exact hReads k r h
  · split at h
    · cases h
    · next hKeeps =>
        rw [hWrites k (by simpa using hKeeps)]
        exact hHeld i k r h

end RowLog
end Async
