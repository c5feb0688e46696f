import Mathlib.Data.List.Nodup

/-! Tokens that tasks draw at random and spend. A token is spent by the task that drew
it and by nobody else. -/
namespace Async

variable {Event Token : Type} (task : Event → Nat) (draws : Event → Option Token)
  (spends : Event → List Token)

/-- The tokens drawn so far, with the task that drew each, newest first. -/
def drawnBy (log : List Event) : List (Token × Nat) :=
  log.filterMap fun e => (draws e).map fun token => (token, task e)

/-- No token is drawn twice, and tasks spend what they have drawn. -/
structure OwnTokens (log : List Event) : Prop where
  distinct : ((drawnBy task draws log).map Prod.fst).Nodup
  earned : ∀ e ∈ log, ∀ token ∈ spends e, (token, task e) ∈ drawnBy task draws log

variable {task draws spends} {log : List Event} {e : Event} {token : Token} {i : Nat}

theorem mem_drawnBy : (token, i) ∈ drawnBy task draws log ↔
    ∃ e ∈ log, draws e = some token ∧ task e = i := by
  simp only [drawnBy, List.mem_filterMap, Option.map_eq_some_iff, Prod.mk.injEq]
  constructor
  · intro hDrawn
    obtain ⟨e, hMem, token', hDraws, rfl, hTask⟩ := hDrawn
    exact ⟨e, hMem, hDraws, hTask⟩
  · intro hDrawn
    obtain ⟨e, hMem, hDraws, hTask⟩ := hDrawn
    exact ⟨e, hMem, token, hDraws, rfl, hTask⟩

theorem drawnBy_cons : drawnBy task draws (e :: log) =
    ((draws e).map fun token => (token, task e)).toList ++ drawnBy task draws log := by
  rw [drawnBy, drawnBy]
  cases hDraws : draws e <;> simp [hDraws]

theorem drawnBy_mono (h : (token, i) ∈ drawnBy task draws log) :
    (token, i) ∈ drawnBy task draws (e :: log) := by
  rw [drawnBy_cons]
  exact List.mem_append_right _ h

theorem ownTokens_nil : OwnTokens task draws spends [] where
  distinct := .nil
  earned e hMem := by cases hMem

/-- What one call draws is new, and what it spends its task has drawn. -/
theorem OwnTokens.cons (h : OwnTokens task draws spends log)
    (hFresh : ∀ token, draws e = some token → token ∉ (drawnBy task draws log).map Prod.fst)
    (hEarned : ∀ token ∈ spends e, (token, task e) ∈ drawnBy task draws log) :
    OwnTokens task draws spends (e :: log) where
  distinct := by
    rw [drawnBy_cons]
    cases hDraws : draws e with
    | none => exact h.distinct
    | some token => exact List.nodup_cons.mpr ⟨hFresh token hDraws, h.distinct⟩
  earned e' hMem token hSpent := by
    apply drawnBy_mono
    cases hMem with
    | head => exact hEarned token hSpent
    | tail _ hOld => exact h.earned e' hOld token hSpent

/-- What a task has drawn and not spent is not spent. -/
theorem OwnTokens.unspent (h : OwnTokens task draws spends log)
    (hDrawn : (token, i) ∈ drawnBy task draws log)
    (hKept : ∀ e ∈ log, task e = i → token ∉ spends e) : ∀ e ∈ log, token ∉ spends e := by
  intro e hMem hSpent
  have hOther := h.earned e hMem token hSpent
  have hSame := List.inj_on_of_nodup_map h.distinct hDrawn hOther rfl
  cases hSame
  exact hKept e hMem rfl hSpent

end Async
