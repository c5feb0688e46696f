import Mathlib.Data.List.Forall2

/-! Going over a list with a function that may fail: the first failure ends it. -/
namespace Collections

variable {ε α β γ : Type} {f : α → Except ε β}

theorem forall₂_of_mapM {xs : List α} {ys : List β} (h : xs.mapM f = .ok ys) :
    List.Forall₂ (fun x y => f x = .ok y) xs ys := by
  induction xs generalizing ys with
  | nil =>
      cases h
      exact .nil
  | cons x xs ih =>
      rw [List.mapM_cons] at h
      cases hHead : f x with
      | error e =>
          rw [hHead] at h
          cases h
      | ok y =>
          rw [hHead] at h
          cases hTail : xs.mapM f with
          | error e =>
              rw [hTail] at h
              cases h
          | ok ys =>
              rw [hTail] at h
              cases h
              exact .cons hHead (ih hTail)

theorem mapM_ok_iff (xs : List α) :
    (∃ ys, xs.mapM f = .ok ys) ↔ ∀ x ∈ xs, ∃ y, f x = .ok y := by
  induction xs with
  | nil => exact ⟨fun _ => by simp, fun _ => ⟨[], rfl⟩⟩
  | cons x xs ih =>
      rw [List.mapM_cons, List.forall_mem_cons, ← ih]
      cases hHead : f x with
      | error e => exact ⟨fun h => (nomatch h), fun h => (nomatch h.1)⟩
      | ok y =>
          cases hTail : xs.mapM f with
          | error e => exact ⟨fun h => (nomatch h), fun h => (nomatch h.2)⟩
          | ok ys => exact ⟨fun _ => ⟨⟨_, rfl⟩, _, rfl⟩, fun _ => ⟨_, rfl⟩⟩

/-- What is done to every result may be done to the list of them. -/
theorem mapM_map_ok (f : α → Except ε β) (g : β → γ) (xs : List α) :
    (xs.mapM fun x => (f x).map g) = (xs.mapM f).map fun ys => ys.map g := by
  induction xs with
  | nil => rfl
  | cons x xs ih =>
      rw [List.mapM_cons, List.mapM_cons, ih]
      cases f x with
      | error e => rfl
      | ok y =>
          cases xs.mapM f with
          | error e => rfl
          | ok ys => rfl

end Collections
