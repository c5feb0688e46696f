import Mathlib.Data.List.Basic

/-! Square grids. A cell outside the grid reads as the default value, as an
undefined element reads as false, and writing it changes nothing. -/
namespace Collections

/-- `n` rows of `n` cells. -/
structure Grid (α : Type) (n : Nat) where
  rows : Vector (Vector α n) n

namespace Grid

variable {α β : Type} {n : Nat}

def ofFn (f : Nat → Nat → α) : Grid α n :=
  ⟨Vector.ofFn fun r => Vector.ofFn fun c => f r c⟩

def fill (a : α) : Grid α n :=
  ofFn fun _ _ => a

def get [Inhabited α] (g : Grid α n) (r c : Nat) : α :=
  if hr : r < n then if hc : c < n then (g.rows[r])[c] else default else default

def set (g : Grid α n) (r c : Nat) (a : α) : Grid α n :=
  if hr : r < n then ⟨g.rows.set r ((g.rows[r]).setIfInBounds c a)⟩ else g

/-- Write one cell after the other. -/
def setAll (g : Grid α n) (cells : List ((Nat × Nat) × α)) : Grid α n :=
  cells.foldl (fun g cell => g.set cell.1.1 cell.1.2 cell.2) g

variable [Inhabited α]

theorem get_ofFn {f : Nat → Nat → α} {r c : Nat} (hr : r < n) (hc : c < n) :
    (ofFn f : Grid α n).get r c = f r c := by
  simp [get, ofFn, hr, hc]

/-- Grids are equal where all their cells are. -/
theorem ext_get {g g' : Grid α n} (h : ∀ r c, r < n → c < n → g.get r c = g'.get r c) : g = g' := by
  cases g with
  | mk rows =>
      cases g' with
      | mk rows' =>
          congr 1
          refine Vector.ext fun r hr => Vector.ext fun c hc => ?_
          have hCell := h r c hr hc
          simpa [get, hr, hc] using hCell

theorem get_fill {a : α} {r c : Nat} (hr : r < n) (hc : c < n) :
    (fill a : Grid α n).get r c = a :=
  get_ofFn hr hc

theorem get_set_self {g : Grid α n} {r c : Nat} {a : α} (hr : r < n) (hc : c < n) :
    (g.set r c a).get r c = a := by
  simp [get, set, hr, hc]

theorem get_set_ne {g : Grid α n} {r c r' c' : Nat} {a : α} (h : (r', c') ≠ (r, c)) :
    (g.set r c a).get r' c' = g.get r' c' := by
  unfold get set
  split
  · next hr =>
      split
      · next hr' =>
          split
          · next hc' =>
              by_cases hRow : r = r'
              · subst hRow
                have hCol : c ≠ c' := fun hEq => h (by rw [hEq])
                simp [Vector.getElem_setIfInBounds_ne, hCol]
              · simp [Vector.getElem_set_ne, hRow]
          · rfl
      · rfl
  · rfl

theorem get_setAll_of_notMem {g : Grid α n} {cells : List ((Nat × Nat) × α)} {r c : Nat}
    (h : ∀ cell ∈ cells, cell.1 ≠ (r, c)) : (g.setAll cells).get r c = g.get r c := by
  induction cells generalizing g with
  | nil => rfl
  | cons cell rest ih =>
      have hRest : ∀ cell ∈ rest, cell.1 ≠ (r, c) := fun x hx => h x (List.mem_cons_of_mem _ hx)
      show ((g.set cell.1.1 cell.1.2 cell.2).setAll rest).get r c = _
      rw [ih hRest, get_set_ne fun hEq => h cell List.mem_cons_self hEq.symm]

/-- Where all the writes of a cell agree, it holds what they write. -/
theorem get_setAll_of_mem {g : Grid α n} {cells : List ((Nat × Nat) × α)} {r c : Nat} {a : α}
    (hr : r < n) (hc : c < n) (hMem : ((r, c), a) ∈ cells)
    (hSame : ∀ b, ((r, c), b) ∈ cells → b = a) : (g.setAll cells).get r c = a := by
  induction cells generalizing g with
  | nil => cases hMem
  | cons cell rest ih =>
      show ((g.set cell.1.1 cell.1.2 cell.2).setAll rest).get r c = _
      by_cases hRest : ∃ b, ((r, c), b) ∈ rest
      · obtain ⟨b, hb⟩ := hRest
        obtain rfl := hSame b (List.mem_cons_of_mem _ hb)
        exact ih hb fun b' hb' => hSame b' (List.mem_cons_of_mem _ hb')
      · rw [get_setAll_of_notMem]
        · obtain rfl | hLater := List.mem_cons.mp hMem
          · exact get_set_self hr hc
          · exact absurd ⟨a, hLater⟩ hRest
        · rintro ⟨p, b⟩ hp rfl
          exact hRest ⟨b, hp⟩

end Grid
end Collections
