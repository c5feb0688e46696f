import Mathlib.Data.List.Sort
import Mathlib.Order.Defs.LinearOrder

/-! Reading a sorted result page by page, with one query for each page. Rows of one
key may come in another order in every query. -/
namespace Collections

variable {Row κ : Type} [LinearOrder κ] {key : Row → κ} {n offset : Nat} {rows rows' : List Row}

/-- The rows of the greatest key come first. -/
def Descending (key : Row → κ) (rows : List Row) : Prop :=
  rows.Pairwise fun x y => key y ≤ key x

/-- The loop of a reader: it asks for the rows from an offset on, until it has as
many as there are in total. A query answers the total and the rows of a page. -/
inductive Reads (answers : Nat → Nat → List Row → Prop) (n : Nat) : Nat → List Row → Prop
  | last {offset total : Nat} {items : List Row} (page : answers offset total items)
      (hDone : total ≤ offset + n) : Reads answers n offset items
  | more {offset total : Nat} {items rest : List Row} (page : answers offset total items)
      (hMore : offset + n < total) (next : Reads answers n (offset + n) rest) :
      Reads answers n offset (items ++ rest)

/-- Every query has its rows in an order of its own. -/
def anyOrder (key : Row → κ) (rows : List Row) (n offset total : Nat) (items : List Row) : Prop :=
  ∃ order : List Row, order.Perm rows ∧ Descending key order ∧ total = rows.length ∧
    items = (order.drop offset).take n

/-- A page ends between two rows of one key. -/
def SplitsTie (key : Row → κ) (rows : List Row) (n : Nat) : Prop :=
  ∃ j x y, 0 < j ∧ rows[j * n - 1]? = some x ∧ rows[j * n]? = some y ∧ key x = key y

section sorted

/-- However ties are ordered, the keys come in one order. -/
theorem map_key_eq (hPerm : rows.Perm rows') (h : Descending key rows)
    (h' : Descending key rows') : rows.map key = rows'.map key := by
  have hKeys : (rows.map key).Pairwise (· ≥ ·) := List.pairwise_map.mpr h
  have hKeys' : (rows'.map key).Pairwise (· ≥ ·) := List.pairwise_map.mpr h'
  exact (hPerm.map key).eq_of_pairwise' hKeys hKeys'

theorem descending_of_map_eq (hKeys : rows.map key = rows'.map key) (h : Descending key rows) :
    Descending key rows' := by
  have hMap : (rows.map key).Pairwise (· ≥ ·) := List.pairwise_map.mpr h
  rw [hKeys] at hMap
  exact List.pairwise_map.mp hMap

/-- The rows behind a place that no tie goes over are those up to the key there. -/
theorem drop_eq_filter {p : Nat} {x y : Row} (h : Descending key rows) (hp : 0 < p)
    (hx : rows[p - 1]? = some x) (hy : rows[p]? = some y) (hNe : key x ≠ key y) :
    rows.drop p = rows.filter fun z => key z ≤ key y := by
  obtain ⟨hxLt, hxEq⟩ := List.getElem?_eq_some_iff.mp hx
  obtain ⟨hyLt, hyEq⟩ := List.getElem?_eq_some_iff.mp hy
  have hSorted := List.pairwise_iff_getElem.mp h
  have hLess : key y < key x := by
    refine lt_of_le_of_ne ?_ (Ne.symm hNe)
    have hStep := hSorted (p - 1) p hxLt hyLt (by omega)
    rwa [hxEq, hyEq] at hStep
  have hFront : (rows.take p).filter (fun z => key z ≤ key y) = [] := by
    apply List.filter_eq_nil_iff.mpr
    intro z hz
    obtain ⟨i, hi, rfl⟩ := List.mem_take_iff_getElem.mp hz
    have hAbove : key x ≤ key rows[i] := by
      rcases Nat.lt_or_ge i (p - 1) with hLt | hGe
      · have hStep := hSorted i (p - 1) (by omega) hxLt hLt
        rwa [hxEq] at hStep
      · have hSame : i = p - 1 := by omega
        subst hSame
        rw [hxEq]
    rw [decide_eq_true_eq, not_le]
    exact hLess.trans_le hAbove
  have hBack : (rows.drop p).filter (fun z => key z ≤ key y) = rows.drop p := by
    apply List.filter_eq_self.mpr
    intro z hz
    obtain ⟨i, hi, rfl⟩ := List.mem_drop_iff_getElem.mp hz
    rw [decide_eq_true_eq]
    cases i with
    | zero => simp [hyEq]
    | succ i =>
        have hStep := hSorted p (i + 1 + p) hyLt (by omega) (by omega)
        rw [hyEq] at hStep
        simpa [Nat.add_comm] using hStep
  calc rows.drop p = (rows.take p).filter (fun z => key z ≤ key y) ++
        (rows.drop p).filter (fun z => key z ≤ key y) := by rw [hFront, hBack, List.nil_append]
    _ = rows.filter fun z => key z ≤ key y := by rw [← List.filter_append, List.take_append_drop]

omit [LinearOrder κ] in
theorem getElem?_key {i : Nat} (hKeys : rows.map key = rows'.map key) :
    (rows[i]?).map key = (rows'[i]?).map key := by
  rw [← List.getElem?_map, hKeys, List.getElem?_map]

/-- Where no tie is split, the rest is the same rows in every order. -/
theorem drop_perm {p : Nat} (hPerm : rows.Perm rows') (h : Descending key rows)
    (h' : Descending key rows') (hFree : p = 0 ∨ ∀ x y, rows[p - 1]? = some x →
      rows[p]? = some y → key x ≠ key y) : (rows.drop p).Perm (rows'.drop p) := by
  cases hFree with
  | inl hZero =>
      subst hZero
      exact hPerm
  | inr hFree =>
      have hKeys := map_key_eq hPerm h h'
      cases hy : rows[p]? with
      | none =>
          have hLength := List.getElem?_eq_none_iff.mp hy
          rw [List.drop_eq_nil_of_le hLength, List.drop_eq_nil_of_le (hPerm.length_eq ▸ hLength)]
      | some y =>
          by_cases hp : p = 0
          · subst hp
            exact hPerm
          have hpLt := (List.getElem?_eq_some_iff.mp hy).1
          obtain ⟨x, hx⟩ : ∃ x, rows[p - 1]? = some x := by
            have hLt : p - 1 < rows.length := by omega
            exact ⟨rows[p - 1], List.getElem?_eq_getElem hLt⟩
          have hx' : (rows[p - 1]?).map key = (rows'[p - 1]?).map key := getElem?_key hKeys
          have hy' : (rows[p]?).map key = (rows'[p]?).map key := getElem?_key hKeys
          rw [hx, Option.map_some] at hx'
          rw [hy, Option.map_some] at hy'
          obtain ⟨x', hxAt, hxKey⟩ := Option.map_eq_some_iff.mp hx'.symm
          obtain ⟨y', hyAt, hyKey⟩ := Option.map_eq_some_iff.mp hy'.symm
          have hNe := hFree x y hx hy
          rw [drop_eq_filter h (by omega) hx hy hNe,
            drop_eq_filter h' (by omega) hxAt hyAt (by rw [hxKey, hyKey]; exact hNe), hyKey]
          exact hPerm.filter _

/-- Two rows of one key may change places. -/
theorem descending_swap {front back : List Row} {x y : Row} (hSame : key x = key y)
    (h : Descending key (front ++ x :: y :: back)) : Descending key (front ++ y :: x :: back) := by
  apply descending_of_map_eq _ h
  simp [hSame]

end sorted

section reads

variable {items : List Row}

theorem take_append_drop_page (order : List Row) (offset n : Nat) :
    (order.drop offset).take n ++ order.drop (offset + n) = order.drop offset := by
  rw [← List.drop_drop, List.take_append_drop]

/-- The keys are read in order, whatever the queries do with ties. -/
theorem map_key_of_reads (h : Descending key rows)
    (hReads : Reads (anyOrder key rows n) n offset items) :
    items.map key = (rows.drop offset).map key := by
  induction hReads with
  | @last offset total items page hDone =>
      obtain ⟨order, hPerm, hOrder, rfl, rfl⟩ := page
      have hAll : (order.drop offset).take n = order.drop offset := by
        apply List.take_of_length_le
        rw [List.length_drop, hPerm.length_eq]
        omega
      rw [hAll, List.map_drop, List.map_drop, map_key_eq hPerm hOrder h]
  | @more offset total items rest page hMore next ih =>
      obtain ⟨order, hPerm, hOrder, rfl, rfl⟩ := page
      have hKeys := map_key_eq hPerm hOrder h
      rw [List.map_append, ih, List.map_take, List.map_drop, List.map_drop, List.map_drop, hKeys,
        take_append_drop_page]

theorem perm_of_reads (h : Descending key rows) (hFree : ¬SplitsTie key rows n)
    (hReads : Reads (anyOrder key rows n) n offset items) :
    (∃ j, offset = j * n) → items.Perm (rows.drop offset) := by
  have hDrop : ∀ order j, order.Perm rows → Descending key order →
      (order.drop (j * n)).Perm (rows.drop (j * n)) := by
    intro order j hPerm hOrder
    apply List.Perm.symm
    apply drop_perm hPerm.symm h hOrder
    by_cases hZero : j = 0
    · subst hZero
      exact .inl (Nat.zero_mul n)
    · refine .inr fun x y hx hy hSame => hFree ⟨j, x, y, Nat.pos_of_ne_zero hZero, hx, hy, hSame⟩
  induction hReads with
  | @last offset total items page hDone =>
      intro hPage
      obtain ⟨j, rfl⟩ := hPage
      obtain ⟨order, hPerm, hOrder, rfl, rfl⟩ := page
      have hAll : (order.drop (j * n)).take n = order.drop (j * n) := by
        apply List.take_of_length_le
        rw [List.length_drop, hPerm.length_eq]
        omega
      rw [hAll]
      exact hDrop order j hPerm hOrder
  | @more offset total items rest page hMore next ih =>
      intro hPage
      obtain ⟨j, rfl⟩ := hPage
      obtain ⟨order, hPerm, hOrder, rfl, rfl⟩ := page
      have hNext : j * n + n = (j + 1) * n := (Nat.succ_mul j n).symm
      have hRest := (ih ⟨j + 1, hNext⟩).trans (hNext ▸ (hDrop order (j + 1) hPerm hOrder).symm)
      refine (hRest.append_left _).trans ?_
      rw [take_append_drop_page]
      exact hDrop order j hPerm hOrder

/-- With one order in every query the reader gets the rest of it. -/
theorem reads_drop {order : List Row} (hn : 0 < n) (hPerm : order.Perm rows)
    (hOrder : Descending key order) (offset : Nat) :
    Reads (anyOrder key rows n) n offset (order.drop offset) := by
  have hPage : anyOrder key rows n offset rows.length ((order.drop offset).take n) :=
    ⟨order, hPerm, hOrder, rfl, rfl⟩
  by_cases hDone : rows.length ≤ offset + n
  · have hAll : (order.drop offset).take n = order.drop offset := by
      apply List.take_of_length_le
      rw [List.length_drop, hPerm.length_eq]
      omega
    rw [hAll] at hPage
    exact .last hPage hDone
  · rw [← take_append_drop_page order offset n]
    exact .more hPage (by omega) (reads_drop hn hPerm hOrder (offset + n))
termination_by rows.length - offset

/-- What is read from a page on, with the pages before it read in one order. -/
theorem reads_take_append {order : List Row} (hPerm : order.Perm rows)
    (hOrder : Descending key order) (j : Nat) (hInside : j * n < rows.length)
    (hReads : Reads (anyOrder key rows n) n (j * n) items) :
    Reads (anyOrder key rows n) n 0 (order.take (j * n) ++ items) := by
  induction j generalizing items with
  | zero => simpa using hReads
  | succ j ih =>
      have hNext : (j + 1) * n = j * n + n := Nat.succ_mul j n
      rw [hNext] at hReads hInside
      have hPage : anyOrder key rows n (j * n) rows.length ((order.drop (j * n)).take n) :=
        ⟨order, hPerm, hOrder, rfl, rfl⟩
      have hFront := ih (by omega) (.more hPage hInside hReads)
      rwa [hNext, List.take_add, List.append_assoc]

/-- Where a page splits a tie some reading has a row twice. -/
theorem exists_reads_not_nodup (hn : 0 < n) (h : Descending key rows)
    (hTie : SplitsTie key rows n) :
    ∃ items, Reads (anyOrder key rows n) n 0 items ∧ ¬items.Nodup := by
  obtain ⟨j, x, y, hj, hx, hy, hSame⟩ := hTie
  have hPos : 0 < j * n := Nat.mul_pos hj hn
  obtain ⟨hxLt, hxEq⟩ := List.getElem?_eq_some_iff.mp hx
  obtain ⟨hyLt, hyEq⟩ := List.getElem?_eq_some_iff.mp hy
  -- The row before the boundary and the one behind it change places for the later pages.
  have hRows : rows = rows.take (j * n - 1) ++ x :: y :: rows.drop (j * n + 1) := by
    have hStep : j * n - 1 + 1 = j * n := by omega
    have hTail : rows.drop (j * n - 1) = x :: y :: rows.drop (j * n + 1) := by
      rw [List.drop_eq_getElem_cons hxLt, hxEq, hStep, List.drop_eq_getElem_cons hyLt, hyEq]
    rw [← hTail, List.take_append_drop]
  let swapped := rows.take (j * n - 1) ++ y :: x :: rows.drop (j * n + 1)
  have hPerm : swapped.Perm rows := by
    conv_rhs => rw [hRows]
    exact (List.Perm.swap x y _).append_left _
  have hOrder : Descending key swapped := descending_swap hSame (hRows ▸ h)
  have hReads := reads_take_append (.refl rows) h j hyLt (reads_drop hn hPerm hOrder (j * n))
  refine ⟨_, hReads, ?_⟩
  intro hNodup
  have hFront : x ∈ rows.take (j * n) := by
    apply List.mem_take_iff_getElem.mpr
    exact ⟨j * n - 1, by omega, hxEq⟩
  have hBack : x ∈ swapped.drop (j * n) := by
    have hAt : swapped[j * n]? = some x := by
      have hLength : (rows.take (j * n - 1)).length = j * n - 1 := by
        rw [List.length_take]
        omega
      rw [List.getElem?_append_right (by omega), hLength]
      have hOne : j * n - (j * n - 1) = 1 := by omega
      rw [hOne]
      rfl
    exact List.mem_of_getElem? (List.getElem?_drop (i := j * n) (j := 0) ▸ hAt)
  exact (List.nodup_append.mp hNodup).2.2 x hFront x hBack rfl

/-- Every reading has every row once exactly where no page splits a tie. -/
theorem reads_partition_iff (hn : 0 < n) (h : Descending key rows) (hNodup : rows.Nodup) :
    (∀ items, Reads (anyOrder key rows n) n 0 items → items.Perm rows ∧ Descending key items) ↔
      ¬SplitsTie key rows n := by
  constructor
  · intro hAll hTie
    obtain ⟨items, hReads, hTwice⟩ := exists_reads_not_nodup hn h hTie
    exact hTwice ((hAll items hReads).1.nodup_iff.mpr hNodup)
  · intro hFree items hReads
    refine ⟨perm_of_reads h hFree hReads ⟨0, (Nat.zero_mul n).symm⟩, ?_⟩
    exact descending_of_map_eq (map_key_of_reads h hReads).symm h

/-- A reading of queries that all have one order is that order. -/
theorem eq_of_reads_fixed {answers : Nat → Nat → List Row → Prop}
    (hFixed : ∀ offset total items, answers offset total items →
      total = rows.length ∧ items = (rows.drop offset).take n)
    (hReads : Reads answers n offset items) : items = rows.drop offset := by
  induction hReads with
  | @last offset total items page hDone =>
      obtain ⟨rfl, rfl⟩ := hFixed _ _ _ page
      apply List.take_of_length_le
      rw [List.length_drop]
      omega
  | @more offset total items rest page hMore next ih =>
      obtain ⟨rfl, rfl⟩ := hFixed _ _ _ page
      rw [ih, take_append_drop_page]

end reads

end Collections
