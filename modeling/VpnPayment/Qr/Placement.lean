import VpnPayment.Qr.Layout
import VpnPayment.Qr.Zigzag

/-! Where the bits of the codewords end up, and what a reader of the data modules
gets back once the mask is taken off. -/
namespace VpnPayment.Qr

open Collections

section place

variable {n : Nat} {reserved : Grid Bool n} {codewords : List Nat}
  {st : Grid (Option Bool) n × Nat} {cells : List (Nat × Nat)} {r c : Nat}

/-- A cell that is reserved or not visited keeps its value. -/
theorem get_foldl_placeBit_frame
    (h : ∀ cell ∈ cells, reserved.get cell.1 cell.2 = true ∨ (r, c) ≠ cell) :
    (cells.foldl (placeBit reserved codewords) st).1.get r c = st.1.get r c := by
  induction cells generalizing st with
  | nil => rfl
  | cons cell rest ih =>
      rw [List.foldl_cons, ih fun x hx => h x (List.mem_cons_of_mem _ hx), placeBit]
      split
      · rfl
      · next hData =>
          exact Grid.get_set_ne ((h cell List.mem_cons_self).resolve_left hData)

theorem codewordBit_of_le {i : Nat} (h : codewords.length * 8 ≤ i) :
    codewordBit codewords i = false := by
  rw [codewordBit, if_neg (by omega)]

/-- The cells that take a bit hold the bits of the stream in turn. -/
theorem map_get_foldl_placeBit (hNodup : cells.Nodup) (hIn : ∀ cell ∈ cells, cell.1 < n ∧ cell.2 < n) :
    (cells.filter fun cell => !reserved.get cell.1 cell.2).map
      (fun cell => (cells.foldl (placeBit reserved codewords) st).1.get cell.1 cell.2) =
      (List.range (cells.filter fun cell => !reserved.get cell.1 cell.2).length).map
        fun j => some (codewordBit codewords (st.2 + j)) := by
  induction cells generalizing st with
  | nil => rfl
  | cons cell rest ih =>
      obtain ⟨hNew, hRest⟩ := List.nodup_cons.mp hNodup
      have hInRest := fun x hx => hIn x (List.mem_cons_of_mem _ hx)
      rw [List.foldl_cons]
      by_cases hTaken : reserved.get cell.1 cell.2 = true
      · rw [List.filter_cons_of_neg (by simp [hTaken]), ih hRest hInRest, placeBit, if_pos hTaken]
      · rw [List.filter_cons_of_pos (by simp [hTaken]), List.map_cons, ih hRest hInRest,
          List.length_cons, List.range_succ_eq_map, List.map_cons, List.map_map]
        congr 1
        · rw [get_foldl_placeBit_frame fun x hx => .inr ?_, placeBit,
            if_neg hTaken]
          · exact Grid.get_set_self (hIn cell List.mem_cons_self).1 (hIn cell List.mem_cons_self).2
          · rintro rfl
            exact hNew hx
        · refine List.map_congr_left fun j _ => ?_
          rw [placeBit, if_neg hTaken, Function.comp_apply]
          by_cases hEnd : st.2 < codewords.length * 8
          · simp only [hEnd, if_true]
            rw [Nat.succ_eq_add_one, Nat.add_right_comm, Nat.add_assoc]
          · -- past the end of the stream every bit is light
            simp only [hEnd, if_false]
            rw [codewordBit_of_le (by omega), codewordBit_of_le (by omega)]

end place

section symbol

variable {version : Version} {codewords : List Nat} {mask r c : Nat}

theorem symbolSize_eq (version : Version) :
    symbolSize version = 2 * (8 + 2 * versionNumber version) + 1 := by
  unfold symbolSize
  omega

theorem mem_zigzag_symbolSize : (r, c) ∈ zigzag (symbolSize version) ↔
    r < symbolSize version ∧ c < symbolSize version ∧ c ≠ 6 := by
  rw [symbolSize_eq]
  exact mem_zigzag (by omega)

theorem nodup_zigzag_symbolSize : (zigzag (symbolSize version)).Nodup := by
  rw [symbolSize_eq]
  exact nodup_zigzag (by omega)

/-- The cells that carry data, in the order in which they are filled. -/
def dataCells (version : Version) : List (Nat × Nat) :=
  (zigzag (symbolSize version)).filter fun cell =>
    !(functionLayout version).reserved.get cell.1 cell.2

theorem mem_dataCells : (r, c) ∈ dataCells version ↔ r < symbolSize version ∧
    c < symbolSize version ∧ (functionLayout version).reserved.get r c = false := by
  rw [dataCells, List.mem_filter, mem_zigzag_symbolSize]
  constructor
  · rintro ⟨⟨hr, hc, -⟩, hData⟩
    exact ⟨hr, hc, by simpa using hData⟩
  · rintro ⟨hr, hc, hData⟩
    refine ⟨⟨hr, hc, ?_⟩, by simpa using hData⟩
    -- column 6 is a timing line
    rintro rfl
    have hSize := symbolSize_le version
    have hTaken : (functionLayout version).reserved.get r 6 = true := by
      refine (reserved_iff hr hc).mpr ?_
      unfold FunctionModule InFinder InTiming InFormat
      omega
    simp [hData] at hTaken

theorem map_get_placeBits (version : Version) (codewords : List Nat) :
    (dataCells version).map
      (fun cell => (placeBits (functionLayout version) codewords).get cell.1 cell.2) =
      (List.range (dataCells version).length).map fun j => some (codewordBit codewords j) := by
  have hIn : ∀ cell ∈ zigzag (symbolSize version),
      cell.1 < symbolSize version ∧ cell.2 < symbolSize version := by
    rintro ⟨r, c⟩ hCell
    obtain ⟨hr, hc, -⟩ := mem_zigzag_symbolSize.mp hCell
    exact ⟨hr, hc⟩
  have hAll := @map_get_foldl_placeBit _ (functionLayout version).reserved codewords
    ((functionLayout version).base, 0) _ nodup_zigzag_symbolSize hIn
  simp only [Nat.zero_add] at hAll
  exact hAll

/-- A reserved cell is not written. -/
theorem get_placeBits_of_reserved (h : (functionLayout version).reserved.get r c = true) :
    (placeBits (functionLayout version) codewords).get r c =
      (functionLayout version).base.get r c := by
  refine get_foldl_placeBit_frame fun cell _ => ?_
  by_cases hCell : (r, c) = cell
  · exact .inl (hCell ▸ h)
  · exact .inr hCell

/-- The format information is written inside its area. -/
theorem inFormat_of_mem_formatCells {size : Nat} (hSize : 21 ≤ size) {v : Bool}
    (h : ((r, c), v) ∈ formatCells size mask) : InFormat size r c := by
  simp only [formatCells, List.mem_append, List.mem_map, List.mem_range, List.mem_range'_1,
    List.mem_cons, Prod.mk.injEq, List.not_mem_nil, or_false] at h
  unfold InFormat
  obtain (((⟨i, hi, h, -⟩ | h) | ⟨i, hi, h, -⟩) | ⟨i, hi, h, -⟩) | ⟨i, hi, h, -⟩ := h <;> omega

/-- The version information is written inside its area. -/
theorem inVersion_of_mem_versionCells {size number : Nat} (hSize : 21 ≤ size) {v : Bool}
    (h : ((r, c), v) ∈ versionCells size number) : InVersion size r c := by
  simp only [versionCells, List.mem_flatMap, List.mem_range, List.mem_cons, Prod.mk.injEq,
    List.not_mem_nil, or_false] at h
  unfold InVersion
  obtain ⟨i, hi, h⟩ := h
  omega

/-- What is written over a masked symbol afterwards leaves the data alone. -/
theorem get_maskedGrid_of_data {modules : Grid (Option Bool) (symbolSize version)}
    (hr : r < symbolSize version) (hc : c < symbolSize version)
    (h : (functionLayout version).reserved.get r c = false) :
    (maskedGrid version modules (functionLayout version).reserved mask).get r c =
      (decide (modules.get r c = some true) != maskFn mask r c) := by
  have hNot : ¬FunctionModule version (encoderCentres version) r c := by
    rw [← reserved_iff hr hc, h]
    exact Bool.false_ne_true
  have hFormat : ∀ cell ∈ formatCells (symbolSize version) mask, cell.1 ≠ (r, c) := by
    rintro ⟨p, v⟩ hCell rfl
    exact hNot (.inr (.inr (.inr (.inl (inFormat_of_mem_formatCells (symbolSize_le version) hCell)))))
  have hGrid : ∀ f : Nat → Nat → Bool, ((Grid.ofFn f : Grid Bool (symbolSize version)).setAll
      (formatCells (symbolSize version) mask)).get r c = f r c := by
    intro f
    rw [Grid.get_setAll_of_notMem hFormat, Grid.get_ofFn hr hc]
  unfold maskedGrid
  simp only
  split
  · next hSeven =>
      rw [Grid.get_setAll_of_notMem, hGrid, h]
      · rfl
      · rintro ⟨p, v⟩ hCell rfl
        exact hNot (.inr (.inr (.inr (.inr ⟨hSeven,
          inVersion_of_mem_versionCells (symbolSize_le version) hCell⟩))))
  · rw [hGrid, h]
    rfl

/-- The symbols that are candidates for a text, one for each mask. -/
def candidate (text : String) (version : Version) (mask : Nat) : Grid Bool (symbolSize version) :=
  maskedGrid version (placeBits (functionLayout version)
    (buildCodewords text (detectMode text) version)) (functionLayout version).reserved mask

/-- Data module `i` of a candidate holds bit `i` of the codewords under the mask. -/
theorem get_candidate {text : String} {i : Nat} {cell : Nat × Nat}
    (h : (dataCells version)[i]? = some cell) :
    (candidate text version mask).get cell.1 cell.2 =
      (codewordBit (buildCodewords text (detectMode text) version) i !=
        maskFn mask cell.1 cell.2) := by
  obtain ⟨hr, hc, hData⟩ := mem_dataCells.mp (List.mem_of_getElem? h)
  have hBits := congrArg (·[i]?) (map_get_placeBits version
    (buildCodewords text (detectMode text) version))
  obtain ⟨hi, -⟩ := List.getElem?_eq_some_iff.mp h
  simp only [List.getElem?_map, h, Option.map_some, List.getElem?_range hi, Option.some.injEq]
    at hBits
  rw [candidate, get_maskedGrid_of_data hr hc hData, hBits]
  simp

/-- A text is encoded in the smallest version that fits, under the best mask. -/
theorem encodeToMatrix_cases {text : String} {qr : QrMatrix} (h : encodeToMatrix text = .ok qr) :
    ∃ version, chooseVersion text (detectMode text) = .ok version ∧
      qr = ⟨version, bestMask (candidate text version),
        candidate text version (bestMask (candidate text version))⟩ := by
  unfold encodeToMatrix at h
  dsimp only at h
  cases hVersion : chooseVersion text (detectMode text) with
  | error e =>
      rw [hVersion] at h
      cases h
  | ok version =>
      rw [hVersion] at h
      exact ⟨version, rfl, (Except.ok.inj h).symm⟩

theorem encodeToMatrix_of_version {text : String} {version : Version}
    (h : chooseVersion text (detectMode text) = .ok version) :
    ∃ qr, encodeToMatrix text = .ok qr ∧ qr.version = version := by
  unfold encodeToMatrix
  dsimp only
  rw [h]
  exact ⟨_, rfl, rfl⟩

end symbol
end VpnPayment.Qr
