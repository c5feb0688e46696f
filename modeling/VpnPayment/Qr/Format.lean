import VpnPayment.Qr.Placement

/-! The format information as a reader of the standard finds it, and what the
encoder writes there. -/
namespace VpnPayment.Qr

open Collections

/-- The modules of the first copy, most significant bit first. -/
def formatCopy1 : List (Nat × Nat) :=
  (List.range 6).map (fun c => (8, c)) ++ [(8, 7), (8, 8), (7, 8)] ++
    (List.range 6).map fun k => (5 - k, 8)

/-- The modules of the second copy, most significant bit first. -/
def formatCopy2 (size : Nat) : List (Nat × Nat) :=
  (List.range 7).map (fun k => (size - 1 - k, 8)) ++ (List.range 8).map fun k => (8, size - 8 + k)

/-- The word a reader finds in some modules. -/
def readWord {n : Nat} (grid : Grid Bool n) (cells : List (Nat × Nat)) : Nat :=
  ofBits (cells.map fun cell => grid.get cell.1 cell.2)

/-- The product of two polynomials over GF(2). -/
def carryless (p : Nat) : Nat → Nat → Nat
  | 0, _ => 0
  | width + 1, q => carryless p width q ^^^ if q.testBit width then p <<< width else 0

/-- The code words of the BCH(15,5) code. -/
def IsFormatCodeword (word : Nat) : Prop :=
  ∃ q < 2 ^ 5, word = carryless 0x537 5 q

/-- Both copies hold the code word of level M and of the mask of the symbol, and
the module next to the lower left finder pattern is dark. -/
structure FormatReadable (qr : QrMatrix) : Prop where
  same : readWord qr.modules formatCopy1 = readWord qr.modules (formatCopy2 qr.size)
  codeword : IsFormatCodeword (readWord qr.modules formatCopy1 ^^^ 0x5412)
  data : (readWord qr.modules formatCopy1 ^^^ 0x5412) >>> 10 = 0b00 <<< 3 ||| qr.mask
  dark : qr.modules.get (qr.size - 8) 8 = true

variable {version : Version} {mask : Nat} {modules : Grid (Option Bool) (symbolSize version)}

/-- What a candidate holds at a module that the version information leaves alone. -/
theorem get_maskedGrid_of_format {reserved : Grid Bool (symbolSize version)} {r c : Nat}
    (h : InFormat (symbolSize version) r c) :
    (maskedGrid version modules reserved mask).get r c =
      ((Grid.ofFn fun r c =>
        if reserved.get r c then decide (modules.get r c = some true)
        else decide (modules.get r c = some true) != maskFn mask r c :
          Grid Bool (symbolSize version)).setAll (formatCells (symbolSize version) mask)).get r c := by
  have hSize := symbolSize_le version
  have hVersion : ∀ cell ∈ versionCells (symbolSize version) (versionNumber version),
      cell.1 ≠ (r, c) := by
    rintro ⟨p, v⟩ hCell rfl
    have hInside := inVersion_of_mem_versionCells hSize hCell
    unfold InVersion at hInside
    unfold InFormat at h
    omega
  unfold maskedGrid
  dsimp only
  split
  · rw [Grid.get_setAll_of_notMem hVersion]
  · rfl

/-- The module next to the lower left finder pattern is overwritten with bit 7 of
the format information. -/
theorem get_dark_module {reserved : Grid Bool (symbolSize version)} :
    (maskedGrid version modules reserved mask).get (symbolSize version - 8) 8 =
      (bchFormat (0b00 <<< 3 ||| mask)).testBit 7 := by
  have hSize := symbolSize_le version
  rw [get_maskedGrid_of_format (.inr ⟨rfl, .inr (by omega)⟩)]
  refine Grid.get_setAll_of_mem (by omega) (by omega) ?_ fun v hv => ?_
  · refine List.mem_append_left _ (List.mem_append_right _ (List.mem_map.mpr ⟨7, by simp, ?_⟩))
    rw [show symbolSize version - 1 - 7 = symbolSize version - 8 by omega]
  · simp only [formatCells, List.mem_append, List.mem_map, List.mem_range, List.mem_range'_1,
      List.mem_cons, Prod.mk.injEq, List.not_mem_nil, or_false] at hv
    obtain (((⟨i, hi, h, -⟩ | h) | ⟨i, hi, h, -⟩) | ⟨i, hi, h, rfl⟩) | ⟨i, hi, h, -⟩ := hv
    · omega
    · omega
    · omega
    · rw [show i = 7 by omega]
    · omega

/-- The eighth module of the first copy holds bit 7. -/
theorem get_eighth_of_copy1 {reserved : Grid Bool (symbolSize version)} :
    (maskedGrid version modules reserved mask).get 8 8 =
      (bchFormat (0b00 <<< 3 ||| mask)).testBit 7 := by
  have hSize := symbolSize_le version
  rw [get_maskedGrid_of_format (.inl ⟨rfl, .inl le_rfl⟩)]
  refine Grid.get_setAll_of_mem (by omega) (by omega) ?_ fun v hv => ?_
  · refine List.mem_append_left _ (List.mem_append_left _ (List.mem_append_left _ ?_))
    exact List.mem_append_right _ (by simp)
  · simp only [formatCells, List.mem_append, List.mem_map, List.mem_range, List.mem_range'_1,
      List.mem_cons, Prod.mk.injEq, List.not_mem_nil, or_false] at hv
    obtain (((⟨i, hi, h, -⟩ | h) | ⟨i, hi, h, -⟩) | ⟨i, hi, h, -⟩) | ⟨i, hi, h, -⟩ := hv
    · omega
    · obtain h | ⟨-, rfl⟩ | h := h
      · omega
      · rfl
      · omega
    · omega
    · omega
    · omega

theorem encoderCentres_low : ∀ version : Version, ∀ p ∈ encoderCentres version, 16 ≤ p.1 := by
  decide

/-- The eighth module of the second copy is not written, and stays light. -/
theorem get_eighth_of_copy2 (codewords : List Nat) :
    (maskedGrid version (placeBits (functionLayout version) codewords)
      (functionLayout version).reserved mask).get 8 (symbolSize version - 8) = false := by
  have hSize := symbolSize_le version
  have hFormat : InFormat (symbolSize version) 8 (symbolSize version - 8) := .inl ⟨rfl, .inr (by omega)⟩
  have hReserved : (functionLayout version).reserved.get 8 (symbolSize version - 8) = true :=
    (reserved_iff (by omega) (by omega)).mpr (.inr (.inr (.inr (.inl hFormat))))
  have hFar : ∀ p ∈ encoderCentres version, ¬Near p 8 (symbolSize version - 8) := by
    intro p hp hNear
    have hLow := encoderCentres_low version p hp
    unfold Near at hNear
    omega
  have hBase : (functionLayout version).base.get 8 (symbolSize version - 8) = none := by
    refine base_eq_none (by omega) (by omega) ⟨?_, ?_⟩ hFar ?_
    · unfold InFinder
      omega
    · unfold InTiming
      omega
    · intro hEq
      have hRow := congrArg Prod.fst hEq
      simp only at hRow
      omega
  rw [get_maskedGrid_of_format hFormat, Grid.get_setAll_of_notMem,
    Grid.get_ofFn (by omega) (by omega), if_pos hReserved, get_placeBits_of_reserved hReserved, hBase]
  · rfl
  · rintro ⟨p, v⟩ hv rfl
    simp only [formatCells, List.mem_append, List.mem_map, List.mem_range, List.mem_range'_1,
      List.mem_cons, Prod.mk.injEq, List.not_mem_nil, or_false] at hv
    obtain (((⟨i, hi, h, -⟩ | h) | ⟨i, hi, h, -⟩) | ⟨i, hi, h, -⟩) | ⟨i, hi, h, -⟩ := hv <;> omega

/-- Two words read from fifteen modules each agree in every bit. -/
theorem get_of_readWord_eq {n : Nat} {grid : Grid Bool n} {xs ys : List (Nat × Nat)} {i : Nat}
    {x y : Nat × Nat} (hLength : xs.length = ys.length) (hx : xs[i]? = some x) (hy : ys[i]? = some y)
    (hSame : readWord grid xs = readWord grid ys) : grid.get x.1 x.2 = grid.get y.1 y.2 := by
  have hBits := congrArg (bitsOf xs.length) hSame
  unfold readWord at hBits
  rw [bitsOf_of_length (by simp), bitsOf_of_length (by simp [hLength])] at hBits
  have hBit := congrArg (·[i]?) hBits
  simpa [hx, hy] using hBit

/-- The dark module and the second copy take the same bit from different places. -/
theorem candidate_unreadable (text : String) (version : Version) (mask : Nat) :
    ¬FormatReadable ⟨version, mask, candidate text version mask⟩ := by
  intro hReadable
  have hSame := hReadable.same
  have hEighth := get_of_readWord_eq (i := 7) (x := (8, 8)) (y := (8, symbolSize version - 8))
    (by simp [formatCopy1, formatCopy2]) rfl (by rfl) hSame
  have hDark := hReadable.dark
  simp only [candidate, QrMatrix.size] at hEighth hDark
  rw [get_eighth_of_copy1, get_eighth_of_copy2] at hEighth
  rw [get_dark_module, hEighth] at hDark
  cases hDark

/-- No symbol the encoder makes carries format information that a reader of the
standard finds. -/
theorem format_never_readable {text : String} {qr : QrMatrix} (h : encodeToMatrix text = .ok qr) :
    ¬FormatReadable qr := by
  obtain ⟨version, -, rfl⟩ := encodeToMatrix_cases h
  exact candidate_unreadable text version _

theorem version_of_digit : chooseVersion "7" (detectMode "7") = .ok 0 := by
  decide

theorem format_never_readable_digit :
    ∃ qr, encodeToMatrix "7" = .ok qr ∧ ¬FormatReadable qr := by
  obtain ⟨qr, hQr, -⟩ := encodeToMatrix_of_version version_of_digit
  exact ⟨qr, hQr, format_never_readable hQr⟩

/-- A single digit. -/
theorem format_unreadable_digit :
    ¬∀ text qr, encodeToMatrix text = .ok qr → FormatReadable qr := by
  intro hAll
  obtain ⟨qr, hQr, -⟩ := encodeToMatrix_of_version version_of_digit
  obtain ⟨version, -, rfl⟩ := encodeToMatrix_cases hQr
  exact candidate_unreadable "7" version _ (hAll "7" _ hQr)

end VpnPayment.Qr
