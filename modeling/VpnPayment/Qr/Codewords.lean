import VpnPayment.Qr.Encoder

/-! The codeword stream: how long its parts are, and how the data codewords are
dealt back to their blocks. -/
namespace VpnPayment.Qr

open Collections

section interleaving

variable {blocks : List (List Nat)} {rest : List Nat} {k : Nat}

/-- One more round takes one more codeword of every block. -/
theorem interleave_succ (blocks : List (List Nat)) (k : Nat) :
    interleave blocks (k + 1) = interleave blocks k ++ blocks.filterMap fun block => block[k]? := by
  simp [interleave, List.range_succ]

/-- Interleaving loses no codeword. -/
theorem length_interleave {longest : Nat} (h : ∀ block ∈ blocks, block.length ≤ longest) :
    (interleave blocks longest).length = (blocks.map List.length).sum := by
  have hColumn : ∀ k, (blocks.map fun block => min block.length k).sum +
      (blocks.filterMap fun block => block[k]?).length =
      (blocks.map fun block => min block.length (k + 1)).sum := by
    intro k
    clear h
    induction blocks with
    | nil => rfl
    | cons block rest ih =>
        by_cases hLong : k < block.length
        · simp only [List.map_cons, List.sum_cons, List.filterMap_cons,
            List.getElem?_eq_getElem hLong, List.length_cons]
          omega
        · simp only [List.map_cons, List.sum_cons, List.filterMap_cons,
            List.getElem?_eq_none (not_lt.mp hLong)]
          omega
  have hAll : ∀ k, (interleave blocks k).length =
      (blocks.map fun block => min block.length k).sum := by
    intro k
    induction k with
    | zero => simp [interleave]
    | succ k ih => rw [interleave_succ, List.length_append, ih, hColumn]
  rw [hAll]
  refine congrArg List.sum (List.map_congr_left fun block hBlock => ?_)
  exact Nat.min_eq_left (h block hBlock)

/-- One round deals the next codeword of every block that has one. -/
theorem dealRound_column (blocks : List (List Nat)) (k : Nat) (rest : List Nat) :
    dealRound k (blocks.map List.length) (blocks.map (List.take k))
      (blocks.filterMap (fun block => block[k]?) ++ rest) = (blocks.map (List.take (k + 1)), rest) := by
  induction blocks with
  | nil => rfl
  | cons block blocks ih =>
      by_cases hLong : k < block.length
      · simp only [List.map_cons, List.filterMap_cons, List.getElem?_eq_getElem hLong, dealRound,
          if_pos hLong, List.cons_append, List.tail_cons, List.headD_cons, ih,
          List.take_append_getElem hLong]
      · have hAll : block.take k = block.take (k + 1) := by
          rw [List.take_of_length_le (by omega), List.take_of_length_le (by omega)]
        simp only [List.map_cons, List.filterMap_cons, List.getElem?_eq_none (not_lt.mp hLong),
          dealRound, if_neg hLong, ih, hAll]

/-- Dealing an interleaved stream gives the blocks back, whatever follows. -/
theorem deinterleave_interleave {longest : Nat} (h : ∀ block ∈ blocks, block.length ≤ longest)
    (rest : List Nat) :
    deinterleave (blocks.map List.length) longest (interleave blocks longest ++ rest) = blocks := by
  have hRounds : ∀ k rest, (List.range k).foldl
      (fun (st : List (List Nat) × List Nat) i => dealRound i (blocks.map List.length) st.1 st.2)
      ((blocks.map List.length).map fun _ => [], interleave blocks k ++ rest) =
      (blocks.map (List.take k), rest) := by
    intro k
    induction k with
    | zero =>
        intro rest
        have hNone : (blocks.map List.length).map (fun _ => ([] : List Nat)) =
            blocks.map (List.take 0) := by
          rw [List.map_map]
          rfl
        rw [hNone]
        rfl
    | succ k ih =>
        intro rest
        rw [interleave_succ, List.append_assoc, List.range_succ, List.foldl_append, ih]
        exact dealRound_column blocks k rest
  rw [deinterleave, hRounds]
  conv_rhs => rw [← List.map_id blocks]
  exact List.map_congr_left fun block hBlock => List.take_of_length_le (h block hBlock)

end interleaving

section blocks

variable {sizes data : List Nat}

theorem length_splitBlocks (sizes data : List Nat) :
    (splitBlocks sizes data).length = sizes.length := by
  induction sizes generalizing data with
  | nil => rfl
  | cons size sizes ih => rw [splitBlocks, List.length_cons, ih, List.length_cons]

/-- The blocks have the lengths asked for. -/
theorem map_length_splitBlocks (h : sizes.sum = data.length) :
    (splitBlocks sizes data).map List.length = sizes := by
  induction sizes generalizing data with
  | nil => rfl
  | cons size sizes ih =>
      rw [List.sum_cons] at h
      have hRest : sizes.sum = (data.drop size).length := by
        rw [List.length_drop]
        omega
      rw [splitBlocks, List.map_cons, ih hRest, List.length_take, Nat.min_eq_left (by omega)]

/-- Splitting loses no codeword. -/
theorem flatten_splitBlocks (h : sizes.sum = data.length) :
    (splitBlocks sizes data).flatten = data := by
  induction sizes generalizing data with
  | nil => simpa [splitBlocks] using h.symm
  | cons size sizes ih =>
      rw [List.sum_cons] at h
      have hRest : sizes.sum = (data.drop size).length := by
        rw [List.length_drop]
        omega
      rw [splitBlocks, List.flatten_cons, ih hRest, List.take_append_drop]

end blocks

theorem length_rsGenerator (degree : Nat) : (rsGenerator degree).length = degree + 1 := by
  unfold rsGenerator
  induction degree with
  | zero => rfl
  | succ degree ih =>
      rw [List.range_succ, List.foldl_append]
      simp [ih]

theorem length_rsEncode (data : List Nat) (ecLen : Nat) (h : 0 < ecLen) :
    (rsEncode data ecLen).length = ecLen := by
  unfold rsEncode
  refine List.foldlRecOn data _ (motive := fun (res : List Nat) => res.length = ecLen) (by simp) ?_
  intro res hRes b _
  have hShifted : (res.tail ++ [0]).length = ecLen := by
    rw [List.length_append, List.length_tail, hRes]
    exact Nat.sub_add_cancel h
  dsimp only
  split
  · rw [List.length_zipWith, hShifted, List.length_tail, length_rsGenerator]
    exact Nat.min_self ecLen
  · exact hShifted

section data

variable {text : String} {mode : Mode} {version : Version}

/-- Three digits take ten bits, two take seven and one takes four. -/
theorem length_numericBits (digits : List Char) :
    (numericBits digits).length = digits.length / 3 * 10 + [0, 4, 7].getD (digits.length % 3) 0 := by
  induction digits using numericBits.induct with
  | case1 a b c rest ih =>
      have hDiv : (a :: b :: c :: rest).length / 3 = rest.length / 3 + 1 := by
        simp only [List.length_cons]
        omega
      have hMod : (a :: b :: c :: rest).length % 3 = rest.length % 3 := by
        simp only [List.length_cons]
        omega
      rw [numericBits, List.length_append, length_bitsOf, ih, hDiv, hMod]
      omega
  | case2 a b => simp [numericBits]
  | case3 a => simp [numericBits]
  | case4 => rfl

theorem textLength_of_numeric (h : detectMode text = .numeric) :
    textLength text = text.toList.length := by
  have hDigits : ∀ c ∈ text.toList, (if c.toNat < 0x10000 then 1 else 2) = 1 := by
    unfold detectMode at h
    split at h
    · next hAll =>
        intro c hc
        have hDigit := List.all_eq_true.mp hAll c hc
        simp only [Char.isDigit, Bool.and_eq_true, decide_eq_true_eq] at hDigit
        have hLow : c.toNat ≤ 57 := hDigit.2
        rw [if_pos (by omega)]
    · cases h
  unfold textLength
  rw [List.map_congr_left hDigits]
  simp

/-- The bits of a text are as many as were counted for its version. -/
theorem length_encodeData (h : detectMode text = mode) :
    (encodeData text mode version).length = need text mode version := by
  cases mode with
  | numeric =>
      simp only [encodeData, need, List.length_append, length_bitsOf, length_numericBits,
        textLength_of_numeric h]
  | byte =>
      simp [encodeData, need, List.length_flatMap, Nat.add_assoc]

/-- The data is followed by zero bits up to a byte boundary within the capacity. -/
theorem terminate_eq {bits : List Bool} {capacity : Nat} (hFits : bits.length ≤ capacity) :
    ∃ zeros, terminate bits capacity = bits ++ zeros ∧
      (terminate bits capacity).length % 8 = 0 ∧
      (capacity % 8 = 0 → (terminate bits capacity).length ≤ capacity) := by
  have hShort : ∃ zeros, (List.range 4).foldl
      (fun bits _ => if bits.length < capacity then bits ++ [false] else bits) bits = bits ++ zeros ∧
      (bits ++ zeros).length ≤ capacity := by
    refine List.foldlRecOn (List.range 4) _
      (motive := fun b => ∃ zeros, b = bits ++ zeros ∧ (bits ++ zeros).length ≤ capacity)
      ⟨[], by simp, by simpa using hFits⟩ ?_
    rintro _ ⟨zeros, rfl, hLe⟩ _ _
    split
    · next hLt => exact ⟨zeros ++ [false], by simp, by simp at hLt ⊢; omega⟩
    · exact ⟨zeros, rfl, hLe⟩
  obtain ⟨zeros, hEq, hLe⟩ := hShort
  refine ⟨zeros ++ List.replicate ((8 - (bits ++ zeros).length % 8) % 8) false, ?_, ?_, ?_⟩
  · simp only [terminate, hEq, List.append_assoc]
  · simp only [terminate, hEq, List.length_append, List.length_replicate]
    omega
  · intro hWhole
    simp only [terminate, hEq, List.length_append, List.length_replicate] at hLe ⊢
    omega

/-- The content fits the version it is encoded in. -/
theorem need_le_of_chooseVersion (h : chooseVersion text mode = .ok version) :
    need text mode version ≤ totalDataCodewords version * 8 := by
  unfold chooseVersion at h
  split at h
  · next found hFound =>
      cases h
      simpa using List.find?_some hFound
  · cases h

/-- The data codewords fill the symbol, and start with the bits of the content. -/
theorem dataCodewords_spec (hMode : detectMode text = mode)
    (hFits : need text mode version ≤ totalDataCodewords version * 8) :
    (dataCodewords text mode version).length = totalDataCodewords version ∧
      (∀ byte ∈ dataCodewords text mode version, byte < 256) ∧
      ∃ rest, (dataCodewords text mode version).flatMap (bitsOf 8) =
        encodeData text mode version ++ rest := by
  have hLength := @length_encodeData _ _ version hMode
  obtain ⟨zeros, hEq, hWhole, hLe⟩ := terminate_eq (hLength ▸ hFits)
  have hBytes := length_toBytes
    (terminate (encodeData text mode version) (totalDataCodewords version * 8))
  have hShort := hLe (Nat.mul_mod_left _ _)
  refine ⟨?_, ?_, ?_⟩
  · simp only [dataCodewords, padCodewords, List.length_append, List.length_map, List.length_range,
      hBytes]
    omega
  · intro byte hByte
    rw [dataCodewords, padCodewords, List.mem_append] at hByte
    obtain hData | hPad := hByte
    · exact lt_of_mem_toBytes hData
    · obtain ⟨i, -, rfl⟩ := List.mem_map.mp hPad
      split <;> decide
  · have hAll : 8 * ((terminate (encodeData text mode version)
        (totalDataCodewords version * 8)).length / 8) =
        (terminate (encodeData text mode version) (totalDataCodewords version * 8)).length := by
      omega
    rw [dataCodewords, padCodewords, List.flatMap_append, flatMap_toBytes, hAll, List.take_length,
      hEq, List.append_assoc]
    exact ⟨_, rfl⟩

/-- The blocks of every version have all its data codewords. -/
theorem sum_blockSizes : ∀ version : Version,
    (blockSizes version).sum = totalDataCodewords version := by
  decide

theorem blockSizes_le : ∀ version : Version, ∀ size ∈ blockSizes version,
    size ≤ maxData version := by
  decide

/-- The data blocks of a text. -/
def dataBlocks (text : String) (mode : Mode) (version : Version) : List (List Nat) :=
  splitBlocks (blockSizes version) (dataCodewords text mode version)

/-- A text that fits is padded to the blocks of its version. -/
theorem dataBlocks_spec (hMode : detectMode text = mode)
    (hFits : need text mode version ≤ totalDataCodewords version * 8) :
    (dataBlocks text mode version).map List.length = blockSizes version ∧
      (∀ block ∈ dataBlocks text mode version, block.length ≤ maxData version) ∧
      (dataBlocks text mode version).flatten = dataCodewords text mode version := by
  have hSum : (blockSizes version).sum = (dataCodewords text mode version).length := by
    rw [sum_blockSizes, (dataCodewords_spec hMode hFits).1]
  have hLengths := map_length_splitBlocks hSum
  refine ⟨hLengths, fun block hBlock => ?_, flatten_splitBlocks hSum⟩
  refine blockSizes_le version block.length ?_
  rw [← hLengths]
  exact List.mem_map_of_mem hBlock

/-- The data codewords, interleaved, come before the correction codewords. -/
theorem buildCodewords_eq (text : String) (mode : Mode) (version : Version) :
    ∃ ec, buildCodewords text mode version =
      interleave (dataBlocks text mode version) (maxData version) ++ ec ∧
      ec.length = (blockSizes version).length * (ecM version).ecPerBlock := by
  have hPos : ∀ version : Version, 0 < (ecM version).ecPerBlock := by decide
  have hEc : ∀ ec ∈ (dataBlocks text mode version).map fun block =>
      rsEncode block (ecM version).ecPerBlock, ec.length = (ecM version).ecPerBlock := by
    intro ec hMem
    obtain ⟨block, -, rfl⟩ := List.mem_map.mp hMem
    exact length_rsEncode block _ (hPos version)
  refine ⟨interleave ((dataBlocks text mode version).map fun block =>
    rsEncode block (ecM version).ecPerBlock) (ecM version).ecPerBlock, rfl, ?_⟩
  rw [length_interleave fun ec hMem => (hEc ec hMem).le, List.map_congr_left hEc]
  simp [dataBlocks, length_splitBlocks, Function.comp_def]

/-- The number of all codewords of a symbol. -/
def totalCodewords (version : Version) : Nat :=
  totalDataCodewords version + (blockSizes version).length * (ecM version).ecPerBlock

/-- The codewords fill the symbol. -/
theorem length_buildCodewords (hMode : detectMode text = mode)
    (hFits : need text mode version ≤ totalDataCodewords version * 8) :
    (buildCodewords text mode version).length = totalCodewords version := by
  obtain ⟨ec, hEq, hLength⟩ := buildCodewords_eq text mode version
  obtain ⟨hBlocks, hLong, -⟩ := dataBlocks_spec hMode hFits
  rw [hEq, List.length_append, hLength, length_interleave hLong, hBlocks, sum_blockSizes,
    totalCodewords]

end data
end VpnPayment.Qr
