import VpnPayment.Qr.Segments
import VpnPayment.Qr.Region

/-! What the decoder gets back from the symbol of a text: the bits of the codewords,
the data codewords, the content. -/
namespace VpnPayment.Qr

open Collections

/-- The content takes no more bits than the data codewords of a version hold. -/
def FitsVersion (version : Version) (text : String) : Prop :=
  need text (detectMode text) version ≤ totalDataCodewords version * 8

instance (version : Version) (text : String) : Decidable (FitsVersion version text) :=
  inferInstanceAs (Decidable (_ ≤ _))

variable {text : String} {version : Version} {mask : Nat}

/-- The smallest version is found when some version fits. -/
theorem chooseVersion_of_fits (h : FitsVersion version text) :
    ∃ chosen, chooseVersion text (detectMode text) = .ok chosen := by
  have hSome : ((List.finRange 10).find? fun v =>
      need text (detectMode text) v ≤ totalDataCodewords v * 8).isSome = true := by
    rw [List.find?_isSome]
    exact ⟨version, List.mem_finRange version, by simpa [FitsVersion] using h⟩
  obtain ⟨chosen, hChosen⟩ := Option.isSome_iff_exists.mp hSome
  refine ⟨chosen, ?_⟩
  unfold chooseVersion
  rw [hChosen]

section bits

/-- The bits of the codewords one after the other. -/
theorem map_codewordBit (codewords : List Nat) :
    (List.range (8 * codewords.length)).map (codewordBit codewords) =
      codewords.flatMap (bitsOf 8) := by
  induction codewords with
  | nil => rfl
  | cons byte codewords ih =>
      have hLength : 8 * (byte :: codewords).length = 8 + 8 * codewords.length := by
        rw [List.length_cons]
        omega
      rw [hLength, List.range_add, List.map_append, List.flatMap_cons, ← ih, List.map_map]
      congr 1
      · refine List.map_congr_left fun i hi => ?_
        have hLess := List.mem_range.mp hi
        rw [codewordBit, if_pos (by rw [List.length_cons]; omega), Nat.div_eq_of_lt hLess,
          Nat.mod_eq_of_lt hLess]
        rfl
      · refine List.map_congr_left fun i _ => ?_
        have hDiv : (8 + i) / 8 = i / 8 + 1 := by omega
        have hMod : (8 + i) % 8 = i % 8 := by omega
        have hBound : 8 + i < (byte :: codewords).length * 8 ↔ i < codewords.length * 8 := by
          rw [List.length_cons]
          omega
        simp only [Function.comp_apply, codewordBit, hDiv, hMod, hBound, List.getD_cons_succ]

theorem codewords_fit : ∀ version : Version, 8 * totalCodewords version ≤ dataModules version := by
  decide

/-- The decoder reads the bits of the codewords, and then the remainder. -/
theorem readBits_candidate (h : FitsVersion version text) :
    ∃ rest, readBits ⟨version, mask, candidate text version mask⟩ =
      (buildCodewords text (detectMode text) version).flatMap (bitsOf 8) ++ rest := by
  have hCells : readBits ⟨version, mask, candidate text version mask⟩ =
      (dataCells version).map fun cell =>
        (candidate text version mask).get cell.1 cell.2 != maskFn mask cell.1 cell.2 := by
    rw [dataCells, ← List.filterMap_eq_map, List.filterMap_filter]
    refine List.filterMap_congr fun cell _ => ?_
    simp only [Bool.not_eq_true', Function.comp_apply]
    cases (functionLayout version).reserved.get cell.1 cell.2 <;> rfl
  have hBits : readBits ⟨version, mask, candidate text version mask⟩ =
      (List.range (dataCells version).length).map
        (codewordBit (buildCodewords text (detectMode text) version)) := by
    rw [hCells]
    refine List.ext_getElem (by simp) fun i hi _ => ?_
    have hAt : i < (dataCells version).length := by simpa using hi
    rw [List.getElem_map, List.getElem_map, List.getElem_range,
      get_candidate (List.getElem?_eq_getElem hAt)]
    simp
  have hFit := codewords_fit version
  rw [← length_dataCells, ← length_buildCodewords rfl h] at hFit
  obtain ⟨extra, hExtra⟩ := Nat.exists_eq_add_of_le hFit
  rw [hBits, hExtra, List.range_add, List.map_append, map_codewordBit]
  exact ⟨_, rfl⟩

/-- The decoder deals the data codewords back to their blocks. -/
theorem decoded_data (h : FitsVersion version text) :
    (deinterleave (blockSizes version) (maxData version)
      (toBytes (readBits ⟨version, mask, candidate text version mask⟩))).flatten =
      dataCodewords text (detectMode text) version := by
  obtain ⟨rest, hBits⟩ := @readBits_candidate _ _ mask h
  obtain ⟨ec, hCodewords, -⟩ := buildCodewords_eq text (detectMode text) version
  obtain ⟨hSizes, hLong, hFlatten⟩ := @dataBlocks_spec _ (detectMode text) _ rfl h
  obtain ⟨-, hData, -⟩ := @dataCodewords_spec _ (detectMode text) _ rfl h
  have hBytes : ∀ byte ∈ interleave (dataBlocks text (detectMode text) version) (maxData version),
      byte < 256 := by
    intro byte hByte
    obtain ⟨i, -, hColumn⟩ := List.mem_flatMap.mp hByte
    obtain ⟨block, hBlock, hAt⟩ := List.mem_filterMap.mp hColumn
    refine hData byte ?_
    rw [← hFlatten]
    exact List.mem_flatten.mpr ⟨block, hBlock, List.mem_of_getElem? hAt⟩
  rw [hBits, hCodewords, List.flatMap_append, List.append_assoc, toBytes_flatMap hBytes, ← hSizes,
    deinterleave_interleave hLong, hFlatten]

end bits

theorem capacity_le : ∀ version : Version, totalDataCodewords version * 8 ≤ 1728 := by
  decide

theorem count_lt (mode : Mode) (version : Version) {count : Nat} (h : count < 256 ∨
    (mode = .numeric ∧ count < 1024)) : count < 2 ^ countBits mode version := by
  unfold countBits
  cases mode <;> split <;> simp_all <;> omega

/-- The decoder reads the mode, the count and the content. -/
theorem decodeForTest_candidate (h : FitsVersion version text) :
    decodeForTest ⟨version, mask, candidate text version mask⟩ = text := by
  obtain ⟨-, -, rest, hStart⟩ := @dataCodewords_spec _ (detectMode text) _ rfl h
  have hCapacity := capacity_le version
  have hNeed : need text (detectMode text) version ≤ 1728 := le_trans h hCapacity
  unfold decodeForTest
  dsimp only
  rw [decoded_data h, hStart]
  cases hMode : detectMode text with
  | numeric =>
      have hDigits : ∀ c ∈ text.toList, c.isDigit = true := by
        unfold detectMode at hMode
        split at hMode
        · next hAll => exact List.all_eq_true.mp hAll
        · cases hMode
      have hLength := textLength_of_numeric hMode
      have hCount : textLength text < 2 ^ countBits .numeric version := by
        refine count_lt _ _ (.inr ⟨rfl, ?_⟩)
        rw [hMode, need] at hNeed
        omega
      simp only [encodeData, List.append_assoc, take_append, Nat.mod_eq_of_lt hCount]
      rw [if_pos (by decide), hLength, readNumeric_numericBits hDigits]
      exact String.ofList_toList
  | byte =>
      have hCount : (utf8Bytes text).length < 2 ^ countBits .byte version := by
        refine count_lt _ _ (.inl ?_)
        rw [hMode, need] at hNeed
        omega
      simp only [encodeData, List.append_assoc, take_append, Nat.mod_eq_of_lt hCount]
      rw [if_neg (by decide), readBytes_append, utf8Bytes, utf8Chars_flatMap]
      exact String.ofList_toList

/-- A text that fits version 10 is encoded, and decoded to itself. -/
theorem decodeForTest_encodeToMatrix (h : FitsVersion 9 text) :
    ∃ qr, encodeToMatrix text = .ok qr ∧ decodeForTest qr = text := by
  obtain ⟨version, hVersion⟩ := chooseVersion_of_fits h
  obtain ⟨qr, hQr, -⟩ := encodeToMatrix_of_version hVersion
  obtain ⟨chosen, hChosen, rfl⟩ := encodeToMatrix_cases hQr
  exact ⟨_, hQr, decodeForTest_candidate (need_le_of_chooseVersion hChosen)⟩

/-- Leading zeros. -/
theorem decodeForTest_leading_zeros :
    ∃ qr, encodeToMatrix "007" = .ok qr ∧ decodeForTest qr = "007" :=
  decodeForTest_encodeToMatrix (by decide)

end VpnPayment.Qr
