import VpnPayment.Qr.Codewords
import VpnPayment.Qr.Format
import VpnPayment.Qr.Region

/-! The encoding region of the standard, and for which texts the encoder fills
exactly that region. -/
namespace VpnPayment.Qr

open Collections

variable {version : Version} {text : String} {r c : Nat}

/-- The centres of the standard: all pairs but the three in the finder patterns. -/
def standardCentres (version : Version) : List (Nat × Nat) :=
  let far := symbolSize version - 7
  (centrePairs version).filter fun p => p ∉ [(6, 6), (6, far), (far, 6)]

/-- The modules of the encoding region that no codeword fills. -/
def remainderBits (version : Version) : Nat :=
  if versionNumber version = 1 then 0 else if versionNumber version ≤ 6 then 7 else 0

/-- A module of the alignment pattern around a centre. -/
def alignmentModule (centre : Nat × Nat) (r c : Nat) : Bool :=
  max ((r : Int) - centre.1).natAbs ((c : Int) - centre.2).natAbs ≠ 1

/-- The codewords of a text stand where the standard puts them. -/
structure PlacedByStandard (text : String) (qr : QrMatrix) : Prop where
  region : ∀ r c, (r, c) ∈ dataCells qr.version ↔
    r < qr.size ∧ c < qr.size ∧ ¬FunctionModule qr.version (standardCentres qr.version) r c
  drawn : ∀ centre ∈ standardCentres qr.version, ∀ r c, Near centre r c →
    qr.modules.get r c = alignmentModule centre r c
  count : (dataCells qr.version).length = 8 * totalCodewords qr.version + remainderBits qr.version
  order : (dataCells qr.version).Pairwise fun x y => rank qr.size x < rank qr.size y
  total : (buildCodewords text (detectMode text) qr.version).length = totalCodewords qr.version
  placed : ∀ i < 8 * totalCodewords qr.version, ∃ cell, (dataCells qr.version)[i]? = some cell ∧
    qr.modules.get cell.1 cell.2 =
      (codewordBit (buildCodewords text (detectMode text) qr.version) i !=
        maskFn qr.mask cell.1 cell.2)

/-- The content fits version 6. -/
def FitsVersionSix (text : String) : Prop :=
  match detectMode text with
  | .numeric => textLength text ≤ 255
  | .byte => (utf8Bytes text).length ≤ 106

theorem chooseVersion_least {mode : Mode} (h : chooseVersion text mode = .ok version) :
    ∀ smaller < version, totalDataCodewords smaller * 8 < need text mode smaller := by
  unfold chooseVersion at h
  split at h
  · next found hFound =>
      cases h
      obtain ⟨-, i, hi, hAt, hBefore⟩ := List.find?_eq_some_iff_getElem.mp hFound
      rw [List.getElem_finRange] at hAt
      intro smaller hSmaller
      have hLt : smaller.val < i := by
        have hVal : i = version.val := congrArg Fin.val hAt
        exact hVal ▸ hSmaller
      have hNot := hBefore smaller.val hLt
      rw [List.getElem_finRange] at hNot
      simpa using hNot
  · cases h

theorem need_small {mode : Mode} (hSmall : version.val ≤ 8) :
    need text mode version = need text mode 5 := by
  have hCount : countBits mode version = countBits mode 5 := by
    unfold countBits versionNumber
    rw [if_pos (by omega), if_pos (by decide)]
  unfold need
  rw [hCount]

theorem fitsVersionSix_iff :
    FitsVersionSix text ↔ need text (detectMode text) 5 ≤ totalDataCodewords 5 * 8 := by
  have hCapacity : totalDataCodewords 5 * 8 = 864 := by decide
  rw [hCapacity]
  unfold FitsVersionSix need
  cases detectMode text with
  | byte =>
      have hCount : countBits .byte 5 = 8 := by decide
      rw [hCount]
      dsimp only
      omega
  | numeric =>
      have hCount : countBits .numeric 5 = 10 := by decide
      have hRest : ∀ k < 3, [0, 4, 7].getD k 0 = if k = 0 then 0 else if k = 1 then 4 else 7 := by
        decide
      rw [hCount]
      dsimp only
      rw [hRest _ (Nat.mod_lt _ (by decide))]
      split
      · omega
      · split <;> omega

theorem capacity_le_five : ∀ version : Version, version.val ≤ 5 →
    totalDataCodewords version ≤ totalDataCodewords 5 := by
  decide

instance (text : String) : Decidable (FitsVersionSix text) :=
  decidable_of_iff _ fitsVersionSix_iff.symm

theorem version_le_five_iff (h : chooseVersion text (detectMode text) = .ok version) :
    version.val ≤ 5 ↔ FitsVersionSix text := by
  rw [fitsVersionSix_iff]
  constructor
  · intro hSmall
    have hFits := need_le_of_chooseVersion h
    have hCapacity := capacity_le_five version hSmall
    rw [need_small (by omega)] at hFits
    omega
  · intro hFits
    by_contra hLarge
    have hLess := chooseVersion_least h 5 (Fin.lt_def.mpr (by show 5 < _; omega))
    omega

/-- The encoder draws the patterns of the standard, and no others, exactly up to
version 6: from version 7 on some of them lie on a timing line. -/
theorem standardCentres_small : ∀ version : Version, version.val ≤ 5 →
    standardCentres version = encoderCentres version := by
  decide

/-- From version 7 on there is a module of a missing pattern that takes a bit. -/
theorem missing_pattern : ∀ version : Version, 6 ≤ version.val →
    ∃ c < symbolSize version, FunctionModule version (standardCentres version) 4 c ∧
      ¬FunctionModule version (encoderCentres version) 4 c := by
  decide +kernel

theorem dataModules_small : ∀ version : Version, version.val ≤ 5 →
    dataModules version = 8 * totalCodewords version + remainderBits version := by
  decide

theorem pairwise_rank_dataCells (version : Version) : (dataCells version).Pairwise fun x y =>
    rank (symbolSize version) x < rank (symbolSize version) y := by
  refine List.Pairwise.filter _ ?_
  rw [symbolSize_eq]
  exact pairwise_rank_zigzag (by omega)

theorem encoderCentres_within : ∀ version : Version, ∀ p ∈ encoderCentres version,
    p.1 + 2 < symbolSize version ∧ p.2 + 2 < symbolSize version := by
  decide

/-- The modules of a pattern stay as the layout has them. -/
theorem get_candidate_of_near {centre : Nat × Nat} {mask : Nat}
    (hCentre : centre ∈ encoderCentres version) (hNear : Near centre r c) :
    (candidate text version mask).get r c = alignmentModule centre r c := by
  obtain ⟨⟨hRow, hCol⟩, -⟩ := encoderCentres_clear version centre hCentre
  obtain ⟨hr, hc⟩ := encoderCentres_within version centre hCentre
  have hBounds : 14 ≤ r ∧ 14 ≤ c ∧ r < symbolSize version ∧ c < symbolSize version := by
    unfold Near at hNear
    omega
  have hSize := symbolSize_le version
  have hReserved : (functionLayout version).reserved.get r c = true :=
    (reserved_iff (by omega) (by omega)).mpr (.inr (.inr (.inl ⟨centre, hCentre, hNear⟩)))
  have hFormat : ∀ cell ∈ formatCells (symbolSize version) mask, cell.1 ≠ (r, c) := by
    rintro ⟨p, v⟩ hCell rfl
    have hInside := inFormat_of_mem_formatCells hSize hCell
    unfold InFormat at hInside
    omega
  have hVersion : ∀ cell ∈ versionCells (symbolSize version) (versionNumber version),
      cell.1 ≠ (r, c) := by
    rintro ⟨p, v⟩ hCell rfl
    have hInside := inVersion_of_mem_versionCells hSize hCell
    unfold InVersion at hInside
    omega
  have hGrid : ∀ f : Nat → Nat → Bool, ((Grid.ofFn f : Grid Bool (symbolSize version)).setAll
      (formatCells (symbolSize version) mask)).get r c = f r c := by
    intro f
    rw [Grid.get_setAll_of_notMem hFormat, Grid.get_ofFn (by omega) (by omega)]
  have hBase : (placeBits (functionLayout version)
      (buildCodewords text (detectMode text) version)).get r c =
        some (alignmentModule centre r c) := by
    rw [get_placeBits_of_reserved hReserved, base_eq_of_near hCentre (by omega) (by omega) hNear]
    rfl
  unfold candidate maskedGrid
  dsimp only
  split
  · rw [Grid.get_setAll_of_notMem hVersion, hGrid, if_pos hReserved, hBase]
    simp
  · rw [hGrid, if_pos hReserved, hBase]
    simp

/-- Up to version 6 the layout is the one of the standard. -/
theorem placed_of_small {mask : Nat}
    (hFits : need text (detectMode text) version ≤ totalDataCodewords version * 8)
    (hSmall : version.val ≤ 5) :
    PlacedByStandard text ⟨version, mask, candidate text version mask⟩ := by
  have hCentres := standardCentres_small version hSmall
  have hCount : (dataCells version).length =
      8 * totalCodewords version + remainderBits version := by
    rw [length_dataCells, dataModules_small version hSmall]
  refine ⟨fun r c => ?_, ?_, hCount, pairwise_rank_dataCells version,
    length_buildCodewords rfl hFits, fun i hi => ?_⟩
  · show (r, c) ∈ dataCells version ↔ r < symbolSize version ∧ c < symbolSize version ∧ _
    rw [mem_dataCells, hCentres]
    refine and_congr_right fun hr => and_congr_right fun hc => ?_
    rw [← reserved_iff hr hc, Bool.not_eq_true]
  · rw [hCentres]
    intro centre hCentre r c hNear
    exact get_candidate_of_near hCentre hNear
  · have hAt : i < (dataCells version).length := by
      have hBound : i < 8 * totalCodewords version := hi
      omega
    exact ⟨_, List.getElem?_eq_getElem hAt, get_candidate (List.getElem?_eq_getElem hAt)⟩

/-- From version 7 on a module of a pattern takes a bit. -/
theorem not_placed_of_large {qr : QrMatrix} (hLarge : 6 ≤ qr.version.val) :
    ¬PlacedByStandard text qr := by
  intro hPlaced
  obtain ⟨c, hc, hMissing, hTaken⟩ := missing_pattern qr.version hLarge
  have hSize := symbolSize_le qr.version
  have hData : (4, c) ∈ dataCells qr.version := by
    refine mem_dataCells.mpr ⟨by omega, hc, ?_⟩
    rw [← Bool.not_eq_true, reserved_iff (by omega) hc]
    exact hTaken
  exact ((hPlaced.region 4 c).mp hData).2.2 hMissing

/-- The codewords stand where the standard puts them exactly when the content fits
version 6. -/
theorem placedByStandard_iff {qr : QrMatrix} (h : encodeToMatrix text = .ok qr) :
    PlacedByStandard text qr ↔ FitsVersionSix text := by
  obtain ⟨version, hVersion, rfl⟩ := encodeToMatrix_cases h
  rw [← version_le_five_iff hVersion]
  constructor
  · intro hPlaced
    by_contra hLarge
    exact not_placed_of_large (Nat.lt_of_not_le hLarge) hPlaced
  · intro hSmall
    exact placed_of_small (need_le_of_chooseVersion hVersion) hSmall

theorem placedByStandard_digit : ∃ qr, encodeToMatrix "7" = .ok qr ∧ PlacedByStandard "7" qr := by
  obtain ⟨qr, hQr, -⟩ := encodeToMatrix_of_version version_of_digit
  exact ⟨qr, hQr, (placedByStandard_iff hQr).mpr (by decide)⟩

/-- The shortest text of letters that needs version 7. -/
def longText : String :=
  String.ofList (List.replicate 107 'x')

theorem version_of_longText : chooseVersion longText (detectMode longText) = .ok 6 := by
  decide +kernel

theorem misplaced_longText :
    ¬∀ text qr, encodeToMatrix text = .ok qr → PlacedByStandard text qr := by
  intro hAll
  obtain ⟨qr, hQr, hVersion⟩ := encodeToMatrix_of_version version_of_longText
  refine not_placed_of_large ?_ (hAll longText qr hQr)
  rw [hVersion]
  decide

end VpnPayment.Qr
