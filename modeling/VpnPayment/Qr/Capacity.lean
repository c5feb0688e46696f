import VpnPayment.Qr.ReedSolomon
import VpnPayment.Qr.RoundTrip
import VpnPayment.Qr.Standard

/-! The version of a text is the smallest one its bits fit, and the codewords of
that version are the bits, the padding and the error correction. -/
namespace VpnPayment.Qr

open Collections

/-- How many codewords a symbol of the version has. -/
def symbolCodewords (version : Version) : Nat :=
  [26, 44, 70, 100, 134, 172, 196, 242, 292, 346].getD version.val 0

/-- What the character count indicator counts. -/
def charCount (text : String) : Mode → Nat
  | .numeric => textLength text
  | .byte => (utf8Bytes text).length

/-- The bits behind the content: the terminator, shorter where the symbol is nearly
full, the zeros up to a byte boundary, the pad bytes. -/
def padding (used capacity : Nat) : List Bool :=
  let terminator := min 4 (capacity - used)
  let boundary := (8 - (used + terminator) % 8) % 8
  let pads := (capacity - (used + terminator + boundary)) / 8
  List.replicate terminator false ++ List.replicate boundary false ++
    ((List.range pads).map fun i => if i % 2 = 0 then 0xec else 0x11).flatMap (bitsOf 8)

variable {text : String} {mode : Mode} {version : Version}

section choice

/-- The content as it is written fits the version, and no smaller one. -/
theorem chooseVersion_ok_iff : chooseVersion text (detectMode text) = .ok version ↔
    (encodeData text (detectMode text) version).length ≤ 8 * totalDataCodewords version ∧
      ∀ smaller < version, 8 * totalDataCodewords smaller <
        (encodeData text (detectMode text) smaller).length := by
  constructor
  · intro h
    have hFits := need_le_of_chooseVersion h
    have hLeast := chooseVersion_least h
    simp only [length_encodeData rfl, Nat.mul_comm 8]
    exact ⟨hFits, hLeast⟩
  · intro h
    simp only [length_encodeData rfl, Nat.mul_comm 8] at h
    obtain ⟨hFits, hLeast⟩ := h
    obtain ⟨chosen, hChosen⟩ := chooseVersion_of_fits hFits
    obtain hLt | hEq | hGt := lt_trichotomy chosen version
    · have hSmall := hLeast chosen hLt
      have hNeed := need_le_of_chooseVersion hChosen
      omega
    · rw [hChosen, hEq]
    · have hNeed := chooseVersion_least hChosen version hGt
      omega

theorem chooseVersion_error_iff : (∃ message, chooseVersion text (detectMode text) = .error message) ↔
    ∀ version, 8 * totalDataCodewords version <
      (encodeData text (detectMode text) version).length := by
  constructor
  · intro h version
    obtain ⟨message, hError⟩ := h
    by_contra hFits
    rw [length_encodeData rfl, Nat.mul_comm, not_lt] at hFits
    obtain ⟨chosen, hChosen⟩ := chooseVersion_of_fits hFits
    rw [hChosen] at hError
    cases hError
  · intro hNone
    cases hChosen : chooseVersion text (detectMode text) with
    | error message => exact ⟨message, rfl⟩
    | ok version =>
        have hFits := (chooseVersion_ok_iff.mp hChosen).1
        have hLarge := hNone version
        omega

/-- No text that fits has more characters than its count indicator can say. -/
theorem charCount_lt (h : need text mode version ≤ totalDataCodewords version * 8) :
    charCount text mode < 2 ^ countBits mode version := by
  have hCapacity := capacity_le version
  apply count_lt
  cases mode with
  | numeric =>
      right
      rw [need] at h
      refine ⟨rfl, ?_⟩
      show textLength text < 1024
      omega
  | byte =>
      left
      rw [need] at h
      show (utf8Bytes text).length < 256
      omega

/-- The count indicator holds the count. -/
theorem take_count (h : charCount text mode < 2 ^ countBits mode version) :
    (take (countBits mode version) ((encodeData text mode version).drop 4)).1 =
      charCount text mode := by
  have hDrop : ∀ indicator rest, (bitsOf 4 indicator ++ rest).drop 4 = rest :=
    fun indicator rest => List.drop_left' (length_bitsOf 4 indicator)
  cases mode with
  | numeric =>
      rw [encodeData, List.append_assoc, hDrop, take_append]
      exact Nat.mod_eq_of_lt h
  | byte =>
      rw [encodeData, List.append_assoc, hDrop, take_append]
      exact Nat.mod_eq_of_lt h

end choice

section padding

/-- A zero bit is put `n` times, unless the symbol is full. -/
theorem foldl_zeros (bits : List Bool) (capacity n : Nat) :
    (List.range n).foldl
      (fun bits _ => if bits.length < capacity then bits ++ [false] else bits) bits =
      bits ++ List.replicate (min n (capacity - bits.length)) false := by
  induction n with
  | zero => simp
  | succ n ih =>
      rw [List.range_succ, List.foldl_append, ih, List.foldl_cons, List.foldl_nil,
        List.length_append, List.length_replicate]
      split
      · next hLess =>
          have hMore : min (n + 1) (capacity - bits.length) =
              min n (capacity - bits.length) + 1 := by
            omega
          rw [hMore, List.replicate_succ', List.append_assoc]
      · next hFull =>
          have hSame : min (n + 1) (capacity - bits.length) = min n (capacity - bits.length) := by
            omega
          rw [hSame]

theorem terminate_exact (bits : List Bool) (capacity : Nat) : terminate bits capacity =
    bits ++ List.replicate (min 4 (capacity - bits.length)) false ++
      List.replicate ((8 - (bits.length + min 4 (capacity - bits.length)) % 8) % 8) false := by
  rw [terminate, foldl_zeros]
  simp only [List.length_append, List.length_replicate]

/-- The bits of the data codewords are those of the content, and the padding. -/
theorem dataCodewords_bits (hMode : detectMode text = mode)
    (hFits : need text mode version ≤ totalDataCodewords version * 8) :
    (dataCodewords text mode version).flatMap (bitsOf 8) = encodeData text mode version ++
      padding (encodeData text mode version).length (8 * totalDataCodewords version) := by
  have hLength : (encodeData text mode version).length = need text mode version :=
    length_encodeData hMode
  obtain ⟨-, -, hWhole, -⟩ := terminate_eq (hLength ▸ hFits)
  have hBytes := length_toBytes
    (terminate (encodeData text mode version) (totalDataCodewords version * 8))
  have hAll : 8 * ((terminate (encodeData text mode version)
      (totalDataCodewords version * 8)).length / 8) =
      (terminate (encodeData text mode version) (totalDataCodewords version * 8)).length := by
    omega
  have hPads : totalDataCodewords version - (terminate (encodeData text mode version)
      (totalDataCodewords version * 8)).length / 8 = (totalDataCodewords version * 8 -
        (terminate (encodeData text mode version) (totalDataCodewords version * 8)).length) / 8 := by
    omega
  have hEnd : (terminate (encodeData text mode version) (totalDataCodewords version * 8)).length =
      (encodeData text mode version).length +
        min 4 (totalDataCodewords version * 8 - (encodeData text mode version).length) +
        (8 - ((encodeData text mode version).length +
          min 4 (totalDataCodewords version * 8 - (encodeData text mode version).length)) % 8) % 8 := by
    rw [terminate_exact]
    simp only [List.length_append, List.length_replicate]
  rw [dataCodewords, padCodewords, List.flatMap_append, flatMap_toBytes, hAll, List.take_length,
    hBytes, hPads, hEnd, terminate_exact, padding, Nat.mul_comm 8]
  simp only [List.append_assoc]

end padding

section codewords

theorem symbolCodewords_eq : ∀ version : Version, symbolCodewords version = totalCodewords version := by
  decide

theorem lt_of_mem_interleave {blocks : List (List Nat)} {longest c : Nat}
    (hBlocks : ∀ block ∈ blocks, ∀ c ∈ block, c < 256) (h : c ∈ interleave blocks longest) :
    c < 256 := by
  obtain ⟨i, -, hColumn⟩ := List.mem_flatMap.mp h
  obtain ⟨block, hBlock, hAt⟩ := List.mem_filterMap.mp hColumn
  exact hBlocks block hBlock c (List.mem_of_getElem? hAt)

theorem ecPerBlock_bounds : ∀ version : Version,
    0 < (ecM version).ecPerBlock ∧ (ecM version).ecPerBlock ≤ 512 := by
  decide

/-- Every codeword is a byte. -/
theorem buildCodewords_lt (hMode : detectMode text = mode)
    (hFits : need text mode version ≤ totalDataCodewords version * 8) :
    ∀ c ∈ buildCodewords text mode version, c < 256 := by
  obtain ⟨-, -, hFlatten⟩ := dataBlocks_spec hMode hFits
  obtain ⟨-, hData, -⟩ := dataCodewords_spec hMode hFits
  obtain ⟨hPos, hTable⟩ := ecPerBlock_bounds version
  have hBlocks : ∀ block ∈ dataBlocks text mode version, ∀ c ∈ block, c < 256 := by
    intro block hBlock c hc
    apply hData c
    rw [← hFlatten]
    exact List.mem_flatten.mpr ⟨block, hBlock, hc⟩
  intro c hc
  obtain hc | hc := List.mem_append.mp hc
  · exact lt_of_mem_interleave hBlocks hc
  · apply lt_of_mem_interleave _ hc
    intro block hBlock
    obtain ⟨data, hMem, rfl⟩ := List.mem_map.mp hBlock
    exact rsEncode_lt (hBlocks data hMem) hPos hTable

/-- The data codewords are dealt back from the stream. -/
theorem deinterleave_buildCodewords (hMode : detectMode text = mode)
    (hFits : need text mode version ≤ totalDataCodewords version * 8) :
    (deinterleave (blockSizes version) (maxData version)
      (buildCodewords text mode version)).flatten = dataCodewords text mode version := by
  obtain ⟨hSizes, hLong, hFlatten⟩ := dataBlocks_spec hMode hFits
  obtain ⟨ec, hCodewords, -⟩ := buildCodewords_eq text mode version
  rw [hCodewords, ← hSizes, deinterleave_interleave hLong, hFlatten]

end codewords

/-- The version is the smallest one that holds the bits, its count indicator holds
the count, and its codewords are the bits and the padding in full. -/
theorem chooseVersion_exact (text : String) :
    (∀ version, chooseVersion text (detectMode text) = .ok version ↔
      (encodeData text (detectMode text) version).length ≤ 8 * totalDataCodewords version ∧
        ∀ smaller < version, 8 * totalDataCodewords smaller <
          (encodeData text (detectMode text) smaller).length) ∧
    ((∃ message, chooseVersion text (detectMode text) = .error message) ↔
      ∀ version, 8 * totalDataCodewords version <
        (encodeData text (detectMode text) version).length) ∧
    ∀ version, chooseVersion text (detectMode text) = .ok version →
      (charCount text (detectMode text) < 2 ^ countBits (detectMode text) version ∧
        (take (countBits (detectMode text) version)
          ((encodeData text (detectMode text) version).drop 4)).1 =
            charCount text (detectMode text)) ∧
      (buildCodewords text (detectMode text) version).length = symbolCodewords version ∧
      (∀ c ∈ buildCodewords text (detectMode text) version, c < 256) ∧
      (deinterleave (blockSizes version) (maxData version)
        (buildCodewords text (detectMode text) version)).flatten.flatMap (bitsOf 8) =
          encodeData text (detectMode text) version ++
            padding (encodeData text (detectMode text) version).length
              (8 * totalDataCodewords version) := by
  refine ⟨fun _ => chooseVersion_ok_iff, chooseVersion_error_iff, fun version hVersion => ?_⟩
  have hFits := need_le_of_chooseVersion hVersion
  have hCount := charCount_lt hFits
  refine ⟨⟨hCount, take_count hCount⟩, ?_, buildCodewords_lt rfl hFits, ?_⟩
  · rw [symbolCodewords_eq, length_buildCodewords rfl hFits]
  · rw [deinterleave_buildCodewords rfl hFits, dataCodewords_bits rfl hFits]

end VpnPayment.Qr
