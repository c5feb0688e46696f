import VpnPayment.Collections.Bits
import VpnPayment.Collections.Grid

/-! The QR encoder and its companion decoder. A loop over cells is the list of
the cells it visits, in its order, followed by what it does with each. -/
namespace VpnPayment.Qr

open Collections

/-- The exponentials and logarithms of GF(256), primitive polynomial 0x11D. -/
def gfTables : Array Nat × Array Nat :=
  let filled := (List.range 255).foldl
    (fun (tables : Array Nat × Array Nat × Nat) i =>
      let x := tables.2.2
      let doubled := x <<< 1
      (tables.1.setIfInBounds i x, tables.2.1.setIfInBounds x i,
        if doubled &&& 0x100 ≠ 0 then doubled ^^^ 0x11d else doubled))
    (Array.replicate 512 0, Array.replicate 256 0, 1)
  ((List.range' 255 257).foldl (fun exp i => exp.setIfInBounds i (exp.getD (i - 255) 0)) filled.1,
    filled.2.1)

/-- The element α to the power `i`. -/
def gfExp (i : Nat) : Nat :=
  gfTables.1.getD i 0

def gfLog (x : Nat) : Nat :=
  gfTables.2.getD x 0

/-- Multiply two GF(256) elements. -/
def gfMul (a b : Nat) : Nat :=
  if a = 0 ∨ b = 0 then 0 else gfExp (gfLog a + gfLog b)

/-- Generator polynomial for `degree` EC codewords, highest degree first. -/
def rsGenerator (degree : Nat) : List Nat :=
  (List.range degree).foldl (fun poly i =>
    List.zipWith (· ^^^ ·) (poly ++ [0]) (0 :: poly.map fun coeff => gfMul coeff (gfExp i))) [1]

/-- Reed-Solomon EC codewords for a data block. -/
def rsEncode (data : List Nat) (ecLen : Nat) : List Nat :=
  data.foldl (fun res b =>
    let factor := b ^^^ res.headD 0
    let shifted := res.tail ++ [0]
    if factor ≠ 0 then
      List.zipWith (fun r g => r ^^^ gfMul g factor) shifted (rsGenerator ecLen).tail
    else shifted) (List.replicate ecLen 0)

/-- The versions the tables cover, counted from zero. -/
abbrev Version := Fin 10

def versionNumber (version : Version) : Nat :=
  version.val + 1

/-- Block structure of EC level M. -/
structure EcBlocks where
  ecPerBlock : Nat
  group1Blocks : Nat
  group1Data : Nat
  group2Blocks : Nat
  group2Data : Nat

def ecM (version : Version) : EcBlocks :=
  match versionNumber version with
  | 1 => ⟨10, 1, 16, 0, 0⟩
  | 2 => ⟨16, 1, 28, 0, 0⟩
  | 3 => ⟨26, 1, 44, 0, 0⟩
  | 4 => ⟨18, 2, 32, 0, 0⟩
  | 5 => ⟨24, 2, 43, 0, 0⟩
  | 6 => ⟨16, 4, 27, 0, 0⟩
  | 7 => ⟨18, 4, 31, 0, 0⟩
  | 8 => ⟨22, 2, 38, 2, 39⟩
  | 9 => ⟨22, 3, 36, 2, 37⟩
  | _ => ⟨26, 4, 43, 1, 44⟩

/-- Alignment-pattern centre coordinates. -/
def align (version : Version) : List Nat :=
  match versionNumber version with
  | 1 => []
  | 2 => [6, 18]
  | 3 => [6, 22]
  | 4 => [6, 26]
  | 5 => [6, 30]
  | 6 => [6, 34]
  | 7 => [6, 22, 38]
  | 8 => [6, 24, 42]
  | 9 => [6, 26, 46]
  | _ => [6, 28, 50]

def totalDataCodewords (version : Version) : Nat :=
  (ecM version).group1Blocks * (ecM version).group1Data +
    (ecM version).group2Blocks * (ecM version).group2Data

/-- The number of data codewords of every block. -/
def blockSizes (version : Version) : List Nat :=
  List.replicate (ecM version).group1Blocks (ecM version).group1Data ++
    List.replicate (ecM version).group2Blocks (ecM version).group2Data

def maxData (version : Version) : Nat :=
  max (ecM version).group1Data (ecM version).group2Data

inductive Mode
  | numeric | byte
deriving DecidableEq

def detectMode (text : String) : Mode :=
  if text.toList.all Char.isDigit then .numeric else .byte

/-- Length in bits of the character count indicator. -/
def countBits (mode : Mode) (version : Version) : Nat :=
  if versionNumber version ≤ 9 then
    match mode with
    | .numeric => 10
    | .byte => 8
  else
    match mode with
    | .numeric => 12
    | .byte => 16

/-- The length of a JavaScript string, in UTF-16 code units. -/
def textLength (text : String) : Nat :=
  (text.toList.map fun c => if c.toNat < 0x10000 then 1 else 2).sum

/-- The bytes of `Buffer.from(text, 'utf8')`. -/
def utf8Bytes (text : String) : List UInt8 :=
  text.toList.flatMap String.utf8EncodeChar

/-- `parseInt(group, 10)` of a group of digits. -/
def parseDigits (group : List Char) : Nat :=
  group.foldl (fun value c => 10 * value + (c.toNat - '0'.toNat)) 0

/-- Groups of three digits, and the digits left over. -/
def numericBits : List Char → List Bool
  | a :: b :: c :: rest => bitsOf 10 (parseDigits [a, b, c]) ++ numericBits rest
  | [a, b] => bitsOf 7 (parseDigits [a, b])
  | [a] => bitsOf 4 (parseDigits [a])
  | [] => []

def encodeData (text : String) (mode : Mode) (version : Version) : List Bool :=
  match mode with
  | .numeric => bitsOf 4 0b0001 ++ bitsOf (countBits mode version) (textLength text) ++
      numericBits text.toList
  | .byte => bitsOf 4 0b0100 ++ bitsOf (countBits mode version) (utf8Bytes text).length ++
      (utf8Bytes text).flatMap fun b => bitsOf 8 b.toNat

/-- The bits the content takes in a symbol of the version. -/
def need (text : String) (mode : Mode) (version : Version) : Nat :=
  4 + countBits mode version + match mode with
    | .numeric => textLength text / 3 * 10 + [0, 4, 7].getD (textLength text % 3) 0
    | .byte => (utf8Bytes text).length * 8

/-- The smallest version whose EC-M capacity fits the content. -/
def chooseVersion (text : String) (mode : Mode) : Except String Version :=
  match (List.finRange 10).find? fun v => need text mode v ≤ totalDataCodewords v * 8 with
  | some version => .ok version
  | none => .error ("content too large for a version-10 QR code (" ++
      toString (textLength text) ++ " chars)")

/-- Up to four zero bits, then zero bits up to a byte boundary. -/
def terminate (bits : List Bool) (capacityBits : Nat) : List Bool :=
  let terminated := (List.range 4).foldl
    (fun bits _ => if bits.length < capacityBits then bits ++ [false] else bits) bits
  terminated ++ List.replicate ((8 - terminated.length % 8) % 8) false

/-- Pad bytes 0xEC and 0x11 in turn, up to the number of data codewords. -/
def padCodewords (data : List Nat) (totalData : Nat) : List Nat :=
  data ++ (List.range (totalData - data.length)).map fun i => if i % 2 = 0 then 0xec else 0x11

def dataCodewords (text : String) (mode : Mode) (version : Version) : List Nat :=
  padCodewords (toBytes (terminate (encodeData text mode version) (totalDataCodewords version * 8)))
    (totalDataCodewords version)

/-- Consecutive blocks of the given sizes. -/
def splitBlocks : List Nat → List Nat → List (List Nat)
  | [], _ => []
  | size :: sizes, data => data.take size :: splitBlocks sizes (data.drop size)

/-- Column `i` of every block that is so long, for every `i` in turn. -/
def interleave (blocks : List (List Nat)) (longest : Nat) : List Nat :=
  (List.range longest).flatMap fun i => blocks.filterMap fun block => block[i]?

/-- The final, interleaved codeword stream. -/
def buildCodewords (text : String) (mode : Mode) (version : Version) : List Nat :=
  let ecPerBlock := (ecM version).ecPerBlock
  let blocks := splitBlocks (blockSizes version) (dataCodewords text mode version)
  let ecBlocks := blocks.map fun block => rsEncode block ecPerBlock
  interleave blocks (maxData version) ++ interleave ecBlocks ecPerBlock

/-- Symbol size in modules. -/
def symbolSize (version : Version) : Nat :=
  17 + versionNumber version * 4

/-- A finished symbol. True modules are dark. -/
structure QrMatrix where
  version : Version
  mask : Nat
  modules : Grid Bool (symbolSize version)

def QrMatrix.size (qr : QrMatrix) : Nat :=
  symbolSize qr.version

def maskFn (mask r c : Nat) : Bool :=
  match mask with
  | 0 => (r + c) % 2 = 0
  | 1 => r % 2 = 0
  | 2 => c % 3 = 0
  | 3 => (r + c) % 3 = 0
  | 4 => (r / 2 + c / 3) % 2 = 0
  | 5 => r * c % 2 + r * c % 3 = 0
  | 6 => (r * c % 2 + r * c % 3) % 2 = 0
  | _ => ((r + c) % 2 + r * c % 3) % 2 = 0

def bitLen (n : Nat) : Nat :=
  if n = 0 then 0 else Nat.log2 n + 1

/-- Subtract shifted generators while the value is `width` bits long or longer.
Every round shortens it. -/
def bchReduce (generator width : Nat) : Nat → Nat → Nat
  | 0, d => d
  | fuel + 1, d =>
      if width ≤ bitLen d then
        bchReduce generator width fuel (d ^^^ generator <<< (bitLen d - width))
      else d

def bchFormat (data : Nat) : Nat :=
  (data <<< 10 ||| bchReduce 0x537 11 (bitLen (data <<< 10)) (data <<< 10)) ^^^ 0x5412

def bchVersion (version : Nat) : Nat :=
  version <<< 12 ||| bchReduce 0x1f25 13 (bitLen (version <<< 12)) (version <<< 12)

/-- Function-pattern modules, and the cells that carry no data. -/
structure Layout (n : Nat) where
  base : Grid (Option Bool) n
  reserved : Grid Bool n

namespace Layout

variable {n : Nat}

def setFn (layout : Layout n) (cell : (Nat × Nat) × Bool) : Layout n where
  base := layout.base.set cell.1.1 cell.1.2 (some cell.2)
  reserved := layout.reserved.set cell.1.1 cell.1.2 true

def reserve (layout : Layout n) (cell : Nat × Nat) : Layout n :=
  { layout with reserved := layout.reserved.set cell.1 cell.2 true }

end Layout

/-- A finder pattern and its separator, clipped to the symbol. -/
def finderCells (size r0 c0 : Nat) : List ((Nat × Nat) × Bool) :=
  (List.range 9).flatMap fun (i : Nat) => (List.range 9).filterMap fun (j : Nat) =>
    let r : Int := i - 1
    let c : Int := j - 1
    let rr := r0 + r
    let cc := c0 + c
    if rr < 0 ∨ rr ≥ size ∨ cc < 0 ∨ cc ≥ size then none
    else
      let inRing : Bool := 0 ≤ r ∧ r ≤ 6 ∧ 0 ≤ c ∧ c ≤ 6 ∧
        (r = 0 ∨ r = 6 ∨ c = 0 ∨ c = 6 ∨ (2 ≤ r ∧ r ≤ 4 ∧ 2 ≤ c ∧ c ≤ 4))
      some ((rr.toNat, cc.toNat), inRing)

def timingCells (size : Nat) : List ((Nat × Nat) × Bool) :=
  (List.range' 8 (size - 16)).flatMap fun i => [((6, i), i % 2 = 0), ((i, 6), i % 2 = 0)]

def alignmentCells (r c : Nat) : List ((Nat × Nat) × Bool) :=
  (List.range 5).flatMap fun (i : Nat) => (List.range 5).map fun (j : Nat) =>
    ((r + i - 2, c + j - 2), max ((i : Int) - 2).natAbs ((j : Int) - 2).natAbs ≠ 1)

/-- An alignment pattern is skipped where its centre is reserved already. -/
def Layout.placeAlignment {n : Nat} (layout : Layout n) (centre : Nat × Nat) : Layout n :=
  if layout.reserved.get centre.1 centre.2 then layout
  else (alignmentCells centre.1 centre.2).foldl Layout.setFn layout

/-- The format-information areas. -/
def formatArea (size : Nat) : List (Nat × Nat) :=
  ((List.range 9).flatMap fun i => [(8, i), (i, 8)]) ++
    (List.range 8).flatMap fun i => [(8, size - 1 - i), (size - 1 - i, 8)]

/-- The version-information areas. -/
def versionArea (size : Nat) : List (Nat × Nat) :=
  (List.range 6).flatMap fun i => (List.range 3).flatMap fun j =>
    [(i, size - 11 + j), (size - 11 + j, i)]

/-- The fixed function patterns and the reserved cells of a version. -/
def functionLayout (version : Version) : Layout (symbolSize version) :=
  let size := symbolSize version
  let finders := finderCells size 0 0 ++ finderCells size 0 (size - 7) ++
    finderCells size (size - 7) 0
  let timed := (finders ++ timingCells size).foldl Layout.setFn ⟨.fill none, .fill false⟩
  let centres := align version
  let aligned := (centres.flatMap fun r => centres.map fun c => (r, c)).foldl
    Layout.placeAlignment timed
  let dark := aligned.setFn ((size - 8, 8), true)
  let formatted := (formatArea size).foldl Layout.reserve dark
  if versionNumber version ≥ 7 then (versionArea size).foldl Layout.reserve formatted
  else formatted

/-- The right columns of the column pairs, from right to left. Column 6 is the
vertical timing line, so the pair of column 5 takes its place. -/
def columns : Nat → List Nat
  | 0 => []
  | 1 => [1]
  | 6 => [5, 3, 1]
  | col + 2 => (col + 2) :: columns col

/-- The cells of the column pairs in zig-zag order. -/
def zigzagFrom (size : Nat) : Bool → List Nat → List (Nat × Nat)
  | _, [] => []
  | upward, col :: cols =>
      ((List.range size).flatMap fun i =>
        let row := if upward then size - 1 - i else i
        [(row, col), (row, col - 1)]) ++ zigzagFrom size (!upward) cols

def zigzag (size : Nat) : List (Nat × Nat) :=
  zigzagFrom size true (columns (size - 1))

/-- Bit `bitIndex` of the codeword stream; light once the stream is used up. -/
def codewordBit (codewords : List Nat) (bitIndex : Nat) : Bool :=
  if bitIndex < codewords.length * 8 then
    (codewords.getD (bitIndex / 8) 0).testBit (7 - bitIndex % 8)
  else false

/-- Place one bit, unless the cell is reserved. -/
def placeBit {n : Nat} (reserved : Grid Bool n) (codewords : List Nat)
    (st : Grid (Option Bool) n × Nat) (cell : Nat × Nat) : Grid (Option Bool) n × Nat :=
  if reserved.get cell.1 cell.2 then st
  else
    (st.1.set cell.1 cell.2 (some (codewordBit codewords st.2)),
      if st.2 < codewords.length * 8 then st.2 + 1 else st.2)

/-- The modules before masking. -/
def placeBits {n : Nat} (layout : Layout n) (codewords : List Nat) : Grid (Option Bool) n :=
  ((zigzag n).foldl (placeBit layout.reserved codewords) (layout.base, 0)).1

/-- What `writeFormat` writes for a mask, EC level M. -/
def formatCells (size mask : Nat) : List ((Nat × Nat) × Bool) :=
  let bit := (bchFormat (0b00 <<< 3 ||| mask)).testBit
  (List.range 6).map (fun i => ((8, i), bit i)) ++
    [((8, 7), bit 6), ((8, 8), bit 7), ((7, 8), bit 8)] ++
    (List.range' 9 6).map (fun i => ((14 - i, 8), bit i)) ++
    (List.range 8).map (fun i => ((size - 1 - i, 8), bit i)) ++
    (List.range' 8 7).map fun i => ((8, size - 15 + i), bit i)

/-- What `writeVersion` writes. -/
def versionCells (size version : Nat) : List ((Nat × Nat) × Bool) :=
  (List.range 18).flatMap fun i =>
    let bit := (bchVersion version).testBit i
    [((i / 3, size - 11 + i % 3), bit), ((size - 11 + i % 3, i / 3), bit)]

/-- Runs of five or more modules of a line. A shorter run is looked at again from
its second module. -/
def runPenalty : List Bool → Nat
  | [] => 0
  | x :: rest =>
      let run := 1 + (rest.takeWhile (· == x)).length
      if 5 ≤ run then 3 + (run - 5) + runPenalty (rest.drop (run - 1)) else runPenalty rest
termination_by line => line.length
decreasing_by
  all_goals
    simp only [List.length_drop, List.length_cons]
    omega

/-- Finder-like patterns of a line. -/
def patternPenalty (line : List Bool) : Nat :=
  let pat1 := [true, false, true, true, true, false, true, false, false, false, false]
  let pat2 := [false, false, false, false, true, false, true, true, true, false, true]
  ((List.range (line.length - 10)).map fun i =>
    let window := (line.drop i).take 11
    if window = pat1 ∨ window = pat2 then 40 else 0).sum

/-- Penalty score, rules 1 to 4. -/
def scorePenalty {n : Nat} (grid : Grid Bool n) : Nat :=
  let rows := (List.range n).map fun r => (List.range n).map fun c => grid.get r c
  let cols := (List.range n).map fun c => (List.range n).map fun r => grid.get r c
  let runs := ((rows ++ cols).map runPenalty).sum
  let boxes := ((List.range (n - 1)).map fun r => ((List.range (n - 1)).map fun c =>
    let v := grid.get r c
    if grid.get r (c + 1) = v ∧ grid.get (r + 1) c = v ∧ grid.get (r + 1) (c + 1) = v then 3
    else 0).sum).sum
  let patterns := ((rows ++ cols).map patternPenalty).sum
  let dark := (rows.map fun row => row.count true).sum
  let imbalance := ((dark * 100 : Int) - 50 * (n * n)).natAbs / (5 * (n * n))
  runs + boxes + patterns + imbalance * 10

/-- The symbol under one mask. -/
def maskedGrid (version : Version) (modules : Grid (Option Bool) (symbolSize version))
    (reserved : Grid Bool (symbolSize version)) (mask : Nat) : Grid Bool (symbolSize version) :=
  let size := symbolSize version
  let grid : Grid Bool size := .ofFn fun r c =>
    let v := decide (modules.get r c = some true)
    if reserved.get r c then v else v != maskFn mask r c
  let formatted := grid.setAll (formatCells size mask)
  if versionNumber version ≥ 7 then formatted.setAll (versionCells size (versionNumber version))
  else formatted

/-- The mask with the lowest penalty; the first one tried always counts. -/
def bestMask {n : Nat} (candidate : Nat → Grid Bool n) : Nat :=
  (List.range' 1 7).foldl (fun best mask =>
    if scorePenalty (candidate mask) < scorePenalty (candidate best) then mask else best) 0

/-- Encode `text` into a masked QR matrix, EC level M. -/
def encodeToMatrix (text : String) : Except String QrMatrix := do
  let mode := detectMode text
  let version ← chooseVersion text mode
  let codewords := buildCodewords text mode version
  let layout := functionLayout version
  let candidate := maskedGrid version (placeBits layout codewords) layout.reserved
  let mask := bestMask candidate
  pure ⟨version, mask, candidate mask⟩

/-- The data modules in zig-zag order, with the mask taken off. -/
def readBits (qr : QrMatrix) : List Bool :=
  (zigzag qr.size).filterMap fun cell =>
    if (functionLayout qr.version).reserved.get cell.1 cell.2 then none
    else some (qr.modules.get cell.1 cell.2 != maskFn qr.mask cell.1 cell.2)

/-- Deal one codeword to every block that has more than `i` codewords. -/
def dealRound (i : Nat) : List Nat → List (List Nat) → List Nat → List (List Nat) × List Nat
  | size :: sizes, block :: blocks, stream =>
      if i < size then
        let rest := dealRound i sizes blocks stream.tail
        ((block ++ [stream.headD 0]) :: rest.1, rest.2)
      else
        let rest := dealRound i sizes blocks stream
        (block :: rest.1, rest.2)
  | _, blocks, stream => (blocks, stream)

def deinterleave (sizes : List Nat) (longest : Nat) (stream : List Nat) : List (List Nat) :=
  ((List.range longest).foldl (fun st i => dealRound i sizes st.1 st.2)
    (sizes.map fun _ => [], stream)).1

/-- Read a number of `n` bits. Bits past the end are zero. -/
def take (n : Nat) (bb : List Bool) : Nat × List Bool :=
  (ofBits ((List.range n).map fun k => bb.getD k false), bb.drop n)

/-- `String(value).padStart(width, '0')`. -/
def padStart (width value : Nat) : List Char :=
  List.replicate (width - (Nat.toDigits 10 value).length) '0' ++ Nat.toDigits 10 value

def readNumeric : Nat → List Bool → List Char
  | count + 3, bb => padStart 3 (take 10 bb).1 ++ readNumeric count (take 10 bb).2
  | 2, bb => padStart 2 (take 7 bb).1
  | 1, bb => Nat.toDigits 10 (take 4 bb).1
  | 0, _ => []

def readBytes : Nat → List Bool → List UInt8
  | 0, _ => []
  | count + 1, bb => UInt8.ofNat (take 8 bb).1 :: readBytes count (take 8 bb).2

/-- Between the bounds of the second byte of a sequence that starts with `lead`. -/
def secondByte (lead b : UInt8) : Bool :=
  if lead = 0xe0 then 0xa0 ≤ b ∧ b ≤ 0xbf
  else if lead = 0xed then 0x80 ≤ b ∧ b ≤ 0x9f
  else if lead = 0xf0 then 0x90 ≤ b ∧ b ≤ 0xbf
  else if lead = 0xf4 then 0x80 ≤ b ∧ b ≤ 0x8f
  else 0x80 ≤ b ∧ b ≤ 0xbf

/-- How many bytes one replacement character stands for: the longest start of a
sequence, one byte at least. -/
def replacedBytes : List UInt8 → Nat
  | lead :: second :: rest =>
      if 0xe0 ≤ lead ∧ lead ≤ 0xf4 ∧ secondByte lead second then
        match rest with
        | third :: _ => if 0xf0 ≤ lead ∧ 0x80 ≤ third ∧ third ≤ 0xbf then 3 else 2
        | [] => 2
      else 1
  | _ => 1

/-- The characters of `Buffer.toString('utf8')`. What is no character becomes a
replacement character. -/
def utf8Chars (bytes : List UInt8) : List Char :=
  match bytes with
  | [] => []
  | b :: rest =>
      match (b :: rest).toByteArray.utf8DecodeChar? 0 with
      | some c => c :: utf8Chars (rest.drop (c.utf8Size - 1))
      | none => '\uFFFD' :: utf8Chars (rest.drop (replacedBytes (b :: rest) - 1))
termination_by bytes.length
decreasing_by
  all_goals
    simp only [List.length_drop, List.length_cons]
    omega

/-- Recover the encoded text from a matrix, reading the data codewords directly. -/
def decodeForTest (qr : QrMatrix) : String :=
  let stream := toBytes (readBits qr)
  let data := (deinterleave (blockSizes qr.version) (maxData qr.version) stream).flatten
  let mode := take 4 (data.flatMap (bitsOf 8))
  if mode.1 = 0b0001 then
    let count := take (countBits .numeric qr.version) mode.2
    String.ofList (readNumeric count.1 count.2)
  else
    let count := take (countBits .byte qr.version) mode.2
    String.ofList (utf8Chars (readBytes count.1 count.2))

end VpnPayment.Qr
