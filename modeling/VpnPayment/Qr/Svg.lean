import VpnPayment.Collections.Base64
import VpnPayment.Collections.Svg
import VpnPayment.Qr.RoundTrip

/-! The picture of a QR symbol: its dark modules are the points painted black, so sampling
the picture gives the modules back and decoding them the text. -/
namespace VpnPayment.Qr

open Collections
open Svg (Point InSquare Plain PlainAttributes plain_append)

structure QrSvgOptions where
  /-- Pixel size of one module. -/
  moduleSize : Option Nat
  /-- Quiet-zone width in modules. -/
  margin : Option Nat

namespace QrSvgOptions

def m (opts : QrSvgOptions) : Nat :=
  opts.moduleSize.getD 4

def quietZone (opts : QrSvgOptions) : Nat :=
  opts.margin.getD 4

end QrSvgOptions

/-- `${n}` -/
def decimal (n : Nat) : List Char :=
  Nat.toDigits 10 n

def svgPath (qr : QrMatrix) (m margin : Nat) : List Char :=
  (List.range qr.size).flatMap fun r => (List.range qr.size).flatMap fun c =>
    if !qr.modules.get r c then []
    else
      let x := (c + margin) * m
      let y := (r + margin) * m
      "M".toList ++ decimal x ++ " ".toList ++ decimal y ++ "h".toList ++ decimal m ++
        "v".toList ++ decimal m ++ "h-".toList ++ decimal m ++ "z".toList

def svgDocument (dim path : List Char) : List Char :=
  "<svg xmlns=\"http://www.w3.org/2000/svg\" width=\"".toList ++ dim ++ "\" height=\"".toList ++
    dim ++ "\" ".toList ++
    "viewBox=\"0 0 ".toList ++ dim ++ " ".toList ++ dim ++ "\" shape-rendering=\"crispEdges\">".toList ++
    "<rect width=\"".toList ++ dim ++ "\" height=\"".toList ++ dim ++ "\" fill=\"#ffffff\"/>".toList ++
    "<path d=\"".toList ++ path ++ "\" fill=\"#000000\"/></svg>".toList

/-- The side of the picture in pixels. -/
def pictureSize (qr : QrMatrix) (opts : QrSvgOptions) : Nat :=
  (qr.size + opts.quietZone * 2) * opts.m

/-- Encode `text` and return an SVG document string. -/
def qrToSvg (text : String) (opts : QrSvgOptions) : Except String String := do
  let qr ← encodeToMatrix text
  return String.ofList (svgDocument (decimal (pictureSize qr opts))
    (svgPath qr opts.m opts.quietZone))

def mediaType : List Char :=
  "data:image/svg+xml;base64,".toList

/-- Encode `text` as a `data:image/svg+xml;base64,…` URI. -/
def qrToDataUri (text : String) (opts : QrSvgOptions) : Except String String := do
  let svg ← qrToSvg text opts
  return String.ofList (mediaType ++ Base64.encode (utf8Bytes svg))

/-- What a reader of such a URI gets. -/
def readDataUri (uri : String) : Option String :=
  if mediaType.isPrefixOf uri.toList then
    (Base64.decode (uri.toList.drop mediaType.length)).map fun bytes => String.ofList (utf8Chars bytes)
  else none

/-- A dark module is drawn over the point. -/
def DarkAt (qr : QrMatrix) (m margin : Nat) (p : Point) : Prop :=
  ∃ r < qr.size, ∃ c < qr.size, qr.modules.get r c = true ∧
    InSquare ((c + margin) * m) ((r + margin) * m) m p

def black : List Char :=
  "#000000".toList

def white : List Char :=
  "#ffffff".toList

/-- The centre of a module in the picture. -/
def centre (m margin r c : Nat) : Point :=
  (((c + margin) * m : Nat) + m / 2, ((r + margin) * m : Nat) + m / 2)

/-- The modules of a picture, each read at its centre. -/
def scan (svg : String) (m margin size : Nat) : Grid Bool size :=
  Grid.ofFn fun r c => Svg.colourAt (centre m margin r c) svg.toList = some black

section squares

variable {qr : QrMatrix} {m margin : Nat} {p : Point}

/-- Where the squares of the dark modules begin. -/
def darkCorners (qr : QrMatrix) (m margin : Nat) : List (Nat × Nat) :=
  (List.range qr.size).flatMap fun r => (List.range qr.size).flatMap fun c =>
    if !qr.modules.get r c then [] else [((c + margin) * m, (r + margin) * m)]

theorem svgPath_eq (qr : QrMatrix) (m margin : Nat) : svgPath qr m margin =
    (darkCorners qr m margin).flatMap fun cell => Svg.squareData cell.1 cell.2 m := by
  simp only [svgPath, darkCorners, List.flatMap_assoc]
  congr 1
  funext r
  congr 1
  funext c
  split
  · rfl
  · simp [Svg.squareData, decimal]

theorem mem_darkCorners {cell : Nat × Nat} : cell ∈ darkCorners qr m margin ↔
    ∃ r < qr.size, ∃ c < qr.size, qr.modules.get r c = true ∧
      cell = ((c + margin) * m, (r + margin) * m) := by
  simp only [darkCorners, List.mem_flatMap, List.mem_range]
  refine exists_congr fun r => and_congr_right fun _ => exists_congr fun c => and_congr_right fun _ => ?_
  cases qr.modules.get r c <;> simp

/-- The path fills the dark modules. -/
theorem fills_svgPath (hm : 0 < m) : Svg.Fills ((darkCorners qr m margin).flatMap fun cell =>
    Svg.square cell.1 cell.2 m) p ↔ DarkAt qr m margin p := by
  rw [Svg.fills_squares hm]
  constructor
  · rintro ⟨cell, hCell, hIn⟩
    obtain ⟨r, hr, c, hc, hDark, rfl⟩ := mem_darkCorners.mp hCell
    exact ⟨r, hr, c, hc, hDark, hIn⟩
  · rintro ⟨r, hr, c, hc, hDark, hIn⟩
    exact ⟨_, mem_darkCorners.mpr ⟨r, hr, c, hc, hDark, rfl⟩, hIn⟩

end squares

section documents

variable {qr : QrMatrix} {m margin n : Nat} {p : Point} {dim path : List Char}

def svgAttributes (dim : List Char) : List (String × List Char) :=
  [("xmlns", "http://www.w3.org/2000/svg".toList), ("width", dim), ("height", dim),
    ("viewBox", "0 0 ".toList ++ dim ++ ' ' :: dim), ("shape-rendering", "crispEdges".toList)]

def rectAttributes (dim : List Char) : List (String × List Char) :=
  [("width", dim), ("height", dim), ("fill", white)]

def pathAttributes (path : List Char) : List (String × List Char) :=
  [("d", path), ("fill", black)]

theorem svgDocument_eq (dim path : List Char) : svgDocument dim path =
    Svg.element "svg" (svgAttributes dim) "" ++ (Svg.element "rect" (rectAttributes dim) "/" ++
      (Svg.element "path" (pathAttributes path) "/" ++ (Svg.element "/svg" [] "" ++ []))) := by
  unfold svgDocument Svg.element Svg.tag svgAttributes rectAttributes pathAttributes white black
  simp only [Svg.attr, List.flatMap_cons, List.flatMap_nil, List.append_assoc, List.cons_append,
    List.nil_append, List.append_nil, String.reduceToList]

theorem plain_decimal (n : Nat) : Plain (decimal n) := by
  have hDigits := Decimal.digits_toDigits n
  constructor
  · intro hMem
    exact absurd (hDigits _ hMem) (by decide)
  · intro hMem
    exact absurd (hDigits _ hMem) (by decide)

theorem plain_svgPath (qr : QrMatrix) (m margin : Nat) : Plain (svgPath qr m margin) := by
  refine Svg.plain_flatMap fun r _ => Svg.plain_flatMap fun c _ => ?_
  split
  · exact ⟨List.not_mem_nil, List.not_mem_nil⟩
  · simp only [plain_append, plain_decimal, and_true]
    decide

theorem plain_svgAttributes (h : Plain dim) : PlainAttributes (svgAttributes dim) := by
  have hBox : Plain ("0 0 ".toList ++ dim ++ ' ' :: dim) := by
    rw [← List.singleton_append]
    simp only [plain_append, h, and_true]
    decide
  simp only [PlainAttributes, svgAttributes, List.forall_mem_cons, List.not_mem_nil, false_imp_iff,
    implies_true, and_true]
  exact ⟨by decide, ⟨by decide, h⟩, ⟨by decide, h⟩, ⟨by decide, hBox⟩, by decide⟩

theorem plain_rectAttributes (h : Plain dim) : PlainAttributes (rectAttributes dim) := by
  simp only [PlainAttributes, rectAttributes, List.forall_mem_cons, List.not_mem_nil, false_imp_iff,
    implies_true, and_true]
  exact ⟨⟨by decide, h⟩, ⟨by decide, h⟩, by decide⟩

theorem plain_pathAttributes (h : Plain path) : PlainAttributes (pathAttributes path) := by
  simp only [PlainAttributes, pathAttributes, List.forall_mem_cons, List.not_mem_nil, false_imp_iff,
    implies_true, and_true]
  exact ⟨⟨by decide, h⟩, by decide⟩

theorem paint_rect (h : Plain dim) (p : Point) :
    Svg.paint p (Svg.tag "rect" (rectAttributes dim) "/") =
      if 0 ≤ p.1 ∧ p.1 < Svg.numberOf dim ∧ 0 ≤ p.2 ∧ p.2 < Svg.numberOf dim then some white
      else none := by
  have hValue := @Svg.valueOf_tag "rect" "/" _ _ (by decide) (plain_rectAttributes h) (by decide)
  have hWidth : Svg.valueOf "width" (Svg.tag "rect" (rectAttributes dim) "/") = dim :=
    (hValue "width").trans (by simp [Svg.keyOf])
  have hHeight : Svg.valueOf "height" (Svg.tag "rect" (rectAttributes dim) "/") = dim :=
    (hValue "height").trans (by simp [Svg.keyOf, List.lookup_cons])
  have hFill : Svg.valueOf "fill" (Svg.tag "rect" (rectAttributes dim) "/") = white :=
    (hValue "fill").trans (by simp [Svg.keyOf, List.lookup_cons])
  have hName : (Svg.tag "rect" (rectAttributes dim) "/").takeWhile (· ≠ ' ') = "rect".toList :=
    Svg.takeWhile_tag (by decide) _
  unfold Svg.paint
  dsimp only
  rw [hName, if_pos rfl, hWidth, hHeight, hFill]

/-- The path is painted over the points that its squares fill. -/
theorem paint_path (qr : QrMatrix) (m margin : Nat) (p : Point) :
    Svg.paint p (Svg.tag "path" (pathAttributes (svgPath qr m margin)) "/") =
      if Svg.Fills ((darkCorners qr m margin).flatMap fun cell => Svg.square cell.1 cell.2 m) p then
        some black
      else none := by
  have hValue := @Svg.valueOf_tag "path" "/" _ _ (by decide)
    (plain_pathAttributes (plain_svgPath qr m margin)) (by decide)
  have hData : Svg.valueOf "d" (Svg.tag "path" (pathAttributes (svgPath qr m margin)) "/") =
      svgPath qr m margin :=
    (hValue "d").trans (by simp [Svg.keyOf])
  have hFill : Svg.valueOf "fill" (Svg.tag "path" (pathAttributes (svgPath qr m margin)) "/") =
      black :=
    (hValue "fill").trans (by simp [Svg.keyOf, List.lookup_cons])
  have hName : (Svg.tag "path" (pathAttributes (svgPath qr m margin)) "/").takeWhile (· ≠ ' ') =
      "path".toList := Svg.takeWhile_tag (by decide) _
  unfold Svg.paint
  dsimp only
  rw [hName, if_neg (by decide), if_pos rfl, hData, hFill, svgPath_eq, Svg.commands_squares]

theorem paint_svg (dim : List Char) (p : Point) :
    Svg.paint p (Svg.tag "svg" (svgAttributes dim) "") = none := by
  have hName : (Svg.tag "svg" (svgAttributes dim) "").takeWhile (· ≠ ' ') = "svg".toList :=
    Svg.takeWhile_tag (by decide) _
  unfold Svg.paint
  dsimp only
  rw [hName, if_neg (by decide), if_neg (by decide)]

/-- The elements of the picture, the later ones over the earlier. -/
theorem colourAt_layers (hDim : Plain dim) (hPath : Plain path) (p : Point) :
    Svg.colourAt p (svgDocument dim path) =
      (Svg.paint p (Svg.tag "path" (pathAttributes path) "/")).or
        (Svg.paint p (Svg.tag "rect" (rectAttributes dim) "/")) := by
  have hEnd : Svg.paint p (Svg.tag "/svg" [] "") = none := by
    unfold Svg.paint
    dsimp only
    rw [if_neg (by decide), if_neg (by decide)]
  have hNone : Html.readText [] [] = [] := rfl
  unfold Svg.colourAt Html.read
  rw [svgDocument_eq, Svg.readText_element (by decide) (by decide) (plain_svgAttributes hDim),
    Svg.readText_element (by decide) (by decide) (plain_rectAttributes hDim),
    Svg.readText_element (by decide) (by decide) (plain_pathAttributes hPath),
    Svg.readText_element (by decide) (by decide) fun a ha => absurd ha List.not_mem_nil, hNone]
  simp only [List.foldl_cons, List.foldl_nil, Svg.paintOver, paint_svg, hEnd, Option.or_none,
    Option.none_or]

/-- Dark modules are black, and the rest of the picture is white. -/
theorem colourAt_svgDocument (hm : 0 < m) (hIn : InSquare 0 0 n p) :
    (DarkAt qr m margin p →
      Svg.colourAt p (svgDocument (decimal n) (svgPath qr m margin)) = some black) ∧
    (¬ DarkAt qr m margin p →
      Svg.colourAt p (svgDocument (decimal n) (svgPath qr m margin)) = some white) := by
  have hNumber : Svg.numberOf (decimal n) = n := Svg.numberOf_toDigits n
  have hRect : Svg.paint p (Svg.tag "rect" (rectAttributes (decimal n)) "/") = some white := by
    obtain ⟨hLeft, hRight, hTop, hBottom⟩ := hIn
    rw [paint_rect (plain_decimal n), hNumber, if_pos]
    exact ⟨by simpa using hLeft, by simpa using hRight, by simpa using hTop, by simpa using hBottom⟩
  rw [colourAt_layers (plain_decimal n) (plain_svgPath qr m margin), hRect, paint_path,
    ← fills_svgPath hm]
  constructor
  · intro hFills
    rw [if_pos hFills]
    rfl
  · intro hFills
    rw [if_neg hFills]
    rfl

end documents

section scanning

variable {text : String} {opts : QrSvgOptions} {qr : QrMatrix}

/-- The centre of a module is in no other module. -/
theorem eq_of_centre {a b m : Nat} (hm : 0 < m) (hLow : ((a * m : Nat) : ℚ) ≤ (b * m : Nat) + m / 2)
    (hHigh : ((b * m : Nat) : ℚ) + m / 2 < (a * m : Nat) + m) : a = b := by
  have hPos : (0 : ℚ) < m := by exact_mod_cast hm
  push_cast at hLow hHigh
  rcases lt_trichotomy a b with hLt | hEq | hGt
  · have hNext : (a : ℚ) + 1 ≤ b := by exact_mod_cast hLt
    nlinarith
  · exact hEq
  · have hNext : (b : ℚ) + 1 ≤ a := by exact_mod_cast hGt
    nlinarith

theorem darkAt_centre {m margin r c : Nat} (hm : 0 < m) (hr : r < qr.size) (hc : c < qr.size) :
    DarkAt qr m margin (centre m margin r c) ↔ qr.modules.get r c = true := by
  have hPos : (0 : ℚ) < m := by exact_mod_cast hm
  constructor
  · rintro ⟨r', hr', c', hc', hDark, hLeft, hRight, hTop, hBottom⟩
    obtain rfl : c' = c := Nat.add_right_cancel (eq_of_centre hm hLeft hRight)
    obtain rfl : r' = r := Nat.add_right_cancel (eq_of_centre hm hTop hBottom)
    exact hDark
  · intro hDark
    refine ⟨r, hr, c, hc, hDark, ?_⟩
    unfold InSquare centre
    dsimp only
    refine ⟨?_, ?_, ?_, ?_⟩ <;> linarith

theorem centre_inSquare {m margin r c : Nat} (hm : 0 < m) (hr : r < qr.size) (hc : c < qr.size) :
    InSquare 0 0 ((qr.size + margin * 2) * m) (centre m margin r c) := by
  have hPos : (0 : ℚ) < m := by exact_mod_cast hm
  have hInside : ∀ i < qr.size, (((i + margin) * m : Nat) : ℚ) + m ≤
      ((qr.size + margin * 2) * m : Nat) := by
    intro i hi
    have hLe : (i + margin) * m + m ≤ (qr.size + margin * 2) * m := by
      rw [← Nat.succ_mul]
      exact Nat.mul_le_mul_right m (by omega)
    exact_mod_cast hLe
  have hAcross := hInside c hc
  have hDown := hInside r hr
  unfold InSquare centre
  dsimp only
  have hZero : ∀ i : Nat, (0 : ℚ) ≤ (i : ℚ) := fun i => Nat.cast_nonneg i
  have hC := hZero ((c + margin) * m)
  have hR := hZero ((r + margin) * m)
  rw [Nat.cast_zero]
  refine ⟨?_, ?_, ?_, ?_⟩ <;> linarith

/-- Scanning the picture of a symbol gives its modules. -/
theorem scan_svgDocument (hm : 0 < opts.m) :
    scan (String.ofList (svgDocument (decimal (pictureSize qr opts))
      (svgPath qr opts.m opts.quietZone))) opts.m opts.quietZone (symbolSize qr.version) =
      qr.modules := by
  refine Grid.ext_get fun r c hr hc => ?_
  rw [scan, Grid.get_ofFn hr hc, String.toList_ofList]
  obtain ⟨hDark, hLight⟩ := @colourAt_svgDocument qr opts.m opts.quietZone (pictureSize qr opts) _ hm
    (centre_inSquare hm hr hc)
  cases hModule : qr.modules.get r c with
  | true =>
      rw [hDark ((darkAt_centre hm hr hc).mpr hModule)]
      rfl
  | false =>
      have hNot : ¬ DarkAt qr opts.m opts.quietZone (centre opts.m opts.quietZone r c) := by
        rw [darkAt_centre hm hr hc, hModule]
        decide
      rw [hLight hNot]
      decide

theorem readDataUri_uri (svg : String) : readDataUri (String.ofList
    (mediaType ++ Base64.encode (utf8Bytes svg))) = some svg := by
  rw [readDataUri, String.toList_ofList, if_pos (List.isPrefixOf_iff_prefix.mpr (List.prefix_append _ _)),
    List.drop_left, Base64.decode_encode, Option.map_some, utf8Bytes, utf8Chars_flatMap,
    String.ofList_toList]

/-- The picture that is served for a text shows its symbol and nothing else, and the symbol
scanned from it is decoded to the text. -/
theorem qr_picture_reads_back (hFits : FitsVersion 9 text) (hm : 0 < opts.m) :
    ∃ qr svg uri, encodeToMatrix text = .ok qr ∧ qrToSvg text opts = .ok svg ∧
      qrToDataUri text opts = .ok uri ∧ readDataUri uri = some svg ∧
      (∀ p, InSquare 0 0 (pictureSize qr opts) p →
        (DarkAt qr opts.m opts.quietZone p → Svg.colourAt p svg.toList = some black) ∧
        (¬ DarkAt qr opts.m opts.quietZone p → Svg.colourAt p svg.toList = some white)) ∧
      decodeForTest ⟨qr.version, qr.mask,
        scan svg opts.m opts.quietZone (symbolSize qr.version)⟩ = text := by
  obtain ⟨qr, hQr, hDecoded⟩ := decodeForTest_encodeToMatrix hFits
  have hSvg : qrToSvg text opts = .ok (String.ofList (svgDocument (decimal (pictureSize qr opts))
      (svgPath qr opts.m opts.quietZone))) := by
    rw [qrToSvg, hQr]
    rfl
  refine ⟨qr, _, _, hQr, hSvg, ?_, readDataUri_uri _, ?_, ?_⟩
  · rw [qrToDataUri, hSvg]
    rfl
  · intro p hIn
    rw [String.toList_ofList]
    exact colourAt_svgDocument hm hIn
  · rw [scan_svgDocument hm]
    exact hDecoded

/-- The default size and quiet zone. -/
theorem qr_picture_reads_back_sample : ∃ qr svg uri, encodeToMatrix "7" = .ok qr ∧
    qrToSvg "7" ⟨none, none⟩ = .ok svg ∧ qrToDataUri "7" ⟨none, none⟩ = .ok uri ∧
    readDataUri uri = some svg ∧
    (∀ p, InSquare 0 0 (pictureSize qr ⟨none, none⟩) p →
      (DarkAt qr 4 4 p → Svg.colourAt p svg.toList = some black) ∧
      (¬ DarkAt qr 4 4 p → Svg.colourAt p svg.toList = some white)) ∧
    decodeForTest ⟨qr.version, qr.mask, scan svg 4 4 (symbolSize qr.version)⟩ = "7" :=
  qr_picture_reads_back (by decide) (by decide)

end scanning

end VpnPayment.Qr
