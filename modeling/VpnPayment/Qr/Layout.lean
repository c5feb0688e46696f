import VpnPayment.Qr.Encoder

/-! Which cells of a symbol carry no data. Every stage of the layout reserves an
area, and the areas are described by the coordinates of their cells. -/
namespace VpnPayment.Qr

open Collections

/-- The finder patterns with their separators. -/
def InFinder (size r c : Nat) : Prop :=
  (r ≤ 7 ∧ c ≤ 7) ∨ (r ≤ 7 ∧ size ≤ c + 8) ∨ (size ≤ r + 8 ∧ c ≤ 7)

/-- The timing lines between the finder patterns. -/
def InTiming (size r c : Nat) : Prop :=
  (r = 6 ∧ 8 ≤ c ∧ c + 8 < size) ∨ (c = 6 ∧ 8 ≤ r ∧ r + 8 < size)

/-- The alignment pattern around a centre. -/
def Near (centre : Nat × Nat) (r c : Nat) : Prop :=
  centre.1 ≤ r + 2 ∧ r ≤ centre.1 + 2 ∧ centre.2 ≤ c + 2 ∧ c ≤ centre.2 + 2

/-- Both copies of the format information, and the dark module. -/
def InFormat (size r c : Nat) : Prop :=
  (r = 8 ∧ (c ≤ 8 ∨ size ≤ c + 8)) ∨ (c = 8 ∧ (r ≤ 8 ∨ size ≤ r + 8))

/-- Both copies of the version information. -/
def InVersion (size r c : Nat) : Prop :=
  (r < 6 ∧ size ≤ c + 11 ∧ c + 8 < size) ∨ (c < 6 ∧ size ≤ r + 11 ∧ r + 8 < size)

/-- The modules that are not data, for given centres of alignment patterns. -/
def FunctionModule (version : Version) (centres : List (Nat × Nat)) (r c : Nat) : Prop :=
  InFinder (symbolSize version) r c ∨ InTiming (symbolSize version) r c ∨
    (∃ centre ∈ centres, Near centre r c) ∨ InFormat (symbolSize version) r c ∨
    (7 ≤ versionNumber version ∧ InVersion (symbolSize version) r c)

instance (size r c : Nat) : Decidable (InFinder size r c) :=
  inferInstanceAs (Decidable (_ ∨ _))

instance (size r c : Nat) : Decidable (InTiming size r c) :=
  inferInstanceAs (Decidable (_ ∨ _))

instance (centre : Nat × Nat) (r c : Nat) : Decidable (Near centre r c) :=
  inferInstanceAs (Decidable (_ ∧ _))

instance (size r c : Nat) : Decidable (InFormat size r c) :=
  inferInstanceAs (Decidable (_ ∨ _))

instance (size r c : Nat) : Decidable (InVersion size r c) :=
  inferInstanceAs (Decidable (_ ∨ _))

instance (version : Version) (centres : List (Nat × Nat)) (r c : Nat) :
    Decidable (FunctionModule version centres r c) :=
  inferInstanceAs (Decidable (_ ∨ _))

/-- The pairs of centre coordinates of a version. -/
def centrePairs (version : Version) : List (Nat × Nat) :=
  (align version).flatMap fun r => (align version).map fun c => (r, c)

namespace Layout

variable {n r c : Nat} {layout : Layout n}

/-- Function modules reserve their cells. -/
theorem reserved_foldl_setFn (hr : r < n) (hc : c < n) (cells : List ((Nat × Nat) × Bool)) :
    (cells.foldl setFn layout).reserved.get r c = true ↔
      layout.reserved.get r c = true ∨ ∃ v, ((r, c), v) ∈ cells := by
  induction cells generalizing layout with
  | nil => simp
  | cons cell rest ih =>
      rw [List.foldl_cons, ih]
      by_cases hCell : cell.1 = (r, c)
      · have hHere : (layout.setFn cell).reserved.get r c = true := by
          rw [show r = cell.1.1 by rw [hCell], show c = cell.1.2 by rw [hCell]]
          exact Grid.get_set_self (by rw [hCell]; exact hr) (by rw [hCell]; exact hc)
        exact ⟨fun _ => .inr ⟨cell.2, by rw [← hCell]; simp⟩, fun _ => .inl hHere⟩
      · have hSame : (layout.setFn cell).reserved.get r c = layout.reserved.get r c :=
          Grid.get_set_ne fun hEq => hCell hEq.symm
        have hSkip : ∀ v, ((r, c), v) ∈ cell :: rest ↔ ((r, c), v) ∈ rest := by
          intro v
          rw [List.mem_cons, or_iff_right]
          rintro rfl
          exact hCell rfl
        simp only [hSame, hSkip]

/-- Cells that are not set keep their colour. -/
theorem base_foldl_setFn {cells : List ((Nat × Nat) × Bool)} (h : ∀ v, ((r, c), v) ∉ cells) :
    (cells.foldl setFn layout).base.get r c = layout.base.get r c := by
  induction cells generalizing layout with
  | nil => rfl
  | cons cell rest ih =>
      rw [List.foldl_cons, ih fun v hv => h v (List.mem_cons_of_mem _ hv)]
      refine Grid.get_set_ne fun hEq => h cell.2 ?_
      rw [hEq]
      exact List.mem_cons_self

/-- Where all the writes of a cell agree, the layout holds what they write. -/
theorem base_foldl_setFn_of_mem {cells : List ((Nat × Nat) × Bool)} {v : Bool} (hr : r < n)
    (hc : c < n) (hMem : ((r, c), v) ∈ cells) (hSame : ∀ w, ((r, c), w) ∈ cells → w = v) :
    (cells.foldl setFn layout).base.get r c = some v := by
  induction cells generalizing layout with
  | nil => cases hMem
  | cons cell rest ih =>
      rw [List.foldl_cons]
      by_cases hRest : ∃ w, ((r, c), w) ∈ rest
      · obtain ⟨w, hw⟩ := hRest
        obtain rfl := hSame w (List.mem_cons_of_mem _ hw)
        exact ih hw fun w' hw' => hSame w' (List.mem_cons_of_mem _ hw')
      · rw [base_foldl_setFn fun w hw => hRest ⟨w, hw⟩]
        obtain rfl | hLater := List.mem_cons.mp hMem
        · exact Grid.get_set_self hr hc
        · exact absurd ⟨v, hLater⟩ hRest

/-- Reserving cells reserves no others. -/
theorem reserved_foldl_reserve (hr : r < n) (hc : c < n) (cells : List (Nat × Nat)) :
    (cells.foldl reserve layout).reserved.get r c = true ↔
      layout.reserved.get r c = true ∨ (r, c) ∈ cells := by
  induction cells generalizing layout with
  | nil => simp
  | cons cell rest ih =>
      rw [List.foldl_cons, ih, List.mem_cons]
      by_cases hCell : (r, c) = cell
      · subst hCell
        simp [reserve, Grid.get_set_self hr hc]
      · simp [reserve, Grid.get_set_ne hCell, hCell]

theorem base_foldl_reserve (cells : List (Nat × Nat)) :
    (cells.foldl reserve layout).base = layout.base := by
  induction cells generalizing layout with
  | nil => rfl
  | cons cell rest ih => rw [List.foldl_cons, ih]; rfl

end Layout

section areas

variable {size r c r0 c0 : Nat}

/-- A finder pattern has its seven rows and columns and the separator around them. -/
theorem mem_finderCells (hr : r < size) (hc : c < size) :
    (∃ v, ((r, c), v) ∈ finderCells size r0 c0) ↔
      r0 ≤ r + 1 ∧ r ≤ r0 + 7 ∧ c0 ≤ c + 1 ∧ c ≤ c0 + 7 := by
  simp only [finderCells, List.mem_flatMap, List.mem_filterMap, List.mem_range]
  constructor
  · rintro ⟨v, i, hi, j, hj, hCell⟩
    split at hCell
    · cases hCell
    · simp only [Option.some.injEq, Prod.mk.injEq] at hCell
      omega
  · intro h
    have hRow : ((r0 : Int) + ((r + 1 - r0 : Nat) - 1)).toNat = r := by omega
    have hCol : ((c0 : Int) + ((c + 1 - c0 : Nat) - 1)).toNat = c := by omega
    exact ⟨_, r + 1 - r0, by omega, c + 1 - c0, by omega, (if_neg (by omega)).trans
      (congrArg some (Prod.ext (Prod.ext hRow hCol) rfl))⟩

/-- The timing patterns are one row and one column. -/
theorem mem_timingCells : (∃ v, ((r, c), v) ∈ timingCells size) ↔ InTiming size r c := by
  simp only [timingCells, List.mem_flatMap, List.mem_range'_1, List.mem_cons, Prod.mk.injEq,
    List.not_mem_nil, or_false, InTiming]
  constructor
  · rintro ⟨v, i, hi, ⟨⟨rfl, rfl⟩, -⟩ | ⟨⟨rfl, rfl⟩, -⟩⟩ <;> omega
  · rintro (⟨rfl, h⟩ | ⟨rfl, h⟩)
    · exact ⟨_, c, by omega, .inl ⟨⟨rfl, rfl⟩, rfl⟩⟩
    · exact ⟨_, r, by omega, .inr ⟨⟨rfl, rfl⟩, rfl⟩⟩

/-- An alignment pattern has the five rows and columns around its centre. -/
theorem mem_alignmentCells (hr0 : 2 ≤ r0) (hc0 : 2 ≤ c0) :
    (∃ v, ((r, c), v) ∈ alignmentCells r0 c0) ↔ Near (r0, c0) r c := by
  simp only [alignmentCells, List.mem_flatMap, List.mem_map, List.mem_range, Prod.mk.injEq, Near]
  constructor
  · rintro ⟨v, i, hi, j, hj, ⟨rfl, rfl⟩, -⟩
    omega
  · intro h
    exact ⟨_, r + 2 - r0, by omega, c + 2 - c0, by omega, ⟨by omega, by omega⟩, rfl⟩

/-- The module of an alignment pattern depends on the distance from its centre. -/
theorem eq_of_mem_alignmentCells {v : Bool} (hr0 : 2 ≤ r0) (hc0 : 2 ≤ c0)
    (h : ((r, c), v) ∈ alignmentCells r0 c0) :
    v = decide (max ((r : Int) - r0).natAbs ((c : Int) - c0).natAbs ≠ 1) := by
  simp only [alignmentCells, List.mem_flatMap, List.mem_map, List.mem_range, Prod.mk.injEq] at h
  obtain ⟨i, hi, j, hj, ⟨rfl, rfl⟩, rfl⟩ := h
  have hRow : ((r0 + i - 2 : Nat) : Int) - r0 = (i : Int) - 2 := by omega
  have hCol : ((c0 + j - 2 : Nat) : Int) - c0 = (j : Int) - 2 := by omega
  rw [hRow, hCol]

theorem mem_formatArea (hSize : 17 ≤ size) (hr : r < size) (hc : c < size) :
    (r, c) ∈ formatArea size ↔ InFormat size r c := by
  simp only [formatArea, List.mem_append, List.mem_flatMap, List.mem_range, List.mem_cons,
    Prod.mk.injEq, List.not_mem_nil, or_false, InFormat]
  constructor
  · rintro (⟨i, hi, h⟩ | ⟨i, hi, h⟩) <;> omega
  · rintro (⟨rfl, h | h⟩ | ⟨rfl, h | h⟩)
    · exact .inl ⟨c, by omega, .inl ⟨rfl, rfl⟩⟩
    · exact .inr ⟨size - 1 - c, by omega, .inl ⟨rfl, by omega⟩⟩
    · exact .inl ⟨r, by omega, .inr ⟨rfl, rfl⟩⟩
    · exact .inr ⟨size - 1 - r, by omega, .inr ⟨by omega, rfl⟩⟩

theorem mem_versionArea (hSize : 17 ≤ size) :
    (r, c) ∈ versionArea size ↔ InVersion size r c := by
  simp only [versionArea, List.mem_flatMap, List.mem_range, List.mem_cons, Prod.mk.injEq,
    List.not_mem_nil, or_false, InVersion]
  constructor
  · rintro ⟨i, hi, j, hj, h⟩
    omega
  · rintro (h | h)
    · exact ⟨r, by omega, c + 11 - size, by omega, .inl ⟨rfl, by omega⟩⟩
    · exact ⟨c, by omega, r + 11 - size, by omega, .inr ⟨by omega, rfl⟩⟩

end areas

section alignment

variable {n r c : Nat} {layout : Layout n} {R R' : Nat → Nat → Bool} {ps : List (Nat × Nat)}

/-- The centres at which patterns are drawn, one after the other, when the cells
of `R` are reserved before. -/
def drawnCentres (R : Nat → Nat → Bool) : List (Nat × Nat) → List (Nat × Nat)
  | [] => []
  | p :: ps => if R p.1 p.2 then drawnCentres R ps
      else p :: drawnCentres (fun r c => R r c || Near p r c) ps

theorem drawnCentres_congr (h : ∀ p ∈ ps, R p.1 p.2 = R' p.1 p.2) :
    drawnCentres R ps = drawnCentres R' ps := by
  induction ps generalizing R R' with
  | nil => rfl
  | cons p rest ih =>
      have hRest : ∀ q ∈ rest, R q.1 q.2 = R' q.1 q.2 := fun q hq => h q (List.mem_cons_of_mem _ hq)
      have hDrawn : drawnCentres (fun r c => R r c || Near p r c) rest =
          drawnCentres (fun r c => R' r c || Near p r c) rest := by
        refine ih fun q hq => ?_
        rw [hRest q hq]
      rw [drawnCentres, drawnCentres, h p List.mem_cons_self, ih hRest, hDrawn]

/-- All the cells of the patterns drawn at some centres. -/
def patternCells (centres : List (Nat × Nat)) : List ((Nat × Nat) × Bool) :=
  centres.flatMap fun p => alignmentCells p.1 p.2

/-- A cell of some pattern is near its centre. -/
theorem mem_patternCells (hInside : ∀ p ∈ ps, 2 ≤ p.1 ∧ 2 ≤ p.2) :
    (∃ v, ((r, c), v) ∈ patternCells ps) ↔ ∃ p ∈ ps, Near p r c := by
  simp only [patternCells, List.mem_flatMap]
  constructor
  · rintro ⟨v, p, hp, hv⟩
    exact ⟨p, hp, (mem_alignmentCells (hInside p hp).1 (hInside p hp).2).mp ⟨v, hv⟩⟩
  · rintro ⟨p, hp, hNear⟩
    obtain ⟨v, hv⟩ := (mem_alignmentCells (hInside p hp).1 (hInside p hp).2).mpr hNear
    exact ⟨v, p, hp, hv⟩

/-- Placing the patterns in turn is writing the cells of those that are drawn. -/
theorem foldl_placeAlignment (hInside : ∀ p ∈ ps, 2 ≤ p.1 ∧ p.1 < n ∧ 2 ≤ p.2 ∧ p.2 < n) :
    ps.foldl Layout.placeAlignment layout =
      (patternCells (drawnCentres layout.reserved.get ps)).foldl Layout.setFn layout := by
  induction ps generalizing layout with
  | nil => rfl
  | cons p rest ih =>
      have hRest : ∀ q ∈ rest, 2 ≤ q.1 ∧ q.1 < n ∧ 2 ≤ q.2 ∧ q.2 < n :=
        fun q hq => hInside q (List.mem_cons_of_mem _ hq)
      obtain ⟨hp1, -, hp2, -⟩ := hInside p List.mem_cons_self
      rw [List.foldl_cons, ih hRest, drawnCentres, Layout.placeAlignment]
      split
      · rfl
      · have hSame : drawnCentres ((alignmentCells p.1 p.2).foldl Layout.setFn layout).reserved.get
            rest = drawnCentres (fun r c => layout.reserved.get r c || Near p r c) rest := by
          refine drawnCentres_congr fun q hq => ?_
          obtain ⟨-, hq1, -, hq2⟩ := hRest q hq
          rw [Bool.eq_iff_iff, Layout.reserved_foldl_setFn hq1 hq2, mem_alignmentCells hp1 hp2]
          simp
        rw [hSame]
        exact (List.foldl_append ..).symm

end alignment

section layout

variable {version : Version} {r c : Nat}

/-- The cells of the finder patterns and the timing lines. -/
def fixedCells (size : Nat) : List ((Nat × Nat) × Bool) :=
  finderCells size 0 0 ++ finderCells size 0 (size - 7) ++ finderCells size (size - 7) 0 ++
    timingCells size

/-- The finder and timing cells of every version. -/
theorem mem_fixedCells {size : Nat} (hSize : 21 ≤ size) (hr : r < size) (hc : c < size) :
    (∃ v, ((r, c), v) ∈ fixedCells size) ↔ InFinder size r c ∨ InTiming size r c := by
  simp only [fixedCells, List.mem_append, exists_or, mem_finderCells hr hc, mem_timingCells]
  refine or_congr_left ?_
  unfold InFinder
  omega

/-- The centres whose patterns the encoder draws. -/
def encoderCentres (version : Version) : List (Nat × Nat) :=
  (centrePairs version).filter fun p => p.1 ≠ 6 ∧ p.2 ≠ 6

theorem symbolSize_le (version : Version) : 21 ≤ symbolSize version := by
  unfold symbolSize versionNumber
  omega

/-- Alignment patterns lie inside the symbol. -/
theorem centrePairs_inside : ∀ version : Version, ∀ p ∈ centrePairs version,
    2 ≤ p.1 ∧ p.1 < symbolSize version ∧ 2 ≤ p.2 ∧ p.2 < symbolSize version := by
  decide

/-- The centres that the encoder draws, version by version. -/
theorem drawnCentres_fixed : ∀ version : Version,
    drawnCentres (fun r c => InFinder (symbolSize version) r c ∨ InTiming (symbolSize version) r c)
      (centrePairs version) = encoderCentres version := by
  decide

/-- The whole layout as one list of written cells and one of reserved cells. -/
theorem functionLayout_eq (version : Version) :
    functionLayout version =
      (formatArea (symbolSize version) ++
        if 7 ≤ versionNumber version then versionArea (symbolSize version) else []).foldl
        Layout.reserve ((fixedCells (symbolSize version) ++ patternCells (encoderCentres version) ++
          [((symbolSize version - 8, 8), true)]).foldl Layout.setFn ⟨.fill none, .fill false⟩) := by
  have hSize := symbolSize_le version
  have hDrawn : drawnCentres ((fixedCells (symbolSize version)).foldl Layout.setFn
      ⟨.fill none, .fill false⟩ : Layout (symbolSize version)).reserved.get
      (centrePairs version) = encoderCentres version := by
    rw [← drawnCentres_fixed version]
    refine drawnCentres_congr fun p hp => ?_
    obtain ⟨-, hr, -, hc⟩ := centrePairs_inside version p hp
    rw [Bool.eq_iff_iff, Layout.reserved_foldl_setFn hr hc, mem_fixedCells hSize hr hc,
      Grid.get_fill hr hc]
    simp
  have hAligned := @foldl_placeAlignment _ ((fixedCells (symbolSize version)).foldl Layout.setFn
    ⟨.fill none, .fill false⟩) _ (centrePairs_inside version)
  rw [hDrawn] at hAligned
  have hReserve : ∀ layout : Layout (symbolSize version),
      (if versionNumber version ≥ 7 then (versionArea (symbolSize version)).foldl Layout.reserve layout
        else layout) =
      (if 7 ≤ versionNumber version then versionArea (symbolSize version) else []).foldl
        Layout.reserve layout := by
    intro layout
    split <;> rfl
  unfold functionLayout
  simp only [hReserve]
  -- the stages of the layout, read as parts of the two lists
  conv_rhs => rw [List.foldl_append, List.foldl_append, List.foldl_append, ← hAligned]
  rfl

/-- The cells without data, by their coordinates. -/
theorem reserved_iff (hr : r < symbolSize version) (hc : c < symbolSize version) :
    (functionLayout version).reserved.get r c = true ↔
      FunctionModule version (encoderCentres version) r c := by
  have hSize := symbolSize_le version
  have hInside : ∀ p ∈ encoderCentres version, 2 ≤ p.1 ∧ 2 ≤ p.2 := by
    intro p hp
    obtain ⟨h1, -, h2, -⟩ := centrePairs_inside version p (List.mem_of_mem_filter hp)
    exact ⟨h1, h2⟩
  have hVersion : (r, c) ∈ (if 7 ≤ versionNumber version then versionArea (symbolSize version)
      else []) ↔ 7 ≤ versionNumber version ∧ InVersion (symbolSize version) r c := by
    split
    · next h => rw [mem_versionArea (by omega), and_iff_right h]
    · next h => simp [h]
  have hDark : (∃ v, ((r, c), v) ∈ [((symbolSize version - 8, 8), true)]) →
      InFormat (symbolSize version) r c := by
    rintro ⟨v, hv⟩
    obtain ⟨⟨rfl, rfl⟩, -⟩ : (r = symbolSize version - 8 ∧ c = 8) ∧ v = true := by simpa using hv
    exact .inr ⟨rfl, .inr (by omega)⟩
  rw [functionLayout_eq, Layout.reserved_foldl_reserve hr hc, Layout.reserved_foldl_setFn hr hc,
    Grid.get_fill hr hc, List.mem_append, mem_formatArea (by omega) hr hc, hVersion]
  simp only [List.mem_append, exists_or, mem_fixedCells hSize hr hc, mem_patternCells hInside,
    FunctionModule]
  constructor
  · rintro ((h | ((h | h) | h) | h) | h | h)
    · cases h
    · exact .inl h
    · exact .inr (.inl h)
    · exact .inr (.inr (.inl h))
    · exact .inr (.inr (.inr (.inl (hDark h))))
    · exact .inr (.inr (.inr (.inl h)))
    · exact .inr (.inr (.inr (.inr h)))
  · rintro (h | h | h | h | h)
    · exact .inl (.inr (.inl (.inl (.inl h))))
    · exact .inl (.inr (.inl (.inl (.inr h))))
    · exact .inl (.inr (.inl (.inr h)))
    · exact .inr (.inl h)
    · exact .inr (.inr h)

/-- A cell that no pattern writes has no value in the layout. -/
theorem base_eq_none (hr : r < symbolSize version) (hc : c < symbolSize version)
    (hFixed : ¬InFinder (symbolSize version) r c ∧ ¬InTiming (symbolSize version) r c)
    (hPatterns : ∀ p ∈ encoderCentres version, ¬Near p r c)
    (hDark : (r, c) ≠ (symbolSize version - 8, 8)) :
    (functionLayout version).base.get r c = none := by
  have hInside : ∀ p ∈ encoderCentres version, 2 ≤ p.1 ∧ 2 ≤ p.2 := by
    intro p hp
    obtain ⟨h1, -, h2, -⟩ := centrePairs_inside version p (List.mem_of_mem_filter hp)
    exact ⟨h1, h2⟩
  rw [functionLayout_eq, Layout.base_foldl_reserve, Layout.base_foldl_setFn, Grid.get_fill hr hc]
  intro v hv
  rw [List.mem_append, List.mem_append] at hv
  obtain (hv | hv) | hv := hv
  · obtain h | h := (mem_fixedCells (symbolSize_le version) hr hc).mp ⟨v, hv⟩
    · exact hFixed.1 h
    · exact hFixed.2 h
  · obtain ⟨p, hp, hNear⟩ := (mem_patternCells hInside).mp ⟨v, hv⟩
    exact hPatterns p hp hNear
  · obtain ⟨hCell, -⟩ := Prod.mk.inj (List.mem_singleton.mp hv)
    exact hDark hCell

/-- The patterns lie clear of the finder patterns, the timing lines, the format and
version information, and of one another. -/
theorem encoderCentres_clear : ∀ version : Version, ∀ p ∈ encoderCentres version,
    (16 ≤ p.1 ∧ 16 ≤ p.2) ∧
      ∀ q ∈ encoderCentres version, q = p ∨ q.1 + 5 ≤ p.1 ∨ p.1 + 5 ≤ q.1 ∨
        q.2 + 5 ≤ p.2 ∨ p.2 + 5 ≤ q.2 := by
  decide

/-- A module of a pattern has the value of the pattern. -/
theorem base_eq_of_near {p : Nat × Nat} (hp : p ∈ encoderCentres version)
    (hr : r < symbolSize version) (hc : c < symbolSize version) (hNear : Near p r c) :
    (functionLayout version).base.get r c =
      some (decide (max ((r : Int) - p.1).natAbs ((c : Int) - p.2).natAbs ≠ 1)) := by
  obtain ⟨⟨hp1, hp2⟩, hApart⟩ := encoderCentres_clear version p hp
  have hCell : 14 ≤ r ∧ 14 ≤ c := by
    unfold Near at hNear
    omega
  obtain ⟨v, hv⟩ := (mem_alignmentCells (by omega) (by omega)).mpr hNear
  obtain rfl := eq_of_mem_alignmentCells (by omega) (by omega) hv
  rw [functionLayout_eq, Layout.base_foldl_reserve]
  refine Layout.base_foldl_setFn_of_mem hr hc ?_ fun w hw => ?_
  · exact List.mem_append_left _ (List.mem_append_right _ (List.mem_flatMap.mpr ⟨p, hp, hv⟩))
  · rw [List.mem_append, List.mem_append] at hw
    obtain (hw | hw) | hw := hw
    · have hFixed := (mem_fixedCells (symbolSize_le version) hr hc).mp ⟨w, hw⟩
      unfold InFinder InTiming at hFixed
      omega
    · obtain ⟨q, hq, hw⟩ := List.mem_flatMap.mp hw
      obtain ⟨⟨hq1, hq2⟩, -⟩ := encoderCentres_clear version q hq
      have hNearQ := (mem_alignmentCells (by omega) (by omega)).mp ⟨w, hw⟩
      obtain rfl | hFar := hApart q hq
      · exact eq_of_mem_alignmentCells (by omega) (by omega) hw
      · unfold Near at hNear hNearQ
        omega
    · obtain ⟨hDark, -⟩ := Prod.mk.inj (List.mem_singleton.mp hw)
      have hCol := congrArg Prod.snd hDark
      simp only at hCol
      omega

end layout
end VpnPayment.Qr
