import VpnPayment.Collections.Decimal
import VpnPayment.Collections.Html
import Mathlib.Algebra.BigOperators.Group.List.Basic
import Mathlib.Tactic.Linarith

/-! Reading vector images: the path data of an element, the interior of a path by winding
numbers, and the colour that a document gives a point. -/
namespace Svg

/-- Across and down, in user units. -/
abbrev Point := ℚ × ℚ

section paths

inductive Lexeme
  | letter (c : Char)
  | number (n : Int)
deriving DecidableEq

/-- The whole number that a sign and digits spell. -/
def numberOf (spelling : List Char) : Int :=
  if spelling.head? = some '-' then -(Decimal.value spelling.tail : Int)
  else Decimal.value spelling

def pendingNumber (pending : List Char) : List Lexeme :=
  if pending = [] then [] else [.number (numberOf pending)]

/-- The lexemes of path data of which the start of a number has been read. -/
def lex (pending : List Char) : List Char → List Lexeme
  | [] => pendingNumber pending
  | c :: rest =>
      if c.isDigit then lex (pending ++ [c]) rest
      else if c = '-' then pendingNumber pending ++ lex [c] rest
      else if c = ' ' ∨ c = ',' then pendingNumber pending ++ lex [] rest
      else pendingNumber pending ++ .letter c :: lex [] rest

inductive Command
  | moveTo (x y : Int)
  | horizontal (dx : Int)
  | vertical (dy : Int)
  | close
deriving DecidableEq

def commands : List Lexeme → Option (List Command)
  | [] => some []
  | .letter 'M' :: .number x :: .number y :: rest => (commands rest).map (.moveTo x y :: ·)
  | .letter 'h' :: .number dx :: rest => (commands rest).map (.horizontal dx :: ·)
  | .letter 'v' :: .number dy :: rest => (commands rest).map (.vertical dy :: ·)
  | .letter 'z' :: rest => (commands rest).map (.close :: ·)
  | _ => none

structure Edge where
  source : Int × Int
  target : Int × Int

/-- The edges of a path, from where its subpath starts and the pen is. A subpath that is
left open is closed for filling. -/
def edges (start pen : Int × Int) : List Command → List Edge
  | [] => [⟨pen, start⟩]
  | .moveTo x y :: rest => ⟨pen, start⟩ :: edges (x, y) (x, y) rest
  | .horizontal dx :: rest => ⟨pen, (pen.1 + dx, pen.2)⟩ :: edges start (pen.1 + dx, pen.2) rest
  | .vertical dy :: rest => ⟨pen, (pen.1, pen.2 + dy)⟩ :: edges start (pen.1, pen.2 + dy) rest
  | .close :: rest => ⟨pen, start⟩ :: edges start start rest

/-- How an edge crosses the ray that goes to the right from a point: downwards, upwards or
not at all. -/
def crossing (p : Point) (e : Edge) : Int :=
  let side := (e.target.1 - e.source.1 : ℚ) * (p.2 - e.source.2) -
    (p.1 - e.source.1) * (e.target.2 - e.source.2)
  if e.source.2 ≤ p.2 ∧ p.2 < e.target.2 ∧ 0 < side then 1
  else if e.target.2 ≤ p.2 ∧ p.2 < e.source.2 ∧ side < 0 then -1
  else 0

def winding (p : Point) (path : List Command) : Int :=
  ((edges (0, 0) (0, 0) path).map (crossing p)).sum

/-- The points that a path fills, by the rule that the winding number is not zero. -/
def Fills (path : List Command) (p : Point) : Prop :=
  winding p path ≠ 0

instance (path : List Command) (p : Point) : Decidable (Fills path p) :=
  inferInstanceAs (Decidable (_ ≠ _))

end paths

section documents

/-- ` name="value"` -/
def attr (a : String × List Char) : List Char :=
  ' ' :: a.1.toList ++ '=' :: '"' :: a.2 ++ ['"']

/-- What stands between the angle brackets of a tag. -/
def tag (name : String) (attributes : List (String × List Char)) (ending : String) : List Char :=
  name.toList ++ (attributes.flatMap attr ++ ending.toList)

def element (name : String) (attributes : List (String × List Char)) (ending : String) :
    List Char :=
  '<' :: tag name attributes ending ++ ['>']

/-- The attributes of a tag of which a key has been read, and of a value what has been
read where it has begun. A key is what stands before the quotes of a value. -/
def readAttributes (key : List Char) (value : Option (List Char)) :
    List Char → List (List Char × List Char)
  | [] => []
  | c :: rest =>
      match value with
      | none =>
          if c = '"' then readAttributes key (some []) rest
          else readAttributes (key ++ [c]) none rest
      | some value =>
          if c = '"' then (key, value) :: readAttributes [] none rest
          else readAttributes key (some (value ++ [c])) rest

def keyOf (name : String) : List Char :=
  ' ' :: name.toList ++ ['=']

/-- The value of an attribute of a tag. -/
def valueOf (name : String) (tag : List Char) : List Char :=
  ((readAttributes [] none (tag.dropWhile (· ≠ ' '))).lookup (keyOf name)).getD []

/-- The colour that an element gives a point, if it covers it. -/
def paint (p : Point) (tag : List Char) : Option (List Char) :=
  let name := tag.takeWhile (· ≠ ' ')
  if name = "rect".toList then
    if 0 ≤ p.1 ∧ p.1 < numberOf (valueOf "width" tag) ∧
        0 ≤ p.2 ∧ p.2 < numberOf (valueOf "height" tag) then some (valueOf "fill" tag)
    else none
  else if name = "path".toList then
    match commands (lex [] (valueOf "d" tag)) with
    | some path => if Fills path p then some (valueOf "fill" tag) else none
    | none => none
  else none

/-- The colour of a point after one more token. An element covers the ones before it. -/
def paintOver (p : Point) (under : Option (List Char)) : Html.Token → Option (List Char)
  | .tag tag => (paint p tag).or under
  | .text _ => under

/-- The colour of a point of an image whose view box is its size. -/
def colourAt (p : Point) (svg : List Char) : Option (List Char) :=
  (Html.read svg).foldl (paintOver p) none

end documents

section reading

variable {pending rest digits : List Char} {n : Nat}

theorem numberOf_toDigits (n : Nat) : numberOf (Nat.toDigits 10 n) = n := by
  have hHead : (Nat.toDigits 10 n).head? ≠ some '-' := by
    intro hHead
    have hDigit := Decimal.digits_toDigits n '-' (List.mem_of_mem_head? hHead)
    exact absurd hDigit (by decide)
  rw [numberOf, if_neg hHead, Decimal.value_toDigits]

theorem numberOf_neg (n : Nat) : numberOf ('-' :: Nat.toDigits 10 n) = -(n : Int) := by
  rw [numberOf, if_pos (List.head?_cons), List.tail_cons, Decimal.value_toDigits]

/-- Digits are collected. -/
theorem lex_digits (h : Decimal.Digits digits) (rest : List Char) :
    lex pending (digits ++ rest) = lex (pending ++ digits) rest := by
  induction digits generalizing pending with
  | nil => simp
  | cons c cs ih =>
      have hRest : Decimal.Digits cs := fun d hd => h d (List.mem_cons_of_mem _ hd)
      rw [List.cons_append, lex, if_pos (h c List.mem_cons_self), ih hRest, List.append_assoc,
        List.singleton_append]

/-- A letter ends the number before it. -/
theorem lex_letter {c : Char} (h : c.isDigit = false ∧ c ≠ '-' ∧ c ≠ ' ' ∧ c ≠ ',') :
    lex pending (c :: rest) = pendingNumber pending ++ .letter c :: lex [] rest := by
  obtain ⟨hDigit, hSign, hSpace, hComma⟩ := h
  simp only [lex, hDigit, hSign, hSpace, hComma, or_self, if_false, Bool.false_eq_true]

theorem lex_space : lex pending (' ' :: rest) = pendingNumber pending ++ lex [] rest := by
  simp [lex]

theorem lex_sign : lex pending ('-' :: rest) = pendingNumber pending ++ lex ['-'] rest := by
  simp [lex]

theorem pendingNumber_toDigits (n : Nat) :
    pendingNumber (Nat.toDigits 10 n) = [.number n] := by
  rw [pendingNumber, if_neg Nat.toDigits_ne_nil, numberOf_toDigits]

theorem pendingNumber_neg (n : Nat) :
    pendingNumber ('-' :: Nat.toDigits 10 n) = [.number (-n)] := by
  rw [pendingNumber, if_neg (by simp), numberOf_neg]

end reading

section squares

/-- Path data for the square of a size whose first corner is at a place. -/
def squareData (x y size : Nat) : List Char :=
  'M' :: Nat.toDigits 10 x ++ ' ' :: Nat.toDigits 10 y ++ 'h' :: Nat.toDigits 10 size ++
    'v' :: Nat.toDigits 10 size ++ 'h' :: '-' :: Nat.toDigits 10 size ++ ['z']

def square (x y size : Nat) : List Command :=
  [.moveTo x y, .horizontal size, .vertical size, .horizontal (-size), .close]

/-- The path of a square read as commands. -/
theorem lex_squareData (x y size : Nat) (rest : List Char) :
    lex [] (squareData x y size ++ rest) =
      [.letter 'M', .number x, .number y, .letter 'h', .number size, .letter 'v', .number size,
        .letter 'h', .number (-size), .letter 'z'] ++ lex [] rest := by
  have hDigits := Decimal.digits_toDigits
  have hNone : pendingNumber [] = [] := rfl
  simp only [squareData, List.append_assoc, List.cons_append, List.nil_append]
  rw [lex_letter (by decide), lex_digits (hDigits x), lex_space, List.nil_append,
    lex_digits (hDigits y), lex_letter (by decide), List.nil_append, lex_digits (hDigits size),
    lex_letter (by decide), List.nil_append, lex_digits (hDigits size), lex_letter (by decide),
    List.nil_append, lex_sign, lex_digits (hDigits size), lex_letter (by decide),
    List.singleton_append]
  simp only [pendingNumber_toDigits, pendingNumber_neg, hNone, List.nil_append, List.cons_append]

/-- The squares of path data are read one after the other. -/
theorem commands_squares (cells : List (Nat × Nat)) (size : Nat) :
    commands (lex [] (cells.flatMap fun cell => squareData cell.1 cell.2 size)) =
      some (cells.flatMap fun cell => square cell.1 cell.2 size) := by
  induction cells with
  | nil => rfl
  | cons cell cells ih =>
      rw [List.flatMap_cons, List.flatMap_cons, lex_squareData]
      simp only [List.cons_append, List.nil_append, commands, ih, Option.map_some]
      rfl

end squares

section interior

variable {p : Point} {x y y' : Int}

/-- An edge without length crosses no ray. -/
theorem crossing_point (p : Point) (a : Int × Int) : crossing p ⟨a, a⟩ = 0 := by
  simp [crossing]

/-- A level edge crosses no ray to the right. -/
theorem crossing_level {x x' y : Int} : crossing p ⟨(x, y), (x', y)⟩ = 0 := by
  unfold crossing
  dsimp only
  rw [if_neg fun h => absurd (h.1.trans_lt h.2.1) (lt_irrefl _),
    if_neg fun h => absurd (h.1.trans_lt h.2.1) (lt_irrefl _)]

/-- An edge downwards counts once for the rays it crosses. -/
theorem crossing_down (h : y < y') : crossing p ⟨(x, y), (x, y')⟩ =
    if p.1 < x ∧ y ≤ p.2 ∧ p.2 < y' then 1 else 0 := by
  have hCast : (y : ℚ) < y' := by exact_mod_cast h
  have hSide : (x - x : ℚ) * (p.2 - y) - (p.1 - x) * (y' - y) = (x - p.1) * (y' - y) := by ring
  have hUp : ¬ ((y' : ℚ) ≤ p.2 ∧ p.2 < y ∧ (x - p.1 : ℚ) * (y' - y) < 0) := by
    rintro ⟨hLow, hHigh, -⟩
    linarith
  unfold crossing
  dsimp only
  rw [hSide, if_neg hUp]
  refine if_congr ?_ rfl rfl
  rw [mul_pos_iff_of_pos_right (sub_pos.mpr hCast), sub_pos]
  exact and_rotate.symm

/-- An edge upwards counts once in the other direction. -/
theorem crossing_up (h : y < y') : crossing p ⟨(x, y'), (x, y)⟩ =
    if p.1 < x ∧ y ≤ p.2 ∧ p.2 < y' then -1 else 0 := by
  have hCast : (y : ℚ) < y' := by exact_mod_cast h
  have hSide : (x - x : ℚ) * (p.2 - y') - (p.1 - x) * (y - y') = -((x - p.1) * (y' - y)) := by ring
  have hDown : ¬ ((y' : ℚ) ≤ p.2 ∧ p.2 < y ∧ 0 < -((x - p.1 : ℚ) * (y' - y))) := by
    rintro ⟨hLow, hHigh, -⟩
    linarith
  unfold crossing
  dsimp only
  rw [hSide, if_neg hDown]
  refine if_congr ?_ rfl rfl
  rw [neg_lt_zero, mul_pos_iff_of_pos_right (sub_pos.mpr hCast), sub_pos]
  exact and_rotate.symm

/-- The points of a square, without its right and lower sides. -/
def InSquare (x y size : Nat) (p : Point) : Prop :=
  x ≤ p.1 ∧ p.1 < x + size ∧ y ≤ p.2 ∧ p.2 < y + size

instance (x y size : Nat) (p : Point) : Decidable (InSquare x y size p) :=
  inferInstanceAs (Decidable (_ ∧ _))

/-- The sides of a square wind once around its points. -/
theorem crossing_sides {x y size : Nat} (h : 0 < size) :
    crossing p ⟨(x + size, y), (x + size, y + size)⟩ + crossing p ⟨(x, y + size), (x, y)⟩ =
      if InSquare x y size p then 1 else 0 := by
  have hSize : (0 : ℚ) < size := by exact_mod_cast h
  rw [crossing_down (by omega), crossing_up (by omega)]
  push_cast
  by_cases hLeft : p.1 < x
  · have hRight : p.1 < x + size := by linarith
    by_cases hBand : (y : ℚ) ≤ p.2 ∧ p.2 < y + size
    · simp [InSquare, hLeft, hRight, not_le.mpr hLeft, hBand]
    · simp [InSquare, hBand, not_le.mpr hLeft]
  · simp [InSquare, hLeft, not_lt.mp hLeft]

/-- The four edges of a square, and the move before them. -/
theorem edges_square (x y size : Nat) (start : Int × Int) (rest : List Command) :
    edges start start (square x y size ++ rest) =
      [⟨start, start⟩, ⟨(x, y), (x + size, y)⟩, ⟨(x + size, y), (x + size, y + size)⟩,
        ⟨(x + size, y + size), (x, y + size)⟩, ⟨(x, y + size), (x, y)⟩] ++ edges (x, y) (x, y) rest := by
  simp [square, edges]

/-- The winding number of squares counts those that a point is in. -/
theorem sum_crossing_squares {size : Nat} (h : 0 < size) (cells : List (Nat × Nat))
    (start : Int × Int) :
    ((edges start start (cells.flatMap fun cell => square cell.1 cell.2 size)).map
      (crossing p)).sum = (cells.countP fun cell => InSquare cell.1 cell.2 size p : Nat) := by
  induction cells generalizing start with
  | nil => simp [edges, crossing_point]
  | cons cell cells ih =>
      have hSides := @crossing_sides p cell.1 cell.2 _ h
      rw [List.flatMap_cons, edges_square, List.map_append, List.sum_append, ih, List.countP_cons]
      simp only [List.map_cons, List.map_nil, List.sum_cons, List.sum_nil, crossing_point,
        crossing_level, add_zero, zero_add]
      rw [hSides]
      by_cases hIn : InSquare cell.1 cell.2 size p
      · simp [hIn, add_comm]
      · simp [hIn]

/-- Squares fill the points that are in one of them. -/
theorem fills_squares {size : Nat} (h : 0 < size) (cells : List (Nat × Nat)) :
    Fills (cells.flatMap fun cell => square cell.1 cell.2 size) p ↔
      ∃ cell ∈ cells, InSquare cell.1 cell.2 size p := by
  rw [Fills, winding, sum_crossing_squares h, Nat.cast_ne_zero, ← Nat.pos_iff_ne_zero,
    List.countP_pos_iff]
  simp only [decide_eq_true_eq]

end interior

section elements

variable {name ending : String} {attributes : List (String × List Char)} {p : Point}
  {key value rest : List Char}

/-- Up to the quote, the name of an attribute is read. -/
theorem readAttributes_key (h : '"' ∉ value) (rest : List Char) :
    readAttributes key none (value ++ rest) = readAttributes (key ++ value) none rest := by
  induction value generalizing key with
  | nil => simp
  | cons c cs ih =>
      rw [List.mem_cons, not_or] at h
      rw [List.cons_append, readAttributes, if_neg (Ne.symm h.1), ih h.2, List.append_assoc,
        List.singleton_append]

/-- Up to the next quote, its value is. -/
theorem readAttributes_value {read : List Char} (h : '"' ∉ value) (rest : List Char) :
    readAttributes key (some read) (value ++ '"' :: rest) =
      (key, read ++ value) :: readAttributes [] none rest := by
  induction value generalizing read with
  | nil => simp [readAttributes]
  | cons c cs ih =>
      rw [List.mem_cons, not_or] at h
      rw [List.cons_append, readAttributes, if_neg (Ne.symm h.1), ih h.2, List.append_assoc,
        List.singleton_append]

theorem attr_eq (a : String × List Char) : attr a = keyOf a.1 ++ '"' :: (a.2 ++ ['"']) := by
  simp [attr, keyOf]

/-- Neither quotes nor brackets. -/
def Plain (value : List Char) : Prop :=
  '"' ∉ value ∧ '>' ∉ value

instance (value : List Char) : Decidable (Plain value) :=
  inferInstanceAs (Decidable (_ ∧ _))

theorem plain_append {cs ds : List Char} : Plain (cs ++ ds) ↔ Plain cs ∧ Plain ds := by
  simp only [Plain, List.mem_append, not_or]
  exact and_and_and_comm

theorem plain_flatMap {α : Type} {f : α → List Char} {l : List α} (h : ∀ a ∈ l, Plain (f a)) :
    Plain (l.flatMap f) := by
  constructor
  · intro hMem
    obtain ⟨a, ha, hMem⟩ := List.mem_flatMap.mp hMem
    exact (h a ha).1 hMem
  · intro hMem
    obtain ⟨a, ha, hMem⟩ := List.mem_flatMap.mp hMem
    exact (h a ha).2 hMem

/-- Attributes whose only quotes are those around the values. -/
def PlainAttributes (attributes : List (String × List Char)) : Prop :=
  ∀ a ∈ attributes, Plain (keyOf a.1) ∧ Plain a.2

/-- The attributes are read back, whatever ends the tag. -/
theorem readAttributes_attributes (h : PlainAttributes attributes) (hEnding : '"' ∉ ending.toList) :
    readAttributes [] none (attributes.flatMap attr ++ ending.toList) =
      attributes.map fun a => (keyOf a.1, a.2) := by
  induction attributes with
  | nil =>
      have hRead := @readAttributes_key [] _ hEnding []
      rw [List.append_nil] at hRead
      rw [List.flatMap_nil, List.nil_append, hRead]
      rfl
  | cons a attributes ih =>
      obtain ⟨hKey, hValue⟩ := h a List.mem_cons_self
      have hRest := ih fun b hb => h b (List.mem_cons_of_mem _ hb)
      simp only [List.flatMap_cons, attr_eq, List.append_assoc, List.cons_append, List.nil_append]
      rw [readAttributes_key hKey.1, List.nil_append, readAttributes, if_pos rfl,
        readAttributes_value hValue.1, List.nil_append, List.map_cons, ← hRest]

/-- A tag ends at its first bracket. -/
theorem bracket_notMem_tag (hName : '>' ∉ name.toList) (hEnding : '>' ∉ ending.toList)
    (h : PlainAttributes attributes) : '>' ∉ tag name attributes ending := by
  rw [tag, List.mem_append, List.mem_append, not_or, not_or]
  refine ⟨hName, ?_, hEnding⟩
  intro hMem
  obtain ⟨a, ha, hMem⟩ := List.mem_flatMap.mp hMem
  obtain ⟨hKey, hValue⟩ := h a ha
  rw [attr_eq, List.mem_append, List.mem_cons, List.mem_append, List.mem_singleton] at hMem
  rcases hMem with hMem | hMem | hMem | hMem
  · exact hKey.2 hMem
  · exact absurd hMem (by decide)
  · exact hValue.2 hMem
  · exact absurd hMem (by decide)

/-- The name of a tag ends at the first blank. -/
theorem takeWhile_tag (h : ' ' ∉ name.toList) (a : String × List Char) :
    (tag name (a :: attributes) ending).takeWhile (· ≠ ' ') = name.toList := by
  have hName : ∀ c ∈ name.toList, decide (c ≠ ' ') = true := fun c hc =>
    decide_eq_true fun hEq => h (hEq ▸ hc)
  rw [tag, List.takeWhile_append_of_pos hName, List.flatMap_cons, attr]
  simp

/-- After the name stand the attributes. -/
theorem dropWhile_tag (h : ' ' ∉ name.toList) (a : String × List Char) :
    (tag name (a :: attributes) ending).dropWhile (· ≠ ' ') =
      (a :: attributes).flatMap attr ++ ending.toList := by
  have hName : ∀ c ∈ name.toList, decide (c ≠ ' ') = true := fun c hc =>
    decide_eq_true fun hEq => h (hEq ▸ hc)
  rw [tag, List.dropWhile_append_of_pos hName, List.flatMap_cons, attr]
  simp

/-- The attributes of a tag are looked up by their names. -/
theorem valueOf_tag {a : String × List Char} (hName : ' ' ∉ name.toList)
    (h : PlainAttributes (a :: attributes)) (hEnding : '"' ∉ ending.toList) (wanted : String) :
    valueOf wanted (tag name (a :: attributes) ending) =
      (((a :: attributes).map fun a => (keyOf a.1, a.2)).lookup (keyOf wanted)).getD [] := by
  rw [valueOf, dropWhile_tag hName, readAttributes_attributes h hEnding]

/-- An element in a document. -/
theorem readText_element (hName : '>' ∉ name.toList) (hEnding : '>' ∉ ending.toList)
    (h : PlainAttributes attributes) (rest : List Char) :
    Html.readText [] (element name attributes ending ++ rest) =
      .tag (tag name attributes ending) :: Html.readText [] rest := by
  rw [element, List.append_assoc]
  exact Html.readText_tag (bracket_notMem_tag hName hEnding h) rest

end elements
end Svg
