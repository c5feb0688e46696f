import Mathlib.Algebra.Order.Ring.Rat
import Mathlib.Data.List.DropRight

/-! `Number` on a string, with `none` for the texts that give no finite number.
The value is kept exact; JavaScript rounds it to the nearest double, which
changes no integer a clock in milliseconds can show. -/
namespace VpnPayment.Numeric

/-- The white space and line ends that are cut off around a numeric text. -/
def isSpace (c : Char) : Bool :=
  [0x09, 0x0A, 0x0B, 0x0C, 0x0D, 0x20, 0xA0, 0x1680, 0x2028, 0x2029, 0x202F, 0x205F, 0x3000,
    0xFEFF].contains c.toNat ||
  (0x2000 ≤ c.toNat && c.toNat ≤ 0x200A)

def strip (cs : List Char) : List Char :=
  (cs.dropWhile isSpace).rdropWhile isSpace

def digit (base : Nat) (c : Char) : Option Nat :=
  let value :=
    if c.isDigit then c.toNat - '0'.toNat
    else if 'a' ≤ c ∧ c ≤ 'f' then c.toNat - 'a'.toNat + 10
    else if 'A' ≤ c ∧ c ≤ 'F' then c.toNat - 'A'.toNat + 10
    else base
  if value < base then some value else none

/-- Read `cs` after a part with the value `value` has been read. -/
def digitsFrom (base : Nat) : List Char → Nat → Option Nat
  | [], value => some value
  | c :: cs, value => (digit base c).bind fun d => digitsFrom base cs (base * value + d)

/-- A non-empty run of digits. -/
def digits (base : Nat) (cs : List Char) : Option Nat :=
  if cs = [] then none else digitsFrom base cs 0

/-- What stands from the exponent mark on; without a mark the exponent is zero. -/
def exponent : List Char → Option Int
  | [] => some 0
  | _ :: '-' :: cs => (digits 10 cs).map fun n => -(n : Int)
  | _ :: '+' :: cs => (digits 10 cs).map fun n => (n : Int)
  | _ :: cs => (digits 10 cs).map fun n => (n : Int)

def scaled (n : Nat) : Int → Rat
  | .ofNat e => n * (10 ^ e : Nat)
  | .negSucc e => mkRat n (10 ^ (e + 1))

def unsignedDecimal (cs : List Char) : Option Rat :=
  let notMark := fun c => c != 'e' && c != 'E'
  let mantissa := cs.takeWhile notMark
  let whole := mantissa.takeWhile (· != '.')
  let fraction := (mantissa.dropWhile (· != '.')).drop 1
  (digits 10 (whole ++ fraction)).bind fun n =>
    (exponent (cs.dropWhile notMark)).map fun e => scaled n (e - fraction.length)

def number (text : String) : Option Rat :=
  match strip text.toList with
  | [] => some 0
  | '0' :: 'x' :: cs | '0' :: 'X' :: cs => (digits 16 cs).map (·)
  | '0' :: 'o' :: cs | '0' :: 'O' :: cs => (digits 8 cs).map (·)
  | '0' :: 'b' :: cs | '0' :: 'B' :: cs => (digits 2 cs).map (·)
  | '-' :: cs => (unsignedDecimal cs).map (-·)
  | '+' :: cs => unsignedDecimal cs
  | cs => unsignedDecimal cs

theorem isDigit_bounds (c : Char) (h : c.isDigit = true) : 48 ≤ c.toNat ∧ c.toNat ≤ 57 := by
  simp only [Char.isDigit, ge_iff_le, Bool.and_eq_true, decide_eq_true_eq] at h
  exact h

theorem digit_of_isDigit (c : Char) (h : c.isDigit = true) :
    digit 10 c = some (c.toNat - '0'.toNat) := by
  have hb := isDigit_bounds c h
  have hv : c.toNat - '0'.toNat < 10 := by
    have hz : '0'.toNat = 48 := rfl
    omega
  simp only [digit, h, if_true, hv]

theorem digitsFrom_of_isDigit (cs : List Char) (value : Nat) (h : ∀ c ∈ cs, c.isDigit = true) :
    digitsFrom 10 cs value = some (Nat.ofDigitChars 10 cs value) := by
  induction cs generalizing value with
  | nil => rfl
  | cons c cs ih =>
      simp only [digitsFrom, digit_of_isDigit c (h c (by simp)), Option.bind_some]
      rw [ih _ fun c' hm => h c' (by simp [hm]), Nat.ofDigitChars_cons]

theorem not_isSpace_of_isDigit (c : Char) (h : c.isDigit = true) : isSpace c = false := by
  have hb := isDigit_bounds c h
  simp [isSpace]
  omega

theorem ne_of_isDigit (c d : Char) (hc : c.isDigit = true) (hd : d.isDigit = false) : c ≠ d := by
  intro h
  subst h
  rw [hc] at hd
  cases hd

theorem strip_of_not_isSpace (cs : List Char) (h : ∀ c ∈ cs, isSpace c = false) : strip cs = cs := by
  have hl : cs.dropWhile isSpace = cs := by
    cases cs with
    | nil => rfl
    | cons c cs => simp [h c (by simp)]
  rw [strip, hl, List.rdropWhile_eq_self_iff]
  intro hne
  simp [h _ (List.getLast_mem hne)]

theorem isDigit_toDigits (n : Nat) : ∀ c ∈ Nat.toDigits 10 n, c.isDigit = true := fun _ hm =>
  Nat.isDigit_of_mem_toDigits (by decide) (by decide) hm

theorem unsignedDecimal_toDigits (n : Nat) :
    unsignedDecimal (Nat.toDigits 10 n) = some (n : Rat) := by
  have hd := isDigit_toDigits n
  have hMark : ∀ c ∈ Nat.toDigits 10 n, (c != 'e' && c != 'E') = true := by
    intro c hm
    have h1 := ne_of_isDigit c 'e' (hd c hm) rfl
    have h2 := ne_of_isDigit c 'E' (hd c hm) rfl
    simp [h1, h2]
  have hPoint : ∀ c ∈ Nat.toDigits 10 n, (c != '.') = true := by
    intro c hm
    simp [ne_of_isDigit c '.' (hd c hm) rfl]
  have hv : digits 10 (Nat.toDigits 10 n) = some n := by
    rw [digits, if_neg Nat.toDigits_ne_nil, digitsFrom_of_isDigit _ _ hd,
      Nat.ofDigitChars_ten_toDigits]
  simp [unsignedDecimal, List.takeWhile_eq_self_iff.mpr hMark,
    List.takeWhile_eq_self_iff.mpr hPoint, List.dropWhile_eq_nil_iff.mpr hMark,
    List.dropWhile_eq_nil_iff.mpr hPoint, hv, exponent, scaled]

theorem number_repr (n : Nat) : number n.repr = some (n : Rat) := by
  have hd := isDigit_toDigits n
  have hs : strip n.repr.toList = Nat.toDigits 10 n := by
    rw [Nat.toList_repr]
    exact strip_of_not_isSpace _ fun c hm => not_isSpace_of_isDigit c (hd c hm)
  have hv := unsignedDecimal_toDigits n
  rw [number, hs]
  -- Every pattern but the last one asks for a sign or a radix letter, which is no digit.
  split
  · exact absurd ‹_› Nat.toDigits_ne_nil
  all_goals simp_all

theorem number_neg_repr (n : Nat) : number ("-" ++ n.repr) = some (-n : Rat) := by
  have hs : strip ("-" ++ n.repr).toList = '-' :: Nat.toDigits 10 n := by
    rw [String.toList_append, Nat.toList_repr]
    apply strip_of_not_isSpace
    intro c hm
    rcases List.mem_cons.mp hm with rfl | hm
    · rfl
    · exact not_isSpace_of_isDigit c (isDigit_toDigits n c hm)
  rw [number, hs]
  simp [unsignedDecimal_toDigits]

/-- Reading an integer back from its own decimal text. -/
theorem number_toString (t : Int) : number (toString t) = some (t : Rat) := by
  cases t with
  | ofNat n => exact number_repr n
  | negSucc n =>
      rw [show toString (Int.negSucc n) = "-" ++ (n + 1).repr from rfl, number_neg_repr]
      simp [Int.negSucc_eq]

example : number " 1e3 " = some 1000 ∧ number "0x10" = some 16 ∧ number "-.5" = some (-1 / 2) ∧
    number "" = some 0 ∧ number "12a" = none := by
  decide +kernel

end VpnPayment.Numeric
