import Mathlib.Data.List.Basic

/-! Base64: bytes as texts of sixty-four characters, in groups of three bytes and four
characters. -/
namespace Base64

def alphabet : List Char :=
  "ABCDEFGHIJKLMNOPQRSTUVWXYZabcdefghijklmnopqrstuvwxyz0123456789+/".toList

def digit (n : Nat) : Char :=
  alphabet.getD n '='

def digitValue (c : Char) : Option Nat :=
  alphabet.findIdx? (· = c)

/-- The last group is padded. -/
def encode : List UInt8 → List Char
  | [] => []
  | [a] => [digit (a.toNat / 4), digit (a.toNat % 4 * 16), '=', '=']
  | [a, b] => [digit (a.toNat / 4), digit (a.toNat % 4 * 16 + b.toNat / 16),
      digit (b.toNat % 16 * 4), '=']
  | a :: b :: c :: rest => digit (a.toNat / 4) :: digit (a.toNat % 4 * 16 + b.toNat / 16) ::
      digit (b.toNat % 16 * 4 + c.toNat / 64) :: digit (c.toNat % 64) :: encode rest

/-- The bytes of one group. -/
def group (p q r s : Char) : Option (List UInt8) := do
  let p ← digitValue p
  let q ← digitValue q
  let a := UInt8.ofNat (p * 4 + q / 16)
  if r = '=' ∧ s = '=' then return [a]
  let r ← digitValue r
  let b := UInt8.ofNat (q % 16 * 16 + r / 4)
  if s = '=' then return [a, b]
  let s ← digitValue s
  return [a, b, UInt8.ofNat (r % 4 * 64 + s)]

/-- Reading a text back. A padded group is the last one. -/
def decode : List Char → Option (List UInt8)
  | [] => some []
  | p :: q :: r :: s :: rest => do
      let bytes ← group p q r s
      if bytes.length < 3 ∧ rest ≠ [] then none
      else return bytes ++ (← decode rest)
  | _ => none

/-- What stands in an encoded text. -/
def IsDigit (c : Char) : Prop :=
  c ∈ alphabet ∨ c = '='

theorem digitValue_digit {n : Nat} (h : n < 64) : digitValue (digit n) = some n := by
  have hAll : ∀ n : Fin 64, digitValue (digit n) = some n.val := by decide +kernel
  exact hAll ⟨n, h⟩

theorem digit_ne_pad {n : Nat} (h : n < 64) : digit n ≠ '=' := by
  have hAll : ∀ n : Fin 64, digit n ≠ '=' := by decide +kernel
  exact hAll ⟨n, h⟩

theorem isDigit_digit (n : Nat) : IsDigit (digit n) := by
  unfold IsDigit digit
  rw [List.getD_eq_getElem?_getD]
  cases hAt : alphabet[n]? with
  | none => exact .inr rfl
  | some c => exact .inl (List.mem_of_getElem? hAt)

section groups

variable {p q r s : Nat}

theorem group_one (hP : p < 64) (hQ : q < 64) :
    group (digit p) (digit q) '=' '=' = some [UInt8.ofNat (p * 4 + q / 16)] := by
  simp only [group, digitValue_digit hP, digitValue_digit hQ, Option.bind_eq_bind, Option.bind_some]
  rfl

theorem group_two (hP : p < 64) (hQ : q < 64) (hR : r < 64) :
    group (digit p) (digit q) (digit r) '=' =
      some [UInt8.ofNat (p * 4 + q / 16), UInt8.ofNat (q % 16 * 16 + r / 4)] := by
  simp only [group, digitValue_digit hP, digitValue_digit hQ, digitValue_digit hR, digit_ne_pad hR,
    Option.bind_eq_bind, Option.bind_some, false_and, if_false]
  rfl

theorem group_three (hP : p < 64) (hQ : q < 64) (hR : r < 64) (hS : s < 64) :
    group (digit p) (digit q) (digit r) (digit s) =
      some [UInt8.ofNat (p * 4 + q / 16), UInt8.ofNat (q % 16 * 16 + r / 4),
        UInt8.ofNat (r % 4 * 64 + s)] := by
  simp only [group, digitValue_digit hP, digitValue_digit hQ, digitValue_digit hR,
    digitValue_digit hS, digit_ne_pad hR, digit_ne_pad hS, Option.bind_eq_bind, Option.bind_some,
    false_and, if_false]
  rfl

/-- A byte is told from the digits that share it. -/
theorem ofNat_of_eq {n : Nat} {b : UInt8} (h : n = b.toNat) : UInt8.ofNat n = b := by
  rw [h, UInt8.ofNat_toNat]

end groups

/-- Bytes are read back from their encoding. -/
@[simp] theorem decode_encode (bytes : List UInt8) : decode (encode bytes) = some bytes := by
  induction bytes using encode.induct with
  | case1 => rfl
  | case2 a =>
      have hA := a.toNat_lt
      rw [encode, decode, group_one (by omega) (by omega), @ofNat_of_eq _ a (by omega)]
      rfl
  | case3 a b =>
      have hA := a.toNat_lt
      have hB := b.toNat_lt
      rw [encode, decode, group_two (by omega) (by omega) (by omega), @ofNat_of_eq _ a (by omega),
        @ofNat_of_eq _ b (by omega)]
      rfl
  | case4 a b c rest ih =>
      have hA := a.toNat_lt
      have hB := b.toNat_lt
      have hC := c.toNat_lt
      rw [encode, decode, group_three (by omega) (by omega) (by omega) (by omega),
        @ofNat_of_eq _ a (by omega), @ofNat_of_eq _ b (by omega), @ofNat_of_eq _ c (by omega), ih]
      rfl

/-- Every three bytes begun take four characters. -/
theorem length_encode (bytes : List UInt8) : (encode bytes).length = 4 * ((bytes.length + 2) / 3) := by
  induction bytes using encode.induct with
  | case1 => rfl
  | case2 a => simp [encode]
  | case3 a b => simp [encode]
  | case4 a b c rest ih =>
      simp only [encode, List.length_cons, ih]
      omega

theorem isDigit_encode {bytes : List UInt8} {c : Char} (h : c ∈ encode bytes) : IsDigit c := by
  induction bytes using encode.induct with
  | case1 => cases h
  | case2 a =>
      simp only [encode, List.mem_cons, List.not_mem_nil, or_false] at h
      rcases h with rfl | rfl | rfl | rfl
      · exact isDigit_digit _
      · exact isDigit_digit _
      · exact .inr rfl
      · exact .inr rfl
  | case3 a b =>
      simp only [encode, List.mem_cons, List.not_mem_nil, or_false] at h
      rcases h with rfl | rfl | rfl | rfl
      · exact isDigit_digit _
      · exact isDigit_digit _
      · exact isDigit_digit _
      · exact .inr rfl
  | case4 a b c' rest ih =>
      simp only [encode, List.mem_cons] at h
      rcases h with rfl | rfl | rfl | rfl | h
      · exact isDigit_digit _
      · exact isDigit_digit _
      · exact isDigit_digit _
      · exact isDigit_digit _
      · exact ih h

/-- Line ends and dashes do not stand in an encoded text. -/
theorem not_isDigit {c : Char} (h : c ∈ ['\r', '\n', '\t', '-', '.', '?', ' ']) : ¬ IsDigit c := by
  have hAll : (['\r', '\n', '\t', '-', '.', '?', ' '].all fun c =>
      ¬ (c ∈ alphabet ∨ c = '=')) = true := by decide
  show ¬ (c ∈ alphabet ∨ c = '=')
  exact of_decide_eq_true (List.all_eq_true.mp hAll c h)

end Base64
