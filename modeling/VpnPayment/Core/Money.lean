import VpnPayment.Collections.Decimal
import VpnPayment.Domain.Types
import VpnPayment.Webhooks.Numeric

/-! Decimal-safe money: amounts are integers of minor units, and a display text is
made of one at the boundary. -/
namespace VpnPayment

def Currency.decimals : Currency → Nat
  | .CNY => 2
  | .USDT => 6

/-- Format minor units as a decimal text. -/
def fromMinorUnits (minor : Int) (currency : Currency) : Except AppError String :=
  if minor < 0 then .error ⟨.validation, s!"invalid minor-unit amount: {minor}"⟩
  else
    let factor := 10 ^ currency.decimals
    let fracPart := toString (minor.toNat % factor)
    .ok (toString (minor.toNat / factor) ++ "." ++
      String.ofList (List.replicate (currency.decimals - fracPart.length) '0') ++ fracPart)

theorem fromMinorUnits_ok_iff {minor : Int} {currency : Currency} :
    (∃ text, fromMinorUnits minor currency = .ok text) ↔ 0 ≤ minor := by
  unfold fromMinorUnits
  split
  · next hNegative =>
      constructor
      · intro h
        obtain ⟨text, hText⟩ := h
        cases hText
      · intro h
        omega
  · next hNonneg => exact ⟨fun _ => by omega, fun _ => ⟨_, rfl⟩⟩

/-- `/^\d+(\.\d+)?$/.test(str)`. -/
def monetary (str : List Char) : Bool :=
  let whole := str.takeWhile Char.isDigit
  decide (whole ≠ []) &&
    match str.dropWhile Char.isDigit with
    | [] => true
    | d :: fraction => d = '.' && decide (fraction ≠ []) && fraction.all Char.isDigit

/-- `Number.MAX_SAFE_INTEGER`. -/
def maxSafeInteger : Nat :=
  9007199254740991

/-- Convert a decimal text to minor units. -/
def toMinorUnits (input : String) (currency : Currency) : Except AppError Int :=
  let str := Numeric.strip input.toList
  if monetary str then
    let parts := str.splitOn '.'
    let intPart := parts.headD []
    let fracPartRaw := (parts[1]?).getD []
    if fracPartRaw.length > currency.decimals then
      .error ⟨.validation, s!"value {String.ofList str} has more than {currency.decimals} " ++
        s!"decimal places for {currency.name}"⟩
    else
      let fracPart := fracPartRaw ++
        List.replicate (currency.decimals - fracPartRaw.length) '0'
      let minor := Decimal.value intPart * 10 ^ currency.decimals + Decimal.value fracPart
      if minor > maxSafeInteger then
        .error ⟨.validation, s!"value {String.ofList str} is too large"⟩
      else .ok minor
  else .error ⟨.validation, s!"invalid monetary value: {input}"⟩

section spelling

open Decimal

theorem decimals_pos (currency : Currency) : 0 < currency.decimals := by
  cases currency with
  | CNY => decide
  | USDT => decide

theorem monetary_iff {str : List Char} : monetary str = true ↔ ∃ a : Spelling, a.chars = str := by
  constructor
  · intro h
    simp only [monetary, Bool.and_eq_true, decide_eq_true_eq] at h
    obtain ⟨hSome, hRest⟩ := h
    have hSplit := @List.takeWhile_append_dropWhile _ Char.isDigit str
    have hWhole : Digits (str.takeWhile Char.isDigit) := fun c hc => List.mem_takeWhile_imp hc
    cases hTail : str.dropWhile Char.isDigit with
    | nil =>
        rw [hTail, List.append_nil] at hSplit
        exact ⟨⟨_, [], hSome, hWhole, List.forall_mem_nil _⟩, hSplit⟩
    | cons d fraction =>
        rw [hTail] at hRest hSplit
        simp only [Bool.and_eq_true, decide_eq_true_eq, List.all_eq_true] at hRest
        obtain ⟨⟨rfl, hFraction⟩, hDigits⟩ := hRest
        refine ⟨⟨_, fraction, hSome, hWhole, hDigits⟩, ?_⟩
        rw [Spelling.chars, if_neg hFraction, hSplit]
  · intro h
    obtain ⟨a, rfl⟩ := h
    rw [Spelling.chars]
    split
    · next hNone =>
        have hTake : a.whole.takeWhile Char.isDigit = a.whole :=
          List.takeWhile_eq_self_iff.mpr a.whole_digits
        have hDrop : a.whole.dropWhile Char.isDigit = [] :=
          List.dropWhile_eq_nil_iff.mpr a.whole_digits
        simp [monetary, hTake, hDrop, a.whole_some]
    · next hFraction =>
        have hDigits : a.fraction.all Char.isDigit = true :=
          List.all_eq_true.mpr a.fraction_digits
        simp [monetary, List.takeWhile_append_of_pos a.whole_digits,
          List.dropWhile_append_of_pos a.whole_digits, a.whole_some, hFraction, hDigits]

theorem point_notMem {cs : List Char} (h : Digits cs) : '.' ∉ cs := by
  intro hPoint
  cases h '.' hPoint

theorem splitOn_chars (a : Spelling) :
    a.chars.splitOn '.' = if a.fraction = [] then [a.whole] else [a.whole, a.fraction] := by
  rw [Spelling.chars]
  split
  · exact List.splitOn_eq_singleton (point_notMem a.whole_digits)
  · rw [List.splitOn_append_cons_self_of_not_mem (point_notMem a.whole_digits),
      List.splitOn_eq_singleton (point_notMem a.fraction_digits)]

/-- What is read of a spelling. -/
theorem toMinorUnits_of_chars {input : String} {currency : Currency} {a : Spelling} {n : Int}
    (hChars : a.chars = Numeric.strip input.toList) :
    toMinorUnits input currency = .ok n ↔
      a.fraction.length ≤ currency.decimals ∧ n = a.units currency.decimals ∧
        n ≤ maxSafeInteger := by
  have hMonetary : monetary a.chars = true := monetary_iff.mpr ⟨a, rfl⟩
  have hWhole : (a.chars.splitOn '.').headD [] = a.whole := by
    rw [splitOn_chars]
    split
    · rfl
    · rfl
  have hFraction : ((a.chars.splitOn '.')[1]?).getD [] = a.fraction := by
    rw [splitOn_chars]
    split
    · next hNone => exact hNone.symm
    · rfl
  rw [toMinorUnits, ← hChars]
  dsimp only
  rw [if_pos hMonetary, hWhole, hFraction]
  change (if a.fraction.length > currency.decimals then _ else
    if a.units currency.decimals > maxSafeInteger then _ else _) = _ ↔ _
  split
  · next hLong =>
      constructor
      · intro h
        cases h
      · intro h
        omega
  · next hFits =>
      split
      · next hLarge =>
          constructor
          · intro h
            cases h
          · intro h
            omega
      · next hSafe =>
          constructor
          · intro h
            cases h
            exact ⟨by omega, rfl, by exact_mod_cast Nat.le_of_not_lt hSafe⟩
          · intro h
            rw [h.2.1]
            rfl

/-- Nothing but a spelling is read. -/
theorem toMinorUnits_ok_iff {input : String} {currency : Currency} {n : Int} :
    toMinorUnits input currency = .ok n ↔ ∃ a : Spelling,
      a.chars = Numeric.strip input.toList ∧ a.fraction.length ≤ currency.decimals ∧
        a.number * 10 ^ currency.decimals = n ∧ n ≤ maxSafeInteger := by
  have hNumber : ∀ a : Spelling, a.fraction.length ≤ currency.decimals →
      (n = a.units currency.decimals ↔ a.number * 10 ^ currency.decimals = n) := by
    intro a hFits
    rw [a.number_mul hFits, eq_comm]
    exact_mod_cast Iff.rfl
  constructor
  · intro h
    by_cases hMonetary : monetary (Numeric.strip input.toList) = true
    · obtain ⟨a, hChars⟩ := monetary_iff.mp hMonetary
      obtain ⟨hFits, hUnits, hSafe⟩ := (toMinorUnits_of_chars hChars).mp h
      exact ⟨a, hChars, hFits, (hNumber a hFits).mp hUnits, hSafe⟩
    · rw [toMinorUnits] at h
      dsimp only at h
      rw [if_neg hMonetary] at h
      cases h
  · intro h
    obtain ⟨a, hChars, hFits, hUnits, hSafe⟩ := h
    exact (toMinorUnits_of_chars hChars).mpr ⟨hFits, (hNumber a hFits).mpr hUnits, hSafe⟩

theorem fromMinorUnits_eq {n : Int} (h : 0 ≤ n) (currency : Currency) :
    fromMinorUnits n currency =
      .ok (String.ofList (Spelling.ofUnits currency.decimals n.toNat).chars) := by
  have hSome : (Spelling.ofUnits currency.decimals n.toNat).fraction ≠ [] := by
    apply List.ne_nil_of_length_pos
    rw [(Spelling.canonical_ofUnits (decimals_pos currency) n.toNat).fraction]
    exact decimals_pos currency
  have hRepr : ∀ k : Nat, toString k = String.ofList (Nat.toDigits 10 k) := fun k =>
    Nat.repr_eq_ofList_toDigits
  rw [fromMinorUnits, if_neg (by omega), Spelling.chars, if_neg hSome, Spelling.ofUnits]
  dsimp only
  rw [hRepr, hRepr]
  simp [String.ext_iff]

theorem strip_chars (a : Spelling) : Numeric.strip a.chars = a.chars := by
  apply Numeric.strip_of_not_isSpace
  intro c hc
  rw [Spelling.chars] at hc
  split at hc
  · exact Numeric.not_isSpace_of_isDigit c (a.whole_digits c hc)
  · cases List.mem_append.mp hc with
    | inl hWhole => exact Numeric.not_isSpace_of_isDigit c (a.whole_digits c hWhole)
    | inr hRest =>
        cases List.mem_cons.mp hRest with
        | inl hPoint =>
            rw [hPoint]
            rfl
        | inr hFraction => exact Numeric.not_isSpace_of_isDigit c (a.fraction_digits c hFraction)

/-- Amounts keep their value as texts: what is written is read back, exactly the
spellings with a safe value are read, as that value, and what is written is the
canonical spelling of the number. -/
theorem money_text (currency : Currency) :
    (∀ n : Int, 0 ≤ n → n ≤ maxSafeInteger →
      ∃ text, fromMinorUnits n currency = .ok text ∧ toMinorUnits text currency = .ok n) ∧
    (∀ (input : String) (n : Int), toMinorUnits input currency = .ok n ↔ ∃ a : Spelling,
      a.chars = Numeric.strip input.toList ∧ a.fraction.length ≤ currency.decimals ∧
        a.number * 10 ^ currency.decimals = n ∧ n ≤ maxSafeInteger) ∧
    ∀ (input : String) (n : Int), toMinorUnits input currency = .ok n → ∃ a : Spelling,
      fromMinorUnits n currency = .ok (String.ofList a.chars) ∧ a.Canonical currency.decimals ∧
        a.number * 10 ^ currency.decimals = n ∧
        ∀ b : Spelling, b.Canonical currency.decimals → b.number = a.number → b = a := by
  refine ⟨?_, fun input n => toMinorUnits_ok_iff, ?_⟩
  · intro n hNonneg hSafe
    have hCanonical := Spelling.canonical_ofUnits (decimals_pos currency) n.toNat
    have hNumber := Spelling.number_ofUnits (decimals_pos currency) n.toNat
    have hCast : ((n.toNat : Nat) : ℚ) = n := by exact_mod_cast Int.toNat_of_nonneg hNonneg
    refine ⟨_, fromMinorUnits_eq hNonneg currency, ?_⟩
    apply toMinorUnits_ok_iff.mpr
    refine ⟨_, ?_, hCanonical.fraction.le, hNumber.trans hCast, hSafe⟩
    rw [String.toList_ofList, strip_chars]
  · intro input n h
    obtain ⟨read, hChars, hFits, hUnits, hSafe⟩ := toMinorUnits_ok_iff.mp h
    have hNonneg : 0 ≤ n := by
      rw [read.number_mul hFits] at hUnits
      have hEq : (read.units currency.decimals : Int) = n := by exact_mod_cast hUnits
      omega
    have hCast : ((n.toNat : Nat) : ℚ) = n := by exact_mod_cast Int.toNat_of_nonneg hNonneg
    have hCanonical := Spelling.canonical_ofUnits (decimals_pos currency) n.toNat
    have hNumber := Spelling.number_ofUnits (decimals_pos currency) n.toNat
    exact ⟨_, fromMinorUnits_eq hNonneg currency, hCanonical, hNumber.trans hCast,
      fun b hb hSame => Spelling.eq_of_canonical hb hCanonical hSame⟩

example : toMinorUnits " 007.5 " .CNY = .ok 750 ∧ fromMinorUnits 750 .CNY = .ok "7.50" := by
  exact ⟨rfl, rfl⟩

end spelling

end VpnPayment
