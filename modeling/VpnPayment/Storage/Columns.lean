import VpnPayment.Collections.Json
import VpnPayment.Webhooks.Numeric

/-! Columns of the SQL tables: what is bound to the parameters of a statement, what a column
keeps of it, what the driver hands out for it, and the conversions of the row mappers. -/
namespace VpnPayment.Sql

open Json

/-- The values that pass between a repository and the driver. Numbers are integers here. -/
inductive Value
  | undefined
  | null
  | boolean (b : Bool)
  | number (n : Int)
  | string (s : String)
  | array (items : List String)
  | object (members : Record)

/-- A result row. A column it does not have reads as `undefined`. -/
abbrev Row := String → Value

section conversions

/-- The double nearest to an integer, the even one of two. -/
def nearestDouble (n : Nat) : Nat :=
  let unit := 2 ^ (n.log2 - 52)
  let below := n / unit
  let rest := n % unit
  if 2 * rest < unit ∨ 2 * rest = unit ∧ below % 2 = 0 then below * unit else (below + 1) * unit

/-- `Number` of a text that spells an integer. -/
def numberOfText (s : String) : Option Int :=
  (Numeric.number s).bind fun q =>
    if q.den = 1 then some (q.num.sign * nearestDouble q.num.natAbs) else none

def num : Value → Option Int
  | .undefined => none
  | .null => some 0
  | .boolean b => some (if b then 1 else 0)
  | .number n => some n
  | .string s => numberOfText s
  | .array items => numberOfText (",".intercalate items)
  | .object _ => none

def str : Value → String
  | .undefined => "undefined"
  | .null => "null"
  | .boolean b => if b then "true" else "false"
  | .number n => toString n
  | .string s => s
  | .array items => ",".intercalate items
  | .object _ => "[object Object]"

def optNum : Value → Option (Option Int)
  | .undefined | .null => some none
  | v => (num v).map some

def optStr : Value → Option String
  | .undefined | .null => none
  | v => some (str v)

/-- `Boolean` -/
def truth : Value → Bool
  | .undefined | .null => false
  | .boolean b => b
  | .number n => n ≠ 0
  | .string s => s ≠ ""
  | .array _ | .object _ => true

/-- `typeof v === 'string' ? JSON.parse(v) : (v ?? [])`, as a list of strings. -/
def textsOf : Value → Option (List String)
  | .string s => parseTexts s
  | .undefined | .null => some []
  | .array items => some items
  | _ => none

/-- `typeof v === 'string' ? JSON.parse(v) : (v ?? {})`, as a record of strings. -/
def recordOf : Value → Option Record
  | .string s => parseRecord s
  | .undefined | .null => some .empty
  | .object members => some members
  | _ => none

/-- `v ?? null` -/
def orNull {α : Type} (wrap : α → Value) : Option α → Value
  | some a => wrap a
  | none => .null

/-- A string that is taken for a member of an enumeration. -/
def named {α : Type} (all : List α) (name : α → String) (v : Value) : Option α :=
  all.find? fun a => name a = str v

end conversions

section columns

inductive ColumnType
  | TEXT
  | BIGINT
  | INTEGER
  | BOOLEAN
  | JSONB
deriving DecidableEq

structure Column where
  name : String
  type : ColumnType
  notNull : Bool

/-- What a column keeps. -/
inductive Datum
  | null
  | text (s : String)
  | integer (n : Int)
  | boolean (b : Bool)
  | texts (items : List String)
  | record (members : Record)

/-- No column takes the character NUL, as such or in the strings of a JSONB. -/
def plain (s : String) : Bool :=
  !s.toList.contains (Char.ofNat 0)

def Datum.plain : Datum → Bool
  | .null | .integer _ | .boolean _ => true
  | .text s => Sql.plain s
  | .texts items => items.all Sql.plain
  | .record members => members.rows.all fun m => Sql.plain m.1 && Sql.plain m.2

/-- What the column keeps of a parameter, if it takes it. -/
def Column.store (c : Column) : Value → Option Datum
  | .undefined | .null => if c.notNull then none else some .null
  | .boolean b => if c.type = .BOOLEAN then some (.boolean b) else none
  | .number n =>
      if c.type = .BIGINT ∧ -2 ^ 63 ≤ n ∧ n < 2 ^ 63 ∨ c.type = .INTEGER ∧ -2 ^ 31 ≤ n ∧ n < 2 ^ 31 then
        some (.integer n)
      else none
  | .string s =>
      if !plain s then none
      else if c.type = .TEXT then some (.text s)
      else if c.type = .JSONB then
        (((parseTexts s).map .texts).or ((parseRecord s).map .record)).filter Datum.plain
      else none
  | .array _ | .object _ => none

/-- Two records with the same members. -/
def SameMembers (r r' : Record) : Prop :=
  ∀ k, r.get? k = r'.get? k

/-- What the driver hands out for the content of a column: a BIGINT as its decimal digits, a
JSONB parsed or serialised, with its members in any order. -/
inductive Column.Reads (c : Column) : Datum → Value → Prop
  | null : Reads c .null .null
  | text (s : String) : Reads c (.text s) (.string s)
  | bigint (n : Int) (type : c.type = .BIGINT) : Reads c (.integer n) (.string (toString n))
  | integer (n : Int) (type : c.type = .INTEGER) : Reads c (.integer n) (.number n)
  | boolean (b : Bool) : Reads c (.boolean b) (.boolean b)
  | texts (items : List String) : Reads c (.texts items) (.array items)
  | textsSerialised (items : List String) (s : String) (parsed : parseTexts s = some items) :
      Reads c (.texts items) (.string s)
  | record (r r' : Record) (same : SameMembers r r') : Reads c (.record r) (.object r')
  | recordSerialised (r r' : Record) (s : String) (same : SameMembers r r')
      (parsed : parseRecord s = some r') : Reads c (.record r) (.string s)

/-- The column takes the parameter. -/
def Column.Takes (c : Column) (parameter : Value) : Prop :=
  ∃ d, c.store parameter = some d

/-- The column keeps the parameter, and the driver hands out `v` for what it keeps. -/
def Column.ReadsBack (c : Column) (parameter v : Value) : Prop :=
  ∃ d, c.store parameter = some d ∧ c.Reads d v

end columns

section roundTrips

variable {c : Column} {v : Value} {s : String} {n : Int}

def Safe (n : Int) : Prop :=
  n.natAbs < 2 ^ 53

instance : Decidable (Safe n) := Nat.decLt _ _

/-- Integers below 2^53 are doubles. -/
theorem nearestDouble_of_lt {n : Nat} (h : n < 2 ^ 53) : nearestDouble n = n := by
  have hBits : n.log2 - 52 = 0 := by
    by_cases hZero : n = 0
    · rw [hZero]
      rfl
    · have hLog := (Nat.log2_lt hZero).mpr h
      omega
  simp [nearestDouble, hBits, Nat.mod_one]

/-- `Number` reads the decimal text of a safe integer exactly. -/
theorem numberOfText_toString (h : Safe n) : numberOfText (toString n) = some n := by
  simp only [numberOfText, Numeric.number_toString, Option.bind_some, Rat.den_intCast, if_true,
    Rat.num_intCast, nearestDouble_of_lt h, Int.sign_mul_natAbs]

/-- A TEXT column reads a text as it was bound. -/
theorem reads_of_string (h : c.ReadsBack (.string s) v) (hType : c.type = .TEXT) : v = .string s := by
  obtain ⟨d, hStore, hReads⟩ := h
  simp only [Column.store, hType, if_true] at hStore
  split at hStore
  · cases hStore
  · cases hStore
    cases hReads
    rfl

/-- NULL reads as null. -/
theorem reads_of_null (h : c.ReadsBack .null v) : v = .null := by
  obtain ⟨d, hStore, hReads⟩ := h
  simp only [Column.store] at hStore
  split at hStore
  · cases hStore
  · cases hStore
    cases hReads
    rfl

theorem str_of_readsBack (h : c.ReadsBack (.string s) v) (hType : c.type = .TEXT) : str v = s := by
  rw [reads_of_string h hType, str]

theorem optStr_of_readsBack {o : Option String} (h : c.ReadsBack (orNull .string o) v)
    (hType : c.type = .TEXT) : optStr v = o := by
  cases o with
  | none => rw [reads_of_null h, optStr]
  | some s =>
      rw [reads_of_string h hType, optStr]
      · rfl
      all_goals nofun

/-- An enumeration that is stored by its name is found again. -/
theorem named_of_readsBack {α : Type} {all : List α} {name : α → String} {a : α}
    (h : c.ReadsBack (.string (name a)) v) (hType : c.type = .TEXT)
    (hFind : (all.find? fun b => name b = name a) = some a) : named all name v = some a := by
  rw [named, str_of_readsBack h hType, hFind]

/-- A BIGINT reads as text, an INTEGER as a number. -/
theorem reads_of_number (h : c.ReadsBack (.number n) v) : v = .string (toString n) ∨ v = .number n := by
  obtain ⟨d, hStore, hReads⟩ := h
  simp only [Column.store] at hStore
  split at hStore
  · cases hStore
    cases hReads with
    | bigint => exact .inl rfl
    | integer => exact .inr rfl
  · cases hStore

/-- `num` reads both forms of an integer. -/
theorem num_of_readsBack (h : c.ReadsBack (.number n) v) (hSafe : Safe n) : num v = some n := by
  rcases reads_of_number h with rfl | rfl
  · exact numberOfText_toString hSafe
  · rfl

theorem optNum_of_readsBack {o : Option Int} (h : c.ReadsBack (orNull .number o) v)
    (hSafe : ∀ n, o = some n → Safe n) : optNum v = some o := by
  cases o with
  | none => rw [reads_of_null h, optNum]
  | some n =>
      have hNum := num_of_readsBack h (hSafe n rfl)
      have hSome : optNum v = (num v).map some := by
        rcases reads_of_number h with rfl | rfl <;> rfl
      rw [hSome, hNum, Option.map_some]

theorem truth_of_readsBack {b : Bool} (h : c.ReadsBack (.boolean b) v) : truth v = b := by
  obtain ⟨d, hStore, hReads⟩ := h
  simp only [Column.store] at hStore
  split at hStore
  · cases hStore
    cases hReads
    rfl
  · cases hStore

/-- Texts without control characters have no NUL. -/
theorem plain_of_le {s : String} (h : ∀ d ∈ s.toList, 32 ≤ d.toNat) : plain s = true := by
  have hNone : Char.ofNat 0 ∉ s.toList := fun hMem => absurd (h _ hMem) (by decide)
  simpa [plain] using hNone

/-- A JSONB column takes a list of strings that are plain, whatever the text that it is
written as escapes. -/
theorem store_texts (items : List String) (hType : c.type = .JSONB) :
    c.store (.string (stringifyTexts items)) =
      if items.all plain then some (.texts items) else none := by
  have hText : plain (stringifyTexts items) = true := plain_of_le fun _ => le_stringifyTexts
  simp only [Column.store, hText, hType, parseTexts_stringifyTexts]
  cases hPlain : items.all plain <;> simp [Option.filter, Datum.plain, hPlain]

/-- A JSONB column stores what the JSON text of a record stands for. -/
theorem store_record (r : Record) (hType : c.type = .JSONB) :
    c.store (.string (stringifyRecord r)) =
      if (Datum.record r).plain then some (.record r) else none := by
  have hText : plain (stringifyRecord r) = true := plain_of_le fun _ => le_stringifyRecord
  simp only [Column.store, hText, hType, parseTexts_stringifyRecord, parseRecord_stringifyRecord]
  cases hPlain : (Datum.record r).plain <;> simp [Option.filter, hPlain]

/-- A list of texts comes back from its JSON text. -/
theorem textsOf_of_readsBack {items : List String} (h : c.ReadsBack (.string (stringifyTexts items)) v)
    (hType : c.type = .JSONB) : textsOf v = some items := by
  obtain ⟨d, hStore, hReads⟩ := h
  rw [store_texts items hType] at hStore
  split at hStore
  · cases hStore
    cases hReads with
    | texts => rfl
    | textsSerialised _ _ hParsed => exact hParsed
  · cases hStore

/-- A record comes back from its JSON text with the members in another order at most. -/
theorem recordOf_of_readsBack {r : Record} (h : c.ReadsBack (.string (stringifyRecord r)) v)
    (hType : c.type = .JSONB) : ∃ r', recordOf v = some r' ∧ SameMembers r r' := by
  obtain ⟨d, hStore, hReads⟩ := h
  rw [store_record r hType] at hStore
  split at hStore
  · cases hStore
    cases hReads with
    | record _ r' hSame => exact ⟨r', rfl, hSame⟩
    | recordSerialised _ r' _ hSame hParsed => exact ⟨r', hParsed, hSame⟩
  · cases hStore

end roundTrips

section acceptance

variable {c : Column} {s : String} {n : Int}

/-- An integer that fits an INTEGER column. -/
def Int32 (n : Int) : Prop :=
  -2 ^ 31 ≤ n ∧ n < 2 ^ 31

instance : Decidable (Int32 n) := inferInstanceAs (Decidable (_ ∧ _))

theorem takes_string (hPlain : plain s = true) (hType : c.type = .TEXT) : c.Takes (.string s) :=
  ⟨.text s, by simp [Column.store, hPlain, hType]⟩

/-- A nullable column takes a missing value. -/
theorem takes_null (hNull : c.notNull = false) : c.Takes .null :=
  ⟨.null, by simp [Column.store, hNull]⟩

theorem takes_optString {o : Option String} (hPlain : o.all plain = true) (hType : c.type = .TEXT)
    (hNull : c.notNull = false) : c.Takes (orNull .string o) := by
  cases o with
  | none => exact takes_null hNull
  | some s => exact takes_string hPlain hType

/-- A BIGINT takes every safe integer. -/
theorem takes_bigint (hSafe : Safe n) (hType : c.type = .BIGINT) : c.Takes (.number n) := by
  refine ⟨.integer n, if_pos (.inl ⟨hType, ?_⟩)⟩
  unfold Safe at hSafe
  omega

theorem takes_optBigint {o : Option Int} (hSafe : ∀ n, o = some n → Safe n)
    (hType : c.type = .BIGINT) (hNull : c.notNull = false) : c.Takes (orNull .number o) := by
  cases o with
  | none => exact takes_null hNull
  | some n => exact takes_bigint (hSafe n rfl) hType

/-- An INTEGER takes 32 bits. -/
theorem takes_integer (hFits : Int32 n) (hType : c.type = .INTEGER) : c.Takes (.number n) :=
  ⟨.integer n, if_pos (.inr ⟨hType, hFits⟩)⟩

theorem takes_boolean {b : Bool} (hType : c.type = .BOOLEAN) : c.Takes (.boolean b) :=
  ⟨.boolean b, if_pos hType⟩

theorem takes_texts {items : List String} (hPlain : items.all plain = true) (hType : c.type = .JSONB) :
    c.Takes (.string (stringifyTexts items)) :=
  ⟨.texts items, by rw [store_texts items hType, if_pos hPlain]⟩

/-- A JSONB column takes records without NUL. -/
theorem takes_record {r : Record} (hPlain : (Datum.record r).plain = true) (hType : c.type = .JSONB) :
    c.Takes (.string (stringifyRecord r)) :=
  ⟨.record r, by rw [store_record r hType, if_pos hPlain]⟩

/-- The driver has something to hand out for whatever a column keeps. -/
theorem reads_of_store {v : Value} {d : Datum} (h : c.store v = some d) : ∃ read, c.Reads d read := by
  cases d with
  | null => exact ⟨_, .null⟩
  | text s => exact ⟨_, .text s⟩
  | boolean b => exact ⟨_, .boolean b⟩
  | texts items => exact ⟨_, .texts items⟩
  | record members => exact ⟨_, .record members members fun _ => rfl⟩
  | integer n =>
      cases hType : c.type with
      | BIGINT => exact ⟨_, .bigint n hType⟩
      | INTEGER => exact ⟨_, .integer n hType⟩
      | _ => cases v <;> simp [Column.store, hType] at h

end acceptance

end VpnPayment.Sql
