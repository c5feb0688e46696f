import VpnPayment.Collections.Table

/-! JSON texts of lists and of records of strings, as JavaScript writes and reads them. A text
is read in two passes, into its tokens and from these into the value. -/
namespace Json

open Collections

/-- The members of an object whose values are strings. -/
abbrev Record := Table (String × String) Prod.fst

section writing

def hexDigit (n : Nat) : Char :=
  Char.ofNat (if n < 10 then 48 + n else 87 + n)

def escapeChar (c : Char) : List Char :=
  if c = '"' then ['\\', '"']
  else if c = '\\' then ['\\', '\\']
  else if c.toNat = 8 then ['\\', 'b']
  else if c.toNat = 9 then ['\\', 't']
  else if c.toNat = 10 then ['\\', 'n']
  else if c.toNat = 12 then ['\\', 'f']
  else if c.toNat = 13 then ['\\', 'r']
  else if c.toNat < 32 then ['\\', 'u', '0', '0', hexDigit (c.toNat / 16), hexDigit (c.toNat % 16)]
  else [c]

def quote (s : String) : List Char :=
  '"' :: (s.toList.flatMap escapeChar ++ ['"'])

def member (m : String × String) : List Char :=
  quote m.1 ++ ':' :: quote m.2

def stringifyTexts (items : List String) : String :=
  String.ofList ('[' :: ([','].intercalate (items.map quote) ++ [']']))

def stringifyRecord (r : Record) : String :=
  String.ofList ('{' :: ([','].intercalate (r.rows.map member) ++ ['}']))

theorem le_hexDigit : ∀ n < 16, 32 ≤ (hexDigit n).toNat := by
  decide

/-- What is written for a character has no control characters. -/
theorem le_escapeChar {c d : Char} (h : d ∈ escapeChar c) : 32 ≤ d.toNat := by
  unfold escapeChar at h
  split_ifs at h
  all_goals simp only [List.mem_cons, List.not_mem_nil, or_false] at h
  all_goals rcases h with rfl | rfl | rfl | rfl | rfl | rfl
  all_goals first
    | decide
    | exact le_hexDigit _ (by omega)
    | omega

theorem le_quote {s : String} {d : Char} (h : d ∈ quote s) : 32 ≤ d.toNat := by
  rw [quote, List.mem_cons, List.mem_append, List.mem_singleton, List.mem_flatMap] at h
  rcases h with rfl | ⟨c, -, hMem⟩ | rfl
  · decide
  · exact le_escapeChar hMem
  · decide

theorem le_member {m : String × String} {d : Char} (h : d ∈ member m) : 32 ≤ d.toNat := by
  rw [member, List.mem_append, List.mem_cons] at h
  rcases h with hName | rfl | hValue
  · exact le_quote hName
  · decide
  · exact le_quote hValue

theorem le_intercalate {parts : List (List Char)} {d : Char}
    (hParts : ∀ part ∈ parts, ∀ c ∈ part, 32 ≤ c.toNat) (h : d ∈ [','].intercalate parts) :
    32 ≤ d.toNat := by
  induction parts with
  | nil => cases h
  | cons part parts ih =>
      have hFirst := hParts part List.mem_cons_self
      have hRest := fun p hp => hParts p (List.mem_cons_of_mem _ hp)
      cases parts with
      | nil => exact hFirst d (by simpa using h)
      | cons next parts =>
          rw [List.intercalate_cons_cons, List.mem_append, List.mem_append, List.mem_singleton] at h
          rcases h with (hMem | rfl) | hMem
          · exact hFirst d hMem
          · decide
          · exact ih hRest hMem

/-- A written text has no control characters: those of its strings are escaped. -/
theorem le_stringifyTexts {items : List String} {d : Char}
    (h : d ∈ (stringifyTexts items).toList) : 32 ≤ d.toNat := by
  rw [stringifyTexts, String.toList_ofList, List.mem_cons, List.mem_append, List.mem_singleton] at h
  rcases h with rfl | hMem | rfl
  · decide
  · refine le_intercalate (fun part hPart c hc => ?_) hMem
    obtain ⟨s, -, rfl⟩ := List.mem_map.mp hPart
    exact le_quote hc
  · decide

/-- Nor has the JSON text of a record. -/
theorem le_stringifyRecord {r : Record} {d : Char}
    (h : d ∈ (stringifyRecord r).toList) : 32 ≤ d.toNat := by
  rw [stringifyRecord, String.toList_ofList, List.mem_cons, List.mem_append, List.mem_singleton] at h
  rcases h with rfl | hMem | rfl
  · decide
  · refine le_intercalate (fun part hPart c hc => ?_) hMem
    obtain ⟨m, -, rfl⟩ := List.mem_map.mp hPart
    exact le_member hc
  · decide

end writing

section tokens

inductive Token
  | leftBracket
  | rightBracket
  | leftBrace
  | rightBrace
  | comma
  | colon
  | text (s : List Char)
deriving DecidableEq

/-- Where in the text the reader is: between tokens, in a string of which these characters
were read, behind its `\`, in the digits of `\u`, or between the two halves of a pair. -/
inductive Mode
  | between
  | inText (read : List Char)
  | escape (read : List Char)
  | unit (read : List Char) (high : Option Nat) (digits : List Nat)
  | pair (read : List Char) (high : Nat)
  | pairEscape (read : List Char) (high : Nat)
deriving DecidableEq

def hexValue (c : Char) : Option Nat :=
  if '0' ≤ c ∧ c ≤ '9' then some (c.toNat - 48)
  else if 'a' ≤ c ∧ c ≤ 'f' then some (c.toNat - 87)
  else if 'A' ≤ c ∧ c ≤ 'F' then some (c.toNat - 55)
  else none

/-- A code unit was read. Half a pair is no character of a string. -/
def closeUnit (read : List Char) (u : Nat) : Option Nat → Option Mode
  | none =>
      if 0xD800 ≤ u ∧ u < 0xDC00 then some (.pair read u)
      else if 0xDC00 ≤ u ∧ u < 0xE000 then none
      else some (.inText (read ++ [Char.ofNat u]))
  | some high =>
      if 0xDC00 ≤ u ∧ u < 0xE000 then
        some (.inText (read ++ [Char.ofNat (0x10000 + (high - 0xD800) * 0x400 + (u - 0xDC00))]))
      else none

def unescape (read : List Char) (c : Char) : Option Mode :=
  if c = 'u' then some (.unit read none [])
  else if c = '"' ∨ c = '\\' ∨ c = '/' then some (.inText (read ++ [c]))
  else if c = 'b' then some (.inText (read ++ [Char.ofNat 8]))
  else if c = 't' then some (.inText (read ++ [Char.ofNat 9]))
  else if c = 'n' then some (.inText (read ++ [Char.ofNat 10]))
  else if c = 'f' then some (.inText (read ++ [Char.ofNat 12]))
  else if c = 'r' then some (.inText (read ++ [Char.ofNat 13]))
  else none

def isBlank (c : Char) : Bool :=
  c = ' ' || c = '\t' || c = '\n' || c = '\r'

def punctuation (c : Char) : Option Token :=
  if c = '[' then some .leftBracket
  else if c = ']' then some .rightBracket
  else if c = '{' then some .leftBrace
  else if c = '}' then some .rightBrace
  else if c = ',' then some .comma
  else if c = ':' then some .colon
  else none

/-- The next character, with the tokens it ends. -/
def advance : Mode → Char → Option (Mode × List Token)
  | .between, c =>
      if isBlank c then some (.between, [])
      else if c = '"' then some (.inText [], [])
      else (punctuation c).map fun t => (.between, [t])
  | .inText read, c =>
      if c = '"' then some (.between, [.text read])
      else if c = '\\' then some (.escape read, [])
      else if c.toNat < 32 then none
      else some (.inText (read ++ [c]), [])
  | .escape read, c => (unescape read c).map fun m => (m, [])
  | .unit read high digits, c => (hexValue c).bind fun d =>
      if digits.length < 3 then some (.unit read high (digits ++ [d]), [])
      else (closeUnit read ((digits ++ [d]).foldl (fun n d => n * 16 + d) 0) high).map fun m => (m, [])
  | .pair read high, c => if c = '\\' then some (.pairEscape read high, []) else none
  | .pairEscape read high, c => if c = 'u' then some (.unit read (some high) [], []) else none

def lex : Mode → List Char → Option (Mode × List Token)
  | m, [] => some (m, [])
  | m, c :: rest => (advance m c).bind fun next =>
      (lex next.1 rest).map fun last => (last.1, next.2 ++ last.2)

/-- The tokens of a text that does not end inside a string. -/
def tokens (text : List Char) : Option (List Token) :=
  match lex .between text with
  | some (.between, ts) => some ts
  | _ => none

variable {m m' m'' : Mode} {c : Char} {cs ds : List Char} {ts us : List Token}

/-- The tokens of a text, character by character. -/
theorem lex_cons (h : advance m c = some (m', ts)) (hRest : lex m' cs = some (m'', us)) :
    lex m (c :: cs) = some (m'', ts ++ us) := by
  simp [lex, h, hRest]

/-- The tokens of two texts after one another. -/
theorem lex_append (h : lex m cs = some (m', ts)) (hRest : lex m' ds = some (m'', us)) :
    lex m (cs ++ ds) = some (m'', ts ++ us) := by
  induction cs generalizing m ts with
  | nil =>
      cases h
      exact hRest
  | cons c cs ih =>
      obtain ⟨next, hNext, hMap⟩ := Option.bind_eq_some_iff.mp h
      obtain ⟨⟨last, rest⟩, hLast, hEq⟩ := Option.map_eq_some_iff.mp hMap
      cases hEq
      rw [List.append_assoc]
      exact lex_cons hNext (ih hLast)

/-- A hexadecimal digit is read back. -/
theorem hexValue_hexDigit : ∀ n < 16, hexValue (hexDigit n) = some n := by
  decide

/-- What stands for a character in a string is read as that character. -/
theorem lex_escapeChar (read : List Char) (c : Char) :
    lex (.inText read) (escapeChar c) = some (.inText (read ++ [c]), []) := by
  have hCode : Char.ofNat c.toNat = c := Char.ofNat_toNat c
  unfold escapeChar
  split_ifs with hQuote hSlash hB hT hN hF hR hControl
  · subst hQuote
    rfl
  · subst hSlash
    rfl
  · rw [← hCode, hB]
    rfl
  · rw [← hCode, hT]
    rfl
  · rw [← hCode, hN]
    rfl
  · rw [← hCode, hF]
    rfl
  · rw [← hCode, hR]
    rfl
  · have hLeft := hexValue_hexDigit (c.toNat / 16) (by omega)
    have hRight := hexValue_hexDigit (c.toNat % 16) (by omega)
    have hZero : hexValue '0' = some 0 := rfl
    have hSum : c.toNat / 16 * 16 + c.toNat % 16 = c.toNat := Nat.div_add_mod' _ _
    have hLow : ¬0xD800 ≤ c.toNat ∧ ¬0xDC00 ≤ c.toNat := by omega
    simp [lex, advance, unescape, hZero, hLeft, hRight, closeUnit, hSum, hLow, hCode]
  · simp [lex, advance, hQuote, hSlash, hControl]

/-- Escaped characters are read as those they stand for. -/
theorem lex_escaped (read cs : List Char) :
    lex (.inText read) (cs.flatMap escapeChar) = some (.inText (read ++ cs), []) := by
  induction cs generalizing read with
  | nil => simp [lex]
  | cons c cs ih =>
      have hRest := ih (read ++ [c])
      rw [List.append_assoc] at hRest
      exact lex_append (lex_escapeChar read c) hRest

/-- A quoted text is one token. -/
theorem lex_quote (s : String) : lex .between (quote s) = some (.between, [.text s.toList]) := by
  have hStart : advance .between '"' = some (.inText [], []) := rfl
  have hEnd : lex (.inText s.toList) ['"'] = some (.between, [.text s.toList]) := rfl
  exact lex_cons hStart (lex_append (lex_escaped [] s.toList) hEnd)

/-- A member is its name, a colon and its value. -/
theorem lex_member (p : String × String) : lex .between (member p) =
    some (.between, [.text p.1.toList, .colon, .text p.2.toList]) := by
  have hColon : advance .between ':' = some (.between, [.colon]) := rfl
  exact lex_append (lex_quote p.1) (lex_cons hColon (lex_quote p.2))

/-- The tokens of a list are those of its items, with commas between them. -/
theorem lex_intercalate {α : Type} {write : α → List Char} {read : α → List Token}
    (h : ∀ x, lex .between (write x) = some (.between, read x)) (xs : List α) :
    lex .between ([','].intercalate (xs.map write)) =
      some (.between, [Token.comma].intercalate (xs.map read)) := by
  induction xs with
  | nil => rfl
  | cons x xs ih =>
      cases xs with
      | nil => simpa using h x
      | cons y ys =>
          simp only [List.map_cons, List.intercalate_cons_cons] at ih ⊢
          exact lex_append (lex_append (h x) rfl) ih

end tokens

section reading

/-- The items behind the first one. -/
def moreTexts : List Token → Option (List String)
  | [.rightBracket] => some []
  | .comma :: .text s :: rest => (moreTexts rest).map (String.ofList s :: ·)
  | _ => none

def textsOf : List Token → Option (List String)
  | [.leftBracket, .rightBracket] => some []
  | .leftBracket :: .text s :: rest => (moreTexts rest).map (String.ofList s :: ·)
  | _ => none

def moreMembers : List Token → Option (List (String × String))
  | [.rightBrace] => some []
  | .comma :: .text k :: .colon :: .text v :: rest =>
      (moreMembers rest).map ((String.ofList k, String.ofList v) :: ·)
  | _ => none

def membersOf : List Token → Option (List (String × String))
  | [.leftBrace, .rightBrace] => some []
  | .leftBrace :: .text k :: .colon :: .text v :: rest =>
      (moreMembers rest).map ((String.ofList k, String.ofList v) :: ·)
  | _ => none

/-- The list of strings that the text stands for, if it does. -/
def parseTexts (text : String) : Option (List String) :=
  (tokens text.toList).bind textsOf

/-- The record of strings that the text stands for, if it does. Of members with one name the
last one counts. -/
def parseRecord (text : String) : Option Record :=
  ((tokens text.toList).bind membersOf).map fun members => members.foldl Table.put .empty

theorem tokens_of_lex {text : List Char} {ts : List Token} (h : lex .between text = some (.between, ts)) :
    tokens text = some ts := by
  rw [tokens, h]

theorem intercalate_cons {α : Type} (sep x : List α) (xs : List (List α)) :
    sep.intercalate (x :: xs) = x ++ xs.flatMap fun y => sep ++ y := by
  induction xs generalizing x with
  | nil => simp
  | cons y ys ih => simp [List.intercalate_cons_cons, ih]

/-- The items of an array, up to its bracket. -/
theorem moreTexts_items (items : List String) :
    moreTexts (items.flatMap (fun s => [Token.comma] ++ [.text s.toList]) ++ [.rightBracket]) =
      some items := by
  induction items with
  | nil => rfl
  | cons s items ih => simpa [moreTexts] using ih

/-- A list of strings is read back from its text. -/
theorem parseTexts_stringifyTexts (items : List String) :
    parseTexts (stringifyTexts items) = some items := by
  have hClose : lex .between [']'] = some (.between, [.rightBracket]) := rfl
  have hLex := lex_cons (m := .between) (c := '[') rfl
    (lex_append (lex_intercalate lex_quote items) hClose)
  rw [parseTexts, stringifyTexts, String.toList_ofList, tokens_of_lex hLex, Option.bind_some]
  cases items with
  | nil => rfl
  | cons s items =>
      rw [List.map_cons, intercalate_cons, List.flatMap_map]
      simpa [textsOf] using moreTexts_items items

/-- The members of an object, up to its brace. -/
theorem moreMembers_members (members : List (String × String)) :
    moreMembers (members.flatMap (fun p => [Token.comma] ++ [.text p.1.toList, .colon, .text p.2.toList]) ++
      [.rightBrace]) = some members := by
  induction members with
  | nil => rfl
  | cons p members ih => simpa [moreMembers] using ih

/-- Members with different names are kept in their order. -/
theorem rows_foldl_put (members : List (String × String)) (r : Record)
    (hNodup : ((r.rows ++ members).map Prod.fst).Nodup) :
    (members.foldl Table.put r).rows = r.rows ++ members := by
  induction members generalizing r with
  | nil => simp
  | cons p members ih =>
      have hNew : r.get? p.1 = none := by
        refine Table.get?_eq_none_iff.mpr fun row hRow hKey => ?_
        rw [List.map_append, List.nodup_append] at hNodup
        exact hNodup.2.2 row.1 (List.mem_map_of_mem hRow) p.1 (by simp) hKey
      have hRows := Table.rows_put_of_get?_eq_none hNew
      rw [List.foldl_cons, ih, hRows, List.append_assoc, List.singleton_append]
      rwa [hRows, List.append_assoc, List.singleton_append]

theorem record_ext {r r' : Record} (h : r.rows = r'.rows) : r = r' := by
  cases r
  cases r'
  cases h
  rfl

/-- A record is made of its members. -/
theorem foldl_put_rows (r : Record) : r.rows.foldl Table.put .empty = r :=
  record_ext (rows_foldl_put r.rows .empty r.nodup)

/-- The tokens of a record's text. -/
theorem tokens_stringifyRecord (r : Record) : tokens (stringifyRecord r).toList =
    some ([Token.leftBrace] ++ ([Token.comma].intercalate (r.rows.map fun p =>
      [.text p.1.toList, .colon, .text p.2.toList]) ++ [.rightBrace])) := by
  have hClose : lex .between ['}'] = some (.between, [.rightBrace]) := rfl
  have hLex := lex_cons (m := .between) (c := '{') rfl
    (lex_append (lex_intercalate lex_member r.rows) hClose)
  rw [stringifyRecord, String.toList_ofList, tokens_of_lex hLex]

/-- The text of a record is not that of a list. -/
theorem parseTexts_stringifyRecord (r : Record) : parseTexts (stringifyRecord r) = none := by
  rw [parseTexts, tokens_stringifyRecord]
  rfl

/-- A record of strings is read back from its text. -/
theorem parseRecord_stringifyRecord (r : Record) : parseRecord (stringifyRecord r) = some r := by
  have hMembers : membersOf ([Token.leftBrace] ++ ([Token.comma].intercalate (r.rows.map fun p =>
      [.text p.1.toList, .colon, .text p.2.toList]) ++ [.rightBrace])) = some r.rows := by
    cases r.rows with
    | nil => rfl
    | cons p members =>
        rw [List.map_cons, intercalate_cons, List.flatMap_map]
        simpa [membersOf] using moreMembers_members members
  rw [parseRecord, tokens_stringifyRecord, Option.bind_some, hMembers, Option.map_some, foldl_put_rows]

end reading
end Json
