import VpnPayment.Collections.Rfc4180
import VpnPayment.Collections.Traversal
import VpnPayment.Domain.Types

/-! Export to CSV: the string form of any cell, its escaping, and the whole file,
which a reader of the format takes apart into the same strings. -/
namespace VpnPayment.Csv

open Collections Rfc4180

/-- A string is its UTF-16 code units, lone surrogates among them. -/
abbrev JsString : Type := List UInt16

def utf16 (text : String) : JsString :=
  text.toList.flatMap fun c =>
    if c.toNat < 0x10000 then [UInt16.ofNat c.toNat]
    else [UInt16.ofNat (0xD800 + (c.toNat - 0x10000) / 0x400),
      UInt16.ofNat (0xDC00 + (c.toNat - 0x10000) % 0x400)]

/-- A value of unknown type. Of an object stands here what `JSON.stringify` sees:
the items of an array, the ISO text of a valid date, and of any other object the own
enumerable properties in their order, or those of what its `toJSON` returns. -/
inductive JsValue
  | undefined
  | null
  | boolean (b : Bool)
  | number (n : JsNumber)
  | bigint (n : Int)
  | string (s : JsString)
  | symbol (description : JsString)
  | function (source : JsString)
  | array (items : List JsValue)
  | date (iso : Option JsString)
  | object (properties : List (JsString × JsValue))

/-- What `JSON.stringify` throws. -/
inductive TypeError
  | bigintInJson
deriving DecidableEq

section json

def hexDigit (n : Nat) : UInt16 :=
  UInt16.ofNat (if n < 10 then 0x30 + n else 0x57 + n)

def unicodeEscape (u : UInt16) : JsString :=
  utf16 "\\u" ++ [u.toNat / 0x1000, u.toNat / 0x100 % 0x10, u.toNat / 0x10 % 0x10,
    u.toNat % 0x10].map hexDigit

def isHighSurrogate (u : UInt16) : Bool :=
  0xD800 ≤ u && u ≤ 0xDBFF

def isLowSurrogate (u : UInt16) : Bool :=
  0xDC00 ≤ u && u ≤ 0xDFFF

/-- A code unit that is no half of a pair. -/
def quoteUnit (u : UInt16) : JsString :=
  if u = 0x08 then utf16 "\\b"
  else if u = 0x09 then utf16 "\\t"
  else if u = 0x0A then utf16 "\\n"
  else if u = 0x0C then utf16 "\\f"
  else if u = 0x0D then utf16 "\\r"
  else if u = 0x22 then utf16 "\\\""
  else if u = 0x5C then utf16 "\\\\"
  else if u < 0x20 || isHighSurrogate u || isLowSurrogate u then unicodeEscape u
  else [u]

def quoteUnits : JsString → JsString
  | [] => []
  | [u] => quoteUnit u
  | u :: v :: rest =>
      if isHighSurrogate u && isLowSurrogate v then u :: v :: quoteUnits rest
      else quoteUnit u ++ quoteUnits (v :: rest)

def quoteJson (s : JsString) : JsString :=
  utf16 "\"" ++ quoteUnits s ++ utf16 "\""

def commaSeparated (items : List JsString) : JsString :=
  (utf16 ",").intercalate items

mutual

/-- `JSON.stringify`, which gives nothing for a value that JSON has no form of. -/
def stringify : JsValue → Except TypeError (Option JsString)
  | .undefined | .symbol _ | .function _ => .ok none
  | .null => .ok (some (utf16 "null"))
  | .boolean b => .ok (some (utf16 (toString b)))
  | .number n =>
      match n.value with
      | .finite _ => .ok (some (utf16 n.text))
      | _ => .ok (some (utf16 "null"))
  | .bigint _ => .error .bigintInJson
  | .string s => .ok (some (quoteJson s))
  | .array items => do
      let parts ← stringifyItems items
      .ok (some (utf16 "[" ++ commaSeparated parts ++ utf16 "]"))
  | .date iso =>
      match iso with
      | some text => .ok (some (quoteJson text))
      | none => .ok (some (utf16 "null"))
  | .object properties => do
      let parts ← stringifyProperties properties
      .ok (some (utf16 "\x7b" ++ commaSeparated parts ++ utf16 "\x7d"))

def stringifyItems : List JsValue → Except TypeError (List JsString)
  | [] => .ok []
  | item :: items => do
      let part ← stringify item
      let parts ← stringifyItems items
      .ok (part.getD (utf16 "null") :: parts)

def stringifyProperties : List (JsString × JsValue) → Except TypeError (List JsString)
  | [] => .ok []
  | (name, value) :: properties => do
      let part ← stringify value
      let parts ← stringifyProperties properties
      match part with
      | some text => .ok ((quoteJson name ++ utf16 ":" ++ text) :: parts)
      | none => .ok parts

end

end json

def marks : Marks UInt16 :=
  ⟨0x2C, 0x22, 0x0D, 0x0A, by decide⟩

/-- Convert a single cell value to its string representation. For an object without
a JSON form it is `undefined`. -/
def stringifyCell : JsValue → Except TypeError (Option JsString)
  | .null | .undefined => .ok (some [])
  | .boolean b => .ok (some (utf16 (toString b)))
  | .number n => .ok (some (utf16 n.text))
  | .bigint n => .ok (some (utf16 (toString n)))
  | .string s => .ok (some s)
  | .symbol description => .ok (some (utf16 "Symbol(" ++ description ++ utf16 ")"))
  | .function source => .ok (some source)
  | value => stringify value

/-- `/[",\r\n]/.test(s)`. -/
def special (s : JsString) : Bool :=
  s.any fun u => u = marks.quote || u = marks.comma || u = marks.cr || u = marks.lf

def escape (s : JsString) : JsString :=
  if special s then marks.quote :: doubled marks s ++ [marks.quote] else s

/-- Nothing of the text `undefined` is escaped. -/
def escapeCell (value : JsValue) : Except TypeError (Option JsString) :=
  (stringifyCell value).map fun s => s.map escape

/-- `join`, to which an undefined item is an empty one. -/
def join (separator : JsString) (items : List (Option JsString)) : JsString :=
  separator.intercalate (items.map fun item => item.getD [])

/-- A row gives a value, `undefined` at least, for every name. -/
abbrev Row : Type := JsString → JsValue

def toCsv (rows : List Row) (columns : List JsString) : Except TypeError JsString := do
  let header ← columns.mapM fun col => escapeCell (.string col)
  let lines ← rows.mapM fun row => do
    let cells ← columns.mapM fun col => escapeCell (row col)
    return join [marks.comma] cells
  .ok (((join [marks.comma] header :: lines).map fun line => line ++ [marks.cr, marks.lf]).flatten)

/-- The string form a cell has in the file. -/
def cellText (value : JsValue) : Except TypeError JsString :=
  (stringifyCell value).map fun s => s.getD []

def texts (rows : List Row) (columns : List JsString) : Except TypeError (List (List JsString)) :=
  rows.mapM fun row => columns.mapM fun col => cellText (row col)

section escaping

theorem spells_escape (s : JsString) : Spells marks (escape s) s := by
  rw [escape]
  split
  · exact spells_quoted s
  · next hPlain =>
      apply spells_plain
      intro u hu
      simp only [special, List.any_eq_true, not_exists, not_and] at hPlain
      simpa [not_or, and_assoc] using hPlain u hu

/-- Every file of escaped fields is read as these fields. -/
theorem parse_escaped (records : List (List JsString)) (hSome : ∀ fields ∈ records, fields ≠ []) :
    parse marks (records.flatMap fun fields => line marks (fields.map escape)) = some records := by
  have hSpells : List.Forall₂ (List.Forall₂ (Spells marks))
      (records.map fun fields => fields.map escape) records := by
    rw [List.forall₂_map_left_iff]
    refine List.forall₂_same.mpr fun fields _ => ?_
    rw [List.forall₂_map_left_iff]
    exact List.forall₂_same.mpr fun s _ => spells_escape s
  have hFields : ∀ fields ∈ records.map fun fields => fields.map escape, fields ≠ [] := by
    intro fields hFields
    obtain ⟨original, hOriginal, rfl⟩ := List.mem_map.mp hFields
    simpa using hSome original hOriginal
  have hParse := parse_lines hSpells hFields
  rwa [List.flatMap_map] at hParse

end escaping

section file

/-- What the file of a header and a body of strings looks like. -/
def render (records : List (List JsString)) : JsString :=
  records.flatMap fun fields => line marks (fields.map escape)

theorem escapeCell_getD (value : JsValue) :
    ((escapeCell value).map fun s => s.getD []) = (cellText value).map escape := by
  have hEmpty : escape [] = [] := rfl
  rw [escapeCell, cellText]
  cases stringifyCell value with
  | error e => rfl
  | ok s =>
      cases s with
      | none => rw [Except.map, Except.map, Except.map, Except.map, Option.map_none,
          Option.getD_none, hEmpty]
      | some s => rfl

theorem join_cells (columns : List JsString) (valueOf : JsString → JsValue) :
    ((columns.mapM fun col => escapeCell (valueOf col)).map fun cells => join [marks.comma] cells) =
      (columns.mapM fun col => cellText (valueOf col)).map fun fields =>
        [marks.comma].intercalate (fields.map escape) := by
  have hGet := mapM_map_ok (fun col => escapeCell (valueOf col)) (fun s => s.getD []) columns
  have hEscape := mapM_map_ok (fun col => cellText (valueOf col)) escape columns
  simp only [escapeCell_getD] at hGet
  rw [hGet] at hEscape
  cases hCells : columns.mapM fun col => escapeCell (valueOf col) with
  | error e =>
      rw [hCells] at hEscape
      cases hTexts : columns.mapM fun col => cellText (valueOf col) with
      | error e' =>
          rw [hTexts] at hEscape
          cases hEscape
          rfl
      | ok fields =>
          rw [hTexts] at hEscape
          cases hEscape
  | ok cells =>
      rw [hCells] at hEscape
      cases hTexts : columns.mapM fun col => cellText (valueOf col) with
      | error e =>
          rw [hTexts] at hEscape
          cases hEscape
      | ok fields =>
          rw [hTexts] at hEscape
          exact congrArg (fun parts => Except.ok ([marks.comma].intercalate parts))
            (Except.ok.inj hEscape)

theorem header_texts (columns : List JsString) :
    (columns.mapM fun col => cellText (.string col)) = .ok columns := by
  induction columns with
  | nil => rfl
  | cons col columns ih =>
      rw [List.mapM_cons, ih]
      rfl

theorem toCsv_eq (rows : List Row) (columns : List JsString) :
    toCsv rows columns = (texts rows columns).map fun body => render (columns :: body) := by
  have hHeader := join_cells columns JsValue.string
  rw [header_texts] at hHeader
  have hLines : (rows.mapM fun row => do
      let cells ← columns.mapM fun col => escapeCell (row col)
      return join [marks.comma] cells) =
        (texts rows columns).map fun body => body.map fun fields =>
          [marks.comma].intercalate (fields.map escape) := by
    rw [texts, ← mapM_map_ok]
    refine congrArg (fun f => rows.mapM f) (funext fun row => ?_)
    exact join_cells columns row
  rw [toCsv, hLines]
  cases hCells : columns.mapM fun col => escapeCell (.string col) with
  | error e =>
      rw [hCells] at hHeader
      cases hHeader
  | ok cells =>
      rw [hCells] at hHeader
      have hJoin := Except.ok.inj hHeader
      cases texts rows columns with
      | error e => rfl
      | ok body =>
          simp only [bind, Except.bind, Except.map, hJoin]
          simp [render, line, List.flatMap_def, Function.comp_def]

/-- Nothing is lost: the file reads back as the column names and the string form of
every cell, and there is a file unless a cell has no string form. -/
theorem parse_toCsv (rows : List Row) (columns : List JsString) (hColumns : columns ≠ []) :
    (∀ text, toCsv rows columns = .ok text → ∃ body,
      parse marks text = some (columns :: body) ∧
      List.Forall₂ (fun row fields =>
        List.Forall₂ (fun col s => cellText (row col) = .ok s) columns fields) rows body ∧
      (columns :: body).length = rows.length + 1 ∧
      ∀ fields ∈ columns :: body, fields.length = columns.length) ∧
    ((∃ text, toCsv rows columns = .ok text) ↔
      ∀ row ∈ rows, ∀ col ∈ columns, ∃ s, cellText (row col) = .ok s) := by
  rw [toCsv_eq]
  constructor
  · intro text hText
    cases hTexts : texts rows columns with
    | error e =>
        rw [hTexts] at hText
        cases hText
    | ok body =>
        rw [hTexts] at hText
        cases hText
        have hRows := (forall₂_of_mapM hTexts).imp fun row fields => forall₂_of_mapM
        have hBody : ∀ fields ∈ body, fields.length = columns.length :=
          ((List.forall₂_and_left body rows).mp (hRows.flip.imp fun fields row hRow =>
            ⟨hRow.length_eq.symm, hRow⟩)).1
        have hLength : ∀ fields ∈ columns :: body, fields.length = columns.length :=
          List.forall_mem_cons.mpr ⟨rfl, hBody⟩
        have hSome : ∀ fields ∈ columns :: body, fields ≠ [] := by
          intro fields hFields hNil
          apply hColumns
          apply List.eq_nil_of_length_eq_zero
          rw [← hLength fields hFields, hNil, List.length_nil]
        refine ⟨body, parse_escaped (columns :: body) hSome, hRows, ?_, hLength⟩
        rw [List.length_cons, hRows.length_eq]
  · have hOk : (∃ text, ((texts rows columns).map fun body => render (columns :: body)) = .ok text) ↔
        ∃ body, texts rows columns = .ok body := by
      cases texts rows columns with
      | error e => exact ⟨fun h => (nomatch h), fun h => (nomatch h)⟩
      | ok body => exact ⟨fun _ => ⟨body, rfl⟩, fun _ => ⟨_, rfl⟩⟩
    rw [hOk, texts, mapM_ok_iff]
    exact forall₂_congr fun row _ => mapM_ok_iff columns

/-- Cells with every mark of the format in them, and one that is missing. -/
def sampleRow : Row := fun col =>
  if col = utf16 "a" then .object [(utf16 "k", .number (.ofInt 1)), (utf16 "v", .string (utf16 "z"))]
  else if col = utf16 "b" then .string (utf16 "say \"hi\",\r\n")
  else .undefined

def sampleColumns : List JsString :=
  [utf16 "a", utf16 "b", utf16 "c"]

def sampleText : JsString :=
  utf16 ("a,b,c\r\n" ++
    "\"\x7b\"\"k\"\":1,\"\"v\"\":\"\"z\"\"\x7d\",\"say \"\"hi\"\",\r\n\",\r\n")

theorem toCsv_sample : toCsv [sampleRow] sampleColumns = .ok sampleText := by
  rfl

theorem parse_toCsv_sample :
    ∃ fields, parse marks sampleText = some [sampleColumns, fields] ∧
      cellText (sampleRow (utf16 "b")) = .ok (fields.getD 1 []) := by
  obtain ⟨body, hParse, hRows, _, _⟩ :=
    (parse_toCsv [sampleRow] sampleColumns (by decide)).1 sampleText toCsv_sample
  cases hRows with
  | cons hRow hNone =>
      cases hNone
      cases hRow with
      | cons hFirst hRest =>
          cases hRest with
          | cons hSecond hRest => exact ⟨_, hParse, hSecond⟩

end file

end VpnPayment.Csv
