import VpnPayment.Collections.Base64
import VpnPayment.Collections.Json

/-! The encoded words of a header value (RFC 2047), as a mail reader shows them: base64 or quoted
text in some character set, between words that stand as they are. -/
namespace EncodedWord

/-- The words of a value that has begun with `blanks` and `word`, each behind its blanks. -/
def wordsFrom (blanks word : List Char) : List Char → List (List Char × List Char)
  | [] => [(blanks, word)]
  | c :: rest =>
      if c = ' ' ∨ c = '\t' then
        if word = [] then wordsFrom (blanks ++ [c]) [] rest
        else (blanks, word) :: wordsFrom [c] [] rest
      else wordsFrom blanks (word ++ [c]) rest

def words (value : List Char) : List (List Char × List Char) :=
  wordsFrom [] [] value

/-- Character set, encoding and text of a word of the form `=?charset?encoding?text?=`. It has at
most 75 characters. -/
def parts (word : List Char) : Option (List Char × Char × List Char) :=
  if word.length ≤ 75 then
    match word.splitOn '?' with
    | [['='], charset, [encoding], text, ['=']] => some (charset, encoding, text)
    | _ => none
  else none

/-- The bytes of a quoted text: `_` is a space, and `=` stands before two hexadecimal digits. -/
def quoted : List Char → Option (List UInt8)
  | [] => some []
  | c :: rest =>
      if c = '_' then (quoted rest).map (32 :: ·)
      else if c = '=' then
        match rest with
        | a :: b :: more => do
            let high ← Json.hexValue a
            let low ← Json.hexValue b
            return UInt8.ofNat (high * 16 + low) :: (← quoted more)
        | _ => none
      else (quoted rest).map (UInt8.ofNat c.toNat :: ·)

def bytesOf (encoding : Char) (text : List Char) : Option (List UInt8) :=
  if encoding.toLower = 'b' then Base64.decode text
  else if encoding.toLower = 'q' then quoted text
  else none

/-- What a reader shows for an encoded word, if it knows the character set. -/
def decode (charset : List Char → Option (List UInt8 → List Char)) (word : List Char) :
    Option (List Char) := do
  let (name, encoding, text) ← parts word
  let bytes ← bytesOf encoding text
  let chars ← charset name
  return chars bytes

/-- Blanks between two encoded words are not shown. -/
def shown (charset : List Char → Option (List UInt8 → List Char)) (behind : Bool) :
    List (List Char × List Char) → List Char
  | [] => []
  | (blanks, word) :: rest =>
      match decode charset word with
      | some text => (if behind then [] else blanks) ++ text ++ shown charset true rest
      | none => blanks ++ word ++ shown charset false rest

/-- A header value as a reader shows it. -/
def read (charset : List Char → Option (List UInt8 → List Char)) (value : List Char) : List Char :=
  shown charset false (words value)

variable {charset : List Char → Option (List UInt8 → List Char)}

theorem flatMap_wordsFrom (blanks word value : List Char) :
    ((wordsFrom blanks word value).flatMap fun p => p.1 ++ p.2) = blanks ++ word ++ value := by
  induction value generalizing blanks word with
  | nil => simp [wordsFrom]
  | cons c rest ih =>
      rw [wordsFrom]
      split_ifs with hBlank hFirst
      · simp [ih, hFirst]
      · simp [ih]
      · simp [ih]

theorem shown_of_plain {pieces : List (List Char × List Char)} (h : ∀ p ∈ pieces, parts p.2 = none)
    (behind : Bool) : shown charset behind pieces = pieces.flatMap fun p => p.1 ++ p.2 := by
  induction pieces generalizing behind with
  | nil => rfl
  | cons p rest ih =>
      have hNone : decode charset p.2 = none := by
        rw [decode, h p List.mem_cons_self]
        rfl
      rw [shown, hNone, List.flatMap_cons]
      dsimp only
      rw [ih fun q hq => h q (List.mem_cons_of_mem p hq)]

/-- A value is shown as it stands when none of its words has the form of an encoded word. -/
theorem read_of_plain {value : List Char} (h : ∀ p ∈ words value, parts p.2 = none) :
    read charset value = value := by
  rw [read, shown_of_plain h, words, flatMap_wordsFrom]
  rfl

theorem wordsFrom_of_no_blank {value : List Char} (hBlank : ' ' ∉ value ∧ '\t' ∉ value)
    (blanks word : List Char) : wordsFrom blanks word value = [(blanks, word ++ value)] := by
  induction value generalizing word with
  | nil => simp [wordsFrom]
  | cons c rest ih =>
      simp only [List.mem_cons, not_or] at hBlank
      have hNot : ¬(c = ' ' ∨ c = '\t') :=
        not_or.mpr ⟨Ne.symm hBlank.1.1, Ne.symm hBlank.2.1⟩
      rw [wordsFrom, if_neg hNot, ih ⟨hBlank.1.2, hBlank.2.2⟩, List.append_assoc, List.singleton_append]

/-- A single encoded word is shown as the text it stands for. -/
theorem read_word {value text : List Char} (hBlank : ' ' ∉ value ∧ '\t' ∉ value)
    (h : decode charset value = some text) : read charset value = text := by
  rw [read, words, wordsFrom_of_no_blank hBlank, List.nil_append, shown, h]
  simp [shown]

theorem parts_word {name text : List Char} {encoding : Char} (hName : '?' ∉ name)
    (hEncoding : encoding ≠ '?') (hText : '?' ∉ text)
    (hLength : name.length + text.length ≤ 68) :
    parts ("=?".toList ++ name ++ ['?', encoding, '?'] ++ text ++ "?=".toList) =
      some (name, encoding, text) := by
  have hWord : "=?".toList ++ name ++ ['?', encoding, '?'] ++ text ++ "?=".toList =
      ['?'].intercalate [['='], name, [encoding], text, ['=']] := by
    simp [List.intercalate_cons_cons]
  have hPlain : ∀ l ∈ [['='], name, [encoding], text, ['=']], '?' ∉ l := by
    simp [hName, hText, Ne.symm hEncoding]
  have hFits : (['?'].intercalate [['='], name, [encoding], text, ['=']]).length ≤ 75 := by
    rw [← hWord]
    simp
    omega
  rw [hWord, parts, if_pos hFits, List.splitOn_intercalate '?' hPlain (List.cons_ne_nil _ _)]
  rfl

/-- Base64 in a known character set. -/
theorem decode_base64 {name : List Char} {bytes : List UInt8} {chars : List UInt8 → List Char}
    (hCharset : charset name = some chars) (hName : '?' ∉ name)
    (hLength : name.length + (Base64.encode bytes).length ≤ 68) :
    decode charset ("=?".toList ++ name ++ "?B?".toList ++ Base64.encode bytes ++ "?=".toList) =
      some (chars bytes) := by
  have hText : '?' ∉ Base64.encode bytes := fun hMem =>
    Base64.not_isDigit (by decide) (Base64.isDigit_encode hMem)
  have hParts := @parts_word _ _ 'B' hName (by decide) hText hLength
  rw [decode, show "?B?".toList = ['?', 'B', '?'] from rfl, hParts]
  have hBytes : bytesOf 'B' (Base64.encode bytes) = some bytes := by
    rw [bytesOf, if_pos (by decide), Base64.decode_encode]
  simp [hBytes, hCharset]

end EncodedWord
