import Mathlib.Data.List.Basic

/-! The parts of a request target: path segments, and the percent escapes of a
path parameter. -/
namespace VpnPayment.Http

/-- `path.split('/').filter(Boolean)`. -/
def segments (path : String) : List String :=
  ((path.toList.splitOn '/').filter (· ≠ [])).map String.ofList

def hexValue (c : Char) : Option Nat :=
  if '0' ≤ c ∧ c ≤ '9' then some (c.toNat - '0'.toNat)
  else if 'a' ≤ c ∧ c ≤ 'f' then some (c.toNat - 'a'.toNat + 10)
  else if 'A' ≤ c ∧ c ≤ 'F' then some (c.toNat - 'A'.toNat + 10)
  else none

/-- One percent escape at the front. -/
def escape : List Char → Option (UInt8 × List Char)
  | '%' :: high :: low :: rest => do
      let high ← hexValue high
      let low ← hexValue low
      some (UInt8.ofNat (16 * high + low), rest)
  | _ => none

def escapes : Nat → List Char → Option (List UInt8 × List Char)
  | 0, rest => some ([], rest)
  | n + 1, chars => do
      let (byte, rest) ← escape chars
      let (bytes, rest) ← escapes n rest
      some (byte :: bytes, rest)

/-- How many bytes the UTF-8 sequence that starts with a byte has; none starts
with a continuation byte. -/
def sequenceLength (lead : UInt8) : Nat :=
  if lead < 0x80 then 1
  else if lead < 0xc0 then 0
  else if lead < 0xe0 then 2
  else if lead < 0xf0 then 3
  else if lead < 0xf8 then 4
  else 0

/-- One character of an escaped text. -/
def decodeChar : List Char → Option (Char × List Char)
  | '%' :: rest => do
      let (lead, _) ← escape ('%' :: rest)
      let (bytes, rest) ← escapes (sequenceLength lead) ('%' :: rest)
      let c ← bytes.toByteArray.utf8DecodeChar? 0
      some (c, rest)
  | c :: rest => some (c, rest)
  | [] => none

/-- Every round takes at least one character. -/
def decodeChars : Nat → List Char → Option (List Char)
  | 0, _ => some []
  | _, [] => some []
  | fuel + 1, chars => do
      let (c, rest) ← decodeChar chars
      let decoded ← decodeChars fuel rest
      some (c :: decoded)

/-- `decodeURIComponent`, which throws on an escape that is cut off, is no
hexadecimal number, or is no UTF-8. -/
def decodeURIComponent (text : String) : Option String :=
  (decodeChars text.toList.length text.toList).map String.ofList

example : decodeURIComponent "a%2Fb%e2%82%ac" = some "a/b€" := by decide +kernel

end VpnPayment.Http
