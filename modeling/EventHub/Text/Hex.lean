/-!
Bytes and their hexadecimal text, two lower-case digits to a byte.
-/

namespace EventHub

abbrev Bytes := List UInt8

namespace Text

def hexDigit (n : Nat) : Char :=
  (Nat.toDigits 16 n).headD '0'

def hex (bytes : Bytes) : String :=
  String.ofList (bytes.flatMap fun b => [hexDigit (b.toNat / 16), hexDigit (b.toNat % 16)])

def hexValue (c : Char) : Option Nat :=
  if '0' ≤ c ∧ c ≤ '9' then some (c.toNat - '0'.toNat)
  else if 'a' ≤ c ∧ c ≤ 'f' then some (c.toNat - 'a'.toNat + 10)
  else if 'A' ≤ c ∧ c ≤ 'F' then some (c.toNat - 'A'.toNat + 10)
  else none

/-- Reads pairs of digits; a pair that is none, or a lone last digit, ends the
bytes. -/
def bytesOfHexDigits : List Char → Bytes
  | high :: low :: rest =>
    match hexValue high, hexValue low with
    | some h, some l => UInt8.ofNat (16 * h + l) :: bytesOfHexDigits rest
    | _, _ => []
  | _ => []

def bytesOfHex (s : String) : Bytes :=
  bytesOfHexDigits s.toList

/-- The bytes of a text in UTF-8. -/
def utf8 (s : String) : Bytes :=
  s.toUTF8.toList

end Text

end EventHub
