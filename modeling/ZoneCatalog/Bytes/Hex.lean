import ZoneCatalog.Bytes.Basic
import ZoneCatalog.Text.Numeral

/-! Hexadecimal text of byte strings, two small digits to a byte. -/
namespace ZoneCatalog.Hex

def encode (bytes : Bytes) : List Char :=
  bytes.flatMap fun b => [Nat.digitChar (b.toNat / 16), Nat.digitChar (b.toNat % 16)]

/-- The byte string of a text, digits of either case. -/
def decode : List Char → Option Bytes
  | [] => some []
  | [_] => none
  | hi :: lo :: rest => do
    let hi ← Text.digitValue 16 hi
    let lo ← Text.digitValue 16 lo
    let others ← decode rest
    return UInt8.ofNat (hi * 16 + lo) :: others

end ZoneCatalog.Hex
