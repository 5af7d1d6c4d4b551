import ZoneCatalog.Bytes.Basic

/-! Base64 in its standard alphabet, read strictly: four characters to a group, padding required,
no bit set that the padding drops. A padded group may stand before others. -/
namespace ZoneCatalog.Base64

def digit (n : Nat) : Char :=
  if n < 26 then Char.ofNat ('A'.toNat + n)
  else if n < 52 then Char.ofNat ('a'.toNat + (n - 26))
  else if n < 62 then Char.ofNat ('0'.toNat + (n - 52))
  else if n = 62 then '+' else '/'

def value? (c : Char) : Option Nat :=
  if c.isUpper then some (c.toNat - 'A'.toNat)
  else if c.isLower then some (c.toNat - 'a'.toNat + 26)
  else if c.isDigit then some (c.toNat - '0'.toNat + 52)
  else if c = '+' then some 62
  else if c = '/' then some 63
  else none

def encode : Bytes → List Char
  | [] => []
  | [a] =>
    let n := a.toNat * 16
    [digit (n / 64), digit (n % 64), '=', '=']
  | [a, b] =>
    let n := (a.toNat * 256 + b.toNat) * 4
    [digit (n / 4096), digit (n / 64 % 64), digit (n % 64), '=']
  | a :: b :: c :: rest =>
    let n := (a.toNat * 256 + b.toNat) * 256 + c.toNat
    digit (n / 262144) :: digit (n / 4096 % 64) :: digit (n / 64 % 64) :: digit (n % 64) ::
      encode rest

/-- The one to three bytes of a group. -/
def decodeGroup (c₁ c₂ c₃ c₄ : Char) : Option Bytes := do
  let v₁ ← value? c₁
  let v₂ ← value? c₂
  if c₄ = '=' then
    if c₃ = '=' then
      guard (v₂ % 16 = 0)
      return [UInt8.ofNat ((v₁ * 64 + v₂) / 16)]
    else
      let v₃ ← value? c₃
      guard (v₃ % 4 = 0)
      return Bytes.ofNatBE 2 (((v₁ * 64 + v₂) * 64 + v₃) / 4)
  else
    let v₃ ← value? c₃
    let v₄ ← value? c₄
    return Bytes.ofNatBE 3 (((v₁ * 64 + v₂) * 64 + v₃) * 64 + v₄)

/-- The bytes of a text in groups; `none` unless every group is complete and canonical. -/
def decode : List Char → Option Bytes
  | [] => some []
  | c₁ :: c₂ :: c₃ :: c₄ :: rest => do
    let group ← decodeGroup c₁ c₂ c₃ c₄
    let others ← decode rest
    return group ++ others
  | _ => none

end ZoneCatalog.Base64
