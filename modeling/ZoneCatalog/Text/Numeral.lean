/-! Decimal numerals of unsigned integers, read within a bound and written in the least number of
digits. -/
namespace ZoneCatalog.Text

/-- The value of a digit in a base of at most sixteen, letters of either case counting from ten. -/
def digitValue (base : Nat) (c : Char) : Option Nat :=
  let value :=
    if c.isDigit then some (c.toNat - '0'.toNat)
    else if 'a' ≤ c ∧ c ≤ 'f' then some (c.toNat - 'a'.toNat + 10)
    else if 'A' ≤ c ∧ c ≤ 'F' then some (c.toNat - 'A'.toNat + 10)
    else none
  value.filter (· < base)

/-- The number with the given digits, the most significant first; `none` if one of the characters
is no digit of the base. The empty text gives zero. -/
def digitsValue (base : Nat) (cs : List Char) : Option Nat :=
  cs.foldlM (fun acc c => (digitValue base c).map (acc * base + ·)) 0

/-- Reads a decimal numeral below `bound`. One plus sign may lead and zeros may follow it; nothing
else may stand beside the digits. -/
def numeral? (bound : Nat) (cs : List Char) : Option Nat :=
  let digits := match cs with
    | '+' :: rest => rest
    | _ => cs
  if digits = [] then none
  else (digitsValue 10 digits).filter (· < bound)

def decimal (n : Nat) : List Char := Nat.toDigits 10 n

def signedDecimal : Int → List Char
  | .ofNat n => decimal n
  | .negSucc n => '-' :: decimal (n + 1)

end ZoneCatalog.Text
