import ZoneCatalog.Net.Address
import ZoneCatalog.Text.Numeral

/-! Reading internet addresses. An IPv4 octet has no superfluous zeros; an IPv6 group has up to
four digits, one run of groups may be left out, and the last two groups may be written as an IPv4
address. Zone identifiers are not read. -/
namespace ZoneCatalog.IpAddress

/-- Reads the longest run of digits, refusing more than `most` of them. As below, the second part
of the answer is what follows in the text. -/
def readDigits (base most : Nat) (cs : List Char) : Option (List Char × List Char) :=
  let isDigit := fun c => (Text.digitValue base c).isSome
  let digits := cs.takeWhile isDigit
  if digits = [] ∨ most < digits.length then none else some (digits, cs.dropWhile isDigit)

def readOctet (cs : List Char) : Option (UInt8 × List Char) := do
  let (digits, rest) ← readDigits 10 3 cs
  let value ← Text.digitsValue 10 digits
  if 255 < value ∨ (digits.head? = some '0' ∧ digits ≠ ['0']) then none
  else return (UInt8.ofNat value, rest)

def readDotOctet : List Char → Option (UInt8 × List Char)
  | '.' :: cs => readOctet cs
  | _ => none

def readV4 (cs : List Char) : Option (Ipv4 × List Char) := do
  let (a, cs) ← readOctet cs
  let (b, cs) ← readDotOctet cs
  let (c, cs) ← readDotOctet cs
  let (d, cs) ← readDotOctet cs
  return (⟨a, b, c, d⟩, cs)

def readGroup (cs : List Char) : Option (UInt16 × List Char) := do
  let (digits, rest) ← readDigits 16 4 cs
  let value ← Text.digitsValue 16 digits
  return (UInt16.ofNat value, rest)

/-- The text after the colon that stands before every group but the first. -/
def afterColon (first : Bool) (cs : List Char) : Option (List Char) :=
  match first, cs with
  | true, cs => some cs
  | false, ':' :: cs => some cs
  | false, _ => none

/-- Groups read in a row, whether they end in an IPv4 address, and what follows them. -/
structure Groups where
  values : List UInt16
  dotted : Bool
  rest : List Char

/-- Reads as many groups as there are, at most `room`. -/
def readGroups (first : Bool) : (room : Nat) → List Char → Groups
  | 0, cs => ⟨[], false, cs⟩
  | room + 1, cs =>
    let dotted := if room = 0 then none else (afterColon first cs).bind readV4
    match dotted with
    | some (ip, rest) => ⟨ip.groups, true, rest⟩
    | none =>
      match (afterColon first cs).bind readGroup with
      | some (group, rest) =>
        let others := readGroups false room rest
        { others with values := group :: others.values }
      | none => ⟨[], false, cs⟩

def ofGroups (values : List UInt16) : Option Ipv6 :=
  if h : values.length = 8 then some ⟨values, h⟩ else none

/-- Reads an IPv6 address. Two colons stand for at least one group of zeros. -/
def readV6 (cs : List Char) : Option (Ipv6 × List Char) :=
  let head := readGroups true 8 cs
  if head.values.length = 8 then (ofGroups head.values).map (·, head.rest)
  else if head.dotted then none
  else match head.rest with
    | ':' :: ':' :: rest =>
      let tail := readGroups true (7 - head.values.length) rest
      let zeros := List.replicate (8 - head.values.length - tail.values.length) 0
      (ofGroups (head.values ++ zeros ++ tail.values)).map (·, tail.rest)
    | _ => none

def ofText (cs : List Char) : Option IpAddress :=
  match readV4 cs with
  | some (ip, []) => some (.v4 ip)
  | some _ => none
  | none =>
    match readV6 cs with
    | some (ip, []) => some (.v6 ip)
    | _ => none

end ZoneCatalog.IpAddress
