import ZoneCatalog.Net.Address
import ZoneCatalog.Text.Numeral

/-! Writing internet addresses in their canonical text. In an IPv6 address the first of the longest
runs of two or more zero groups is left out, and an address that maps an IPv4 address shows it. -/
namespace ZoneCatalog

def Ipv4.text (ip : Ipv4) : List Char :=
  (ip.octets.map fun o => Text.decimal o.toNat).intersperse ['.'] |>.flatten

namespace Ipv6

/-- How many groups from a place on are zero. -/
def zerosAt (groups : List UInt16) (place : Nat) : Nat :=
  ((groups.drop place).takeWhile (· = 0)).length

/-- The place of the first of the longest runs of zero groups. -/
def longestZeros (groups : List UInt16) : Nat :=
  (List.range groups.length).foldl
    (fun best place => if zerosAt groups best < zerosAt groups place then place else best) 0

def joinGroups (groups : List UInt16) : List Char :=
  (groups.map fun g => Nat.toDigits 16 g.toNat).intersperse [':'] |>.flatten

def text (ip : Ipv6) : List Char :=
  match ip.groups with
  | [0, 0, 0, 0, 0, 0xFFFF, hi, lo] => "::ffff:".toList ++ (Ipv4.ofGroups hi lo).text
  | groups =>
    let start := longestZeros groups
    let count := zerosAt groups start
    if count ≤ 1 then joinGroups groups
    else joinGroups (groups.take start) ++ [':', ':'] ++ joinGroups (groups.drop (start + count))

end Ipv6

def IpAddress.text : IpAddress → List Char
  | .v4 ip => ip.text
  | .v6 ip => ip.text

def IpAddress.display (ip : IpAddress) : String := String.ofList ip.text

end ZoneCatalog
