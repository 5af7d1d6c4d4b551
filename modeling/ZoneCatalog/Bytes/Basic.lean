/-! Byte strings, and the numbers they denote in either byte order. -/
namespace ZoneCatalog

abbrev Bytes := List UInt8

namespace Bytes

def toNatBE (bytes : Bytes) : Nat := bytes.foldl (fun acc b => acc * 256 + b.toNat) 0

def toNatLE (bytes : Bytes) : Nat := bytes.foldr (fun b acc => acc * 256 + b.toNat) 0

def ofNatLE : (count : Nat) → Nat → Bytes
  | 0, _ => []
  | count + 1, n => UInt8.ofNat n :: ofNatLE count (n / 256)

def ofNatBE (count n : Nat) : Bytes := (ofNatLE count n).reverse

def ofUInt16 (n : UInt16) : Bytes := ofNatBE 2 n.toNat

def ofUInt32 (n : UInt32) : Bytes := ofNatBE 4 n.toNat

/-- Lexicographic comparison by byte value; a proper initial part comes before the whole. -/
def isBelow : Bytes → Bytes → Bool
  | [], [] => false
  | [], _ :: _ => true
  | _ :: _, [] => false
  | a :: as, b :: bs => a < b || (a == b && isBelow as bs)

def isAtMost (xs ys : Bytes) : Bool := !isBelow ys xs

def ofString (text : String) : Bytes := text.toUTF8.toList

def toString? (bytes : Bytes) : Option String := String.fromUTF8? ⟨bytes.toArray⟩

end Bytes
end ZoneCatalog
