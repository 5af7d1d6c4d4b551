import ZoneCatalog.Bytes.Base64
import ZoneCatalog.Dnssec.Error
import ZoneCatalog.Name.Parser

/-! Public keys as records: their text, their wire form and their key tag. -/
namespace ZoneCatalog

structure Dnskey where
  owner : DomainName
  ttl : UInt32
  flags : UInt16
  algorithm : Algorithm
  publicKey : Bytes
deriving DecidableEq

namespace Dnskey

def protocol : UInt8 := 3

/-- Whether two records are the same, owners compared as names are. -/
def same (a b : Dnskey) : Bool :=
  a.owner.same b.owner && a.ttl == b.ttl && a.flags == b.flags && a.algorithm == b.algorithm &&
    a.publicKey == b.publicKey

def rdata (k : Dnskey) : Bytes :=
  Bytes.ofUInt16 k.flags ++ protocol :: k.algorithm.number :: k.publicKey

/-- The sum behind a key tag, in 32 bits: bytes at even places count 256 times. -/
def tagSum (even : Bool) (sum : UInt32) : Bytes → UInt32
  | [] => sum
  | b :: rest => tagSum (!even) (sum + if even then b.toUInt32 <<< 8 else b.toUInt32) rest

/-- The key tag, a checksum of the record data by which signatures name the key. -/
def keyTag (k : Dnskey) : UInt16 :=
  let sum := tagSum true 0 k.rdata
  (sum + (sum >>> 16 &&& 0xFFFF)).toUInt16

def display (k : Dnskey) : String :=
  let fields := [
    k.owner.text, Text.decimal k.ttl.toNat, ['I', 'N'], ['D', 'N', 'S', 'K', 'E', 'Y'],
    Text.decimal k.flags.toNat, Text.decimal protocol.toNat,
    Text.decimal k.algorithm.number.toNat, Base64.encode k.publicKey]
  String.ofList (fields.intersperse [' ']).flatten

def isClass (token : List Char) : Bool :=
  ["IN", "CH", "HS", "NONE", "ANY", "*"].any fun name => name.toList == token

/-- The tokens of a record: comments run from a semicolon to the end of the line, and parentheses
that stand alone only allow a line to end. -/
def tokens (text : String) : List (List Char) :=
  ((Text.lines text.toList).flatMap fun line => Text.words (Text.cutAt ';' line).1).filter
    fun token => token ≠ ['('] ∧ token ≠ [')']

/-- Reads times to live and classes up to the record type; the last time to live stays. -/
def readTtl (ttl : UInt32) : List (List Char) → Except KeyFault (UInt32 × List (List Char))
  | [] => .error .missingType
  | token :: rest =>
    if Text.isWord "DNSKEY" token then .ok (ttl, rest)
    else match Text.numeral? UInt32.size token with
      | some n => readTtl (UInt32.ofNat n) rest
      | none => if isClass token then readTtl ttl rest else .error (.unexpectedToken token)

def readNumeral (bound : Nat) (fault : KeyFault) :
    List (List Char) → Except KeyFault (Nat × List (List Char))
  | [] => .error fault
  | token :: rest =>
    match Text.numeral? bound token with
    | some n => .ok (n, rest)
    | none => .error fault

/-- Reads a record from text that is stored under a key, by which failures name it. The time to
live is 0 if none is given, and the public key may be split into several tokens. -/
def parse (key text : String) : Except DnssecError Dnskey := do
  let faulty {α : Type} (x : Except KeyFault α) := x.mapError (DnssecError.malformed key)
  match tokens text with
  | [] => throw (.malformed key .emptyRecord)
  | first :: rest =>
    let owner ← (DomainName.parse first).mapError fun e => .proto (.name e)
    let (ttl, rest) ← faulty (readTtl 0 rest)
    let (flags, rest) ← faulty (readNumeral UInt16.size .badFlags rest)
    let (protocolField, rest) ← faulty (readNumeral UInt8.size .badProtocol rest)
    if protocolField ≠ protocol.toNat then
      throw (.malformed key (.otherProtocol protocolField))
    let (number, rest) ← faulty (readNumeral UInt8.size .badAlgorithm rest)
    let number := UInt8.ofNat number
    let some algorithm := Algorithm.ofNumber? number | throw (.unsupportedAlgorithm number)
    if rest.flatten = [] then throw (.malformed key .noPublicKey)
    let some publicKey := Base64.decode rest.flatten | throw (.malformed key .badPublicKey)
    if publicKey.length ≠ algorithm.publicKeySize then
      throw (.malformed key (.publicKeySize algorithm publicKey.length))
    return ⟨owner, ttl, UInt16.ofNat flags, algorithm, publicKey⟩

end Dnskey
end ZoneCatalog
