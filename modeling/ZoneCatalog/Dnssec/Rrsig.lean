import ZoneCatalog.Clock.Basic
import ZoneCatalog.Dnssec.SigningKey
import ZoneCatalog.Name.Lower
import ZoneCatalog.Name.Wire
import ZoneCatalog.Record.Type

/-! Signatures over record sets. What is signed depends on the set of records alone: they are put
into ascending order and repeated ones left out. -/
namespace ZoneCatalog

structure Rrsig where
  owner : DomainName
  typeCovered : RecordType
  algorithm : Algorithm
  /-- The number of labels of the owner. -/
  labels : UInt8
  originalTtl : UInt32
  expiration : UInt32
  inception : UInt32
  keyTag : UInt16
  signerName : DomainName
  signature : Bytes
deriving DecidableEq

namespace Rrsig

/-- The most bytes that a message holds. -/
def bufferLimit : Nat := 65535

def classField : Bytes := [0, 1]

def header (r : Rrsig) : Bytes :=
  Bytes.ofUInt16 r.typeCovered.code ++ [r.algorithm.number, r.labels] ++
    Bytes.ofUInt32 r.originalTtl ++ Bytes.ofUInt32 r.expiration ++ Bytes.ofUInt32 r.inception ++
    Bytes.ofUInt16 r.keyTag

def unsignedRdata (r : Rrsig) : Except WireError Bytes :=
  (r.signerName.wire?.mapError .name).map (r.header ++ ·)

def rdata (r : Rrsig) : Except WireError Bytes := r.unsignedRdata.map (· ++ r.signature)

def dropRepeats : List Bytes → List Bytes
  | [] => []
  | [x] => [x]
  | x :: y :: rest => if x = y then dropRepeats (y :: rest) else x :: dropRepeats (y :: rest)

/-- The distinct elements of a list in ascending order. -/
def canonicalSet (rdatas : List Bytes) : List Bytes :=
  dropRepeats (rdatas.mergeSort Bytes.isAtMost)

/-- What stands before the length of every record: owner, type, class and time to live. -/
def recordFront (r : Rrsig) (owner : Bytes) : Bytes :=
  owner ++ Bytes.ofUInt16 r.typeCovered.code ++ classField ++ Bytes.ofUInt32 r.originalTtl

/-- Writes records one after the other into a message of which `used` bytes are taken. -/
def records (front : Bytes) (used : Nat) : List Bytes → Except WireError Bytes
  | [] => .ok []
  | rdata :: rest =>
    let size := front.length + 2 + rdata.length
    if bufferLimit < used + front.length then .error (.bufferFull bufferLimit)
    else if 65535 < rdata.length then .error .rdataTooLong
    else if bufferLimit < used + size then .error (.bufferFull bufferLimit)
    else do
      let others ← records front (used + size) rest
      return front ++ Bytes.ofUInt16 (UInt16.ofNat rdata.length) ++ rdata ++ others

/-- The bytes that the signature covers: the record data without the signature, then every record
of the set once. -/
def signedData (r : Rrsig) (rdatas : List Bytes) : Except WireError Bytes := do
  let head ← r.unsignedRdata
  match canonicalSet rdatas with
  | [] => return head
  | set =>
    let owner ← r.owner.wire?.mapError .name
    let body ← records (r.recordFront owner) head.length set
    return head ++ body

/-- Signs the records of one type at an owner. The record data have the names in them in canonical
form already; the times are taken modulo `2 ^ 32`. -/
def sign (key : SigningKey) (keyTag : UInt16) (signerName owner : DomainName)
    (typeCovered : RecordType) (ttl : UInt32) (rdatas : List Bytes)
    (inception expiration : Seconds) : Except DnssecError Rrsig := do
  let unsigned : Rrsig := {
    owner := owner.lower
    typeCovered
    algorithm := key.algorithm
    labels := UInt8.ofNat owner.countedLabels
    originalTtl := ttl
    expiration := expiration.serial
    inception := inception.serial
    keyTag
    signerName := signerName.lower
    signature := [] }
  let message ← (unsigned.signedData rdatas).mapError .proto
  let signature ← key.sign message
  return { unsigned with signature }

def display (r : Rrsig) : String :=
  let fields := [
    r.owner.text, Text.decimal r.originalTtl.toNat, ['I', 'N'], ['R', 'R', 'S', 'I', 'G'],
    r.typeCovered.name.toList, Text.decimal r.algorithm.number.toNat,
    Text.decimal r.labels.toNat, Text.decimal r.originalTtl.toNat,
    Text.decimal r.expiration.toNat, Text.decimal r.inception.toNat,
    Text.decimal r.keyTag.toNat, r.signerName.text, Base64.encode r.signature]
  String.ofList (fields.intersperse [' ']).flatten

end Rrsig
end ZoneCatalog
