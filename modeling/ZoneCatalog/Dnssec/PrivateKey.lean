import ZoneCatalog.Bytes.Base64
import ZoneCatalog.Dnssec.Error
import ZoneCatalog.Text.Blank

/-! Secret keys as documents of lines, each a field and its value after a colon. -/
namespace ZoneCatalog

/-- The secret half of a key. The document names its algorithm by a number, which need not be one
that can be signed with. -/
structure PrivateKey where
  algorithm : UInt8
  secret : Bytes
deriving DecidableEq

namespace PrivateKey

structure Draft where
  format : Option (List Char) := none
  algorithm : Option UInt8 := none
  secret : Option Bytes := none

/-- Reads one line. A line without a colon and a field of another name say nothing; of several
lines for a field the last counts, but each has to be sound. -/
def readLine (draft : Draft) (line : List Char) : Except KeyFault Draft :=
  match Text.cutAt ':' line with
  | (_, none) => .ok draft
  | (field, some value) =>
    let field := Text.trim field
    let value := Text.trim value
    if field = "Private-key-format".toList then .ok { draft with format := some value }
    else if field = "Algorithm".toList then
      match Text.numeral? UInt8.size ((Text.words value).headD []) with
      | some n => .ok { draft with algorithm := some (UInt8.ofNat n) }
      | none => .error (.badPrivateAlgorithm value)
    else if field = "PrivateKey".toList then
      match Base64.decode (Text.words value).flatten with
      | some bytes => .ok { draft with secret := some bytes }
      | none => .error .badPrivateKey
    else .ok draft

def Draft.finish (draft : Draft) : Except KeyFault PrivateKey := do
  match draft.format with
  | none => throw (.missingField "Private-key-format")
  | some format =>
    if !("v1.".toList.isPrefixOf format) then throw (.otherFormat format)
  let some algorithm := draft.algorithm | throw (.missingField "Algorithm")
  let some secret := draft.secret | throw (.missingField "PrivateKey")
  return ⟨algorithm, secret⟩

/-- Reads a document that is stored under a key, by which failures name it. -/
def parse (key text : String) : Except DnssecError PrivateKey :=
  ((Text.lines text.toList).foldlM readLine {} >>= Draft.finish).mapError (.malformed key)

/-- A description that keeps the secret. -/
def summary (k : PrivateKey) : String :=
  "PrivateKey \x7b algorithm: " ++ String.ofList (Text.decimal k.algorithm.toNat) ++ ", .. \x7d"

end PrivateKey
end ZoneCatalog
