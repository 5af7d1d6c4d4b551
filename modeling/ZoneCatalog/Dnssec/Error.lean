import ZoneCatalog.Dnssec.Algorithm
import ZoneCatalog.Name.Printer
import ZoneCatalog.Store.Error

/-! What can go wrong with keys and signatures. -/
namespace ZoneCatalog

inductive WireError where
  | name (cause : NameError)
  | rdataTooLong
  | bufferFull (limit : Nat)
deriving DecidableEq, Repr

def WireError.message : WireError → String
  | .name cause => cause.message
  | .rdataTooLong => "RDATA length exceeds u16::MAX"
  | .bufferFull limit => "maximum buffer size exceeded: " ++ String.ofList (Text.decimal limit)

/-- What is wrong with a stored half of a key. -/
inductive KeyFault where
  | emptyRecord
  | missingType
  | unexpectedToken (token : List Char)
  | badFlags
  | badProtocol
  | otherProtocol (found : Nat)
  | badAlgorithm
  | noPublicKey
  | badPublicKey
  | publicKeySize (algorithm : Algorithm) (found : Nat)
  | foreignOwner (owner : DomainName)
  | badPrivateAlgorithm (value : List Char)
  | badPrivateKey
  | otherFormat (format : List Char)
  | missingField (name : String)
deriving DecidableEq

def KeyFault.message : KeyFault → String
  | .emptyRecord => "empty record"
  | .missingType => "missing record type"
  | .unexpectedToken token => "unexpected token " ++ String.ofList token
  | .badFlags => "invalid flags"
  | .badProtocol => "invalid protocol"
  | .otherProtocol found => "protocol must be 3, found " ++ String.ofList (Text.decimal found)
  | .badAlgorithm => "invalid algorithm"
  | .noPublicKey => "missing public key"
  | .badPublicKey => "invalid base64 public key: not in groups of the alphabet"
  | .publicKeySize algorithm found =>
    algorithm.name ++ " public key must be " ++
      String.ofList (Text.decimal algorithm.publicKeySize) ++ " bytes, found " ++
      String.ofList (Text.decimal found)
  | .foreignOwner owner => "key owner " ++ owner.display ++ " is not the zone apex"
  | .badPrivateAlgorithm value => "invalid algorithm " ++ String.ofList value
  | .badPrivateKey => "invalid base64 private key: not in groups of the alphabet"
  | .otherFormat format => "unsupported private key format " ++ String.ofList format
  | .missingField name => "missing " ++ name

inductive Rejection where
  | invalidEncoding
  | invalidComponent
  | inconsistentComponents
deriving DecidableEq, Repr

def Rejection.message : Rejection → String
  | .invalidEncoding => "InvalidEncoding"
  | .invalidComponent => "InvalidComponent"
  | .inconsistentComponents => "InconsistentComponents"

inductive DnssecError where
  | missingKey (key : String)
  | malformed (key : String) (fault : KeyFault)
  | unsupportedAlgorithm (number : UInt8)
  | keyRejected (cause : Rejection)
  | algorithmMismatch (published secret : UInt8)
  | signing
  | store (cause : StoreError)
  | proto (cause : WireError)
deriving DecidableEq

def DnssecError.message : DnssecError → String
  | .missingKey key => "no key material stored at " ++ key
  | .malformed key fault => "malformed key material at " ++ key ++ ": " ++ fault.message
  | .unsupportedAlgorithm n =>
    "unsupported DNSSEC algorithm: " ++ String.ofList (Text.decimal n.toNat)
  | .keyRejected cause => "key rejected: " ++ cause.message
  | .algorithmMismatch published secret =>
    "public key algorithm " ++ String.ofList (Text.decimal published.toNat) ++
      " does not match private key algorithm " ++ String.ofList (Text.decimal secret.toNat)
  | .signing => "signing failed: no fit nonce"
  | .store cause => "store error: " ++ cause.message
  | .proto cause => "proto error: " ++ cause.message

end ZoneCatalog
