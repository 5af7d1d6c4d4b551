import ZoneCatalog.Name.Basic

/-! The wire form of a domain name in a message: every label after its length, and a zero for the
root. The limit of 255 bytes counts that zero too, so the longest names have no wire form. -/
namespace ZoneCatalog.DomainName

/-- The bytes of the labels, each after its length. -/
def labelBytes (labels : List Label) : Bytes :=
  labels.flatMap fun l => UInt8.ofNat l.size :: l.bytes

/-- The wire form without regard to the limit on its length. -/
def wire (name : DomainName) : Bytes := labelBytes name.labels ++ [0]

def wire? (name : DomainName) : Except NameError Bytes :=
  if 255 < name.wire.length then .error (.tooLong name.wire.length) else .ok name.wire

end ZoneCatalog.DomainName
