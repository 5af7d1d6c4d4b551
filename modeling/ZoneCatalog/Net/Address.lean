/-! Internet addresses of both families. -/
namespace ZoneCatalog

structure Ipv4 where
  a : UInt8
  b : UInt8
  c : UInt8
  d : UInt8
deriving DecidableEq, Repr

/-- An IPv6 address by its eight groups of sixteen bits. -/
structure Ipv6 where
  groups : List UInt16
  length_eq : groups.length = 8
deriving DecidableEq, Repr

inductive IpAddress where
  | v4 (address : Ipv4)
  | v6 (address : Ipv6)
deriving DecidableEq, Repr

namespace Ipv4

def octets (ip : Ipv4) : List UInt8 := [ip.a, ip.b, ip.c, ip.d]

/-- The address as two groups of sixteen bits. -/
def groups (ip : Ipv4) : List UInt16 :=
  [ip.a.toUInt16 * 256 + ip.b.toUInt16, ip.c.toUInt16 * 256 + ip.d.toUInt16]

def ofGroups (hi lo : UInt16) : Ipv4 :=
  ⟨(hi / 256).toUInt8, hi.toUInt8, (lo / 256).toUInt8, lo.toUInt8⟩

end Ipv4
end ZoneCatalog
