/-! Record types by their numbers. -/
namespace ZoneCatalog

structure RecordType where
  code : UInt16
deriving DecidableEq, Repr

namespace RecordType

def mnemonics : List (UInt16 × String) :=
  [(0, "ZERO"), (1, "A"), (2, "NS"), (5, "CNAME"), (6, "SOA"), (10, "NULL"), (12, "PTR"),
   (13, "HINFO"), (15, "MX"), (16, "TXT"), (24, "SIG"), (25, "KEY"), (28, "AAAA"), (33, "SRV"),
   (35, "NAPTR"), (41, "OPT"), (43, "DS"), (44, "SSHFP"), (46, "RRSIG"), (47, "NSEC"),
   (48, "DNSKEY"), (50, "NSEC3"), (51, "NSEC3PARAM"), (52, "TLSA"), (59, "CDS"),
   (60, "CDNSKEY"), (61, "OPENPGPKEY"), (62, "CSYNC"), (64, "SVCB"), (65, "HTTPS"),
   (250, "TSIG"), (251, "IXFR"), (252, "AXFR"), (255, "ANY"), (257, "CAA"), (65305, "ANAME")]

def name (t : RecordType) : String := (mnemonics.lookup t.code).getD "Unknown"

def dnskey : RecordType := ⟨48⟩

end RecordType
end ZoneCatalog
