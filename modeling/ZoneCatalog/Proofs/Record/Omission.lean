import ZoneCatalog.Proofs.Data.Omission
import ZoneCatalog.Proofs.Record.Json

/-! Record sets whose text leaves out what is as it is by default, at any depth. -/
namespace ZoneCatalog

open Datum

/-! How records are written short: what a field may be left out with, and what stays. -/

def IpRecord.omission : Omission := .record [
  ("ip", .stays),
  ("country", .optional (.list [])),
  ("asn", .optional (.nat 0)),
  ("weight", .optional (.nat 0))]

def IpFilter.omission : Omission := .record [
  ("count", .optional (.str "multi")),
  ("order", .optional (.str "none")),
  ("geo_filter", .optional (.str "none"))]

def IpHealthCheck.omission : Omission := .record [
  ("protocol", .optional (.str "http")),
  ("uri", .optional (.str "/")),
  ("port", .optional (.nat 80)),
  ("timeout", .optional (.nat 1000)),
  ("up_count", .optional (.int 3)),
  ("down_count", .optional (.int (-3))),
  ("enable", .optional (.bool false))]

def IpSet.omission : Omission := .record [
  ("ttl", .optional (.nat defaultTtl.toNat)),
  ("records", .optional (.list []) (.list IpRecord.omission)),
  ("filter", .optional ({} : IpFilter).encode IpFilter.omission),
  ("health_check", .optional ({} : IpHealthCheck).encode IpHealthCheck.omission)]

def RrSet.omission (record : Omission) : Omission := .record [
  ("ttl", .optional (.nat defaultTtl.toNat)),
  ("records", .optional (.list []) (.list record))]

def Cname.omission : Omission :=
  .record [("ttl", .optional (.nat defaultTtl.toNat)), ("host", .stays)]

def Txt.omission : Omission := .record [("text", .stays)]

def Ns.omission : Omission := .record [("host", .stays)]

def Mx.omission : Omission := .record [("host", .stays), ("preference", .optional (.nat 0))]

def Srv.omission : Omission := .record [
  ("target", .stays),
  ("port", .stays),
  ("priority", .optional (.nat 0)),
  ("weight", .optional (.nat 0))]

def Caa.omission : Omission :=
  .record [("flag", .optional (.nat 0)), ("tag", .stays), ("value", .stays)]

def Ptr.omission : Omission :=
  .record [("ttl", .optional (.nat defaultTtl.toNat)), ("domain", .stays)]

def Tlsa.omission : Omission := .record [
  ("usage", .stays),
  ("selector", .stays),
  ("matching_type", .stays),
  ("certificate", .stays)]

def Aname.omission : Omission := .record [("location", .stays)]

/-- The sets of a single record are stated only where they are there, so what stays of them is a
record. -/
def RecordSets.omission : Omission := .record [
  ("a", .optional ({} : IpSet).encode IpSet.omission),
  ("aaaa", .optional ({} : IpSet).encode IpSet.omission),
  ("cname", .stays Cname.omission),
  ("txt", rrSet Txt.omission),
  ("ns", rrSet Ns.omission),
  ("mx", rrSet Mx.omission),
  ("srv", rrSet Srv.omission),
  ("caa", rrSet Caa.omission),
  ("ptr", .stays Ptr.omission),
  ("tlsa", rrSet Tlsa.omission),
  ("aname", .stays Aname.omission)]
where
  /-- All sets are written alike where they have no records. -/
  rrSet (record : Omission) : Part :=
    .optional (.object [("ttl", .nat defaultTtl.toNat), ("records", .list [])])
      (RrSet.omission record)

/-! What is left out is not missed. -/

theorem IpRecord.harmless : omission.Harmless decode := by
  refine .record fun h distinct => ?_
  refine .bind (h.require distinct rfl .none) fun ip => ?_
  refine .bind (h.getD distinct rfl (.optional .none rfl)) fun country => ?_
  refine .bind (h.getD distinct rfl (.optional .none rfl)) fun asn => ?_
  refine .bind (h.getD distinct rfl (.optional .none rfl)) fun weight => ?_
  exact .refl _

theorem IpFilter.harmless : omission.Harmless decode := by
  refine .record fun h distinct => ?_
  refine .bind (h.getD distinct rfl (.optional .none rfl)) fun count => ?_
  refine .bind (h.getD distinct rfl (.optional .none rfl)) fun order => ?_
  refine .bind (h.getD distinct rfl (.optional .none rfl)) fun geoFilter => ?_
  exact .refl _

theorem IpHealthCheck.harmless : omission.Harmless decode := by
  refine .record fun h distinct => ?_
  refine .bind (h.getD distinct rfl (.optional .none rfl)) fun protocol => ?_
  refine .bind (h.getD distinct rfl (.optional .none rfl)) fun uri => ?_
  refine .bind (h.getD distinct rfl (.optional .none rfl)) fun port => ?_
  refine .bind (h.getD distinct rfl (.optional .none rfl)) fun timeout => ?_
  refine .bind (h.getD distinct rfl (.optional .none rfl)) fun upCount => ?_
  refine .bind (h.getD distinct rfl (.optional .none rfl)) fun downCount => ?_
  refine .bind (h.getD distinct rfl (.optional .none rfl)) fun enable => ?_
  exact .refl _

theorem IpSet.harmless : omission.Harmless decode := by
  refine .record fun h distinct => ?_
  refine .bind (h.getD distinct rfl (.optional .none rfl)) fun ttl => ?_
  refine .bind (h.getD distinct rfl (.optional (.list IpRecord.harmless) rfl)) fun records => ?_
  refine .bind (h.getD distinct rfl (.optional IpFilter.harmless
    (IpFilter.faithful.decode_encode {}))) fun filter => ?_
  refine .bind (h.getD distinct rfl (.optional IpHealthCheck.harmless
    (IpHealthCheck.faithful.decode_encode {}))) fun healthCheck => ?_
  exact .refl _

theorem RrSet.harmless {α : Type} {record : Omission} {decode : Datum → Decoded α}
    (harmless : record.Harmless decode) :
    (RrSet.omission record).Harmless (RrSet.decode decode) := by
  refine .record fun h distinct => ?_
  refine .bind (h.getD distinct rfl (.optional .none rfl)) fun ttl => ?_
  refine .bind (h.getD distinct rfl (.optional (.list harmless) rfl)) fun records => ?_
  exact .refl _

theorem Cname.harmless : omission.Harmless decode := by
  refine .record fun h distinct => ?_
  refine .bind (h.getD distinct rfl (.optional .none rfl)) fun ttl => ?_
  refine .bind (h.require distinct rfl .none) fun host => ?_
  exact .refl _

theorem Txt.harmless : omission.Harmless decode :=
  .record fun h distinct => .bind (h.require distinct rfl .none) fun _ => .refl _

theorem Ns.harmless : omission.Harmless decode :=
  .record fun h distinct => .bind (h.require distinct rfl .none) fun _ => .refl _

theorem Mx.harmless : omission.Harmless decode := by
  refine .record fun h distinct => ?_
  refine .bind (h.require distinct rfl .none) fun host => ?_
  refine .bind (h.getD distinct rfl (.optional .none rfl)) fun preference => ?_
  exact .refl _

theorem Srv.harmless : omission.Harmless decode := by
  refine .record fun h distinct => ?_
  refine .bind (h.require distinct rfl .none) fun target => ?_
  refine .bind (h.require distinct rfl .none) fun port => ?_
  refine .bind (h.getD distinct rfl (.optional .none rfl)) fun priority => ?_
  refine .bind (h.getD distinct rfl (.optional .none rfl)) fun weight => ?_
  exact .refl _

theorem Caa.harmless : omission.Harmless decode := by
  refine .record fun h distinct => ?_
  refine .bind (h.getD distinct rfl (.optional .none rfl)) fun flag => ?_
  refine .bind (h.require distinct rfl .none) fun tag => ?_
  refine .bind (h.require distinct rfl .none) fun value => ?_
  exact .refl _

theorem Ptr.harmless : omission.Harmless decode := by
  refine .record fun h distinct => ?_
  refine .bind (h.getD distinct rfl (.optional .none rfl)) fun ttl => ?_
  refine .bind (h.require distinct rfl .none) fun domain => ?_
  exact .refl _

theorem Tlsa.harmless : omission.Harmless decode := by
  refine .record fun h distinct => ?_
  refine .bind (h.require distinct rfl .none) fun usage => ?_
  refine .bind (h.require distinct rfl .none) fun selector => ?_
  refine .bind (h.require distinct rfl .none) fun matchingType => ?_
  refine .bind (h.require distinct rfl .none) fun certificate => ?_
  exact .refl _

theorem Aname.harmless : omission.Harmless decode :=
  .record fun h distinct => .bind (h.require distinct rfl .none) fun _ => .refl _

theorem RecordSets.suits_rrSet {α : Type} {record : Omission} {decode : Datum → Decoded α}
    (harmless : record.Harmless decode) :
    (omission.rrSet record).Suits (RrSet.decode decode) {} :=
  .optional (RrSet.harmless harmless) rfl

theorem RecordSets.harmless : omission.Harmless decode := by
  have ip := Part.Suits.optional IpSet.harmless (IpSet.faithful.decode_encode {})
  refine .record fun h distinct => ?_
  refine .bind (h.getD distinct rfl ip) fun a => ?_
  refine .bind (h.getD distinct rfl ip) fun aaaa => ?_
  refine .bind (h.getD distinct rfl (.stays Cname.harmless.option)) fun cname => ?_
  refine .bind (h.getD distinct rfl (suits_rrSet Txt.harmless)) fun txt => ?_
  refine .bind (h.getD distinct rfl (suits_rrSet Ns.harmless)) fun ns => ?_
  refine .bind (h.getD distinct rfl (suits_rrSet Mx.harmless)) fun mx => ?_
  refine .bind (h.getD distinct rfl (suits_rrSet Srv.harmless)) fun srv => ?_
  refine .bind (h.getD distinct rfl (suits_rrSet Caa.harmless)) fun caa => ?_
  refine .bind (h.getD distinct rfl (.stays Ptr.harmless.option)) fun ptr => ?_
  refine .bind (h.getD distinct rfl (suits_rrSet Tlsa.harmless)) fun tlsa => ?_
  refine .bind (h.getD distinct rfl (.stays Aname.harmless.option)) fun aname => ?_
  exact .refl _

/-- Record sets are read back off their text whatever of it is left out that says what holds by
default. -/
theorem RecordSets.ofJson_of_shortens {sets : RecordSets} {d : Datum}
    (short : omission.Shortens sets.encode d) : ofJson (Json.writeString d) = .ok sets := by
  have plain := omission.plain short (faithful.plain sets)
  have read := harmless short sets (faithful.decode_encode sets)
  rw [ofJson, Json.decode, Json.writeString, String.toList_ofList, Json.read?_write plain]
  simp [read, Except.mapError]

/-- An address that is probed, and an alias beside it. -/
def RecordSets.probed : RecordSets where
  a := {
    records := [{ ip := .v4 ⟨192, 0, 2, 1⟩, weight := 10 }]
    healthCheck := { protocol := "https", enable := true } }
  cname := some { host := "www.example.net." }

/-- What has to be said of them. -/
def RecordSets.probedShort : Datum := .object [
  ("a", .object [
    ("records", .list [.object [("ip", .str "192.0.2.1"), ("weight", .nat 10)]]),
    ("health_check", .object [("protocol", .str "https"), ("enable", .bool true)])]),
  ("cname", .object [("host", .str "www.example.net.")])]

theorem RecordSets.ofJson_of_shortens_probed :
    omission.Shortens probed.encode probedShort ∧
      ofJson (Json.writeString probedShort) = .ok probed := by
  have address : IpRecord.omission.Shortens
      (IpRecord.encode { ip := .v4 ⟨192, 0, 2, 1⟩, weight := 10 })
      (.object [("ip", .str "192.0.2.1"), ("weight", .nat 10)]) :=
    .members (.kept rfl rfl (.omitted rfl rfl (.omitted rfl rfl (.kept rfl rfl .nil))))
  have health : IpHealthCheck.omission.Shortens
      (IpHealthCheck.encode { protocol := "https", enable := true })
      (.object [("protocol", .str "https"), ("enable", .bool true)]) :=
    .members (.kept rfl rfl (.omitted rfl rfl (.omitted rfl rfl (.omitted rfl rfl
      (.omitted rfl rfl (.omitted rfl rfl (.kept rfl rfl .nil)))))))
  have a : IpSet.omission.Shortens probed.a.encode (.object [
      ("records", .list [.object [("ip", .str "192.0.2.1"), ("weight", .nat 10)]]),
      ("health_check", .object [("protocol", .str "https"), ("enable", .bool true)])]) :=
    .members (.omitted rfl rfl (.kept rfl (.items (.cons address .nil)) (.omitted rfl rfl
      (.kept rfl health .nil))))
  have cname : Cname.omission.Shortens (Cname.encode { host := "www.example.net." })
      (.object [("host", .str "www.example.net.")]) :=
    .members (.omitted rfl rfl (.kept rfl rfl .nil))
  have short : omission.Shortens probed.encode probedShort :=
    .members (.kept rfl a (.omitted rfl rfl (.kept rfl cname (.omitted rfl rfl (.omitted rfl rfl
      (.omitted rfl rfl (.omitted rfl rfl (.omitted rfl rfl (.omitted rfl rfl .nil)))))))))
  exact ⟨short, ofJson_of_shortens short⟩

end ZoneCatalog
