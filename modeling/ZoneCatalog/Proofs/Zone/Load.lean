import ZoneCatalog.Proofs.Cache.Sound
import ZoneCatalog.Proofs.Catalog.Session
import ZoneCatalog.Proofs.Store.Layout
import ZoneCatalog.Proofs.Zone.KeySet

/-! What comes of failures of the store while a zone is loaded. The list of locations and the
configuration have to be read, or there is no zone and whoever asks for it is given the copy there
is. The keys do not: a zone whose keys could not be read takes the place of a copy with keys. -/
namespace ZoneCatalog

open Program (Event)
open Fallible (Served)

namespace Cache

variable {ε V : Type} {c : Cache ε V} {n s : Nat} {l : Lookup ε V} {x : Seconds}

/-- A lookup that fetched can be answered when its fetch ends. -/
theorem Sound.conclude_finish (hc : c.Sound) (hl : c.lookups.get? n = some l)
    (hp : l.phase = .fetching s x) (result : Except ε V) :
    ∃ c', (c.finish n result).conclude n =
        some ((c.finish n result).answerOf l (result.map (Entry.mk s x)), c') ∧
      c'.entries = (c.finish n result).entries := by
  obtain ⟨f, hf, hn, -⟩ := hc.fetching n l s x hl hp
  have landed : (c.finish n result).lookups.get? n =
      some { l with phase := .landed (result.map (Entry.mk s x)) } := by
    rw [finish_lookups hl hp, land_lookups, hl]
    simp [hf, hn]
  exact ⟨_, by simp only [conclude, landed]; rfl, by simp⟩

end Cache

namespace Zone

variable {keys : StoreKeys} {name : String} {now : Seconds} {h : List Event}
  {r : Except LoadError Zone}

/-! The ways in which the load of a zone can go. -/

def sorted (names : List String) : List String := names.mergeSort (fun a b => decide (a ≤ b))

/-- The answers to the first two requests of a load. -/
def opening (keys : StoreKeys) (name : String) (names : List String) (stored : Option String) :
    List Event :=
  [.answered (.fieldNames (keys.zone name)) (.ok names),
    .answered (.get (keys.zoneConfig name)) (.ok stored)]

/-- The configuration that a load reads. -/
abbrev Configured (keys : StoreKeys) (name : String) (names : List String)
    (stored : Option String) (config : Except LoadError ZoneConfig) : Prop :=
  configOf (keys.zoneConfig name) name (sorted names) stored = config

/-- The zone that a load makes. -/
def made (name : String) (now : Seconds) (names : List String) (config : ZoneConfig)
    (signing : Option ZoneSigning) : Zone :=
  ⟨name, sorted names, config, config.soa.resolve name now, signing⟩

/-- What is seen of a load, and what it comes to: it fails before the keys or goes on without any,
or it asks for the keys of the zone and is signed if they can be had. -/
inductive Loading (keys : StoreKeys) (name : String) (now : Seconds) :
    List Event → Except LoadError Zone → Prop where
  | unnamed {cause : NameError} (bad : DomainName.parse name.toList = .error cause) :
      Loading keys name now [] (.error (.name name cause))
  | unlisted (cause : StoreError) :
      Loading keys name now [.answered (.fieldNames (keys.zone name)) (.error cause)]
        (.error (.store cause))
  | unconfigured (names : List String) (cause : StoreError) :
      Loading keys name now [.answered (.fieldNames (keys.zone name)) (.ok names),
        .answered (.get (keys.zoneConfig name)) (.error cause)] (.error (.store cause))
  | refused {names : List String} {stored : Option String} {cause : LoadError}
      (bad : Configured keys name names stored (.error cause)) :
      Loading keys name now (opening keys name names stored) (.error cause)
  | plain {names : List String} {stored : Option String} {config : ZoneConfig}
      (read : Configured keys name names stored (.ok config)) (off : config.dnssec = false) :
      Loading keys name now (opening keys name names stored) (.ok (made name now names config none))
  | signed {names : List String} {stored : Option String} {config : ZoneConfig} {h : List Event}
      {s : ZoneSigning} (read : Configured keys name names stored (.ok config))
      (on : config.dnssec = true) (loaded : (ZoneSigning.load keys name now).run.Yields h (.ok s)) :
      Loading keys name now (opening keys name names stored ++ h)
        (.ok (made name now names config (some s)))
  | unsigned {apex : DomainName} {names : List String} {stored : Option String}
      {config : ZoneConfig} {h : List Event} {cause : DnssecError}
      (named : DomainName.parse name.toList = .ok apex)
      (read : Configured keys name names stored (.ok config)) (on : config.dnssec = true)
      (failed : (ZoneSigning.load keys name now).run.Yields h (.error cause)) :
      Loading keys name now
        (opening keys name names stored ++ (h ++ [.reported (.servedUnsigned name cause)]))
        (.ok (made name now names config none))

/-- Without keys there is a report of why. -/
theorem loadSigning_inv {config : ZoneConfig} {signing : Option ZoneSigning}
    (run : (loadSigning keys name config now).Yields h signing) (on : config.dnssec = true) :
    (∃ s, signing = some s ∧ (ZoneSigning.load keys name now).run.Yields h (.ok s)) ∨
      ∃ cause h', signing = none ∧ h = h' ++ [.reported (.servedUnsigned name cause)] ∧
        (ZoneSigning.load keys name now).run.Yields h' (.error cause) := by
  rw [loadSigning, if_pos on] at run
  obtain ⟨h₁, h₂, result, rfl, loaded, last⟩ := Program.yields_bind.1 run
  cases result with
  | ok s =>
    obtain ⟨rfl, rfl⟩ := Program.yields_done.1 last
    exact .inl ⟨s, rfl, by simpa using loaded⟩
  | error cause =>
    obtain ⟨_, rfl, ended⟩ := Program.yields_report.1 last
    obtain ⟨rfl, rfl⟩ := Program.yields_done.1 ended
    exact .inr ⟨cause, h₁, rfl, rfl, loaded⟩

theorem load_inv (run : (load keys name now).run.Yields h r) : Loading keys name now h r := by
  rcases Fallible.yields_ofExcept_bind.1 run with ⟨cause, bad, rfl, rfl⟩ | ⟨apex, named, listing⟩
  · obtain ⟨fault, unnamed, rfl⟩ := Except.mapError_eq_error.1 bad
    exact .unnamed unnamed
  rcases Fallible.yields_request_bind.1 listing with ⟨cause, rfl, rfl⟩ | ⟨names, h, rfl, finding⟩
  · exact .unlisted cause
  rcases Fallible.yields_request_bind.1 finding with ⟨cause, rfl, rfl⟩ | ⟨stored, h, rfl, reading⟩
  · exact .unconfigured names cause
  rcases Fallible.yields_ofExcept_bind.1 reading with ⟨cause, bad, rfl, rfl⟩ |
    ⟨config, read, signing⟩
  · exact .refused bad
  obtain ⟨h, _, keys?, rfl, loaded, last⟩ := Fallible.yields_lift_bind.1 signing
  obtain ⟨rfl, rfl⟩ := Program.yields_done.1 last
  rw [List.append_nil]
  cases on : config.dnssec with
  | false =>
    rw [loadSigning, if_neg (by simp [on])] at loaded
    obtain ⟨rfl, rfl⟩ := Program.yields_done.1 loaded
    exact .plain read on
  | true =>
    rcases loadSigning_inv loaded on with ⟨s, rfl, signed⟩ | ⟨cause, h, rfl, rfl, failed⟩
    · exact .signed read on signed
    · exact .unsigned (Except.mapError_eq_ok.1 named) read on failed

/-! What a failure of the store does to a load. -/

/-- No half of a key is stored where the configuration is. -/
theorem zoneKey_ne_zoneConfig (role : KeyRole) (half : KeyHalf) :
    keys.zoneKey name role half ≠ keys.zoneConfig name := by
  intro same
  have apart := StoreKeys.keyOf_ofZone_inj (p := .keyHalf role half) (q := .config) same
  cases apart

theorem not_asksKey_zone : ¬ AsksKey keys name (.fieldNames (keys.zone name)) := by
  rintro ⟨role, half, ⟨⟩⟩

theorem not_asksKey_zoneConfig : ¬ AsksKey keys name (.get (keys.zoneConfig name)) := by
  rintro ⟨role, half, same⟩
  exact zoneKey_ne_zoneConfig role half (StoreRequest.get.inj same).symm

/-- What the configuration lacks is no failure of the store. -/
theorem configOf_ne_store {key : String} {locations : List String} {stored : Option String}
    (cause : StoreError) : configOf key name locations stored ≠ .error (.store cause) := by
  intro failed
  cases stored with
  | some text =>
    obtain ⟨fault, -, blamed⟩ := Except.mapError_eq_error.1 failed
    cases blamed
  | none =>
    rw [configOf] at failed
    split at failed <;> cases failed

theorem served_opening {names : List String} {stored : Option String} :
    Served (opening keys name names stored) := by
  intro request cause mem
  rcases List.mem_cons.1 mem with first | rest
  · cases first
  · cases List.mem_singleton.1 rest

theorem served_reported (notice : Notice) : Served [.reported notice] := by
  intro request cause mem
  cases List.mem_singleton.1 mem

/-- A zone is without the keys that its configuration asks for, and there is a report of why. -/
structure ServedUnsigned (z : Zone) (h : List Event) (cause : DnssecError) : Prop where
  on : z.config.dnssec = true
  bare : z.signing = none
  told : .reported (.servedUnsigned z.name cause) ∈ h

namespace Loading

variable (loading : Loading keys name now h r)

include loading

theorem of_failed {request : StoreRequest} {cause : StoreError}
    (he : .answered request (.error cause) ∈ h) :
    ¬ AsksKey keys name request ∧ r = .error (.store cause) ∨
      AsksKey keys name request ∧ ∃ z, r = .ok z ∧ z.ServedUnsigned h (.store cause) := by
  cases loading with
  | unnamed => cases he
  | unlisted =>
    cases List.mem_singleton.1 he
    exact .inl ⟨not_asksKey_zone, rfl⟩
  | unconfigured names =>
    rcases List.mem_cons.1 he with first | second
    · cases first
    · cases List.mem_singleton.1 second
      exact .inl ⟨not_asksKey_zoneConfig, rfl⟩
  | refused => exact absurd he (served_opening _ _)
  | plain => exact absurd he (served_opening _ _)
  | signed read on loaded =>
    rcases List.mem_append.1 he with early | late
    · exact absurd early (served_opening _ _)
    · cases ((ZoneSigning.load_meets keys name now).of_failed loaded late).2
  | unsigned named read on failed =>
    rcases List.mem_append.1 he with early | late
    · exact absurd early (served_opening _ _)
    · rcases List.mem_append.1 late with late | last
      · obtain ⟨asks, why⟩ := (ZoneSigning.load_meets keys name now).of_failed failed late
        obtain rfl := Except.error.inj why
        exact .inr ⟨asks, _, rfl, on, rfl, by simp [made]⟩
      · cases List.mem_singleton.1 last

theorem of_store_error {cause : StoreError} (hr : r = .error (.store cause)) :
    ∃ request, ¬ AsksKey keys name request ∧ .answered request (.error cause) ∈ h := by
  cases loading with
  | unnamed => cases hr
  | unlisted =>
    cases hr
    exact ⟨_, not_asksKey_zone, by simp⟩
  | unconfigured names =>
    cases hr
    exact ⟨_, not_asksKey_zoneConfig, by simp⟩
  | refused bad =>
    cases hr
    exact absurd bad (configOf_ne_store cause)
  | plain | signed | unsigned => cases hr

theorem of_unsigned {z : Zone} (hr : r = .ok z) (on : z.config.dnssec = true)
    (bare : z.signing = none) :
    (∃ request cause, AsksKey keys name request ∧ .answered request (.error cause) ∈ h) ∨
      Served h ∧ ∃ apex cause, DomainName.parse name.toList = .ok apex ∧
        ZoneSigning.Faulty h keys name cause ∧ z.ServedUnsigned h cause := by
  cases loading with
  | unnamed | unlisted | unconfigured | refused => cases hr
  | plain read off =>
    cases hr
    exact absurd on (by simp [made, off])
  | signed =>
    cases hr
    cases bare
  | @unsigned _ names stored _ h cause named read _ failed =>
    cases hr
    rcases (ZoneSigning.load_meets keys name now).of_error failed with
      ⟨request, cause, asks, mem, rfl⟩ | ⟨served, faulty⟩
    · exact .inl ⟨request, cause, asks, by simp [mem]⟩
    · have sub := List.subset_append_of_subset_right (opening keys name names stored)
        (List.subset_append_left h [.reported (.servedUnsigned name cause)])
      exact .inr ⟨served_opening.append (served.append (served_reported _)), _, _, named,
        faulty.mono sub, ⟨on, bare, by simp [made]⟩⟩

end Loading

/-! What is answered to a lookup, and what is cached. -/

/-- Ends the fetch of a lookup of a zone. -/
abbrev landing (name : String) (r : Except LoadError Zone) (n : Nat) (w : World) :
    World.LookupStanding Zone × World :=
  World.continueFetch .zones .zone n name (.finished r, w)

/-- In a world that any moves of the cache of zones led to, a lookup fetches a zone. There is a copy
of the zone if one was cached when the lookup began, or is by now. -/
structure Fetching (w : World) (name : String) (n serial : Nat) (expiresAt : Seconds)
    (copy : Option (Entry Zone)) : Prop where
  reached : ∃ lifetime es, Cache.Run lifetime es w.catalog.zones
  fetching : ∃ l, w.catalog.zones.lookups.get? n = some l ∧ l.key = name ∧
    l.phase = .fetching serial expiresAt ∧ copy = l.cached.or (w.catalog.zones.entries.get? name)

section Landing

variable {w : World} {n serial : Nat} {expiresAt : Seconds} {copy : Option (Entry Zone)}

/-- A lookup whose turn it is fetches the zone, unless there is a current copy by now. -/
theorem fetching_of_turn {l : Cache.Lookup LoadError Zone}
    (reached : ∃ lifetime es, Cache.Run lifetime es w.catalog.zones)
    (hl : w.catalog.zones.lookups.get? n = some l) (turn : w.catalog.zones.hasTurn n)
    (old : w.catalog.zones.current? l.key w.clock = none) (fetch : Fallible LoadError Zone) :
    ∃ v serial expiresAt, Fetching v l.key n serial expiresAt
        (l.cached.or (w.catalog.zones.entries.get? l.key)) ∧
      v.catalog.zones.entries = w.catalog.zones.entries ∧
      w.continueLookup .zones .zone fetch n l.key =
        World.continueFetch .zones .zone n l.key (v.run fetch.run) := by
  obtain ⟨lifetime, es, run⟩ := reached
  have miss := (Cache.spare?_eq_none hl).2 old
  have started : (w.startFetch .zones n).catalog.zones = _ :=
    Cache.start_eq hl w.tick.clock
  have move := Cache.Step.started_later hl turn miss w.clock_le_tick
  have fetches : (w.startFetch .zones n).catalog.zones.lookups.get? n = some { l with
      phase := .fetching w.catalog.zones.nextFetch
        (w.tick.clock.later w.catalog.zones.lifetime) } := by
    rw [started, SortedMap.get?_insert, if_pos rfl]
  have same : (w.startFetch .zones n).catalog.zones.entries = w.catalog.zones.entries := by
    rw [started]
  refine ⟨w.startFetch .zones n, w.catalog.zones.nextFetch,
    w.tick.clock.later w.catalog.zones.lifetime, ⟨⟨lifetime, _, run.snoc move⟩, ?_⟩, same, ?_⟩
  · exact ⟨_, fetches, rfl, rfl, by rw [same]⟩
  · have turn : (w.cacheOf .zones).hasTurn n := turn
    have miss : (w.cacheOf .zones).spare? n w.clock = none := miss
    rw [World.continueLookup, if_pos turn, miss]

private theorem landing_eq (name : String) {c : Cache LoadError Zone}
    {answer : Cache.Answer LoadError Zone} {result : Except LoadError Zone}
    (concluded : (w.catalog.zones.finish n result).conclude n = some (answer, c)) :
    (landing name result n w).1 = .answered ((answer.entry?.map .zone).getD .none) ∧
      (landing name result n w).2.catalog.zones = c := by
  have landed : ((w.setCache .zones ((w.cacheOf .zones).finish n result)).cacheOf
      .zones).conclude n = some (answer, c) := concluded
  rw [landing, World.continueFetch, World.concludeLookup, landed]
  exact ⟨rfl, rfl⟩

theorem Fetching.landing_error (f : Fetching w name n serial expiresAt copy) (cause : LoadError) :
    (landing name (.error cause) n w).1 = .answered ((copy.map .zone).getD .none) ∧
      (landing name (.error cause) n w).2.catalog.zones.entries = w.catalog.zones.entries := by
  obtain ⟨⟨lifetime, es, run⟩, l, hl, rfl, hp, rfl⟩ := f
  obtain ⟨c, concluded, kept⟩ := run.sound.conclude_finish hl hp (.error cause)
  obtain ⟨answered, cached⟩ := landing_eq l.key concluded
  have same : (w.catalog.zones.finish n (.error cause)).entries = w.catalog.zones.entries := by
    rw [Cache.finish_error hl hp, Cache.land_entries]
  refine ⟨answered.trans ?_, by rw [cached, kept, same]⟩
  simp only [Except.map, Cache.answerOf, same]
  cases l.cached.or (w.catalog.zones.entries.get? l.key) <;> rfl

theorem Fetching.landing_ok (f : Fetching w name n serial expiresAt copy) (z : Zone) :
    (landing name (.ok z) n w).1 = .answered (.zone ⟨serial, expiresAt, z⟩) ∧
      (landing name (.ok z) n w).2.catalog.zones.entries =
        w.catalog.zones.entries.insert name ⟨serial, expiresAt, z⟩ := by
  obtain ⟨⟨lifetime, es, run⟩, l, hl, rfl, hp, rfl⟩ := f
  obtain ⟨c, concluded, kept⟩ := run.sound.conclude_finish hl hp (.ok z)
  obtain ⟨answered, cached⟩ := landing_eq l.key concluded
  refine ⟨answered, ?_⟩
  rw [cached, kept, Cache.finish_ok hl hp, Cache.land_entries]

end Landing

/-- Who fetches the zone is given the copy there is, and nothing new is cached. -/
def KeepsCopy (name : String) (r : Except LoadError Zone) : Prop :=
  ∀ w n serial expiresAt copy, Fetching w name n serial expiresAt copy →
    (landing name r n w).1 = .answered ((copy.map .zone).getD .none) ∧
      (landing name r n w).2.catalog.zones.entries = w.catalog.zones.entries

/-- Who fetches the zone is given it, and it is cached in place of any copy there is. -/
def TakesPlace (name : String) (z : Zone) : Prop :=
  ∀ w n serial expiresAt copy, Fetching w name n serial expiresAt copy →
    (landing name (.ok z) n w).1 = .answered (.zone ⟨serial, expiresAt, z⟩) ∧
      (landing name (.ok z) n w).2.catalog.zones.entries =
        w.catalog.zones.entries.insert name ⟨serial, expiresAt, z⟩

/-- A load comes to a result whatever is answered to it. A failure of the store at the names or the
configuration is the failure of the load, and leaves any copy of the zone in place; the load fails
in this way for no other reason. A failure at a key makes a zone that should be signed an unsigned
one, which takes the place of any copy. Otherwise a zone that should be signed is unsigned only if
something is wrong with what is stored as its keys. -/
theorem load_under_failures (keys : StoreKeys) (name : String) (now : Seconds) :
    (∀ serve : (request : StoreRequest) → request.Result,
      ∃ h r, (load keys name now).run.Yields h r ∧
        ∀ request result, .answered request result ∈ h → result = serve request) ∧
    ∀ h r, (load keys name now).run.Yields h r →
      (∀ request cause, .answered request (.error cause) ∈ h → ¬ AsksKey keys name request →
        r = .error (.store cause) ∧ KeepsCopy name r) ∧
      (∀ request cause, .answered request (.error cause) ∈ h → AsksKey keys name request →
        ∃ z, r = .ok z ∧ z.ServedUnsigned h (.store cause) ∧ TakesPlace name z) ∧
      (∀ cause, r = .error (.store cause) →
        ∃ request, ¬ AsksKey keys name request ∧ .answered request (.error cause) ∈ h) ∧
      ∀ z, r = .ok z → z.config.dnssec = true → z.signing = none →
        (∃ request cause, AsksKey keys name request ∧ .answered request (.error cause) ∈ h) ∨
          Served h ∧ ∃ apex cause, DomainName.parse name.toList = .ok apex ∧
            ZoneSigning.Faulty h keys name cause ∧ z.ServedUnsigned h cause := by
  refine ⟨fun serve => Program.exists_yields serve _, fun h r run => ?_⟩
  have loading := load_inv run
  refine ⟨?_, ?_, fun cause => loading.of_store_error, fun z => loading.of_unsigned⟩
  · intro request cause mem other
    rcases loading.of_failed mem with ⟨-, rfl⟩ | ⟨asks, -⟩
    · exact ⟨rfl, fun w n serial expiresAt copy f => f.landing_error _⟩
    · exact absurd asks other
  · intro request cause mem asks
    rcases loading.of_failed mem with ⟨other, -⟩ | ⟨-, z, rfl, unsigned⟩
    · exact absurd asks other
    · exact ⟨z, rfl, unsigned, fun w n serial expiresAt copy f => f.landing_ok z⟩

namespace CutOff

/-! A zone that is signed in the cache, with a copy that is not current any more, and in the store.
The store goes offline after the configuration of the zone was read. -/

open ZoneSigning.Sample (text loaded)

def copy : Entry Zone :=
  ⟨0, 1700000060, made "example.com." 1700000000 [] { dnssec := true } (some loaded)⟩

def start : World where
  clock := 1700000061
  store := { memory := {} }
  catalog := {
    keys := {}
    reloadEvery := 0
    zones :=
      { lifetime := 60, entries := SortedMap.empty.insert "example.com." copy, nextFetch := 1 }
    locations := { lifetime := 60 } }

def session : List NumberedAnswer × World :=
  start.takes [
    .single (.set "kvdns:example.com.:config" "\x7b\"dnssec\":true\x7d"),
    .single (.set "kvdns:example.com.:zsk:pub" (text .zsk .published)),
    .single (.set "kvdns:example.com.:zsk:priv" (text .zsk .secret)),
    .single (.set "kvdns:example.com.:ksk:pub" (text .ksk .published)),
    .single (.set "kvdns:example.com.:ksk:priv" (text .ksk .secret)),
    .single (.setLatency 100),
    .parallel
      [{ step := .getZone "example.com." }, { step := .setOffline true, startAfter := 250 }]]

/-- Whether a zone that is answered should be signed, and whether it is. -/
def zoneAnswered : NumberedAnswer → Option (Bool × Bool)
  | ⟨.zone entry, _⟩ => some (entry.value.config.dnssec, entry.value.isSigned)
  | _ => none

def causeOf : Notice → Option DnssecError
  | .servedUnsigned _ cause => some cause
  | _ => none

/-- The zone is answered unsigned, as the store was offline, and the signed copy is lost. -/
theorem signed_copy_lost :
    session.1.filterMap zoneAnswered = [(true, false)] ∧
      session.2.notices.filterMap causeOf = [.store (.unavailable "in-memory store is offline")] ∧
      (start.catalog.zones.entries.get? "example.com.").map (·.value.isSigned) = some true ∧
      (session.2.catalog.zones.entries.get? "example.com.").map (·.value.isSigned) =
        some false := by
  decide +kernel

end CutOff
end Zone
end ZoneCatalog
