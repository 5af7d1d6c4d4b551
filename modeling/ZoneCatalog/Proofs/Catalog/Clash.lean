import ZoneCatalog.Proofs.Catalog.Entries
import ZoneCatalog.Proofs.Catalog.Session

/-! Which locations can be taken for one another. The key of a location is its label and its zone
in one text, and a label may have dots in it, so a location of a zone can share its key with one of
a zone above. -/
namespace ZoneCatalog

/-- A label in a zone and a longer label in a zone above it come to the same name. -/
def Clash (label zone label' zone' : String) : Prop :=
  ∃ middle, label' = label ++ "." ++ middle ∧ zone = middle ++ "." ++ zone'

private theorem same_or_clash {label zone label' zone' : String} {cs : List Char}
    (labels : label'.toList = label.toList ++ cs)
    (zones : '.' :: zone.toList = cs ++ '.' :: zone'.toList) :
    label = label' ∧ zone = zone' ∨ Clash label zone label' zone' := by
  cases cs with
  | nil =>
    have same_label : label'.toList = label.toList := by simpa using labels
    have same_zone : zone.toList = zone'.toList := by simpa using zones
    exact .inl ⟨String.toList_inj.1 same_label.symm, String.toList_inj.1 same_zone⟩
  | cons c cs =>
    obtain ⟨rfl, rest⟩ : '.' = c ∧ zone.toList = cs ++ '.' :: zone'.toList := by simpa using zones
    refine .inr ⟨.ofList cs, String.toList_inj.1 ?_, String.toList_inj.1 ?_⟩
    · simpa using labels
    · simpa using rest

/-- Locations share a key if they are the same or clash. -/
theorem locationKey_eq_iff {label zone label' zone' : String} :
    Catalog.locationKey label zone = Catalog.locationKey label' zone' ↔
      label = label' ∧ zone = zone' ∨ Clash label zone label' zone' ∨
        Clash label' zone' label zone := by
  constructor
  · intro same
    have chars : label.toList ++ '.' :: zone.toList = label'.toList ++ '.' :: zone'.toList := by
      simpa [Catalog.locationKey] using congrArg String.toList same
    rcases List.append_eq_append_iff.1 chars with ⟨cs, labels, zones⟩ | ⟨cs, labels, zones⟩
    · exact (same_or_clash labels zones).imp_right .inl
    · rcases same_or_clash labels zones with ⟨rfl, rfl⟩ | clash
      · exact .inl ⟨rfl, rfl⟩
      · exact .inr (.inr clash)
  · rintro (⟨rfl, rfl⟩ | ⟨middle, rfl, rfl⟩ | ⟨middle, rfl, rfl⟩)
    · rfl
    · simp [Catalog.locationKey, String.append_assoc]
    · simp [Catalog.locationKey, String.append_assoc]

example : Catalog.locationKey "www" "sub.example.com." =
    Catalog.locationKey "www.sub" "example.com." := rfl

theorem Clash.zones_ne {label zone label' zone' : String} (clash : Clash label zone label' zone') :
    zone ≠ zone' := by
  obtain ⟨middle, -, rfl⟩ := clash
  intro same
  have sizes := congrArg String.length same
  simp at sizes

/-! A run in which a location is taken for another. -/

namespace World

variable {w : World} {label zone : String}

theorem Prompt.run_load (prompt : w.Prompt) (keys : StoreKeys) (label zone : String) :
    (w.run (Location.load keys label zone).run).1 = .finished (Location.ofStored keys label zone
      (w.store.memory.content.field? (keys.zone zone) label)) := by
  rw [Location.load_run]
  refine prompt.run_of_yields (.ask (.ok _) (.done _)) fun e mem => ?_
  cases List.mem_singleton.1 mem
  exact ⟨_, rfl, rfl⟩

/-- The first lookup of all is answered with what is stored, or with nothing if that is no
location. -/
theorem firstLocation_of_empty {lifetime : UInt64} {result : Except LoadError Location}
    {found : Option (Entry Location)} (prompt : w.Prompt)
    (empty : w.cacheOf .locations = { lifetime })
    (stored : Location.ofStored w.catalog.keys label zone
      (w.store.memory.content.field? (w.catalog.keys.zone zone) label) = result)
    (brings : Cache.Answer.entry? (.first (w.tick.tick.clock.later lifetime) result) = found) :
    ∃ v, w.beginLookup .locations .location (w.catalog.fetchLocation label zone)
        (Catalog.locationKey label zone) = (.answered ((found.map .location).getD .none), v) ∧
      (v.cacheOf .locations).entries.get? (Catalog.locationKey label zone) = found ∧
        v.clock = w.tick.tick.tick.clock ∧ v.millis = w.millis ∧ v.shownZones = w.shownZones := by
  subst stored
  have ran (catalog : Catalog) :
      (({ w.tick.tick.tick with catalog } : World).run
        (w.catalog.fetchLocation label zone).run).1 =
          .finished (Location.ofStored w.catalog.keys label zone
            (w.store.memory.content.field? (w.catalog.keys.zone zone) label)) :=
    Prompt.run_load (w := { w.tick.tick.tick with catalog })
      ⟨prompt.works, prompt.online, prompt.latency⟩ ..
  obtain ⟨catalog, store, notices, begins, cached⟩ :=
    beginLookup_of_empty (fun _ _ => rfl) .location (Catalog.locationKey label zone) empty ran
      brings
  exact ⟨_, begins, cached, rfl, rfl, rfl⟩

end World

theorem Call.move_of_beginLookup {c : Call} {w v : World} {location zone : String}
    {number due : Nat} {answer : Answer} (asks : c.step = .getLocation location number)
    (hs : c.state = .delayed due) (hd : due ≤ w.millis)
    (hz : (w.shownZones[number]?).map (·.value.name) = some zone)
    (h : w.beginLookup .locations .location
      (w.catalog.fetchLocation (relativeLabel location zone) zone)
      (Catalog.locationKey (relativeLabel location zone) zone) = (.answered answer, v)) :
    c.asked? w = some (location, zone) ∧
      ∃ cancelAt, c.move w = ({ c with cancelAt, state := .over answer }, v) := by
  obtain ⟨shown, hn, rfl⟩ := Option.map_eq_some_iff.1 hz
  constructor
  · simp [asked?, asks, hs, hn]
  · simp only [move, isReady, hs, decide_eq_true hd, if_true, asks, World.begin, World.withZone, hn,
      h, World.locationStanding, settle]
    exact ⟨_, rfl⟩

namespace Scene

def shownZone (name : String) : Entry Zone :=
  ⟨0, 0, ⟨name, [], {}, SoaConfig.resolve {} name 0, none⟩⟩

/-- A world that has answered two zones, and in which a location of the second is stored. -/
def stage (zone zone' label : String) : World where
  clock := 0
  store := { memory :=
    { content := ({} : Content).setField (({} : StoreKeys).zone zone') label "\x7b\x7d" } }
  catalog :=
    { keys := {}, reloadEvery := 0, zones := { lifetime := 0 }, locations := { lifetime := 0 } }
  shownZones := [shownZone zone, shownZone zone']

theorem stored_of_stage (zone zone' label : String) :
    Location.ofStored (stage zone zone' label).catalog.keys label zone'
      ((stage zone zone' label).store.memory.content.field?
        ((stage zone zone' label).catalog.keys.zone zone') label) =
      .ok ⟨ownerName label zone', {}⟩ := by
  have held : (stage zone zone' label).store.memory.content.field?
      ((stage zone zone' label).catalog.keys.zone zone') label = some "\x7b\x7d" := by
    simp [stage, Content.field?, Content.setField, Content.hash, SortedMap.get?_insert]
  rw [held]
  rfl

/-- Two locations that share a key in different zones can be taken for one another: whoever asks for
the first right after the second is given the second. -/
theorem exists_mistaken {location zone location' zone' : String} (apart : zone ≠ zone')
    (same : Catalog.locationKey (relativeLabel location zone) zone =
      Catalog.locationKey (relativeLabel location' zone') zone') :
    ∃ s h s' entry, s.Fresh ∧ Steps SceneStep s h s' ∧
      (∀ l z, Asked h l z → l = location ∧ z = zone ∨ l = location' ∧ z = zone') ∧
      Returned h location zone entry ∧
      ¬ ReadFor h (relativeLabel location zone) zone entry.serial entry.value := by
  let w := stage zone zone' (relativeLabel location' zone')
  let c := Call.ofStep w.millis { step := .getLocation location 0 }
  let c' := Call.ofStep w.millis { step := .getLocation location' 1 }
  have prompt : w.Prompt := ⟨rfl, rfl, rfl⟩
  let entry : Entry Location :=
    ⟨0, w.tick.tick.clock.later 0, ⟨ownerName (relativeLabel location' zone') zone', {}⟩⟩
  obtain ⟨v, begun', cached, clock, millis, shown⟩ :=
    World.firstLocation_of_empty prompt rfl
      (stored_of_stage zone zone' (relativeLabel location' zone')) rfl
  have current : (v.cacheOf .locations).current?
      (Catalog.locationKey (relativeLabel location' zone') zone') v.clock = some entry := by
    rw [Cache.current?, cached, clock, World.tick_eq_self (w := w.tick.tick) rfl]
    exact Option.filter_some_pos (decide_eq_true (w.tick.tick.clock.le_later 0))
  obtain ⟨asks', x', moved'⟩ :=
    Call.move_of_beginLookup (c := c') rfl rfl (Nat.le_refl _) rfl begun'
  rw [← same] at current
  obtain ⟨cache, begun⟩ := World.beginLookup_of_current .location _ current
  have hz : (v.shownZones[0]?).map (·.value.name) = some zone := by
    rw [shown]
    rfl
  obtain ⟨asks, x, moved⟩ :=
    Call.move_of_beginLookup (c := c) rfl rfl (Nat.le_of_eq millis.symm) hz begun
  have steps : Steps SceneStep ⟨w, []⟩ [.beside, .moved c' w, .moved c v]
      ⟨v.setCache .locations cache, [(c'.move w).1, (c.move v).1]⟩ := by
    have start : SceneStep ⟨w, []⟩ .beside ⟨w, [c', c]⟩ :=
      .called fun d hd => .inr (by
        simp only [List.mem_cons, List.not_mem_nil, or_false] at hd
        rcases hd with rfl | rfl <;> exact ⟨_, rfl⟩)
    have second := SceneStep.moved w [] c' [c]
    have first := SceneStep.moved v [(c'.move w).1] c []
    rw [show (c'.move w).2 = v by rw [moved']] at second
    rw [show (c.move v).2 = v.setCache .locations cache by rw [moved]] at first
    exact ((Steps.single start).snoc second).snoc first
  refine ⟨⟨w, []⟩, _, _, entry, ⟨⟨0, rfl⟩, rfl⟩, steps, ?_, ?_, ?_⟩
  · rintro l z ⟨d, t, mem, asked⟩
    simp only [List.mem_cons, Sight.moved.injEq, List.not_mem_nil, or_false, reduceCtorEq,
      false_or] at mem
    rcases mem with ⟨rfl, rfl⟩ | ⟨rfl, rfl⟩
    · cases asks'.symm.trans asked
      exact .inr ⟨rfl, rfl⟩
    · cases asks.symm.trans asked
      exact .inl ⟨rfl, rfl⟩
  · exact ⟨c, v, by simp, asks, by rw [moved]⟩
  · rintro ⟨d, t, l, mem, asked, -, -, read, -⟩
    simp only [List.mem_cons, Sight.moved.injEq, List.not_mem_nil, or_false, reduceCtorEq,
      false_or] at mem
    rcases mem with ⟨rfl, rfl⟩ | ⟨rfl, rfl⟩
    · cases asks'.symm.trans asked
      exact apart rfl
    · rw [moved] at read
      exact absurd read (Nat.ne_of_lt (Nat.lt_succ_self _))

/-- Whatever is returned for a location was read for it, or for one that clashes with it. -/
theorem Returned.own_or_clash {s s' : Scene} {h : List Sight} {location zone : String}
    {entry : Entry Location} (fresh : s.Fresh) (run : Steps SceneStep s h s')
    (returned : Returned h location zone entry) : ∃ label' zone',
      ReadFor h label' zone' entry.serial entry.value ∧
        (label' = relativeLabel location zone ∧ zone' = zone ∨
          Clash label' zone' (relativeLabel location zone) zone ∨
            Clash (relativeLabel location zone) zone label' zone') := by
  obtain ⟨label', zone', same, read⟩ := returned.read_for fresh run
  exact ⟨label', zone', read, locationKey_eq_iff.1 same⟩

/-- All that was returned for a location was read for it, and has its name. -/
def Own (h : List Sight) : Prop := ∀ location zone entry, Returned h location zone entry →
  ReadFor h (relativeLabel location zone) zone entry.serial entry.value ∧
    entry.value.name = ownerName (relativeLabel location zone) zone

/-- In every run of a catalog, whatever is returned for a location was read for this location, or
for one that clashes with it, and has the name of what it was read for. So everybody is given what
was asked for if and only if no two locations clash of those that are asked for. -/
theorem returned_own_unless_clash (asked : String → String → Prop) :
    (∀ s h s', s.Fresh → Steps SceneStep s h s' → ∀ location zone entry,
      Returned h location zone entry → ∃ label' zone',
        ReadFor h label' zone' entry.serial entry.value ∧
          entry.value.name = ownerName label' zone' ∧
          (label' = relativeLabel location zone ∧ zone' = zone ∨
            Clash label' zone' (relativeLabel location zone) zone ∨
              Clash (relativeLabel location zone) zone label' zone')) ∧
    ((∀ s h s', s.Fresh → Steps SceneStep s h s' →
        (∀ location zone, Asked h location zone → asked location zone) → Own h) ↔
      ∀ location zone location' zone', asked location zone → asked location' zone' →
        ¬ Clash (relativeLabel location zone) zone (relativeLabel location' zone') zone') := by
  refine ⟨?_, ?_, ?_⟩
  · intro s h s' fresh run location zone entry returned
    obtain ⟨label', zone', read, which⟩ := returned.own_or_clash fresh run
    exact ⟨label', zone', read, read.name_eq, which⟩
  · intro own location zone location' zone' ask ask' clash
    obtain ⟨s, h, s', entry, fresh, run, only, returned, not_read⟩ :=
      exists_mistaken clash.zones_ne (locationKey_eq_iff.2 (.inr (.inl clash)))
    have within : ∀ l z, Asked h l z → asked l z := by
      intro l z hlz
      rcases only l z hlz with ⟨rfl, rfl⟩ | ⟨rfl, rfl⟩
      · exact ask
      · exact ask'
    exact not_read (own s h s' fresh run within location zone entry returned).1
  · intro apart s h s' fresh run within location zone entry returned
    obtain ⟨label', zone', read, which⟩ := returned.own_or_clash fresh run
    obtain ⟨location', asked', rfl⟩ := read.asked
    have ask := within location zone returned.asked
    have ask' := within location' zone' asked'
    rcases which with ⟨same, rfl⟩ | clash | clash
    · rw [same] at read
      exact ⟨read, read.name_eq⟩
    · exact absurd clash (apart _ _ _ _ ask' ask)
    · exact absurd clash (apart _ _ _ _ ask ask')

/-- The name of the location that is answered, and the number of the answer. -/
def locationAnswered : NumberedAnswer → Option (String × Option Nat)
  | ⟨.location entry, number⟩ => some (entry.value.name, number)
  | _ => none

/-- A session about two zones, one below the other, in which one location is stored. -/
def nestedZones : List NumberedAnswer × World :=
  World.takes
    { clock := 0
      store := { memory := {} }
      catalog :=
        { keys := {}, reloadEvery := 0, zones := { lifetime := 60 },
          locations := { lifetime := 60 } } }
    (List.map .single [
      .set "kvdns:example.com.:config" "\x7b\x7d",
      .set "kvdns:sub.example.com.:config" "\x7b\x7d",
      .putField "kvdns:sub.example.com." "www" "\x7b\x7d",
      .getZone "example.com.",
      .getZone "sub.example.com.",
      .getLocation "www" 1,
      .getLocation "www.sub" 0])

/-- After `www` was returned in `sub.example.com.` it is returned for `www.sub` in `example.com.` as
well, though nothing is stored there. -/
theorem www_sub_returned_for_www :
    nestedZones.1.filterMap locationAnswered =
        [("www.sub.example.com.", some 0), ("www.sub.example.com.", some 0)] ∧
      nestedZones.2.store.memory.content.field? "kvdns:example.com." "www.sub" = none := by
  decide +kernel

end Scene

end ZoneCatalog
