import ZoneCatalog.Proofs.Catalog.Clash
import ZoneCatalog.Proofs.Name.Caseless

/-! Names that are asked for with the letters in another case. The zone of a name is found whatever
the case, but of a location only the part that names its zone may be in another case than it is
stored in. -/
namespace ZoneCatalog

variable {q q' : String}

/-- Two texts that differ in the case of letters alone. -/
def Alike (q q' : String) : Prop := Text.fold q.toList = Text.fold q'.toList

instance (q q' : String) : Decidable (Alike q q') :=
  inferInstanceAs (Decidable (Text.fold q.toList = Text.fold q'.toList))

theorem ZoneIndex.find_of_alike (index : ZoneIndex) (alike : Alike q q') :
    index.find q = index.find q' := by
  cases hq : DomainName.parse q.toList with
  | ok name =>
    obtain ⟨name', hq', folded⟩ := DomainName.parse_alike alike hq
    have path : name.path = name'.path := congrArg List.reverse folded
    simp only [find, hq, hq', findName, path]
  | error cause =>
    cases hq' : DomainName.parse q'.toList with
    | ok name' =>
      obtain ⟨name, named, -⟩ := DomainName.parse_alike alike.symm hq'
      rw [hq] at named
      cases named
    | error cause' => simp only [find, hq, hq']

/-! The label of a location. -/

private theorem fold_trimDots (cs : List Char) :
    Text.fold (trimDots cs) = trimDots (Text.fold cs) := by
  have dot : (fun c => decide (c = '.')) ∘ Char.toLower = fun c => decide (c = '.') := by
    funext c
    exact decide_eq_decide.2 (Text.eq_iff_of_toLower rfl (Text.toLower_toLower c))
  simp only [Text.fold, trimDots, ← List.map_reverse, List.dropWhile_map, dot]

private theorem sameFolded_congr {cs ds zs : List Char} (h : Text.fold cs = Text.fold ds) :
    Text.sameFolded cs zs = Text.sameFolded ds zs := by
  simp only [Text.sameFolded, h]

private theorem eq_apexLabel_congr {cs ds : List Char} (h : Text.fold cs = Text.fold ds) :
    cs = apexLabel.toList ↔ ds = apexLabel.toList := by
  have one : ∀ {cs ds : List Char}, Text.fold cs = Text.fold ds → cs = ['@'] → ds = ['@'] := by
    rintro _ ds h rfl
    obtain ⟨d, rest, rfl, mark, nothing⟩ := List.map_eq_cons_iff.1 h.symm
    obtain rfl : d = '@' := (Text.eq_iff_of_toLower rfl mark).2 rfl
    obtain rfl := List.map_eq_nil_iff.1 nothing
    rfl
  exact ⟨one h, one h.symm⟩

/-- Locations that are alike have labels that are alike. -/
theorem relativeLabel_alike (zone : String) (alike : Alike q q') :
    Alike (relativeLabel q zone) (relativeLabel q' zone) := by
  have trimmed : Text.fold (trimDots q.toList) = Text.fold (trimDots q'.toList) := by
    rw [fold_trimDots, fold_trimDots, alike]
  generalize hl : trimDots q.toList = l at trimmed
  generalize hl' : trimDots q'.toList = l' at trimmed
  generalize hz : trimDots zone.toList = z
  have sizes : l.length = l'.length := by simpa [Text.fold] using congrArg List.length trimmed
  have apex : (l = [] ∨ l = apexLabel.toList ∨ Text.sameFolded l z = true) ↔
      (l' = [] ∨ l' = apexLabel.toList ∨ Text.sameFolded l' z = true) := by
    refine or_congr ?_ (or_congr (eq_apexLabel_congr trimmed) (by rw [sameFolded_congr trimmed]))
    rw [← List.length_eq_zero_iff, sizes, List.length_eq_zero_iff]
  have ending : ∀ n,
      Text.sameFolded (l.drop n) ('.' :: z) = Text.sameFolded (l'.drop n) ('.' :: z) := by
    intro n
    refine sameFolded_congr ?_
    rw [Text.fold, Text.fold, List.map_drop, List.map_drop]
    exact congrArg (List.drop n) trimmed
  simp only [relativeLabel, hl, hl', hz, apex, sizes, ending]
  split
  · rfl
  · split
    · simp only [Alike, String.toList_ofList, Text.fold, List.map_take]
      exact congrArg (List.take _) trimmed
    · simpa only [Alike, String.toList_ofList] using trimmed

theorem Alike.apexLabel_iff (alike : Alike q q') : q = apexLabel ↔ q' = apexLabel := by
  rw [← String.toList_inj, ← String.toList_inj, eq_apexLabel_congr alike]

/-! What is found by somebody who asks for a location. -/

namespace World

variable {w : World} {zone : String} {number : Nat}

/-- Nothing is cached of any location, the zone with a number is known, and the store answers at
once. -/
structure Bare (w : World) (zone : String) (number : Nat) : Prop where
  prompt : w.Prompt
  empty : ∃ lifetime, w.cacheOf .locations = { lifetime }
  shown : (w.shownZones[number]?).map (·.value.name) = some zone

/-- The record sets that are answered to a request for a location, or that there are none. -/
def Finds (w : World) (location : String) (number : Nat) : Option RecordSets → Prop
  | some records => ∃ entry v, w.begin (.getLocation location number) =
      (.answered (.location entry), v) ∧ entry.value.records = records
  | none => ∃ v, w.begin (.getLocation location number) = (.answered .none, v)

theorem Finds.unique {location : String} {found found' : Option RecordSets}
    (h : w.Finds location number found) (h' : w.Finds location number found') : found = found' := by
  cases found with
  | none =>
    obtain ⟨v, h⟩ := h
    cases found' with
    | none => rfl
    | some records =>
      obtain ⟨entry, v', h', -⟩ := h'
      cases h.symm.trans h'
  | some records =>
    obtain ⟨entry, v, h, rfl⟩ := h
    cases found' with
    | none =>
      obtain ⟨v', h'⟩ := h'
      cases h.symm.trans h'
    | some records =>
      obtain ⟨entry', v', h', rfl⟩ := h'
      cases h.symm.trans h'
      rfl

theorem begin_getLocation (shown : (w.shownZones[number]?).map (·.value.name) = some zone)
    (location : String) : w.begin (.getLocation location number) =
      locationStanding (relativeLabel location zone) zone (w.beginLookup .locations .location
        (w.catalog.fetchLocation (relativeLabel location zone) zone)
        (Catalog.locationKey (relativeLabel location zone) zone)) := by
  obtain ⟨entry, hn, rfl⟩ := Option.map_eq_some_iff.1 shown
  simp only [begin, withZone, hn]

/-- The location is found that is stored under its label. -/
theorem Bare.finds (bare : w.Bare zone number) (location : String) : w.Finds location number
    ((Location.ofStored w.catalog.keys (relativeLabel location zone) zone
      (w.store.memory.content.field? (w.catalog.keys.zone zone)
        (relativeLabel location zone))).toOption.map (·.records)) := by
  obtain ⟨lifetime, empty⟩ := bare.empty
  generalize stored : Location.ofStored w.catalog.keys (relativeLabel location zone) zone
    (w.store.memory.content.field? (w.catalog.keys.zone zone)
      (relativeLabel location zone)) = result
  obtain ⟨v, begun, -⟩ := firstLocation_of_empty bare.prompt empty stored rfl
  have begins := (begin_getLocation bare.shown location).trans (congrArg _ begun)
  cases result with
  | ok value => exact ⟨_, v, begins, rfl⟩
  | error cause => exact ⟨v, begins⟩

end World

/-- There is a catalog that finds nothing but what is stored under a label in a zone. -/
theorem exists_bare (label zone : String) : ∃ w : World, w.Bare zone 0 ∧
    ∀ location, (relativeLabel location zone = label → w.Finds location 0 (some {})) ∧
      (relativeLabel location zone ≠ label → relativeLabel location zone ≠ apexLabel →
        w.Finds location 0 none) := by
  have bare : (Scene.stage zone zone label).Bare zone 0 := ⟨⟨rfl, rfl, rfl⟩, ⟨0, rfl⟩, rfl⟩
  refine ⟨_, bare, fun location => ⟨?_, fun other apart => ?_⟩⟩
  · rintro rfl
    have found := bare.finds location
    rwa [Scene.stored_of_stage] at found
  · have found := bare.finds location
    have missing : (Scene.stage zone zone label).store.memory.content.field?
        ((Scene.stage zone zone label).catalog.keys.zone zone) (relativeLabel location zone) =
          none := by
      simp [Scene.stage, Content.field?, Content.setField, Content.hash, SortedMap.get?_insert,
        other]
    rw [missing] at found
    simpa [Location.ofStored, apart, Except.toOption] using found

/-- Whatever the case of letters, a name is found in the same zone. A location is found alike in all
contents of the store if and only if its label is in the same case too, and then its lookups are the
same in every world. -/
theorem resolution_of_alike (zone : String) (alike : Alike q q') :
    (∀ c : Catalog, c.findZone q = c.findZone q') ∧
    Alike (relativeLabel q zone) (relativeLabel q' zone) ∧
    (relativeLabel q zone = relativeLabel q' zone → ∀ (w : World) (number : Nat),
      (w.shownZones[number]?).map (·.value.name) = some zone →
        w.begin (.getLocation q number) = w.begin (.getLocation q' number)) ∧
    ((∀ (w : World) (number : Nat), w.Bare zone number →
        ∃ found, w.Finds q number found ∧ w.Finds q' number found) ↔
      relativeLabel q zone = relativeLabel q' zone) := by
  have labels := relativeLabel_alike zone alike
  refine ⟨fun c => c.index.find_of_alike alike, labels, ?_, ?_, ?_⟩
  · intro same w number shown
    rw [World.begin_getLocation shown, World.begin_getLocation shown, same]
  · intro agree
    by_contra other
    have apart : relativeLabel q' zone ≠ apexLabel := fun apex =>
      other ((labels.apexLabel_iff.2 apex).trans apex.symm)
    obtain ⟨w, bare, stored⟩ := exists_bare (relativeLabel q zone) zone
    obtain ⟨found, finds, finds'⟩ := agree w 0 bare
    have here := finds.unique ((stored q).1 rfl)
    have there := finds'.unique ((stored q').2 (Ne.symm other) apart)
    cases here.symm.trans there
  · intro same w number bare
    refine ⟨_, bare.finds q, ?_⟩
    rw [same]
    exact bare.finds q'

theorem resolution_of_alike_zone_part : Alike "www.EXAMPLE.com." "www.example.com." ∧
    (∀ c : Catalog, c.findZone "www.EXAMPLE.com." = c.findZone "www.example.com.") ∧
      ∀ (w : World) (number : Nat), w.Bare "example.com." number → ∃ found,
        w.Finds "www.EXAMPLE.com." number found ∧ w.Finds "www.example.com." number found := by
  have alike : Alike "www.EXAMPLE.com." "www.example.com." := by decide +kernel
  have agree := resolution_of_alike "example.com." alike
  exact ⟨alike, agree.1, agree.2.2.2.2 (by decide +kernel)⟩

/-- A location that is stored in small letters is not found in capitals. -/
theorem www_not_found_in_capitals : Alike "WWW" "www" ∧ ∃ w : World,
    w.Bare "example.com." 0 ∧ w.Finds "www" 0 (some {}) ∧ w.Finds "WWW" 0 none := by
  obtain ⟨w, bare, stored⟩ := exists_bare "www" "example.com."
  exact ⟨by decide +kernel, w, bare, (stored "www").1 (by decide +kernel),
    (stored "WWW").2 (by decide +kernel) (by decide +kernel)⟩

end ZoneCatalog
