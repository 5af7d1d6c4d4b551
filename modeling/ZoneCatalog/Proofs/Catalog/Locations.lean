import ZoneCatalog.Proofs.Cache.Answers
import ZoneCatalog.Proofs.Catalog.Aside

/-! Lookups of locations, one move at a time. A move that brings a value reads one field of one hash
and makes the value of it; no other move of a lookup changes what is cached. -/
namespace ZoneCatalog

open Cache (Event)

namespace Location

variable (keys : StoreKeys) (label zone : String)

/-- The location that is loaded once the store has answered. -/
def loaded : Except StoreError (Option String) → Except LoadError Location
  | .ok stored => ofStored keys label zone stored
  | .error cause => .error (.store cause)

/-- Loading a location asks for its field and for nothing else. -/
theorem load_run : (load keys label zone).run =
    .ask (.field (keys.zone zone) label) fun result => .done (loaded keys label zone result) := by
  refine congrArg (Program.ask _) (funext fun result => ?_)
  cases result <;> rfl

theorem name_of_ofStored {stored : Option String} {value : Location}
    (h : ofStored keys label zone stored = .ok value) : value.name = ownerName label zone := by
  rw [ofStored] at h
  grind

end Location

namespace World

/-- The field of a location is read, and an entry is made of what it holds at that moment. -/
structure Reads (w : World) (label zone : String) (serial : Nat) (value : Location)
    (w' : World) : Prop where
  made : Location.ofStored w.catalog.keys label zone
    (w.store.memory.content.field? (w.catalog.keys.zone zone) label) = .ok value
  read : w'.store.memory.reads = w.store.memory.reads + 1
  cached : ∃ expiresAt, w'.catalog.locations.entries.get? (Catalog.locationKey label zone) =
    some ⟨serial, expiresAt, value⟩

variable {w v u : World} {label zone : String} {es es' : List (Event LoadError Location)}

/-- Moves of the cache of locations that bring no value. -/
structure Rests (w : World) (es : List (Event LoadError Location)) (w' : World) : Prop where
  store : w'.store = w.store
  keys : w'.catalog.keys = w.catalog.keys
  moves : Steps Cache.Step w.catalog.locations es w'.catalog.locations
  bare : ∀ n k s value, .fetched n k s (.ok value) ∉ es

/-- Moves of the cache of locations for the sake of one location. A value that they bring is read
from the store. -/
structure Looks (w : World) (label zone : String) (es : List (Event LoadError Location))
    (w' : World) : Prop where
  keys : w'.catalog.keys = w.catalog.keys
  moves : Steps Cache.Step w.catalog.locations es w'.catalog.locations
  brought : ∀ n k s value, .fetched n k s (.ok value) ∈ es →
    k = Catalog.locationKey label zone ∧ w.Reads label zone s value w'

theorem Rests.refl (w : World) : w.Rests [] w := ⟨rfl, rfl, .refl, by simp⟩

theorem Rests.looks (rests : w.Rests es v) : w.Looks label zone es v :=
  ⟨rests.keys, rests.moves, fun n k s value h => absurd h (rests.bare n k s value)⟩

theorem Looks.before (rests : w.Rests es v) (looks : v.Looks label zone es' u) :
    w.Looks label zone (es ++ es') u where
  keys := looks.keys.trans rests.keys
  moves := rests.moves.trans looks.moves
  brought n k s value h := by
    rcases List.mem_append.1 h with early | late
    · exact absurd early (rests.bare n k s value)
    · obtain ⟨hk, made, read, cached⟩ := looks.brought n k s value late
      rw [rests.keys, rests.store] at made
      rw [rests.store] at read
      exact ⟨hk, made, read, cached⟩

theorem Looks.after (looks : w.Looks label zone es v) (rests : v.Rests es' u) :
    w.Looks label zone (es ++ es') u where
  keys := rests.keys.trans looks.keys
  moves := looks.moves.trans rests.moves
  brought n k s value h := by
    rcases List.mem_append.1 h with early | late
    · obtain ⟨hk, made, read, cached⟩ := looks.brought n k s value early
      refine ⟨hk, made, rests.store ▸ read, ?_⟩
      rwa [Cache.Steps.entries_same rests.moves rests.bare]
    · exact absurd late (rests.bare n k s value)

/-! Lookups. -/

/-- A lookup waits for a location, and for nothing but its field if it waits for the store. -/
structure Awaits (w : World) (lookup : Nat) (label zone : String)
    (fetch : Option (Suspended (Except LoadError Location))) : Prop where
  begun : lookup < w.catalog.locations.nextLookup
  key : ∀ l, w.catalog.locations.lookups.get? lookup = some l →
    l.key = Catalog.locationKey label zone
  request : ∀ work, fetch = some work → ∃ pending, work = ⟨.field (w.catalog.keys.zone zone) label,
    pending, fun result => .done (Location.loaded w.catalog.keys label zone result)⟩

/-- What is to be said of where a lookup stands after some moves of the cache. -/
def Stands (w : World) (label zone : String) (es : List (Event LoadError Location)) :
    LookupStanding Location → Prop
  | .answered answer => ∀ entry, answer = .location entry →
    Cache.Returned es (Catalog.locationKey label zone) entry
  | .waiting lookup fetch => w.Awaits lookup label zone fetch

/-- A lookup of a location has moved. -/
def Looked (w : World) (label zone : String) (r : LookupStanding Location × World) : Prop :=
  ∃ es, w.Looks label zone es r.2 ∧ r.2.Stands label zone es r.1

theorem Awaits.kept {lookup : Nat} {fetch : Option (Suspended (Except LoadError Location))}
    (awaits : w.Awaits lookup label zone fetch) (keys : v.catalog.keys = w.catalog.keys)
    (moves : Steps Cache.Step w.catalog.locations es v.catalog.locations) :
    v.Awaits lookup label zone fetch where
  begun := Nat.lt_of_lt_of_le awaits.begun (Cache.Steps.numbers moves).1
  key l' hl' := by
    obtain ⟨l, hl, same, _⟩ := Cache.Steps.lookup_same moves hl' awaits.begun
    exact same.trans (awaits.key l hl)
  request := by
    rw [keys]
    exact awaits.request

theorem Stands.append {standing : LookupStanding Location}
    (stands : w.Stands label zone es' standing) (es : List (Event LoadError Location)) :
    w.Stands label zone (es ++ es') standing := by
  cases standing with
  | answered answer =>
    intro entry he
    obtain ⟨e, mem, returned⟩ := stands entry he
    exact ⟨e, List.mem_append_right es mem, returned⟩
  | waiting lookup fetch => exact stands

theorem Looked.before {r : LookupStanding Location × World} (rests : w.Rests es v)
    (looked : v.Looked label zone r) : w.Looked label zone r := by
  obtain ⟨es', looks, stands⟩ := looked
  exact ⟨es ++ es', looks.before rests, stands.append es⟩

section Lookups

variable {lookup : Nat}

theorem concludeLookup_rests {standing : LookupStanding Location}
    (awaits : w.Awaits lookup label zone none)
    (h : w.concludeLookup .locations .location lookup (Catalog.locationKey label zone) =
      (standing, v)) : ∃ es, w.Rests es v ∧ v.Stands label zone es standing := by
  rw [concludeLookup] at h
  split at h
  · rename_i answer cache concluded
    cases h
    cases hl : w.catalog.locations.lookups.get? lookup with
    | none => simp [Cache.conclude, cacheOf, CacheOf.locations, hl] at concluded
    | some l =>
      have move : Cache.Step w.catalog.locations (.answered lookup l.key answer) cache :=
        .answered hl concluded
      refine ⟨[.answered lookup l.key answer], ⟨rfl, rfl, .single move, by simp⟩, ?_⟩
      intro entry he
      refine ⟨_, List.mem_singleton_self _, awaits.key l hl, ?_⟩
      cases answer with
      | failed cause => cases he
      | found e | stale e _ =>
        cases he
        rfl
  · cases h
    exact ⟨[], .refl w, awaits⟩

/-- After any moves of its own a lookup concludes if it can. -/
theorem Looked.conclude (looks : w.Looks label zone es v)
    (awaits : v.Awaits lookup label zone none) : w.Looked label zone
      (v.concludeLookup .locations .location lookup (Catalog.locationKey label zone)) := by
  obtain ⟨es', rests, stands⟩ := concludeLookup_rests awaits rfl
  exact ⟨es ++ es', looks.after rests, stands.append es⟩

/-- What a fetch brings was in its field when the store answered. -/
theorem finish_looks (awaits : w.Awaits lookup label zone none)
    {result : Except StoreError (Option String)} {store : ScriptedStore}
    (gives : w.store.Gives (.field (w.catalog.keys.zone zone) label) result store) :
    ∃ es, w.Looks label zone es (({ w with store } : World).setCache .locations
      (w.catalog.locations.finish lookup (Location.loaded w.catalog.keys label zone result))) := by
  by_cases fetching : ∃ l s x, w.catalog.locations.lookups.get? lookup = some l ∧
      l.phase = .fetching s x
  · obtain ⟨l, s, x, hl, hp⟩ := fetching
    generalize hr : Location.loaded w.catalog.keys label zone result = loaded
    refine ⟨[.fetched lookup l.key s loaded], rfl, .single (.fetched loaded hl hp), ?_⟩
    intro n k t value he
    cases List.mem_singleton.1 he
    refine ⟨awaits.key l hl, ?_⟩
    rcases gives.field_inv with ⟨cause, rfl, _⟩ | ⟨rfl, rfl⟩
    · cases hr
    · refine ⟨hr, rfl, x, ?_⟩
      rw [← awaits.key l hl]
      change (w.catalog.locations.finish lookup (.ok value)).entries.get? l.key = _
      simp [Cache.finish_ok hl hp, SortedMap.get?_insert]
  · refine ⟨[], rfl, ?_, by simp⟩
    rw [Cache.finish_eq_self fun l s x hl hp => fetching ⟨l, s, x, hl, hp⟩]
    exact .refl

theorem continueFetch_looked (awaits : w.Awaits lookup label zone none)
    {result : Except StoreError (Option String)} {store : ScriptedStore}
    (gives : w.store.Gives (.field (w.catalog.keys.zone zone) label) result store) :
    w.Looked label zone (continueFetch .locations .location lookup (Catalog.locationKey label zone)
      (.finished (Location.loaded w.catalog.keys label zone result), { w with store })) := by
  obtain ⟨es, looks⟩ := finish_looks awaits gives
  exact .conclude looks (awaits.kept looks.keys looks.moves)

theorem resume_looked {work : Suspended (Except LoadError Location)}
    (awaits : w.Awaits lookup label zone (some work)) :
    w.Looked label zone (continueFetch .locations .location lookup (Catalog.locationKey label zone)
      (w.resume work)) := by
  by_cases due : w.isDue work
  · obtain ⟨pending, rfl⟩ := awaits.request work rfl
    obtain ⟨result, store, gives, resumed⟩ :=
      resume_gives (.field _ _) (Location.loaded w.catalog.keys label zone) due
    rw [resumed]
    exact continueFetch_looked ⟨awaits.begun, awaits.key, by simp⟩ gives
  · have same : w.resume work = (.suspended work, w) := by rw [resume, if_neg due]
    rw [same]
    exact ⟨[], (Rests.refl w).looks, awaits⟩

theorem continueLookup_looked (awaits : w.Awaits lookup label zone none) :
    w.Looked label zone (w.continueLookup .locations .location (w.catalog.fetchLocation label zone)
      lookup (Catalog.locationKey label zone)) := by
  rw [continueLookup]
  split
  · rename_i turn
    cases hl : w.catalog.locations.lookups.get? lookup with
    | none => simp [Cache.hasTurn, cacheOf, CacheOf.locations, hl] at turn
    | some l =>
      split
      · rename_i cache spares
        have move : Cache.Step w.catalog.locations (.spared lookup l.key w.clock) cache :=
          .spared hl turn spares
        have rests : w.Rests [.spared lookup l.key w.clock] (w.setCache .locations cache) :=
          ⟨rfl, rfl, .single move, by simp⟩
        exact .conclude rests.looks (awaits.kept rfl rests.moves)
      · rename_i miss
        have move : Cache.Step w.catalog.locations
            (.started lookup l.key w.catalog.locations.nextFetch w.tick.clock)
            (w.startFetch .locations lookup).catalog.locations :=
          .started_later hl turn miss w.clock_le_tick
        have rests : w.Rests _ (w.startFetch .locations lookup) :=
          ⟨rfl, rfl, .single move, by simp⟩
        have awaits := awaits.kept rests.keys rests.moves
        refine .before rests ?_
        rw [Catalog.fetchLocation, Location.load_run]
        rcases run_gives (.field (w.catalog.keys.zone zone) label)
            (Location.loaded w.catalog.keys label zone) (w.startFetch .locations lookup) with
          ⟨pending, sent⟩ | ⟨result, store, gives, answered⟩
        · rw [sent]
          refine ⟨[], (Rests.refl _).looks, awaits.begun, awaits.key, ?_⟩
          rintro _ ⟨⟩
          exact ⟨pending, rfl⟩
        · rw [answered]
          exact continueFetch_looked awaits gives
  · exact .conclude (Rests.refl w).looks awaits

theorem beginLookup_looked : w.Looked label zone (w.beginLookup .locations .location
    (w.catalog.fetchLocation label zone) (Catalog.locationKey label zone)) := by
  rw [beginLookup]
  split
  · rename_i entry cache hit
    refine ⟨[.hit _ w.clock entry], ⟨rfl, .single (.hit hit), by simp⟩, ?_⟩
    rintro _ ⟨⟩
    exact ⟨_, List.mem_singleton_self _, rfl, rfl⟩
  · rename_i lookup cache joined
    have move := Cache.Step.joined joined
    have rests : w.Rests _ (w.setCache .locations cache).tick :=
      ⟨rfl, rfl, .single move, by simp⟩
    refine .before rests (continueLookup_looked ?_)
    obtain ⟨_, rfl, _, rfl⟩ := move.joined_inv
    constructor
    · exact Nat.lt_succ_self _
    · intro l hl
      change (w.catalog.locations.join _).2.lookups.get? w.catalog.locations.nextLookup = _ at hl
      simp only [Cache.join, SortedMap.get?_insert, if_true, Option.some.injEq] at hl
      rw [← hl]
    · simp

theorem giveUp_rests (w : World) (lookup : Nat) (label zone : String)
    (fetch : Option (Suspended (Except LoadError Location))) :
    ∃ es, w.Rests es (w.giveUp (.location lookup label zone fetch)) := by
  cases hl : w.catalog.locations.lookups.get? lookup with
  | none =>
    have same : w.catalog.locations.abandon lookup = w.catalog.locations := by
      simp [Cache.abandon, hl]
    refine ⟨[], rfl, rfl, ?_, by simp⟩
    change Steps Cache.Step _ [] (w.catalog.locations.abandon lookup)
    rw [same]
    exact .refl
  | some l => exact ⟨_, rfl, rfl, .single (.givenUp hl), by simp⟩

end Lookups

end World
end ZoneCatalog
