import ZoneCatalog.Proofs.Catalog.Locations
import ZoneCatalog.Proofs.Record.Json

/-! What is saved as a location is what is loaded as it, and nothing else changes. -/
namespace ZoneCatalog

namespace Content

/-- Two contents that differ in one field of one hash at most. -/
structure SameBut (key name : String) (c c' : Content) : Prop where
  strings : c'.strings = c.strings
  sets : c'.sets = c.sets
  hashes : ∀ key', key' ≠ key → c'.hashes.get? key' = c.hashes.get? key'
  fields : ∀ name', name' ≠ name → c'.field? key name' = c.field? key name'

theorem field?_setField (c : Content) (key name value : String) :
    (c.setField key name value).field? key name = some value := by
  simp [field?, hash, setField, SortedMap.get?_insert]

theorem setField_sameBut (c : Content) (key name value : String) :
    SameBut key name c (c.setField key name value) where
  strings := rfl
  sets := rfl
  hashes key' other := by simp [setField, SortedMap.get?_insert, other]
  fields name' other := by simp [field?, hash, setField, SortedMap.get?_insert, other]

end Content

namespace World

/-- The store holds a content and serves whatever it is asked, in time. -/
structure Serves (c : Content) (w : World) : Prop where
  works : w.store.failure = none
  online : w.store.memory.offline = false
  inTime : w.store.memory.latency ≤ w.store.memory.readTimeout
  content : w.store.memory.content = c

variable {c : Content} {w : World}

private theorem Serves.answer (serves : w.Serves c) (key name : String) (due : Nat) :
    ∃ store, w.store.answer (⟨due, false⟩ : Pending (.field key name)) =
      (.ok (c.field? key name), store) := by
  simp [ScriptedStore.answer, MemoryStore.answer, MemoryStore.serve, serves.online, serves.content]

/-- A field is read, at once or after a wait. -/
theorem Serves.comes {α : Type} (serves : w.Serves c) (key name : String)
    (f : Except StoreError (Option String) → α) :
    (w.run (.ask (.field key name) fun result => .done (f result))).1.Comes (Serves c)
      (f (.ok (c.field? key name))) := by
  have sent : w.store.memory.send w.millis (.field key name) =
      ⟨w.millis + w.store.memory.latency, false⟩ := by
    simp [MemoryStore.send, Nat.not_lt.2 serves.inTime]
  by_cases prompt : w.store.memory.latency = 0
  · obtain ⟨store, answer⟩ := serves.answer key name w.millis
    have answered : w.store.send w.millis (.field key name) =
        .answered (.ok (c.field? key name)) store := by
      simp [ScriptedStore.send, serves.works, ScriptedStore.forward, sent, prompt, answer]
    simp only [run, answered]
    exact .finished
  · have waits : w.store.send w.millis (.field key name) =
        .pending ⟨w.millis + w.store.memory.latency, false⟩ := by
      have later : ¬ w.millis + w.store.memory.latency ≤ w.millis := by omega
      simp only [ScriptedStore.send, serves.works, ScriptedStore.forward, sent, if_neg later]
    simp only [run, waits]
    refine .suspended fun v later due => ?_
    obtain ⟨store, answer⟩ := later.answer key name (w.millis + w.store.memory.latency)
    rw [resume, if_pos due]
    simp only [answer, run]
    exact .finished

end World

namespace Location

variable {keys : StoreKeys} {location zone : String} {records : RecordSets}

theorem ofStored_toJson (label : String) :
    ofStored keys label zone (some records.toJson) = .ok ⟨ownerName label zone, records⟩ := by
  have nonempty : records.toJson ≠ "" := by
    intro empty
    have identity := records.ofJson_toJson
    rw [empty] at identity
    cases identity
  simp [ofStored, nonempty, records.ofJson_toJson, Option.filter]

theorem save_run : (save keys location zone records).run =
    .ask (.setField (keys.zone zone) (relativeLabel location zone) records.toJson) fun result =>
      .done (result.mapError .store) :=
  rfl

/-- Record sets are saved as a location: nothing else has changed, and whoever loads a location with
the same label from a store that is within reach, nothing having been written in between, comes to
these record sets, and to nothing else. -/
structure Saved (keys : StoreKeys) (location zone : String) (records : RecordSets)
    (before after : Content) : Prop where
  elsewhere : Content.SameBut (keys.zone zone) (relativeLabel location zone) before after
  comes : ∀ location', relativeLabel location' zone = relativeLabel location zone →
    ∀ w : World, w.Serves after →
      (w.run (load keys (relativeLabel location' zone) zone).run).1.Comes (World.Serves after)
        (.ok ⟨ownerName (relativeLabel location' zone) zone, records⟩)

theorem saved_setField (c : Content) : Saved keys location zone records c
    (c.setField (keys.zone zone) (relativeLabel location zone) records.toJson) where
  elsewhere := Content.setField_sameBut _ _ _ _
  comes location' same w serves := by
    have comes := serves.comes (keys.zone zone) (relativeLabel location zone)
      (loaded keys (relativeLabel location zone) zone)
    have found : loaded keys (relativeLabel location zone) zone (.ok ((c.setField (keys.zone zone)
        (relativeLabel location zone) records.toJson).field? (keys.zone zone)
          (relativeLabel location zone))) =
        .ok ⟨ownerName (relativeLabel location zone) zone, records⟩ := by
      rw [Content.field?_setField]
      exact ofStored_toJson _
    rw [load_run, same]
    rwa [found] at comes

/-- Record sets are read back off their text as they were. Saving them as a location makes what is
loaded as it those record sets and changes nothing else; if it fails, it is for a failure of the
store, in which nothing has changed then. -/
theorem load_of_save (keys : StoreKeys) (location zone : String) (records : RecordSets)
    {w w' : World} {result : Except LoadError Unit}
    (completes : w.Completes (save keys location zone records).run result w') :
    RecordSets.ofJson records.toJson = .ok records ∧
      match result with
      | .ok () => Saved keys location zone records w.store.memory.content w'.store.memory.content
      | .error cause => (∃ failure, cause = .store failure) ∧
        w'.store.memory.content = w.store.memory.content := by
  refine ⟨records.ofJson_toJson, ?_⟩
  rw [save_run] at completes
  obtain ⟨answer, store, gives, rfl, rfl⟩ := completes.of_ask
  rcases gives.setField_inv with ⟨cause, rfl, rfl⟩ | ⟨rfl, rfl⟩
  · exact ⟨⟨cause, rfl⟩, rfl⟩
  · exact saved_setField w.store.memory.content

namespace Sample

/-- A world at a time, with an empty store that takes its time over every request. -/
def worldAt (millis : Nat) : World where
  millis
  clock := 0
  store := { memory := { latency := 20 } }
  catalog :=
    { keys := {}, reloadEvery := 0, zones := { lifetime := 60 }, locations := { lifetime := 60 } }

def sets : RecordSets where
  a := { records := [{ ip := .v4 ⟨192, 0, 2, 1⟩ }] }
  aaaa := { records := [{ ip := .v6 ⟨[0x2001, 0xdb8, 0, 0, 0, 0, 0, 1], rfl⟩, country := ["\n"] }] }
  cname := some { host := "\"" }

end Sample

theorem load_of_save_after_wait : ∃ w',
    (Sample.worldAt 20).Completes (save {} "www" "example.com." Sample.sets).run (.ok ()) w' ∧
      RecordSets.ofJson Sample.sets.toJson = .ok Sample.sets ∧
        Saved {} "www" "example.com." Sample.sets
          (Sample.worldAt 20).store.memory.content w'.store.memory.content := by
  have completes : (Sample.worldAt 20).Completes
      (save {} "www" "example.com." Sample.sets).run (.ok ()) _ :=
    .inr ⟨_, .sent (w := Sample.worldAt 0) rfl, rfl⟩
  exact ⟨_, completes, load_of_save {} "www" "example.com." Sample.sets completes⟩

end Location
end ZoneCatalog
