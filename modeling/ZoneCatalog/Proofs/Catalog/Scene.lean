import ZoneCatalog.Proofs.Catalog.Construction
import ZoneCatalog.Proofs.Catalog.Locations
import ZoneCatalog.Proofs.Data.Except

/-! Scenes: a world and the calls in it, which move one at a time and in any order, while the world
may do anything beside the cache of locations. Whatever a lookup returns was read by a lookup under
the same key. -/
namespace ZoneCatalog

open Cache (Event)

namespace Call

variable {c : Call} {w v : World}

/-- The location that a call asks for, and the name of the zone in which it does. -/
def asked? (c : Call) (w : World) : Option (String × String) :=
  match c.step, c.state with
  | .getLocation location number, .delayed _ =>
    (w.shownZones[number]?).map fun entry => (location, entry.value.name)
  | .getLocation location _, .active (.location _ _ zone _) => some (location, zone)
  | _, _ => none

/-- A call waits for the location it asks for, or for something else. -/
def Sits (c : Call) (w : World) : Prop :=
  match c.state with
  | .active (.location lookup label zone fetch) => w.Awaits lookup label zone fetch ∧
    ∃ location number, c.step = .getLocation location number ∧ label = relativeLabel location zone
  | .active activity => activity.Aside
  | .delayed _ | .over _ => True

theorem Sits.kept {es : List (Event LoadError Location)} (sits : c.Sits w)
    (keys : v.catalog.keys = w.catalog.keys)
    (moves : Steps Cache.Step w.catalog.locations es v.catalog.locations) : c.Sits v := by
  rw [Sits] at sits ⊢
  split at sits
  · exact ⟨sits.1.kept keys moves, sits.2⟩
  · exact sits
  · trivial
  · trivial

theorem Sits.beside (sits : c.Sits w) (keeps : w.Keeps v) : c.Sits v := by
  have moves : Steps Cache.Step w.catalog.locations [] v.catalog.locations := by
    rw [keeps.locations]
    exact .refl
  exact sits.kept keeps.keys moves

theorem sits_of_aside {activity : Activity} (aside : activity.Aside)
    (h : c.state = .active activity) : c.Sits w := by
  rw [Sits]
  rw [h]
  cases activity with
  | location => exact aside.elim
  | _ => exact aside

theorem over_of_answer {answer : Answer} (h : c.answer? = some answer) :
    c.state = .over answer := by
  rw [answer?] at h
  split at h
  · rename_i ended
    rw [ended, Option.some.inj h]
  · cases h

theorem settle_expired {activity : Activity} (expired : c.isExpired w.millis) :
    c.settle (.waiting activity, w) = ({ c with state := .over .cancelled }, w.giveUp activity) :=
  if_pos expired

theorem settle_active {activity : Activity} (expired : ¬ c.isExpired w.millis) :
    c.settle (.waiting activity, w) = ({ c with state := .active activity }, w) :=
  if_neg expired

theorem settle_passes {r : Standing × World} (passes : w.Passes r) (c : Call) :
    w.Keeps (c.settle r).2 ∧ (c.settle r).1.Sits (c.settle r).2 := by
  obtain ⟨_ | activity, v⟩ := r
  · exact ⟨passes.keeps, trivial⟩
  · by_cases expired : c.isExpired v.millis
    · rw [settle_expired expired]
      exact ⟨passes.keeps.trans (v.giveUp_keeps passes.aside), trivial⟩
    · rw [settle_active expired]
      exact ⟨passes.keeps, sits_of_aside passes.aside rfl⟩

/-- A call has moved that asks for a location. -/
def Looked (w : World) (location zone : String) (r : Call × World) : Prop :=
  ∃ es, w.Looks (relativeLabel location zone) zone es r.2 ∧ r.1.Sits r.2 ∧
    ∀ entry, r.1.state = .over (.location entry) →
      Cache.Returned es (Catalog.locationKey (relativeLabel location zone) zone) entry

theorem settle_looked {location zone : String} {number : Nat}
    {r : World.LookupStanding Location × World} (asks : c.step = .getLocation location number)
    (looked : w.Looked (relativeLabel location zone) zone r) : Looked w location zone
      (c.settle (World.locationStanding (relativeLabel location zone) zone r)) := by
  obtain ⟨es, looks, stands⟩ := looked
  obtain ⟨answer | ⟨lookup, fetch⟩, v⟩ := r
  · refine ⟨es, looks, trivial, ?_⟩
    rintro entry ⟨⟩
    exact stands entry rfl
  · by_cases expired : c.isExpired v.millis
    · obtain ⟨es', rests⟩ := v.giveUp_rests lookup (relativeLabel location zone) zone fetch
      simp only [World.locationStanding, settle_expired expired]
      refine ⟨es ++ es', looks.after rests, trivial, ?_⟩
      rintro entry ⟨⟩
    · simp only [World.locationStanding, settle_active expired]
      refine ⟨es, looks, ⟨stands, location, number, asks, rfl⟩, ?_⟩
      rintro entry ⟨⟩

theorem asked?_of_aside {activity : Activity} (aside : activity.Aside)
    (h : c.state = .active activity) : c.asked? w = none := by
  rw [asked?]
  rw [h]
  split
  · rename_i hs
    cases hs
  · rename_i hs
    cases hs
    exact aside.elim
  · rfl

theorem proceed_looked {lookup : Nat} {location zone : String}
    {fetch : Option (Suspended (Except LoadError Location))} {number : Nat}
    (asks : c.step = .getLocation location number)
    (awaits : w.Awaits lookup (relativeLabel location zone) zone fetch) : Looked w location zone
      (c.settle (w.proceed (.location lookup (relativeLabel location zone) zone fetch))) := by
  cases fetch with
  | none => exact settle_looked asks (World.continueLookup_looked awaits)
  | some fetch => exact settle_looked asks (World.resume_looked awaits)

theorem Sits.active {activity : Activity} (sits : c.Sits w) (h : c.state = .active activity) :
    activity.Aside ∨ ∃ lookup location zone fetch number,
      activity = .location lookup (relativeLabel location zone) zone fetch ∧
        c.step = .getLocation location number ∧
          w.Awaits lookup (relativeLabel location zone) zone fetch := by
  rw [Sits] at sits
  rw [h] at sits
  cases activity with
  | location lookup label zone fetch =>
    obtain ⟨awaits, location, number, asks, rfl⟩ := sits
    exact .inr ⟨lookup, location, zone, fetch, number, rfl, asks, awaits⟩
  | _ => exact .inl sits

theorem asked?_of_over {answer : Answer} (h : c.state = .over answer) : c.asked? w = none := by
  simp [asked?, h]

theorem begin_cases {due : Nat} (h : c.state = .delayed due) (cancelAt : Option Nat) :
    (c.asked? w = none ∧ w.Passes (w.begin c.step)) ∨
      ∃ location zone, c.asked? w = some (location, zone) ∧
        Looked w location zone ({ c with cancelAt }.settle (w.begin c.step)) := by
  cases asks : c.step with
  | getLocation location number =>
    simp only [World.begin, World.withZone, asked?, asks, h]
    cases w.shownZones[number]? with
    | none => exact .inl ⟨rfl, trivial, .refl w⟩
    | some entry =>
      exact .inr ⟨location, entry.value.name, rfl, settle_looked rfl World.beginLookup_looked⟩
  | _ => exact .inl ⟨by simp [asked?, asks], w.begin_passes _ (by simp)⟩

/-- What becomes of a call and its world in a move. -/
theorem move_cases (sits : c.Sits w) :
    (c.asked? w = none ∧ w.Keeps (c.move w).2 ∧ (c.move w).1.Sits (c.move w).2) ∨
      ∃ location zone, c.asked? w = some (location, zone) ∧ Looked w location zone (c.move w) := by
  by_cases ready : c.isReady w
  · match hs : c.state with
    | .over answer => simp [isReady, hs] at ready
    | .active activity =>
      have moved : c.move w = c.settle (w.proceed activity) := by simp [move, ready, hs]
      rw [moved]
      rcases sits.active hs with aside | ⟨lookup, location, zone, fetch, number, rfl, asks, awaits⟩
      · exact .inl ⟨asked?_of_aside aside hs, settle_passes (w.proceed_passes aside) c⟩
      · exact .inr ⟨location, zone, by simp [asked?, asks, hs], proceed_looked asks awaits⟩
    | .delayed due =>
      have moved : c.move w = { c with cancelAt := c.cancelAfter.map (w.millis + ·) }.settle
          (w.begin c.step) := by simp [move, ready, hs]
      rw [moved]
      rcases begin_cases hs _ with ⟨beside, passes⟩ | looked
      · exact .inl ⟨beside, settle_passes passes _⟩
      · exact .inr looked
  · have still : c.move w = (c, w) := by simp [move, ready]
    rw [still]
    cases ha : c.asked? w with
    | none => exact .inl ⟨rfl, .refl w, sits⟩
    | some pair =>
      refine .inr ⟨pair.1, pair.2, rfl, [], (World.Rests.refl w).looks, sits, ?_⟩
      intro entry ended
      simp [asked?_of_over ended] at ha

end Call

/-- Valid settings make a world, unless zones are to be kept for longer than a cache can. -/
theorem World.ofSettings_eq_ok {settings : Settings} {clock : Seconds} {readTimeout uptime : Nat}
    {w : World} : World.ofSettings settings clock readTimeout uptime = .ok w ↔
      settings.validate = .ok () ∧ settings.zoneIdle.toNat ≤ Catalog.longestIdle ∧ w = {
        clock
        uptime
        store := { memory := { readTimeout } }
        catalog := {
          keys := settings.store.keys
          reloadEvery := settings.reloadSeconds.toNat * 1000
          zones := { lifetime := settings.lifetime }
          locations := { lifetime := settings.lifetime } } } := by
  constructor
  · intro made
    obtain ⟨catalog, built, rest⟩ := Except.bind_eq_ok.1 made
    obtain ⟨valid, idle, rfl⟩ := Catalog.ofSettings_eq_ok.1 built
    exact ⟨valid, idle, (Except.ok.inj rest).symm⟩
  · rintro ⟨valid, idle, rfl⟩
    exact Except.bind_eq_ok.2 ⟨_, Catalog.ofSettings_eq_ok.2 ⟨valid, idle, rfl⟩, rfl⟩

/-- A world and the calls in it. -/
structure Scene where
  world : World
  calls : List Call

/-- What is seen of a step of a scene. -/
inductive Sight where
  | beside
  | moved (call : Call) (world : World)

/-- A step of a scene. Calls come and are forgotten, each moves when it can, and in between anything
may happen beside the cache of locations: time passes, the store changes, refreshers move. -/
inductive SceneStep : Scene → Sight → Scene → Prop where
  | called {w : World} {calls calls' : List Call}
      (known : ∀ c ∈ calls', c ∈ calls ∨ ∃ timed, c = .ofStep w.millis timed) :
      SceneStep ⟨w, calls⟩ .beside ⟨w, calls'⟩
  | moved (w : World) (before : List Call) (c : Call) (after : List Call) :
      SceneStep ⟨w, before ++ c :: after⟩ (.moved c w)
        ⟨(c.move w).2, before ++ (c.move w).1 :: after⟩
  | beside {w w' : World} {calls : List Call} (keeps : w.Keeps w') :
      SceneStep ⟨w, calls⟩ .beside ⟨w', calls⟩

namespace Scene

/-- Nobody has asked for a location yet. -/
structure Fresh (s : Scene) : Prop where
  locations : ∃ lifetime, s.world.catalog.locations = { lifetime }
  calls : s.calls = []

variable {s s' : Scene} {h : List Sight} {location zone label : String} {entry : Entry Location}

/-- A location is asked for in a zone. -/
def Asked (h : List Sight) (location zone : String) : Prop :=
  ∃ c w, .moved c w ∈ h ∧ c.asked? w = some (location, zone)

/-- An entry is returned for a location in a zone. -/
def Returned (h : List Sight) (location zone : String) (entry : Entry Location) : Prop :=
  ∃ c w, .moved c w ∈ h ∧ c.asked? w = some (location, zone) ∧
    (c.move w).1.state = .over (.location entry)

/-- The field of a label was read in a move of a call that asked for it, and an entry was made of
what it held. -/
def ReadFor (h : List Sight) (label zone : String) (serial : Nat) (value : Location) : Prop :=
  ∃ c w location, .moved c w ∈ h ∧ c.asked? w = some (location, zone) ∧
    relativeLabel location zone = label ∧ w.Reads label zone serial value (c.move w).2

theorem ReadFor.asked {serial : Nat} {value : Location} (read : ReadFor h label zone serial value) :
    ∃ location, Asked h location zone ∧ relativeLabel location zone = label := by
  obtain ⟨c, w, location, mem, asks, hl, _⟩ := read
  exact ⟨location, ⟨c, w, mem, asks⟩, hl⟩

theorem ReadFor.name_eq {serial : Nat} {value : Location}
    (read : ReadFor h label zone serial value) : value.name = ownerName label zone := by
  obtain ⟨_, _, _, _, _, _, reads⟩ := read
  exact Location.name_of_ofStored _ _ _ reads.made

theorem Returned.asked (returned : Returned h location zone entry) : Asked h location zone := by
  obtain ⟨c, w, mem, asks, _⟩ := returned
  exact ⟨c, w, mem, asks⟩

/-- What has been seen of a scene, next to what was seen of its cache of locations. -/
structure Traced (lifetime : UInt64) (h : List Sight) (s : Scene) : Prop where
  calls : ∀ c ∈ s.calls, c.Sits s.world
  cache : ∃ es, Cache.Run lifetime es s.world.catalog.locations ∧
    (∀ n k serial value, .fetched n k serial (.ok value) ∈ es → ∃ label zone,
      k = Catalog.locationKey label zone ∧ ReadFor h label zone serial value) ∧
    ∀ location zone entry, Returned h location zone entry →
      Cache.Returned es (Catalog.locationKey (relativeLabel location zone) zone) entry

theorem ReadFor.append {serial : Nat} {value : Location} (read : ReadFor h label zone serial value)
    (e : Sight) : ReadFor (h ++ [e]) label zone serial value := by
  obtain ⟨c, w, location, mem, rest⟩ := read
  exact ⟨c, w, location, List.mem_append_left _ mem, rest⟩

/-- A step that moves nothing in the cache of locations. -/
theorem Traced.beside {lifetime : UInt64} (traced : Traced lifetime h s)
    (keeps : s.world.Keeps s'.world) (calls : ∀ c ∈ s'.calls, c.Sits s'.world)
    (e : Sight) (quiet : ∀ c w, e = .moved c w → c.asked? w = none) :
    Traced lifetime (h ++ [e]) s' := by
  obtain ⟨-, es, run, read, returned⟩ := traced
  refine ⟨calls, es, keeps.locations ▸ run, ?_, ?_⟩
  · intro n k serial value he
    obtain ⟨label, zone, hk, readFor⟩ := read n k serial value he
    exact ⟨label, zone, hk, readFor.append e⟩
  · rintro location zone entry ⟨c, w, mem, asks, ended⟩
    rcases List.mem_append.1 mem with mem | mem
    · exact returned location zone entry ⟨c, w, mem, asks, ended⟩
    · have none_asked := quiet c w (List.mem_singleton.1 mem).symm
      simp [asks] at none_asked

/-- The calls of a scene after a move are the one that moved and others that were there before. -/
theorem mem_moved {c c' d : Call} {before after : List Call} (hd : d ∈ before ++ c' :: after) :
    d = c' ∨ d ∈ before ++ c :: after := by
  simp only [List.mem_append, List.mem_cons] at hd ⊢
  rcases hd with early | moved | late
  · exact .inr (.inl early)
  · exact .inl moved
  · exact .inr (.inr (.inr late))

theorem sits_moved {w : World} {c c' : Call} {before after : List Call}
    (others : ∀ d ∈ before ++ c :: after, d.Sits w) (sits : c'.Sits w) :
    ∀ d ∈ before ++ c' :: after, d.Sits w := by
  intro d hd
  rcases mem_moved hd with rfl | other
  · exact sits
  · exact others d other

theorem Traced.looked {lifetime : UInt64} {w : World} {c : Call} {before after : List Call}
    (traced : Traced lifetime h ⟨w, before ++ c :: after⟩)
    (asks : c.asked? w = some (location, zone)) (looked : Call.Looked w location zone (c.move w)) :
    Traced lifetime (h ++ [.moved c w]) ⟨(c.move w).2, before ++ (c.move w).1 :: after⟩ := by
  obtain ⟨calls, es, run, read, returned⟩ := traced
  obtain ⟨es', looks, sits, answer⟩ := looked
  have others := fun d hd => (calls d hd).kept looks.keys looks.moves
  refine ⟨sits_moved others sits, es ++ es', run.trans looks.moves, ?_, ?_⟩
  · intro n k serial value he
    rcases List.mem_append.1 he with early | late
    · obtain ⟨label, zone', hk, readFor⟩ := read n k serial value early
      exact ⟨label, zone', hk, readFor.append _⟩
    · obtain ⟨hk, reads⟩ := looks.brought n k serial value late
      exact ⟨_, zone, hk, c, w, location, by simp, asks, rfl, reads⟩
  · rintro location' zone' entry ⟨d, v, mem, asks', ended⟩
    rcases List.mem_append.1 mem with mem | mem
    · obtain ⟨e, early, hk, he⟩ := returned location' zone' entry ⟨d, v, mem, asks', ended⟩
      exact ⟨e, List.mem_append_left _ early, hk, he⟩
    · cases List.mem_singleton.1 mem
      cases asks.symm.trans asks'
      obtain ⟨e, late, hk, he⟩ := answer entry ended
      exact ⟨e, List.mem_append_right _ late, hk, he⟩

theorem Traced.step {lifetime : UInt64} {e : Sight} (traced : Traced lifetime h s)
    (step : SceneStep s e s') : Traced lifetime (h ++ [e]) s' := by
  cases step with
  | @called w calls calls' known =>
    refine traced.beside (.refl w) (fun c hc => ?_) _ (by simp)
    rcases known c hc with old | ⟨timed, rfl⟩
    · exact traced.calls c old
    · trivial
  | @beside w w' calls keeps =>
    refine traced.beside ?_ ?_ _ (by simp)
    · exact keeps
    · exact fun c hc => (traced.calls c hc).beside keeps
  | moved w before c after =>
    rcases Call.move_cases (traced.calls c (by simp)) with
      ⟨aside, keeps, sits⟩ | ⟨location, zone, asks, looked⟩
    · have others := fun d hd => (traced.calls d hd).beside keeps
      refine traced.beside keeps (sits_moved others sits) _ ?_
      rintro _ _ ⟨⟩
      exact aside
    · exact traced.looked asks looked

theorem Fresh.traced (fresh : s.Fresh) : ∃ lifetime, Traced lifetime [] s := by
  obtain ⟨lifetime, empty⟩ := fresh.locations
  refine ⟨lifetime, by simp [fresh.calls], [], ?_, by simp, ?_⟩
  · rw [empty]
    exact .refl
  · rintro location zone entry ⟨c, w, mem, _⟩
    cases mem

/-- Whatever is returned for a location was read for one under the same key. -/
theorem Returned.read_for (fresh : s.Fresh) (run : Steps SceneStep s h s')
    (returned : Returned h location zone entry) : ∃ label' zone',
      Catalog.locationKey label' zone' = Catalog.locationKey (relativeLabel location zone) zone ∧
        ReadFor h label' zone' entry.serial entry.value := by
  obtain ⟨lifetime, start⟩ := fresh.traced
  obtain ⟨-, es, cacheRun, read, answers⟩ : Traced lifetime ([] ++ h) s' :=
    run.preserves start fun _ _ _ _ traced step => traced.step step
  obtain ⟨n, brought⟩ := (cacheRun.recorded.returned _ entry (answers _ _ _ returned)).1
  obtain ⟨label', zone', hk, readFor⟩ := read n _ _ _ brought
  exact ⟨label', zone', hk.symm, readFor⟩

end Scene
end ZoneCatalog
