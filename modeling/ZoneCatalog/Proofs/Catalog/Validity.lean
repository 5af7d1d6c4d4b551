import ZoneCatalog.Proofs.Catalog.Entries
import ZoneCatalog.Proofs.Catalog.Scene
import ZoneCatalog.Proofs.Zone.Load

/-! How long the keys of cached zones are good for. A zone is served from the cache for as long as
its lifetime there, counted from before it was loaded; its keys sign for a window of time around the
load. So the signatures hold as long as no lifetime reaches past the window, however long it takes
from the stamp of the entry to the load. -/
namespace ZoneCatalog

/-! The window of the keys of a zone. -/

/-- A key signs for the window of time that goes with a load at a time. -/
def ZoneKey.Spans (k : ZoneKey) (loaded : Seconds) : Prop :=
  k.inception = loaded.earlier inceptionOffset ∧ k.expiration = loaded.later expirationOffset

/-- The signatures of a key are valid at a time. -/
def ZoneKey.IsValidAt (k : ZoneKey) (t : Seconds) : Prop := k.inception ≤ t ∧ t ≤ k.expiration

theorem ZoneKey.spans_loadedAt (dnskey : Dnskey) (signer : SigningKey) (now : Seconds) :
    (loadedAt dnskey signer now).Spans now := by
  constructor <;> dsimp only [loadedAt]

theorem ZoneKey.Spans.isValidAt {k : ZoneKey} {loaded t : Seconds} (spans : k.Spans loaded)
    (since : loaded ≤ t) (before : t ≤ loaded.later expirationOffset) : k.IsValidAt t := by
  obtain ⟨inception, expiration⟩ := spans
  refine ⟨?_, expiration ▸ before⟩
  rw [inception]
  exact UInt64.le_trans (loaded.earlier_le inceptionOffset) since

/-- The same for both keys of a zone. -/
def ZoneSigning.Spans (s : ZoneSigning) (loaded : Seconds) : Prop :=
  s.zsk.Spans loaded ∧ s.ksk.Spans loaded

theorem ZoneSigning.spans_of_stored {zone : String} {apex : DomainName} {now : Seconds}
    {zsk ksk : StoredKey} {s : ZoneSigning} (made : ofStored zone apex now zsk ksk = .ok s) :
    s.Spans now := by
  obtain ⟨_, -, made⟩ := Except.bind_eq_ok.1 made
  obtain ⟨_, -, made⟩ := Except.bind_eq_ok.1 made
  obtain ⟨_, -, made⟩ := Except.bind_eq_ok.1 made
  obtain ⟨_, -, made⟩ := Except.bind_eq_ok.1 made
  obtain ⟨_, -, made⟩ := Except.bind_eq_ok.1 made
  cases made
  exact ⟨ZoneKey.spans_loadedAt .., ZoneKey.spans_loadedAt ..⟩

theorem ZoneSigning.spans_of_load {keys : StoreKeys} {zone : String} {now : Seconds}
    {h : List Program.Event} {s : ZoneSigning} (run : (load keys zone now).run.Yields h (.ok s)) :
    s.Spans now := by
  rcases Fallible.yields_bind.1 run with ⟨_, ⟨⟩, _⟩ | ⟨_, _, apex, -, -, run⟩
  rcases Fallible.yields_bind.1 run with ⟨_, ⟨⟩, _⟩ | ⟨_, _, zsk, -, -, run⟩
  rcases Fallible.yields_bind.1 run with ⟨_, ⟨⟩, _⟩ | ⟨_, _, ksk, -, -, run⟩
  exact spans_of_stored (Fallible.yields_ofExcept.1 run).2.symm

/-- A zone that is signed at all is signed for the window that goes with a load at a time. -/
def Zone.Spans (z : Zone) (loaded : Seconds) : Prop := ∀ s, z.signing = some s → s.Spans loaded

theorem Zone.spans_of_load {keys : StoreKeys} {name : String} {now : Seconds}
    {h : List Program.Event} {z : Zone} (run : (load keys name now).run.Yields h (.ok z)) :
    z.Spans now := by
  intro s signed
  cases load_inv run with
  | plain => cases signed
  | signed read on loaded =>
    cases signed
    exact ZoneSigning.spans_of_load loaded
  | unsigned => cases signed

/-! Entries of zones. -/

/-- An entry was loaded by a time, and is current for no longer than a lifetime from its load. -/
def Entry.LoadedBy (lifetime : UInt64) (now : Seconds) (e : Entry Zone) : Prop :=
  ∃ loaded, loaded ≤ now ∧ e.expiresAt ≤ loaded.later lifetime ∧ e.value.Spans loaded

namespace Entry.LoadedBy

variable {lifetime : UInt64} {now : Seconds} {e : Entry Zone}

theorem mono (h : e.LoadedBy lifetime now) {later : Seconds} (onward : now ≤ later) :
    e.LoadedBy lifetime later := by
  obtain ⟨loaded, past, rest⟩ := h
  exact ⟨loaded, UInt64.le_trans past onward, rest⟩

/-- The keys of a current entry are valid if no entry is current for longer than keys are. -/
theorem isValidAt (h : e.LoadedBy lifetime now) (short : lifetime ≤ expirationOffset)
    (current : e.isCurrent now) {s : ZoneSigning} (signed : e.value.signing = some s) :
    s.zsk.IsValidAt now ∧ s.ksk.IsValidAt now := by
  obtain ⟨loaded, past, expires, spans⟩ := h
  have before : now ≤ loaded.later expirationOffset :=
    UInt64.le_trans (UInt64.le_trans (of_decide_eq_true current) expires)
      (loaded.later_mono short)
  exact ⟨(spans s signed).1.isValidAt past before, (spans s signed).2.isValidAt past before⟩

end Entry.LoadedBy

theorem Catalog.steady_zones : Catalog.Steady Catalog.zones :=
  ⟨fun _ _ => rfl, fun _ _ => rfl⟩

theorem CacheOf.hidden_locations : CacheOf.locations.Hidden Catalog.zones := fun _ _ => rfl

theorem CacheOf.not_hidden_zones : ¬ CacheOf.zones.Hidden Catalog.zones := by
  intro hidden
  let c : Catalog :=
    { keys := {}, reloadEvery := 0, zones := { lifetime := 0 }, locations := { lifetime := 0 } }
  have same := congrArg (·.lifetime) (hidden c { lifetime := 1 })
  exact absurd same (by decide)

theorem CacheOf.lawful_zones : CacheOf.zones.Lawful := fun _ _ => rfl

theorem Entry.lasting_loadedBy (lifetime : UInt64) : Lasting (LoadedBy lifetime) :=
  fun _ _ _ onward loaded => loaded.mono onward

/-- A zone that is fetched is loaded at the time at which its fetch starts, and its entry was
stamped at that time or before. -/
theorem Catalog.fetchZone_fetches (c : Catalog) (lifetime : UInt64) (name : String) :
    World.Fetches (Entry.LoadedBy lifetime) lifetime (c.fetchZone name) := by
  intro w stamped before
  have loads : (Zone.load c.keys name w.clock).run.Ends
      (World.Makes (Entry.LoadedBy lifetime w.clock) (stamped.later lifetime)) := by
    refine Program.ends_of_yields fun h r run => ?_
    rintro s zone rfl
    have expires := Seconds.later_le_later before lifetime
    exact ⟨w.clock, UInt64.le_refl _, expires, Zone.spans_of_load run⟩
  exact World.run_ends loads w

/-! Calls. -/

namespace Call

section Stands

variable {P Q : Entry Zone → Prop} {c : Call} {w v : World}

/-- A call waits for a zone or was answered one with a property, or it has no view of zones. -/
def Stands (P : Entry Zone → Prop) (c : Call) (w : World) : Prop :=
  match c.state with
  | .delayed _ => True
  | .active (.zone lookup _ fetch) => w.Expects .zones P lookup fetch
  | .active activity => activity.Unseen Catalog.zones ∧ c.step.Unseen Catalog.zones
  | .over (.zone entry) => c.step.Unseen Catalog.zones ∨ P entry
  | .over _ => True

theorem Stands.kept {es : List (Cache.Event LoadError Zone)} (stands : c.Stands P w)
    (moves : Steps Cache.Step w.catalog.zones es v.catalog.zones) : c.Stands P v := by
  rw [Stands] at stands ⊢
  split at stands
  · trivial
  · exact stands.kept moves
  · exact stands
  · exact stands
  · trivial

theorem Stands.dropped {name : String} (stands : c.Stands P w)
    (drops : v.catalog.zones = w.catalog.zones.drop name) : c.Stands P v := by
  rw [Stands] at stands ⊢
  split at stands
  · trivial
  · exact stands.dropped drops
  · exact stands
  · exact stands
  · trivial

theorem Stands.mono (stands : c.Stands P w) (weaker : ∀ e, P e → Q e) : c.Stands Q w := by
  rw [Stands] at stands ⊢
  split at stands
  · trivial
  · exact stands.mono weaker
  · exact stands
  · exact stands.imp_right (weaker _)
  · trivial

end Stands

variable {P : Seconds → Entry Zone → Prop} {c : Call} {w v : World}

/-- A call has moved nothing in the cache of zones but lookups of its own. -/
structure Tends (P : Seconds → Entry Zone → Prop) (w : World) (r : Call × World) : Prop where
  moves : ∃ es, Steps Cache.Step w.catalog.zones es r.2.catalog.zones
  holds : r.2.catalog.zones.Holds (P r.2.clock)
  stands : r.1.Stands (P r.2.clock) r.2

theorem settle_attends (c : Call) (name : String) {r : World.LookupStanding Zone × World}
    (attends : w.Attends .zones P .zone r) : Tends P w (c.settle (World.zoneStanding name r)) := by
  obtain ⟨moves, -, holds, yields⟩ := attends
  obtain ⟨answer | ⟨lookup, fetch⟩, v⟩ := r
  · refine ⟨moves, holds, ?_⟩
    obtain ⟨found, rfl, good⟩ := yields
    cases found with
    | none => trivial
    | some entry => exact .inr (good entry rfl)
  · by_cases expired : c.isExpired v.millis
    · obtain ⟨es, before⟩ := moves
      obtain ⟨es', after, holds⟩ := World.abandon_holds holds lookup
      simp only [World.zoneStanding, settle_expired expired]
      exact ⟨⟨es ++ es', before.trans after⟩, holds, trivial⟩
    · simp only [World.zoneStanding, settle_active expired]
      exact ⟨moves, holds, yields⟩

theorem tends_of_same (lasting : Lasting P) (same : w.Same Catalog.zones v)
    (holds : w.catalog.zones.Holds (P w.clock)) (onward : w.clock ≤ v.clock)
    (stands : c.Stands (P v.clock) v) : Tends P w (c, v) := by
  have same : v.catalog.zones = w.catalog.zones := same
  refine ⟨⟨[], ?_⟩, ?_, stands⟩
  · rw [same]
    exact .refl
  · rw [same]
    exact holds.mono fun e => lasting _ _ e onward

theorem settle_leaves {r : Standing × World} (lasting : Lasting P)
    (holds : w.catalog.zones.Holds (P w.clock)) (unseen : c.step.Unseen Catalog.zones)
    (leaves : w.Leaves Catalog.zones r) (onward : w.clock ≤ (c.settle r).2.clock) :
    Tends P w (c.settle r) := by
  obtain ⟨waits, same⟩ := leaves
  obtain ⟨answer | activity, v⟩ := r
  · refine tends_of_same lasting same holds onward ?_
    cases answer with
    | zone entry => exact .inl unseen
    | _ => trivial
  · by_cases expired : c.isExpired v.millis
    · rw [settle_expired expired] at onward ⊢
      exact tends_of_same lasting (same.trans (v.giveUp_same waits)) holds onward trivial
    · rw [settle_active expired] at onward ⊢
      refine tends_of_same lasting same holds onward ?_
      cases activity with
      | zone => exact absurd waits CacheOf.not_hidden_zones
      | _ => exact ⟨waits, unseen⟩

theorem step_unseen (step : Step) : (∃ name, step = .getZone name) ∨ step.Unseen Catalog.zones := by
  cases step with
  | getZone name => exact .inl ⟨name, rfl⟩
  | getLocation => exact .inr CacheOf.hidden_locations
  | _ => exact .inr trivial

section Move

variable {lifetime : UInt64} (stamps : w.catalog.zones.lifetime = lifetime)
  (holds : w.catalog.zones.Holds (Entry.LoadedBy lifetime w.clock))

include stamps holds

theorem begin_tends (c : Call) (onward : w.clock ≤ (c.settle (w.begin c.step)).2.clock) :
    Tends (Entry.LoadedBy lifetime) w (c.settle (w.begin c.step)) := by
  have lasting := Entry.lasting_loadedBy lifetime
  rcases step_unseen c.step with ⟨name, asks⟩ | unseen
  · rw [asks]
    apply settle_attends
    apply World.beginLookup_attends CacheOf.lawful_zones lasting holds
    exact stamps ▸ w.catalog.fetchZone_fetches lifetime name
  · exact settle_leaves lasting holds unseen (w.begin_leaves Catalog.steady_zones unseen) onward

theorem proceed_tends {activity : Activity} (hs : c.state = .active activity)
    (stands : c.Stands (Entry.LoadedBy lifetime w.clock) w)
    (onward : w.clock ≤ (c.settle (w.proceed activity)).2.clock) :
    Tends (Entry.LoadedBy lifetime) w (c.settle (w.proceed activity)) := by
  have lasting := Entry.lasting_loadedBy lifetime
  rw [Stands] at stands
  rw [hs] at stands
  cases activity with
  | zone lookup name fetch =>
    cases fetch with
    | none =>
      apply settle_attends
      apply World.continueLookup_attends CacheOf.lawful_zones lasting holds stands.begun
      exact stamps ▸ w.catalog.fetchZone_fetches lifetime name
    | some fetch =>
      exact settle_attends c name (World.proceedFetch_attends CacheOf.lawful_zones holds stands)
  | _ =>
    exact settle_leaves lasting holds stands.2
      (w.proceed_leaves Catalog.steady_zones stands.1) onward

/-- Whatever a call does, the entries that are cached, and the one that it is answered, were loaded
by the time, and are current for no longer than a lifetime from then. -/
theorem move_tends (stands : c.Stands (Entry.LoadedBy lifetime w.clock) w)
    (onward : w.clock ≤ (c.move w).2.clock) :
    Tends (Entry.LoadedBy lifetime) w (c.move w) := by
  have still : Tends (Entry.LoadedBy lifetime) w (c, w) :=
    tends_of_same (Entry.lasting_loadedBy lifetime) (.refl _ w) holds (UInt64.le_refl _) stands
  rw [move] at onward ⊢
  split at onward
  · rename_i ready
    rw [if_pos ready]
    split at onward
    · exact begin_tends stamps holds { c with cancelAt := _ } onward
    · exact proceed_tends stamps holds ‹_› stands onward
    · exact still
  · rename_i waits
    rw [if_neg waits]
    exact still

end Move

end Call

/-! Runs. -/

/-- What happens in a world beside its calls: refreshers move, time passes, the clock goes on, now
or in the midst of the lookups to come, others write to the store, locations are dropped from their
cache, and answers are given their numbers. -/
inductive World.Beside (w : World) : World → Prop where
  | moved {number : Nat} {w' : World} (h : w.stepWorker number = some w') : Beside w w'
  | worked : Beside w w.runWorkers
  | woken : Beside w w.wakeReaders
  | passed (moment : Nat) : Beside w (w.passTo moment)
  | ticked (clock : Seconds) : Beside w { w with clock }
  | paced (ticks : List UInt64) : Beside w { w with ticks }
  | stored (store : ScriptedStore) : Beside w { w with store }
  | dropped (key : String) : Beside w (w.setCache .locations ((w.cacheOf .locations).drop key))
  | numbered (answers : List Answer) : Beside w (w.numberAnswers answers).2

theorem World.Beside.same {w w' : World} (beside : w.Beside w') : w.Same Catalog.zones w' := by
  cases beside with
  | moved h => exact World.stepWorker_same Catalog.steady_zones h
  | worked => exact w.runWorkers_same Catalog.steady_zones
  | woken => exact .of_catalog (World.wakeReaders_catalog w)
  | passed moment => exact .of_catalog (World.passTo_catalog w moment)
  | ticked clock => exact .refl _ w
  | paced ticks => exact .refl _ w
  | stored store => exact .refl _ w
  | dropped key => exact World.setCache_same CacheOf.hidden_locations w _
  | numbered answers => exact .of_catalog (World.numberAnswers_catalog w answers)

/-- A step of a scene in which the clock is never set back. Calls of any kind come and are
forgotten, each moves when it can, zones are dropped from the cache for want of room or use, and in
between something happens beside them. -/
inductive OnwardStep : Scene → Sight → Scene → Prop where
  | called {w : World} {calls calls' : List Call}
      (known : ∀ c ∈ calls', c ∈ calls ∨ ∃ timed, c = .ofStep w.millis timed) :
      OnwardStep ⟨w, calls⟩ .beside ⟨w, calls'⟩
  | moved (w : World) (before : List Call) (c : Call) (after : List Call)
      (onward : w.clock ≤ (c.move w).2.clock) :
      OnwardStep ⟨w, before ++ c :: after⟩ (.moved c w)
        ⟨(c.move w).2, before ++ (c.move w).1 :: after⟩
  | dropped {w : World} {calls : List Call} (name : String) :
      OnwardStep ⟨w, calls⟩ .beside ⟨w.setCache .zones ((w.cacheOf .zones).drop name), calls⟩
  | beside {w w' : World} {calls : List Call} (beside : w.Beside w') (onward : w.clock ≤ w'.clock) :
      OnwardStep ⟨w, calls⟩ .beside ⟨w', calls⟩

namespace Scene

variable {s s' : Scene} {h : List Sight} {lifetime : UInt64} {t : Seconds} {e : Entry Zone}

/-- A call that asks for a zone is answered an entry. The time is that of the last reading of the
clock for it. -/
def ZoneAnswered (h : List Sight) (t : Seconds) (e : Entry Zone) : Prop :=
  ∃ c w name, .moved c w ∈ h ∧ c.step = .getZone name ∧ c.answer? = none ∧
    (c.move w).1.answer? = some (.zone e) ∧ t = (c.move w).2.clock

/-- Everything that is cached or was answered was loaded by the time, and is current for no longer
than a lifetime from then. -/
structure Dated (lifetime : UInt64) (h : List Sight) (s : Scene) : Prop where
  stamps : s.world.catalog.zones.lifetime = lifetime
  holds : s.world.catalog.zones.Holds (Entry.LoadedBy lifetime s.world.clock)
  calls : ∀ c ∈ s.calls, c.Stands (Entry.LoadedBy lifetime s.world.clock) s.world
  answered : ∀ t e, ZoneAnswered h t e → e.LoadedBy lifetime t

theorem dated_of_settings {settings : Settings} {clock : Seconds} {readTimeout uptime : Nat}
    {w : World} (made : World.ofSettings settings clock readTimeout uptime = .ok w) :
    Dated settings.lifetime [] ⟨w, []⟩ := by
  obtain ⟨-, -, rfl⟩ := World.ofSettings_eq_ok.1 made
  refine ⟨rfl, .empty _ _, by simp, ?_⟩
  intro t e ⟨c, w, name, mem, _⟩
  cases mem

/-- Whatever was answered by a move that was not seen yet was answered by the last one. -/
theorem ZoneAnswered.snoc {sight : Sight} (answered : ZoneAnswered (h ++ [sight]) t e) :
    ZoneAnswered h t e ∨ ∃ c w name, sight = .moved c w ∧ c.step = .getZone name ∧
      (c.move w).1.answer? = some (.zone e) ∧ t = (c.move w).2.clock := by
  obtain ⟨c, w, name, mem, asks, waits, answer, time⟩ := answered
  rcases List.mem_append.1 mem with early | last
  · exact .inl ⟨c, w, name, early, asks, waits, answer, time⟩
  · exact .inr ⟨c, w, name, (List.mem_singleton.1 last).symm, asks, answer, time⟩

/-- Nothing was answered by a step beside the calls. -/
theorem Dated.answered_beside (dated : Dated lifetime h s) (t : Seconds) (e : Entry Zone)
    (answered : ZoneAnswered (h ++ [.beside]) t e) : e.LoadedBy lifetime t := by
  rcases answered.snoc with early | ⟨c, w, name, ⟨⟩, _⟩
  exact dated.answered t e early

/-- A step that brings no entry. -/
theorem Dated.beside (dated : Dated lifetime h s)
    (same : s'.world.catalog.zones = s.world.catalog.zones)
    (onward : s.world.clock ≤ s'.world.clock)
    (known : ∀ c ∈ s'.calls, c ∈ s.calls ∨ ∃ timed, c = .ofStep s.world.millis timed) :
    Dated lifetime (h ++ [.beside]) s' := by
  have older (e : Entry Zone) (loaded : e.LoadedBy lifetime s.world.clock) := loaded.mono onward
  refine ⟨same ▸ dated.stamps, same ▸ dated.holds.mono older, ?_, ?_⟩
  · intro c hc
    rcases known c hc with old | ⟨timed, rfl⟩
    · have still : Steps Cache.Step s.world.catalog.zones [] s'.world.catalog.zones :=
        same ▸ .refl
      exact ((dated.calls c old).kept still).mono older
    · trivial
  · exact dated.answered_beside

/-- A zone that is dropped has to be loaded anew; the others are as old as they were. -/
theorem Dated.dropped {w : World} {calls : List Call} (dated : Dated lifetime h ⟨w, calls⟩)
    (name : String) : Dated lifetime (h ++ [.beside])
      ⟨w.setCache .zones ((w.cacheOf .zones).drop name), calls⟩ where
  stamps := dated.stamps
  holds := dated.holds.drop name
  calls c hc := (dated.calls c hc).dropped rfl
  answered := dated.answered_beside

theorem Dated.step {sight : Sight} (dated : Dated lifetime h s) (step : OnwardStep s sight s') :
    Dated lifetime (h ++ [sight]) s' := by
  cases step with
  | called known => exact dated.beside rfl (UInt64.le_refl _) known
  | dropped name => exact dated.dropped name
  | beside beside onward => exact dated.beside beside.same onward fun c hc => .inl hc
  | moved w before c after onward =>
    have older (e : Entry Zone) (loaded : e.LoadedBy lifetime w.clock) := loaded.mono onward
    obtain ⟨⟨es, moves⟩, holds, stands⟩ :=
      Call.move_tends dated.stamps dated.holds (dated.calls c (by simp)) onward
    refine ⟨?_, holds, ?_, ?_⟩
    · exact (Cache.Steps.lifetime_eq moves).trans dated.stamps
    · intro d hd
      rcases mem_moved hd with rfl | other
      · exact stands
      · exact ((dated.calls d other).kept moves).mono older
    · intro t e answered
      rcases answered.snoc with early | ⟨c', w', name, last, asks, answer, rfl⟩
      · exact dated.answered t e early
      · cases last
        rw [Call.Stands, Call.move_step, asks, Call.over_of_answer answer] at stands
        exact stands.resolve_left CacheOf.not_hidden_zones

end Scene

end ZoneCatalog
