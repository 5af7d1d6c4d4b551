import ZoneCatalog.Proofs.Catalog.Validity

/-! The longest lifetime with which cached zones do not outlive their keys. Beyond it there is a run
in which a zone is loaded, the clock goes on past the end of its keys, and it is answered from the
cache. -/
namespace ZoneCatalog

/-! A zone that is signed in the store. -/

namespace Zone.Sample

open ZoneSigning.Sample (text told loaded yields_loaded)

def configText : String := "\x7b\"dnssec\":true\x7d"

/-- The configuration of the zone and its keys. -/
def content : Content :=
  [(KeyRole.zsk, KeyHalf.published), (.zsk, .secret), (.ksk, .published), (.ksk, .secret)].foldl
    (fun c (role, half) =>
      c.setString (({} : StoreKeys).zoneKey "example.com." role half) (text role half))
    (({} : Content).setString (({} : StoreKeys).zoneConfig "example.com.") configText)

def zone : Zone := made "example.com." 1700000000 [] { dnssec := true } (some loaded)

/-- The answers of the store to a load of the zone. -/
def opened : List Program.Event := opening {} "example.com." [] (some configText) ++ told

theorem yields_zone : (load {} "example.com." 1700000000).run.Yields opened (.ok zone) := by
  obtain ⟨apex, named⟩ : ∃ apex, DomainName.parse "example.com.".toList = .ok apex :=
    ⟨ZoneSigning.Sample.apex, by decide +kernel⟩
  have config : configOf (({} : StoreKeys).zoneConfig "example.com.") "example.com." []
      (some configText) = .ok { dnssec := true } := by
    decide +kernel
  have signs : (loadSigning {} "example.com." { dnssec := true } 1700000000).Yields told
      (some loaded) := by
    rw [loadSigning, if_pos rfl]
    exact Program.yields_bind.2 ⟨told, [], _, by simp, yields_loaded, .done _⟩
  refine Fallible.yields_ofExcept_bind.2 (.inr ⟨apex, Except.mapError_eq_ok.2 named, ?_⟩)
  refine Fallible.yields_request_bind.2 (.inr ⟨([] : List String), _, rfl, ?_⟩)
  refine Fallible.yields_request_bind.2 (.inr ⟨some configText, told, rfl, ?_⟩)
  refine Fallible.yields_ofExcept_bind.2 (.inr ⟨_, config, ?_⟩)
  exact Fallible.yields_lift_bind.2 ⟨told, [], _, by simp, signs, .done _⟩

theorem held (role : KeyRole) (half : KeyHalf) :
    content.strings.get? (({} : StoreKeys).zoneKey "example.com." role half) =
      some (text role half) := by
  cases role <;> cases half <;> decide +kernel

theorem tells {w : World} (stored : w.store.memory.content = content) :
    ∀ e ∈ opened, w.Tells e := by
  have reply {key value : String} (h : content.strings.get? key = some value) :
      w.Tells (.answered (.get key) (.ok (some value))) := by
    refine ⟨some value, ?_, rfl⟩
    rw [stored]
    exact congrArg some h
  have bothHalves (role : KeyRole) :
      ∀ e ∈ toldBoth {} "example.com." role (text role .published) (text role .secret),
        w.Tells e := by
    simp only [toldBoth, List.forall_mem_cons]
    exact ⟨reply (held role .published), reply (held role .secret), List.forall_mem_nil _⟩
  simp only [opened, opening, told, List.forall_mem_append, List.forall_mem_cons]
  refine ⟨⟨⟨[], ?_, rfl⟩, reply ?_, List.forall_mem_nil _⟩, bothHalves .zsk, bothHalves .ksk⟩
  · rw [stored]
    exact congrArg some (show content.fieldNames _ = [] by decide +kernel)
  · decide +kernel

end Zone.Sample

namespace World

/-- The first zone that is asked for is answered as it is loaded, and cached. Its entry is stamped
before. -/
theorem begin_getZone_first {w : World} {lifetime : UInt64}
    (time : w.tick.tick.tick.clock = 1700000000) (prompt : w.Prompt)
    (stored : w.store.memory.content = Zone.Sample.content)
    (keys : w.catalog.keys = {}) (empty : w.catalog.zones = { lifetime }) :
    ∃ catalog store notices, w.begin (.getZone "example.com.") =
        (.answered (.zone ⟨0, w.tick.tick.clock.later lifetime, Zone.Sample.zone⟩),
          { w.tick.tick.tick with catalog, store, notices }) ∧
      catalog.zones.entries.get? "example.com." =
        some ⟨0, w.tick.tick.clock.later lifetime, Zone.Sample.zone⟩ := by
  have loads : (w.catalog.fetchZone "example.com.").run.Yields
      (.looked w.tick.tick.tick.clock :: Zone.Sample.opened) (.ok Zone.Sample.zone) := by
    refine .time w.tick.tick.tick.clock ?_
    rw [keys, time]
    exact Zone.Sample.yields_zone
  have ran (catalog : Catalog) :
      (({ w.tick.tick.tick with catalog } : World).run
        (w.catalog.fetchZone "example.com.").run).1 = .finished (.ok Zone.Sample.zone) := by
    refine Prompt.run_of_yields (w := { w.tick.tick.tick with catalog })
      ⟨prompt.works, prompt.online, prompt.latency⟩ loads ?_
    rw [List.forall_mem_cons]
    exact ⟨rfl, Zone.Sample.tells stored⟩
  obtain ⟨catalog, store, notices, fetches, cached⟩ :=
    beginLookup_of_empty CacheOf.lawful_zones .zone "example.com." empty ran rfl
  exact ⟨catalog, store, notices, congrArg (zoneStanding "example.com.") fetches, cached⟩

/-- A zone that is cached and current is answered from the cache. -/
theorem begin_getZone_current {w : World} {name : String} {entry : Entry Zone}
    (cached : w.catalog.zones.entries.get? name = some entry) (current : entry.isCurrent w.clock) :
    ∃ cache, w.begin (.getZone name) = (.answered (.zone entry), w.setCache .zones cache) := by
  have hit : (w.cacheOf .zones).current? name w.clock = some entry := by
    change (w.catalog.zones.entries.get? name).filter _ = _
    rw [cached]
    exact Option.filter_some_pos current
  obtain ⟨cache, answers⟩ := beginLookup_of_current .zone (w.catalog.fetchZone name) hit
  exact ⟨cache, congrArg (zoneStanding name) answers⟩

end World

/-- A call that is answered as it begins is over. -/
theorem Call.move_of_begin {c : Call} {w v : World} {due : Nat} {answer : Answer}
    (hs : c.state = .delayed due) (hd : due ≤ w.millis)
    (h : w.begin c.step = (.answered answer, v)) :
    ∃ cancelAt, c.move w = ({ c with cancelAt, state := .over answer }, v) := by
  simp only [move, isReady, hs, decide_eq_true hd, if_true, h, settle]
  exact ⟨_, rfl⟩

namespace Scene

open ZoneSigning.Sample (loaded)

/-- A run in which the same zone is asked for twice. It is loaded after a pause from the time at
which its entry was stamped, and answered from the cache while its entry is current. -/
theorem exists_answered_again {lifetime pause : UInt64} {stamped t : Seconds}
    (paused : stamped.later pause = 1700000000) (since : 1700000000 ≤ t)
    (current : t ≤ stamped.later lifetime) :
    ∃ settings clock readTimeout uptime w h s', settings.validate = .ok () ∧
      settings.lifetime = lifetime ∧ World.ofSettings settings clock readTimeout uptime = .ok w ∧
      Steps OnwardStep ⟨w, []⟩ h s' ∧
      ∃ e, ZoneAnswered h t e ∧ e.isCurrent t ∧ e.value.signing = some loaded := by
  let settings : Settings := { recordCache := { timeout := some lifetime } }
  have valid : settings.validate = .ok () := rfl
  obtain ⟨w, made, time, keys, empty⟩ : ∃ w : World,
      World.ofSettings settings stamped 500 0 = .ok w ∧ w.clock = stamped ∧
        w.catalog.keys = {} ∧ w.catalog.zones = { lifetime } :=
    ⟨_, World.ofSettings_eq_ok.2 ⟨valid, (show (60 : UInt64).toNat ≤ _ by decide), rfl⟩,
      rfl, rfl, rfl⟩
  let filled : World := { w with store := { memory := { content := Zone.Sample.content } } }
  let v : World := { filled with ticks := [0, 0, pause] }
  have stamps : v.tick.tick.clock = stamped := by
    change (w.clock.later 0).later 0 = stamped
    rw [Seconds.later_zero, Seconds.later_zero, time]
  have loads : v.tick.tick.tick.clock = 1700000000 := by
    rw [← paused, ← stamps]
    rfl
  obtain ⟨catalog, store, notices, fetches, cached⟩ :=
    World.begin_getZone_first (w := v) loads ⟨rfl, rfl, rfl⟩ rfl keys empty
  rw [stamps] at fetches cached
  let entry : Entry Zone := ⟨0, stamped.later lifetime, Zone.Sample.zone⟩
  let v' : World := { v.tick.tick.tick with catalog, store, notices }
  let u : World := { v' with clock := t }
  obtain ⟨cache, answers⟩ :=
    World.begin_getZone_current (w := u) cached (decide_eq_true current)
  let c := Call.ofStep w.millis { step := .getZone "example.com." }
  obtain ⟨x, first⟩ := Call.move_of_begin (c := c) (w := v) rfl (Nat.le_refl _) fetches
  obtain ⟨y, second⟩ := Call.move_of_begin (c := c) (w := u) rfl (Nat.le_refl _) answers
  have stored : OnwardStep ⟨w, []⟩ .beside ⟨filled, []⟩ := .beside (.stored _) (UInt64.le_refl _)
  have paced : OnwardStep ⟨filled, []⟩ .beside ⟨v, []⟩ := .beside (.paced _) (UInt64.le_refl _)
  have called : OnwardStep ⟨v, []⟩ .beside ⟨v, [c, c]⟩ := by
    refine .called fun d hd => .inr ?_
    obtain rfl : d = c := by simpa using hd
    exact ⟨_, rfl⟩
  have onward : v.clock ≤ v'.clock :=
    UInt64.le_trans v.clock_le_tick (UInt64.le_trans v.tick.clock_le_tick v.tick.tick.clock_le_tick)
  have fetched := OnwardStep.moved v [] c [c] (by rw [first]; exact onward)
  rw [show (c.move v).2 = v' by rw [first]] at fetched
  have waited : OnwardStep ⟨v', [(c.move v).1, c]⟩ .beside ⟨u, [(c.move v).1, c]⟩ := by
    refine .beside (.ticked t) ?_
    exact loads ▸ since
  have again := OnwardStep.moved u [(c.move v).1] c [] (by rw [second]; exact UInt64.le_refl _)
  have steps := (((((Steps.single stored).snoc paced).snoc called).snoc fetched).snoc waited).snoc
    again
  refine ⟨settings, stamped, 500, 0, w, _, _, valid, rfl, made, steps, entry, ?_,
    decide_eq_true current, rfl⟩
  exact ⟨c, u, "example.com.", by simp, rfl, rfl, by rw [second]; rfl, by rw [second]; rfl⟩

/-- Zones that are current for longer than keys are valid are answered after the end of their
keys. -/
theorem exists_outdated {lifetime : UInt64} (long : 691200 < lifetime) :
    ∃ settings clock readTimeout uptime w h s', settings.validate = .ok () ∧
      settings.lifetime = lifetime ∧ World.ofSettings settings clock readTimeout uptime = .ok w ∧
      Steps OnwardStep ⟨w, []⟩ h s' ∧
      ∃ t e signing, ZoneAnswered h t e ∧ e.isCurrent t ∧ e.value.signing = some signing ∧
        signing.zsk.expiration < t ∧ signing.ksk.expiration < t := by
  have current : (1700691201 : Seconds) ≤ (1700000000 : Seconds).later lifetime := by
    rw [UInt64.le_iff_toNat_le, Seconds.toNat_later]
    have room : (691200 : UInt64).toNat < lifetime.toNat := UInt64.lt_iff_toNat_lt.1 long
    simp only [UInt64.reduceToNat, UInt64.size] at room ⊢
    omega
  obtain ⟨settings, clock, readTimeout, uptime, w, h, s', valid, same, made, steps, e, answered,
    still, signed⟩ := exists_answered_again (Seconds.later_zero _) (by decide) current
  have ends : loaded.zsk.expiration < 1700691201 ∧ loaded.ksk.expiration < 1700691201 := by
    decide +kernel
  exact ⟨settings, clock, readTimeout, uptime, w, h, s', valid, same, made, steps, _, e, loaded,
    answered, still, signed, ends⟩

/-- In every run of a valid catalog in which the clock is never set back, the keys of a zone that is
answered from a current entry are valid at that time if zones are cached for no longer than eight
days. It may go on at any time, so that a zone is loaded later than its entry was stamped, and zones
may be dropped from the cache. This is the limit: with every longer lifetime there is a run in which
a current entry is answered with keys that have expired. -/
theorem keys_valid_while_current (lifetime : UInt64) :
    (lifetime ≤ 691200 → ∀ settings clock readTimeout uptime w h s',
      settings.validate = .ok () → settings.lifetime = lifetime →
      World.ofSettings settings clock readTimeout uptime = .ok w →
      Steps OnwardStep ⟨w, []⟩ h s' → ∀ t e signing, ZoneAnswered h t e → e.isCurrent t →
        e.value.signing = some signing → signing.zsk.IsValidAt t ∧ signing.ksk.IsValidAt t) ∧
    (691200 < lifetime → ∃ settings clock readTimeout uptime w h s', settings.validate = .ok () ∧
      settings.lifetime = lifetime ∧ World.ofSettings settings clock readTimeout uptime = .ok w ∧
      Steps OnwardStep ⟨w, []⟩ h s' ∧
      ∃ t e signing, ZoneAnswered h t e ∧ e.isCurrent t ∧ e.value.signing = some signing ∧
        signing.zsk.expiration < t ∧ signing.ksk.expiration < t) := by
  refine ⟨?_, exists_outdated⟩
  intro short settings clock readTimeout uptime w h s' _ same made run t e signing answered current
    signed
  have dated : Dated settings.lifetime ([] ++ h) s' :=
    run.preserves (dated_of_settings made) fun _ _ _ _ dated step => dated.step step
  exact (dated.answered t e answered).isValidAt (same ▸ short) current signed

/-- A zone that is loaded ten seconds after its entry was stamped, with the longest lifetime, is
answered from the cache with valid keys in the last second of its entry. -/
theorem keys_valid_while_current_last_second : ∃ settings clock readTimeout uptime w h s',
    settings.validate = .ok () ∧ settings.lifetime = 691200 ∧
      World.ofSettings settings clock readTimeout uptime = .ok w ∧
      Steps OnwardStep ⟨w, []⟩ h s' ∧
      ∃ e signing, ZoneAnswered h 1700691190 e ∧ e.isCurrent 1700691190 ∧
        e.value.signing = some signing ∧ signing.zsk.IsValidAt 1700691190 ∧
        signing.ksk.IsValidAt 1700691190 := by
  obtain ⟨settings, clock, readTimeout, uptime, w, h, s', valid, same, made, steps, e, answered,
    current, signed⟩ :=
    exists_answered_again (show (1699999990 : Seconds).later 10 = 1700000000 by decide)
      (show 1700000000 ≤ (1700691190 : Seconds) by decide)
      (show 1700691190 ≤ (1699999990 : Seconds).later 691200 by decide)
  have keys := (keys_valid_while_current 691200).1 (UInt64.le_refl _) settings clock readTimeout
    uptime w h s' valid same made steps _ e loaded answered current signed
  exact ⟨settings, clock, readTimeout, uptime, w, h, s', valid, same, made, steps, e, loaded,
    answered, current, signed, keys⟩

end Scene

end ZoneCatalog
