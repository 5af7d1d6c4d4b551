import Mathlib.Data.List.Nodup
import Mathlib.Data.List.Perm.Subperm
import ZoneCatalog.Proofs.Catalog.Handover

/-! No refresher is left behind, however starts and shutdowns of a catalog pass each other. -/
namespace ZoneCatalog

open Refresher (Occurrence)

/-! Scenes. -/

/-- What is seen of a step around a catalog. -/
inductive Sign where
  | aside
  /-- A refresher of the catalog moved, and met with something unless its request is on its way. -/
  | turned (number : Nat) (met : Option Occurrence)

/-- A step of a scene in which a catalog is started and shut down. Calls for it come at any time and
leave when they are over, each moves when it can, as does each refresher of the catalog, and in
between anything may happen around them: the store fails or works again, time passes, others
write. -/
inductive HandoverStep : Scene → Sign → Scene → Prop where
  | called {w : World} {calls : List Call} {step : Step} (asks : step = .start ∨ step = .shutdown)
      (startAfter : Nat) :
      HandoverStep ⟨w, calls⟩ .aside ⟨w, calls ++ [.ofStep w.millis { step, startAfter }]⟩
  | left {w : World} {before after : List Call} {c : Call} {answer : Answer}
      (ended : c.state = .over answer) :
      HandoverStep ⟨w, before ++ c :: after⟩ .aside ⟨w, before ++ after⟩
  | moved (w : World) (before : List Call) (c : Call) (after : List Call) :
      HandoverStep ⟨w, before ++ c :: after⟩ .aside
        ⟨(c.move w).2, before ++ (c.move w).1 :: after⟩
  | turned {w w' : World} {calls : List Call} {n : Nat} {k : Worker} {met : Option Occurrence}
      (ours : w.crew n = some k) (h : w.stepWorker n = some w') (seen : w.meets n = some met) :
      HandoverStep ⟨w, calls⟩ (.turned n met) ⟨w', calls⟩
  | beside {w w' : World} {calls : List Call} (around : w.Around w') :
      HandoverStep ⟨w, calls⟩ .aside ⟨w', calls⟩

/-- The refreshers of the catalog that have not come to their end. -/
def World.running (w : World) : List Nat :=
  (List.range w.workers.length).filter fun n =>
    (w.workers[n]?).any fun k => k.owner = .catalog && !k.refresher.phase.isFinal

namespace Scene

variable {s s' : Scene} {h : List Sign} {n : Nat} {feed : FeedId}

/-- A feed was opened for a refresher of the catalog. -/
def Opened (h : List Sign) (n : Nat) (feed : FeedId) : Prop :=
  .turned n (some (.subscribed (.ok feed))) ∈ h

/-- Every refresher that has not come to its end has its place or is awaited by a call. -/
structure Tended (h : List Sign) (s : Scene) : Prop where
  minds : ∀ c ∈ s.calls, c.Minds
  manned : s.world.Manned (fun n => ∃ c ∈ s.calls, c.Awaits n) (Opened h)

theorem opened_snoc {e : Sign} : Opened (h ++ [e]) n feed ↔
    Opened h n feed ∨ e = .turned n (some (.subscribed (.ok feed))) := by
  simp [Opened, eq_comm]

theorem opened_aside : Opened (h ++ [.aside]) = Opened h := by
  funext n feed
  simp [opened_snoc]

theorem exists_awaits {before after : List Call} {c : Call} :
    (∃ d ∈ before ++ c :: after, d.Awaits n) ↔
      (∃ d ∈ before ++ after, d.Awaits n) ∨ c.Awaits n := by
  simp only [List.mem_append, List.mem_cons]
  grind

theorem tended_of_settings {settings : Settings} {clock : Seconds} {readTimeout uptime : Nat}
    {w : World} (made : World.ofSettings settings clock readTimeout uptime = .ok w) :
    Tended [] ⟨w, []⟩ := by
  obtain ⟨-, -, rfl⟩ := World.ofSettings_eq_ok.1 made
  refine ⟨by simp, ?_, by simp, by simp, ?_, ?_⟩
  · simp [World.crew]
  · simp [World.crew]
  · simp [Opened]

theorem Tended.move {w : World} {before after : List Call} {c : Call}
    (tended : Tended h ⟨w, before ++ c :: after⟩) :
    Call.Hands (fun n => ∃ d ∈ before ++ after, d.Awaits n) c.Awaits (Opened h) w (c.move w) := by
  have manned := tended.manned
  simp only [exists_awaits] at manned
  exact Call.move_hands (tended.minds c (by simp)) manned

theorem Tended.step {e : Sign} (tended : Tended h s) (step : HandoverStep s e s') :
    Tended (h ++ [e]) s' := by
  cases step with
  | @called w calls step asks startAfter =>
    constructor
    · intro c hc
      rcases List.mem_append.1 hc with old | new
      · exact tended.minds c old
      · rw [List.mem_singleton.1 new]
        exact ⟨asks, rfl, rfl, by simp [Call.ofStep]⟩
    · rw [opened_aside]
      refine tended.manned.awaits ?_ ?_
      · intro n ⟨c, hc, waits⟩
        rcases List.mem_append.1 hc with old | new
        · exact tended.manned.known n ⟨c, old, waits⟩
        · rw [List.mem_singleton.1 new] at waits
          obtain ⟨_, ⟨⟩⟩ := waits
      · intro n k ⟨c, hc, waits⟩ _ _
        exact ⟨c, List.mem_append_left _ hc, waits⟩
  | @left w before after c answer ended =>
    constructor
    · intro d hd
      have more := (List.sublist_cons_self c after).append_left before
      exact tended.minds d (more.subset hd)
    · have manned := tended.manned
      have idle (n : Nat) : ¬ c.Awaits n := by simp [Call.Awaits, ended]
      simp only [exists_awaits, idle, or_false] at manned
      rwa [opened_aside]
  | moved w before c after =>
    obtain ⟨minds, manned, -⟩ := tended.move
    constructor
    · intro d hd
      rcases mem_moved (c := c) hd with rfl | other
      · exact minds
      · exact tended.minds d other
    · simp only [exists_awaits]
      rwa [opened_aside]
  | @turned w w' calls n k met ours h seen =>
    obtain ⟨fits, -, sound⟩ := tended.manned.follows n k ours
    have turned := World.stepWorker_turned ours fits sound h seen
    refine ⟨tended.minds, tended.manned.turned ours turned fun m feed here => ?_⟩
    refine (opened_snoc.1 here).imp_right fun last => ?_
    cases last
    exact ⟨rfl, rfl⟩
  | beside around =>
    refine ⟨tended.minds, ?_⟩
    rw [opened_aside]
    exact tended.manned.around around

end Scene

namespace World

variable {w : World} {n : Nat} {awaited : Nat → Prop} {opened : Nat → FeedId → Prop}

theorem mem_running : n ∈ w.running ↔
    ∃ k, w.crew n = some k ∧ k.refresher.phase.isFinal = false := by
  simp only [running, List.mem_filter, List.mem_range, Option.any_eq_true, Bool.and_eq_true,
    decide_eq_true_eq, Bool.not_eq_true', crew_eq_some]
  constructor
  · intro ⟨_, k, hk, ours, alive⟩
    exact ⟨_, ⟨k, hk, ours, rfl⟩, alive⟩
  · rintro ⟨_, ⟨k, hk, ours, rfl⟩, alive⟩
    exact ⟨(List.getElem?_eq_some_iff.1 hk).1, k, hk, ours, alive⟩

theorem nodup_running (w : World) : w.running.Nodup := List.nodup_range.filter _

theorem running_sublist (within : ∀ n ∈ w.running, w.catalog.refresher = some n) :
    w.running.Sublist w.catalog.refresher.toList := by
  rcases hr : w.running with _ | ⟨n, rest⟩
  · exact List.nil_sublist _
  · have alone : rest = [] := by
      rw [List.eq_nil_iff_forall_not_mem]
      intro m mem
      have nodup := w.nodup_running
      rw [hr] at within nodup
      have first := within n List.mem_cons_self
      have other := within m (List.mem_cons_of_mem n mem)
      cases first.symm.trans other
      exact (List.nodup_cons.1 nodup).1 mem
    have place : w.catalog.refresher = some n := within n (hr ▸ List.mem_cons_self)
    rw [alone, place]
    exact .refl _

/-- Every refresher has one feed at most, so there are no more feeds than refreshers. -/
theorem Manned.length_le_running (manned : w.Manned awaited opened) {feeds : List FeedId}
    (distinct : feeds.Nodup)
    (here : ∀ feed ∈ feeds, (∃ n, opened n feed) ∧ w.store.IsOpen feed) :
    feeds.length ≤ w.running.length := by
  have held : ∀ feed ∈ feeds, ∃ n k, w.crew n = some k ∧ k.refresher.feed = some feed := by
    intro feed mem
    obtain ⟨⟨n, given⟩, isOpen⟩ := here feed mem
    exact ⟨n, (manned.held n feed given).2 isOpen⟩
  choose! holder held using held
  have subset : feeds.map holder ⊆ w.running := by
    intro n hn
    obtain ⟨feed, mem, rfl⟩ := List.mem_map.1 hn
    obtain ⟨k, hk, has⟩ := held feed mem
    refine mem_running.2 ⟨k, hk, ?_⟩
    rw [Bool.eq_false_iff]
    intro final
    cases ((manned.follows _ k hk).sound.feed_of_isFinal final).symm.trans has
  have distinct : (feeds.map holder).Nodup := by
    refine List.Nodup.map_on ?_ distinct
    intro feed mem feed' mem' same
    obtain ⟨k, hk, has⟩ := held feed mem
    obtain ⟨k', hk', has'⟩ := held feed' mem'
    rw [same, hk'] at hk
    cases hk
    exact Option.some.inj (has.symm.trans has')
  have fewer := (distinct.subperm subset).length_le
  rwa [List.length_map] at fewer

theorem Manned.running_eq (manned : w.Manned awaited opened) (unawaited : ∀ n, ¬ awaited n) :
    w.running.Sublist w.catalog.refresher.toList ∧
      (w.InTime → w.running = w.catalog.refresher.toList) := by
  have within : ∀ n ∈ w.running, w.catalog.refresher = some n := by
    intro n hn
    obtain ⟨k, hk, alive⟩ := mem_running.1 hn
    exact (manned.manned n k hk alive).resolve_right (unawaited n)
  have fewer := running_sublist within
  refine ⟨fewer, fun inTime => fewer.antisymm ?_⟩
  cases place : w.catalog.refresher with
  | none => exact List.nil_sublist _
  | some n =>
    obtain ⟨k, hk, untold⟩ := manned.placed n place
    obtain ⟨-, plan, sound⟩ := manned.follows n k hk
    refine List.singleton_sublist.2 (mem_running.2 ⟨k, hk, ?_⟩)
    cases hp : k.refresher.phase with
    | finished => simp [sound.told (.inr hp)] at untold
    | failed => exact absurd (plan ▸ inTime) (sound.late hp)
    | _ => rfl

end World

namespace Scene

variable {s : Scene} {h : List Sign}

theorem tended_of_run {settings : Settings} {clock : Seconds} {readTimeout uptime : Nat}
    {w : World} (made : World.ofSettings settings clock readTimeout uptime = .ok w)
    (run : Steps HandoverStep ⟨w, []⟩ h s) : Tended h s :=
  run.preserves (P := Tended) (tended_of_settings made) fun _ _ _ _ tended step => tended.step step

theorem Tended.running_eq (tended : Tended h s) (quiet : ∀ c ∈ s.calls, ¬ c.IsUnderway) :
    s.world.running.Sublist s.world.catalog.refresher.toList ∧
      (s.world.InTime → s.world.running = s.world.catalog.refresher.toList) := by
  refine tended.manned.running_eq fun n ⟨c, hc, _, waits⟩ => ?_
  exact quiet c hc ⟨_, waits⟩

/-- However starts and shutdowns of a catalog pass each other, whether its zones can be read or not,
no refresher is left behind. While no such call is under way, only the refresher with the place in
the catalog is running, and it is unless its intervals reach past the end of time; at no time are
more feeds open that were opened for refreshers than refreshers are running. A call that takes a
refresher out of its place, or takes the place of it, is not over before that refresher has come to
its end and closed its feeds. -/
theorem no_refresher_left_behind {settings : Settings} {clock : Seconds} {readTimeout uptime : Nat}
    {w : World} {h : List Sign} {s : Scene}
    (made : World.ofSettings settings clock readTimeout uptime = .ok w)
    (run : Steps HandoverStep ⟨w, []⟩ h s) :
    ((∀ c ∈ s.calls, ¬ c.IsUnderway) →
      s.world.running.Sublist s.world.catalog.refresher.toList ∧
        (s.world.InTime → s.world.running = s.world.catalog.refresher.toList)) ∧
    (∀ feeds : List FeedId, feeds.Nodup →
      (∀ feed ∈ feeds, (∃ n, Opened h n feed) ∧ s.world.store.IsOpen feed) →
        feeds.length ≤ s.world.running.length) ∧
    ∀ c ∈ s.calls, ∀ n, c.Awaits n ∨ (s.world.catalog.refresher = some n ∧
        (c.move s.world).2.catalog.refresher ≠ some n) →
      (c.move s.world).1.Awaits n ∨ (∃ answer, (c.move s.world).1.state = .over answer) ∧
        (c.move s.world).2.Ended (Opened h) n := by
  have tended := tended_of_run made run
  refine ⟨tended.running_eq, fun feeds => tended.manned.length_le_running, ?_⟩
  intro c hc
  obtain ⟨before, after, split⟩ := List.append_of_mem hc
  obtain ⟨world, calls⟩ := s
  cases split
  exact tended.move.ends

/-- Two starts pass each other over a slow store. The second takes the place of the refresher of the
first, and is over when that one has come to its end. -/
theorem no_refresher_left_behind_race : ∃ w h s, World.ofSettings {} 1700000000 500 = .ok w ∧
    Steps HandoverStep ⟨w, []⟩ h s ∧ s.world.catalog.refresher = some 1 ∧
      s.world.running = s.world.catalog.refresher.toList := by
  obtain ⟨w, made, start⟩ : ∃ w : World, World.ofSettings {} 1700000000 500 = .ok w ∧ w = {
      clock := 1700000000
      store := { memory := { readTimeout := 500 } }
      catalog := {
        keys := {}
        reloadEvery := 60000
        zones := { lifetime := 60 }
        locations := { lifetime := 60 } } } := ⟨_, rfl, rfl⟩
  have wait (w : World) (calls : List Call) (millis : Nat) (later : w.millis ≤ millis) :
      HandoverStep ⟨w, calls⟩ .aside ⟨{ w with millis }, calls⟩ :=
    .beside ⟨rfl, rfl, later, rfl, .refl _, rfl⟩
  have turn {w w' : World} {calls : List Call} {k : Worker} (n : Nat) (met : Option Occurrence)
      (ours : w.crew n = some k) (h : w.stepWorker n = some w') (seen : w.meets n = some met) :
      HandoverStep ⟨w, calls⟩ (.turned n met) ⟨w', calls⟩ := .turned ours h seen
  have slow : HandoverStep ⟨w, []⟩ .aside
      ⟨{ w with store := { w.store with memory := { w.store.memory with latency := 10 } } }, []⟩ :=
    .beside (w.around_move (.tuned _ _ _))
  subst start
  have s := Steps.single slow
  have s := s.snoc (.called (.inl rfl) 0)
  have s := s.snoc (.called (.inl rfl) 0)
  have s := s.snoc (.moved _ [] _ [_])
  have s := s.snoc (.moved _ [_] _ [])
  have s := s.snoc (wait _ _ 10 (by decide))
  have s := s.snoc (.moved _ [] _ [_])
  have s := s.snoc (.moved _ [_] _ [])
  have s := s.snoc (turn 0 none rfl rfl rfl)
  have s := s.snoc (wait _ _ 20 (by decide))
  have s := s.snoc (turn 0 (some (.subscribed (.ok (.live 0)))) rfl rfl rfl)
  have s := s.snoc (turn 0 (some .stopped) rfl rfl rfl)
  have s := s.snoc (turn 0 (some .closed) rfl rfl rfl)
  have s := s.snoc (.moved _ [_] _ [])
  refine ⟨_, _, _, made, s, rfl, ?_⟩
  refine ((no_refresher_left_behind made s).1 ?_).2 ?_
  · exact Call.none_underway rfl
  · exact ⟨by decide, by decide⟩

/-- A refresher whose interval reaches past the end of time comes to its end as it begins, and keeps
its place. -/
theorem place_without_refresher : ∃ settings w h s,
    World.ofSettings settings 1700000000 500 = .ok w ∧ Steps HandoverStep ⟨w, []⟩ h s ∧
      (∀ c ∈ s.calls, ¬ c.IsUnderway) ∧ s.world.catalog.refresher = some 0 ∧
        s.world.running = [] := by
  let settings : Settings := { zoneReload := some 9223372036854775807 }
  obtain ⟨w, made, start⟩ : ∃ w : World, World.ofSettings settings 1700000000 500 = .ok w ∧ w = {
      clock := 1700000000
      store := { memory := { readTimeout := 500 } }
      catalog := {
        keys := {}
        reloadEvery := (9223372036854775807 : UInt64).toNat * 1000
        zones := { lifetime := 60 }
        locations := { lifetime := 60 } } } :=
    ⟨_, World.ofSettings_eq_ok.2 ⟨rfl, by decide, rfl⟩, rfl⟩
  have called : HandoverStep ⟨w, []⟩ .aside ⟨w, [.ofStep w.millis { step := .start }]⟩ :=
    .called (.inl rfl) 0
  subst start
  have s := (Steps.single called).snoc (.moved _ [] _ [])
  have s := s.snoc (.turned (n := 0) rfl rfl rfl)
  exact ⟨settings, _, _, _, made, s, Call.none_underway rfl, rfl, rfl⟩

end Scene

end ZoneCatalog
