import ZoneCatalog.Proofs.Refresher.Turn
import ZoneCatalog.Proofs.Steps

/-! No change to the zone set is lost on a refresher. Whenever it waits for something to happen and
has a feed, its index is that of the zone set, or it knows that it may not be, or an event that will
tell it so waits in the feed. The store drops what a full feed cannot take, and a feed says nothing
of the time before it was opened; neither does harm, since what is in the feed already is enough. -/
namespace ZoneCatalog

open Refresher (Occurrence)

namespace World

/-- The zone set as it is stored. -/
def zoneSet (w : World) (plan : RefresherPlan) : List String :=
  w.store.memory.content.members plan.zoneSet

/-- The feed of a refresher. -/
def feedOf (w : World) (n : Nat) : Option FeedId := (w.workers[n]?).bind (·.refresher.feed)

/-- A feed has an event that nobody has read. -/
def HasUnread (w : World) (feed : FeedId) : Prop := ∃ e, (w.store.readFeed feed).1 = .event e

end World

/-- What is seen of a step of a refresher, or of a step around it. -/
inductive Seen where
  | aside
  /-- The index of the zone set as it is was published by somebody else. -/
  | published (zones : List String)
  /-- The refresher moved, and met with something unless its request is on its way. -/
  | moved (met : Option Occurrence)

/-- The zones of a complete reading of the zone set that is published. -/
def Seen.read? : Seen → Option (List String)
  | published zones => some zones
  | moved (some (.loaded (.ok zones))) => some zones
  | _ => none

/-- A step of a refresher, or of what is around it. Writes to any keys and all that other feeds do
may come at any time, as may failures, a request to stop, and whatever else leaves the refresher,
its index and the store alone. -/
inductive RefresherStep (n : Nat) (plan : RefresherPlan) (owner : IndexOwner) (w : World) :
    Seen → World → Prop where
  | stirred {memory : MemoryStore} (move : w.store.memory.Move (w.feedOf n) memory) :
      RefresherStep n plan owner w .aside { w with store := { w.store with memory } }
  | failing (failure : Option StoreError) :
      RefresherStep n plan owner w .aside { w with store := { w.store with failure } }
  | told : RefresherStep n plan owner w .aside (w.stop n)
  | elsewhere {w' : World} (store : w'.store = w.store)
      (worker : w'.workers[n]? = w.workers[n]?)
      (index : w'.indexOf? owner = w.indexOf? owner) : RefresherStep n plan owner w .aside w'
  | published : RefresherStep n plan owner w (.published (w.zoneSet plan))
      (w.publish owner (.ofList (w.zoneSet plan)))
  | moved {met : Option Occurrence} {w' : World} (h : w.stepWorker n = some w')
      (seen : w.meets n = some met) : RefresherStep n plan owner w (.moved met) w'

/-- A refresher with a plan starts on an index. -/
structure Starts (w : World) (n : Nat) (plan : RefresherPlan) (owner : IndexOwner)
    (first : ZoneIndex) : Prop where
  worker : w.workers[n]? = some { refresher := .starting plan, owner }
  index : w.indexOf? owner = some first
  /-- Feeds are filled by the store. -/
  automatic : w.store.manualFeeds = false
  numbered : w.store.memory.Numbered

namespace World

variable {w v : World} {n : Nat} {k : Worker} {plan : RefresherPlan} {owner : IndexOwner}
  {first : ZoneIndex} {h : List Seen}

theorem zoneSet_of_store (store : v.store = w.store) : v.zoneSet plan = w.zoneSet plan := by
  rw [zoneSet, zoneSet, store]

/-- What a feed makes up for: the index is that of the zone set, or the refresher knows that it may
not be, or the feed will tell it. -/
def MadeUp (w : World) (plan : RefresherPlan) (owner : IndexOwner) (r : Refresher) (f : Feed) :
    Prop :=
  w.indexOf? owner = some (.ofList (w.zoneSet plan)) ∨ r.modified = true ∨ f.queue ≠ []

/-- The feed of a refresher tells it of the changes to its zone set, and of all it may not know. -/
def Listens (w : World) (plan : RefresherPlan) (owner : IndexOwner) (r : Refresher)
    (feed : FeedId) : Prop :=
  ∃ number f, feed = .live number ∧ w.store.memory.Hears number plan.zoneSet f ∧
    w.MadeUp plan owner r f

/-- How a refresher stands to the world. -/
structure Tracks (w : World) (plan : RefresherPlan) (owner : IndexOwner) (k : Worker) : Prop where
  owner_eq : k.owner = owner
  plan_eq : k.refresher.plan = plan
  fits : Fits k
  alone : k.refresher.phase = .subscribing ∨ k.refresher.phase = .resubscribing →
    k.refresher.feed = none
  reloading : k.refresher.phase = .reloading → k.refresher.modified = true
  listens : ∀ feed, k.refresher.feed = some feed →
    k.refresher.phase = .idle ∨ k.refresher.phase = .reloading →
      w.Listens plan owner k.refresher feed

theorem Tracks.turn {met : Option Occurrence} {w' : World} (tracks : w.Tracks plan owner k)
    (hk : w.workers[n]? = some k) (s : RefresherStep n plan owner w (.moved met) w') :
    Turn w n k met w' := by
  cases s with
  | moved moves seen => exact observe_turn hk tracks.fits (observe_of_stepWorker moves seen)

/-- An index that was there at first, or that of a complete reading of the zone set. -/
def Past (first : ZoneIndex) (h : List Seen) (index : ZoneIndex) : Prop :=
  index = first ∨ ∃ e ∈ h, ∃ zones, e.read? = some zones ∧ index = .ofList zones

theorem Past.append {index : ZoneIndex} (past : Past first h index) (e : Seen) :
    Past first (h ++ [e]) index := by
  rcases past with rfl | ⟨d, hd, rest⟩
  · exact .inl rfl
  · exact .inr ⟨d, List.mem_append_left _ hd, rest⟩

/-- The invariant of a refresher in its world. -/
structure InStep (w : World) (n : Nat) (plan : RefresherPlan) (owner : IndexOwner)
    (first : ZoneIndex) (h : List Seen) : Prop where
  automatic : w.store.manualFeeds = false
  numbered : w.store.memory.Numbered
  index : ∃ index, w.indexOf? owner = some index ∧ Past first h index
  worker : ∃ k, w.workers[n]? = some k ∧ w.Tracks plan owner k

theorem InStep.of_starts (start : Starts w n plan owner first) :
    w.InStep n plan owner first [] := by
  refine ⟨start.automatic, start.numbered, ⟨first, start.index, .inl rfl⟩, _, start.worker, ?_⟩
  constructor
  · rfl
  · rfl
  · intro work hw
    cases hw
  · intro _
    rfl
  · intro hp
    cases hp
  · intro feed hf
    cases hf

/-- A refresher that was left alone while its store moved still listens. -/
theorem Listens.heard {r : Refresher} {feed : FeedId} (listens : w.Listens plan owner r feed)
    (index : v.indexOf? owner = w.indexOf? owner)
    (move : w.store.memory.Move (some feed) v.store.memory) : v.Listens plan owner r feed := by
  obtain ⟨number, f, rfl, hears, made⟩ := listens
  obtain ⟨f', hears', unread, same⟩ := hears.move move
  refine ⟨number, f', rfl, hears', ?_⟩
  rcases same with same | news
  · rcases made with current | modified | news
    · left
      rw [index, current, zoneSet, zoneSet, same]
    · exact .inr (.inl modified)
    · exact .inr (.inr (unread news))
  · exact .inr (.inr news)

theorem Listens.same {r r' : Refresher} {feed : FeedId} (listens : w.Listens plan owner r feed)
    (index : v.indexOf? owner = w.indexOf? owner) (store : v.store = w.store)
    (flag : r.modified = true → r'.modified = true) : v.Listens plan owner r' feed := by
  obtain ⟨number, f, rfl, hears, made⟩ := listens
  refine ⟨number, f, rfl, store ▸ hears, ?_⟩
  unfold MadeUp zoneSet at made ⊢
  rw [index, store]
  exact made.imp_right (.imp_left flag)

/-- The invariant after something that leaves the refresher itself as it is. -/
theorem InStep.around {e : Seen} (inStep : w.InStep n plan owner first h)
    (automatic : v.store.manualFeeds = false) (numbered : v.store.memory.Numbered)
    (worker : v.workers[n]? = w.workers[n]?) (index : v.indexOf? owner = w.indexOf? owner)
    (listens : ∀ k feed, w.workers[n]? = some k → k.refresher.feed = some feed →
      w.Listens plan owner k.refresher feed → v.Listens plan owner k.refresher feed) :
    v.InStep n plan owner first (h ++ [e]) := by
  obtain ⟨i, hi, past⟩ := inStep.index
  obtain ⟨k, hk, tracks⟩ := inStep.worker
  refine ⟨automatic, numbered, ⟨i, index.trans hi, past.append e⟩, k, worker.trans hk, ?_⟩
  exact { tracks with listens feed hf hp := listens k feed hk hf (tracks.listens feed hf hp) }

@[simp] theorem indexOf?_store (w : World) (store : ScriptedStore) (owner : IndexOwner) :
    { w with store }.indexOf? owner = w.indexOf? owner := by
  cases owner <;> rfl

theorem InStep.happen {o : Occurrence} {c : Refresher.Consequence} {e : Seen}
    (hc : k.refresher.react v.endOfTime v.millis o = c) (hk : v.workers[n]? = some k)
    (howner : k.owner = owner) (automatic : v.store.manualFeeds = false)
    (numbered : v.store.memory.Numbered) (hplan : c.refresher.plan = plan)
    (index : ∃ index, (v.happen n k o).indexOf? owner = some index ∧ Past first (h ++ [e]) index)
    (alone : c.refresher.phase = .subscribing ∨ c.refresher.phase = .resubscribing →
      c.refresher.feed = none)
    (reloading : c.refresher.phase = .reloading → c.refresher.modified = true)
    (listens : ∀ feed, c.refresher.feed = some feed →
      c.refresher.phase = .idle ∨ c.refresher.phase = .reloading →
        (v.happen n k o).Listens plan owner c.refresher feed) :
    (v.happen n k o).InStep n plan owner first (h ++ [e]) := by
  obtain ⟨paused, worker⟩ := happen_worker hc hk
  refine ⟨?_, ?_, index, _, worker, howner, hplan, ?_, alone, reloading, listens⟩
  · rw [happen_store hc]
    split
    · rename_i feed _
      cases feed <;> exact automatic
    · exact automatic
  · rw [happen_store hc]
    split
    · rename_i feed _
      cases feed with
      | live number => exact numbered.closeFeed number
      | manual number => exact numbered
    · exact numbered
  · intro work hw
    cases hw

theorem InStep.unpublished {o : Occurrence} {c : Refresher.Consequence} {e : Seen}
    (inStep : w.InStep n plan owner first h) (store : ScriptedStore)
    (hk : w.workers[n]? = some k) (tracks : w.Tracks plan owner k)
    (hc : k.refresher.react w.endOfTime w.millis o = c) (automatic : store.manualFeeds = false)
    (numbered : store.memory.Numbered) (publish : c.publish = none)
    (hplan : c.refresher.plan = k.refresher.plan)
    (alone : c.refresher.phase = .subscribing ∨ c.refresher.phase = .resubscribing →
      c.refresher.feed = none)
    (reloading : c.refresher.phase = .reloading → c.refresher.modified = true)
    (listens : ∀ feed, c.refresher.feed = some feed →
      c.refresher.phase = .idle ∨ c.refresher.phase = .reloading →
        c.close = none ∧ { w with store }.Listens plan owner c.refresher feed) :
    ({ w with store }.happen n k o).InStep n plan owner first (h ++ [e]) := by
  have hc' : k.refresher.react { w with store }.endOfTime { w with store }.millis o = c := hc
  obtain rfl := tracks.owner_eq
  have index := happen_indexOf? (n := n) hc'
  simp only [publish, indexOf?_store] at index
  refine InStep.happen hc' hk rfl automatic numbered (hplan.trans tracks.plan_eq) ?_ alone
    reloading ?_
  · obtain ⟨i, hi, past⟩ := inStep.index
    exact ⟨i, index.trans hi, past.append e⟩
  · intro feed hf hp
    obtain ⟨close, listens⟩ := listens feed hf hp
    have store := happen_store (n := n) hc'
    simp only [close] at store
    exact listens.same (by simp [index]) store id

/-- The invariant after something upon which the refresher keeps its feed and forgets nothing. -/
theorem InStep.kept {o : Occurrence} {c : Refresher.Consequence} {e : Seen}
    (inStep : w.InStep n plan owner first h) (hk : w.workers[n]? = some k)
    (tracks : w.Tracks plan owner k) (hc : k.refresher.react w.endOfTime w.millis o = c)
    (publish : c.publish = none) (close : c.close = none)
    (hplan : c.refresher.plan = k.refresher.plan) (feed : c.refresher.feed = k.refresher.feed)
    (flag : k.refresher.modified = true → c.refresher.modified = true)
    (alone : c.refresher.phase = .subscribing ∨ c.refresher.phase = .resubscribing →
      c.refresher.feed = none)
    (reloading : c.refresher.phase = .reloading → c.refresher.modified = true)
    (listening : c.refresher.phase = .idle ∨ c.refresher.phase = .reloading →
      k.refresher.phase = .idle ∨ k.refresher.phase = .reloading) :
    (w.happen n k o).InStep n plan owner first (h ++ [e]) := by
  refine inStep.unpublished w.store hk tracks hc inStep.automatic inStep.numbered publish hplan
    alone reloading ?_
  intro found hf hp
  exact ⟨close, (tracks.listens found (feed ▸ hf) (listening hp)).same rfl rfl flag⟩

theorem Listens.unread {r : Refresher} {feed : FeedId} (listens : w.Listens plan owner r feed)
    (silent : (w.store.readFeed feed).1 = .silent) :
    w.indexOf? owner = some (.ofList (w.zoneSet plan)) ∨ r.modified = true := by
  obtain ⟨number, f, rfl, hears, current | modified | news⟩ := listens
  · exact .inl current
  · exact .inr modified
  · obtain ⟨e, rest, hq⟩ := List.exists_cons_of_ne_nil news
    simp [ScriptedStore.readFeed, MemoryStore.readFeed_of_queue hears.isOpen hq] at silent

theorem InStep.subscribed {e : Seen} {result : Except StoreError FeedId} {store : ScriptedStore}
    (inStep : w.InStep n plan owner first h) (hk : w.workers[n]? = some k)
    (tracks : w.Tracks plan owner k)
    (hp : k.refresher.phase = .subscribing ∨ k.refresher.phase = .resubscribing)
    (gives : w.store.Gives (.subscribe k.refresher.plan.zoneSet) result store) :
    ({ w with store }.happen n k (.subscribed result)).InStep n plan owner first (h ++ [e]) := by
  have automatic := inStep.automatic
  have numbered := inStep.numbered
  obtain ⟨c, hc⟩ : ∃ c, k.refresher.react w.endOfTime w.millis (.subscribed result) = c := ⟨_, rfl⟩
  have consequence : c.publish = none ∧ c.refresher.plan = k.refresher.plan ∧
      (c.refresher.phase = .failed ∨ c.refresher.phase = .idle ∧ c.close = none ∧
        c.refresher.feed = (Refresher.feedOf k.refresher.plan.zoneSet result).1) := by
    subst hc
    rcases hp with hp | hp
    · simp only [Refresher.react, hp, Refresher.begin]
      split <;> simp
    · simp [Refresher.react, hp]
  obtain ⟨publish, hplan, ends⟩ := consequence
  have hears : store.manualFeeds = false ∧ store.memory.Numbered ∧
      ∀ feed, (Refresher.feedOf k.refresher.plan.zoneSet result).1 = some feed →
        { w with store }.Listens plan owner c.refresher feed := by
    rcases gives.subscribe_inv automatic with ⟨cause, rfl, rfl⟩ | ⟨rfl, rfl⟩
    · exact ⟨automatic, numbered, fun feed hf => by cases hf⟩
    · refine ⟨automatic, numbered.openFeed _, fun feed hf => ?_⟩
      cases hf
      have hears := MemoryStore.hears_openFeed numbered k.refresher.plan.zoneSet
      rw [tracks.plan_eq] at hears ⊢
      exact ⟨_, _, rfl, hears, .inr (.inr (by simp [Feed.opened]))⟩
  obtain ⟨automatic', numbered', listens⟩ := hears
  refine inStep.unpublished _ hk tracks hc automatic' numbered' publish hplan ?_ ?_ ?_
  · rcases ends with failed | ⟨idle, _⟩
    · simp [failed]
    · simp [idle]
  · rcases ends with failed | ⟨idle, _⟩
    · simp [failed]
    · simp [idle]
  · intro feed hf phase
    rcases ends with failed | ⟨_, close, same⟩
    · simp [failed] at phase
    · exact ⟨close, listens feed (same ▸ hf)⟩

theorem react_loaded_ok (r : Refresher) (ending now : Nat) (zones : List String) :
    ∃ notices, r.react ending now (.loaded (.ok zones)) =
      { refresher := { r with phase := .idle, modified := false }, notices
        publish := some (.ofList zones) } :=
  ⟨_, rfl⟩

/-- A reading of the zone set is complete, and its index is published. -/
theorem happen_loaded_ok (tracks : w.Tracks plan owner k) (shown : (w.indexOf? owner).isSome)
    {zones : List String} {store : ScriptedStore}
    (gives : w.store.Gives (.members k.refresher.plan.zoneSet) (.ok zones) store) :
    zones = w.zoneSet plan ∧
      ({ w with store }.happen n k (.loaded (.ok zones))).indexOf? owner = some (.ofList zones) ∧
      ({ w with store }.happen n k (.loaded (.ok zones))).store = store := by
  obtain ⟨notices, hc⟩ := react_loaded_ok k.refresher w.endOfTime w.millis zones
  obtain ⟨index, hi⟩ := Option.isSome_iff_exists.1 shown
  have published := happen_indexOf? (w := { w with store }) (n := n) hc
  have kept := happen_store (w := { w with store }) (n := n) hc
  rw [tracks.owner_eq] at published
  refine ⟨?_, by simpa [hi] using published, kept⟩
  rcases gives.members_inv with ⟨cause, hr, _⟩ | ⟨hr, _⟩
  · cases hr
  · rw [Except.ok.inj hr, zoneSet, tracks.plan_eq]

/-- A reading that fails leaves the index, and what it is taken for. -/
theorem happen_loaded_error (hk : w.workers[n]? = some k) (tracks : w.Tracks plan owner k)
    (cause : StoreError) (store : ScriptedStore) :
    ({ w with store }.happen n k (.loaded (.error cause))).indexOf? owner = w.indexOf? owner ∧
      ∃ k', ({ w with store }.happen n k (.loaded (.error cause))).workers[n]? = some k' ∧
        k'.refresher.modified = k.refresher.modified := by
  have hc : k.refresher.react { w with store }.endOfTime { w with store }.millis
    (.loaded (.error cause)) = _ := rfl
  have kept := happen_indexOf? (n := n) hc
  obtain ⟨paused, worker⟩ := happen_worker (n := n) hc hk
  rw [tracks.owner_eq] at kept
  exact ⟨kept.trans (indexOf?_store w store owner), _, worker, rfl⟩

theorem InStep.loaded {result : Except StoreError (List String)} {store : ScriptedStore}
    (inStep : w.InStep n plan owner first h) (hk : w.workers[n]? = some k)
    (tracks : w.Tracks plan owner k) (hp : k.refresher.phase = .reloading)
    (gives : w.store.Gives (.members k.refresher.plan.zoneSet) result store) :
    ({ w with store }.happen n k (.loaded result)).InStep n plan owner first
      (h ++ [Seen.moved (some (.loaded result))]) := by
  cases result with
  | error cause =>
    rcases gives.members_inv with ⟨_, _, rfl⟩ | ⟨hr, _⟩
    · exact inStep.kept hk tracks rfl rfl rfl rfl rfl id (by rintro (hp | hp) <;> cases hp)
        (by intro hp; cases hp) (fun _ => .inr hp)
    · cases hr
  | ok zones =>
    obtain ⟨i, hi, _⟩ := inStep.index
    obtain ⟨rfl, published, kept⟩ := happen_loaded_ok (n := n) tracks (by simp [hi]) gives
    obtain ⟨notices, hc⟩ := react_loaded_ok k.refresher w.endOfTime w.millis (w.zoneSet plan)
    rcases gives.members_inv with ⟨cause, hr, _⟩ | ⟨_, rfl⟩
    · cases hr
    · refine InStep.happen (v := { w with store := _ }) hc hk tracks.owner_eq inStep.automatic
        inStep.numbered tracks.plan_eq ?_ (by rintro (hp | hp) <;> cases hp)
        (by intro hp; cases hp) ?_
      · exact ⟨_, published, .inr ⟨.moved (some (.loaded (.ok _))), by simp, _, rfl, rfl⟩⟩
      · intro feed hf _
        obtain ⟨number, f, rfl, hears, _⟩ := tracks.listens feed hf (.inr hp)
        refine ⟨number, f, rfl, ?_, .inl ?_⟩
        · rw [kept]
          exact ⟨hears.isOpen, hears.pattern, hears.plain⟩
        · rw [published, zoneSet_of_store (w := { w with store := _ }) kept]
          rfl

theorem InStep.event {s : Seen} {feed : FeedId} {e : StoreEvent} {store : ScriptedStore}
    (inStep : w.InStep n plan owner first h) (hk : w.workers[n]? = some k)
    (tracks : w.Tracks plan owner k) (hp : k.refresher.phase = .idle)
    (hf : k.refresher.feed = some feed) (hr : w.store.readFeed feed = (.event e, store)) :
    ({ w with store }.happen n k (.event e)).InStep n plan owner first (h ++ [s]) := by
  obtain ⟨number, f, rfl, hears, _⟩ := tracks.listens feed hf (.inl hp)
  simp only [ScriptedStore.readFeed] at hr
  cases hm : w.store.memory.readFeed number with
  | mk found memory =>
    rw [hm] at hr
    cases hr
    obtain ⟨plain, f', hears'⟩ := hears.read hm
    have numbered : memory.Numbered := by simpa [hm] using inStep.numbered.readFeed number
    have hc : k.refresher.react w.endOfTime w.millis (.event e) =
        { refresher := { k.refresher with modified := true } } := by
      cases e with
      | connected => rfl
      | changed key => rfl
      | failed cause => exact absurd rfl (plain cause)
    refine inStep.unpublished _ hk tracks hc inStep.automatic numbered rfl rfl tracks.alone
      (fun _ => rfl) ?_
    intro feed hf' _
    obtain rfl : FeedId.live number = feed := Option.some.inj (hf.symm.trans hf')
    exact ⟨rfl, number, f', rfl, hears', .inr (.inl rfl)⟩

/-- A refresher that takes its index for out of date begins to read when a reload is due. -/
theorem react_reloadDue {r : Refresher} (modified : r.modified = true) (ending now : Nat) :
    r.react ending now .reloadDue =
      { refresher := { r with reload := r.reload.advance now, phase := .reloading } } := by
  simp [Refresher.react, modified]

theorem InStep.reloadDue {e : Seen} (inStep : w.InStep n plan owner first h)
    (hk : w.workers[n]? = some k) (tracks : w.Tracks plan owner k)
    (hp : k.refresher.phase = .idle) :
    (w.happen n k .reloadDue).InStep n plan owner first (h ++ [e]) := by
  cases hm : k.refresher.modified with
  | true =>
    have hc := react_reloadDue hm w.endOfTime w.millis
    exact inStep.kept hk tracks hc rfl rfl rfl rfl id (by rintro (hp | hp) <;> cases hp)
      (fun _ => hm) (fun _ => .inl hp)
  | false =>
    have hc : k.refresher.react w.endOfTime w.millis .reloadDue = { refresher := { k.refresher with
        reload := k.refresher.reload.advance w.millis } } := by
      simp [Refresher.react, hm]
    exact inStep.kept hk tracks hc rfl rfl rfl rfl id tracks.alone tracks.reloading id

/-- The invariant after a reload was forced. Without a feed the refresher subscribes first. -/
theorem InStep.forcedDue {e : Seen} (inStep : w.InStep n plan owner first h)
    (hk : w.workers[n]? = some k) (tracks : w.Tracks plan owner k)
    (hp : k.refresher.phase = .idle) :
    (w.happen n k .forcedDue).InStep n plan owner first (h ++ [e]) := by
  cases hf : k.refresher.feed with
  | none =>
    have hc : k.refresher.react w.endOfTime w.millis .forcedDue = { refresher := { k.refresher with
        forced := k.refresher.forced.advance w.millis, modified := true
        phase := .resubscribing } } := by
      simp [Refresher.react, hf]
    exact inStep.kept hk tracks hc rfl rfl rfl rfl (fun _ => rfl) (fun _ => hf) (fun _ => rfl)
      (fun _ => .inl hp)
  | some feed =>
    have hc : k.refresher.react w.endOfTime w.millis .forcedDue = { refresher := { k.refresher with
        forced := k.refresher.forced.advance w.millis, modified := true } } := by
      simp [Refresher.react, hf]
    exact inStep.kept hk tracks hc rfl rfl rfl rfl (fun _ => rfl) tracks.alone (fun _ => rfl) id

/-- No step of a refresher breaks the invariant. -/
theorem InStep.turn {met : Option Occurrence} {w' : World}
    (inStep : w.InStep n plan owner first h) (hk : w.workers[n]? = some k)
    (tracks : w.Tracks plan owner k) (turn : Turn w n k met w') :
    w'.InStep n plan owner first (h ++ [.moved met]) := by
  cases turn with
  | sent asks =>
    obtain ⟨i, hi, past⟩ := inStep.index
    have hn := (List.getElem?_eq_some_iff.1 hk).1
    refine ⟨inStep.automatic, inStep.numbered, ⟨i, ?_, past.append _⟩, _,
      List.getElem?_set_self hn, ?_⟩
    · rw [← hi]
      cases owner <;> rfl
    · refine { tracks with fits := ?_, listens := ?_ }
      · intro work hw
        cases hw
        exact asks
      · intro feed hf hp
        exact (tracks.listens feed hf hp).same (by cases owner <;> rfl) rfl id
  | subscribed hp gives => exact inStep.subscribed hk tracks hp gives
  | loaded hp gives => exact inStep.loaded hk tracks hp gives
  | stopped hp =>
    refine inStep.unpublished w.store hk tracks rfl inStep.automatic inStep.numbered
      rfl rfl (by rintro (hp | hp) <;> cases hp) (by intro hp; cases hp) ?_
    intro feed hf _
    cases hf
  | event hp hf hr => exact inStep.event hk tracks hp hf hr
  | feedEnded hp hf hr =>
    refine inStep.unpublished w.store hk tracks rfl inStep.automatic inStep.numbered
      rfl rfl (fun _ => rfl) (fun hr => tracks.reloading hr) ?_
    intro feed hf _
    cases hf
  | reloadDue hp silent => exact inStep.reloadDue hk tracks hp
  | forcedDue hp => exact inStep.forcedDue hk tracks hp
  | closed hp =>
    exact inStep.kept hk tracks rfl rfl rfl rfl rfl id (by rintro (hp | hp) <;> cases hp)
      (by intro hp; cases hp) (by rintro (hp | hp) <;> cases hp)

private theorem Tracks.stop (tracks : w.Tracks plan owner k) {v : World}
    (index : v.indexOf? owner = w.indexOf? owner) (store : v.store = w.store) :
    v.Tracks plan owner { k with refresher.stopping := true } where
  owner_eq := tracks.owner_eq
  plan_eq := tracks.plan_eq
  fits := tracks.fits
  alone := tracks.alone
  reloading := tracks.reloading
  listens feed hf hp := (tracks.listens feed hf hp).same index store id

theorem InStep.step {e : Seen} {w' : World} (inStep : w.InStep n plan owner first h)
    (s : RefresherStep n plan owner w e w') : w'.InStep n plan owner first (h ++ [e]) := by
  cases s with
  | stirred move =>
    refine inStep.around inStep.automatic (inStep.numbered.move move) rfl (by simp) ?_
    intro k feed hk hf listens
    have mine : w.feedOf n = some feed := by simp [feedOf, hk, hf]
    exact listens.heard (by simp) (mine ▸ move)
  | failing failure =>
    refine inStep.around inStep.automatic inStep.numbered rfl (by simp) ?_
    intro k feed _ _ listens
    exact listens.heard (by simp) (.tuned _ _ _)
  | told =>
    obtain ⟨i, hi, past⟩ := inStep.index
    obtain ⟨k, hk, tracks⟩ := inStep.worker
    obtain ⟨queue, stopped⟩ := stop_eq hk
    have index : (w.stop n).indexOf? owner = w.indexOf? owner := by
      rw [stopped]
      cases owner <;> rfl
    have store : (w.stop n).store = w.store := by
      rw [stopped]
      rfl
    exact ⟨store ▸ inStep.automatic, store ▸ inStep.numbered, ⟨i, index.trans hi, past.append _⟩,
      _, stop_worker hk, tracks.stop index store⟩
  | elsewhere store worker index =>
    refine inStep.around (store ▸ inStep.automatic) (store ▸ inStep.numbered) worker index ?_
    intro k feed _ _ listens
    exact listens.same index store id
  | published =>
    obtain ⟨i, hi, _⟩ := inStep.index
    obtain ⟨k, hk, tracks⟩ := inStep.worker
    have index := publish_indexOf? w owner (.ofList (w.zoneSet plan))
    rw [hi, Option.map_some] at index
    have store := publish_store w owner (.ofList (w.zoneSet plan))
    refine ⟨store ▸ inStep.automatic, store ▸ inStep.numbered, ⟨_, index, ?_⟩, k, ?_, ?_⟩
    · exact .inr ⟨.published (w.zoneSet plan), by simp, _, rfl, rfl⟩
    · rw [publish_workers, hk]
    · refine { tracks with listens := ?_ }
      intro feed hf hp
      obtain ⟨number, f, rfl, hears, _⟩ := tracks.listens feed hf hp
      exact ⟨number, f, rfl, by rwa [store], .inl (by rw [index, zoneSet_of_store store])⟩
  | moved moves seen =>
    obtain ⟨k, hk, tracks⟩ := inStep.worker
    exact inStep.turn hk tracks (tracks.turn hk (.moved moves seen))

theorem InStep.steps {h' : List Seen} {w' : World} (inStep : w.InStep n plan owner first h)
    (steps : Steps (RefresherStep n plan owner) w h' w') :
    w'.InStep n plan owner first (h ++ h') :=
  steps.preserves (P := fun h w => w.InStep n plan owner first h) inStep
    fun _ _ _ _ before => before.step

/-- A refresher reads its zone set. It waits for the answer to its request and meets with nothing
else, and it goes on from some time on. A complete answer is that of the zone set as it is then, and
its index is published. A failed one changes neither the index nor what the refresher takes it
for. -/
structure Rereads (w : World) (n : Nat) (plan : RefresherPlan) (owner : IndexOwner) (k : Worker) :
    Prop where
  worker : w.workers[n]? = some k
  phase : k.refresher.phase = .reloading
  modified : k.refresher.modified = true
  asks : requestIn k.refresher =
    some (.ask (.members plan.zoneSet) fun result => .done (.loaded result))
  goesOn : ∃ due, ∀ millis, due ≤ millis → ∃ met v,
    RefresherStep n plan owner { w with millis } (.moved met) v ∧
      (k.request.isSome → met.isSome)
  ends : ∀ o v, RefresherStep n plan owner w (.moved (some o)) v →
    (o = .loaded (.ok (w.zoneSet plan)) ∧
      v.indexOf? owner = some (.ofList (w.zoneSet plan))) ∨
    ∃ cause, o = .loaded (.error cause) ∧ v.indexOf? owner = w.indexOf? owner ∧
      ∃ k', v.workers[n]? = some k' ∧ k'.refresher.modified = true

theorem Tracks.goesOn (tracks : w.Tracks plan owner k) (hk : w.workers[n]? = some k)
    (asks : (requestIn k.refresher).isSome) : ∃ due, ∀ millis, due ≤ millis → ∃ met v,
      RefresherStep n plan owner { w with millis } (.moved met) v ∧
        (k.request.isSome → met.isSome) := by
  refine ⟨(k.request.map (·.pending.due)).getD 0, fun millis late => ?_⟩
  have due (work) (hr : k.request = some work) : { w with millis }.isDue work := by
    simpa [isDue, hr] using late
  obtain ⟨met, v, found, answered⟩ :=
    exists_observe (w := { w with millis }) hk tracks.fits asks due
  refine ⟨met, v, .moved ?_ ?_, answered⟩
  · rw [stepWorker_eq_observe, found]
    rfl
  · rw [meets, found]
    rfl

theorem InStep.rereads (inStep : w.InStep n plan owner first h) (hk : w.workers[n]? = some k)
    (hp : k.refresher.phase = .reloading) : w.Rereads n plan owner k := by
  obtain ⟨index, hi, -⟩ := inStep.index
  obtain ⟨k', hk', tracks⟩ := inStep.worker
  obtain rfl : k = k' := Option.some.inj (hk.symm.trans hk')
  have asks : requestIn k.refresher =
      some (.ask (.members plan.zoneSet) fun result => .done (.loaded result)) := by
    rw [← tracks.plan_eq]
    simp [requestIn, hp]
  refine ⟨hk, hp, tracks.reloading hp, asks, tracks.goesOn hk (by simp [asks]), ?_⟩
  intro o v s
  cases tracks.turn hk s with
  | @loaded result store _ gives =>
    cases result with
    | ok zones =>
      obtain ⟨rfl, published, -⟩ := happen_loaded_ok (n := n) tracks (by simp [hi]) gives
      exact .inl ⟨rfl, published⟩
    | error cause =>
      obtain ⟨kept, k', worker, flag⟩ := happen_loaded_error hk tracks cause store
      exact .inr ⟨cause, rfl, kept, k', worker, flag.trans (tracks.reloading hp)⟩
  | subscribed other | stopped other | event other | feedEnded other | reloadDue other
  | forcedDue other | closed other => simp [hp] at other

def IsReading (w : World) (n : Nat) : Prop :=
  ∃ k, w.workers[n]? = some k ∧ k.refresher.phase = .reloading

/-- A refresher reads on until it meets with something. -/
theorem IsReading.step {e : Seen} {w' : World} (reading : w.IsReading n)
    (inStep : w.InStep n plan owner first h) (s : RefresherStep n plan owner w e w')
    (unanswered : ∀ o, e ≠ .moved (some o)) : w'.IsReading n := by
  obtain ⟨k, hk, hp⟩ := reading
  cases s with
  | stirred move => exact ⟨k, hk, hp⟩
  | failing failure => exact ⟨k, hk, hp⟩
  | told => exact ⟨_, stop_worker hk, hp⟩
  | elsewhere store worker index => exact ⟨k, worker.trans hk, hp⟩
  | published => exact ⟨k, by rw [publish_workers, hk], hp⟩
  | @moved met _ moves seen =>
    obtain ⟨k', hk', tracks⟩ := inStep.worker
    obtain rfl : k = k' := Option.some.inj (hk.symm.trans hk')
    cases met with
    | some o => exact absurd rfl (unanswered o)
    | none =>
      cases tracks.turn hk (.moved moves seen) with
      | sent asks =>
        exact ⟨_, List.getElem?_set_self (List.getElem?_eq_some_iff.1 hk).1, hp⟩

theorem IsReading.steps {h' : List Seen} {w' : World} (reading : w.IsReading n)
    (inStep : w.InStep n plan owner first h) (steps : Steps (RefresherStep n plan owner) w h' w')
    (unanswered : ∀ o, Seen.moved (some o) ∉ h') : w'.IsReading n := by
  induction steps with
  | refl => exact reading
  | snoc before last ih =>
    have reading' := ih fun o ho => unanswered o (List.mem_append_left _ ho)
    refine reading'.step (inStep.steps before) last ?_
    rintro o rfl
    exact unanswered o (by simp)

/-- A refresher that begins to read leaves its index and its feed as they are. -/
theorem Tracks.reloadDue (tracks : w.Tracks plan owner k) (hk : w.workers[n]? = some k)
    (modified : k.refresher.modified = true) : (w.happen n k .reloadDue).IsReading n ∧
      (w.happen n k .reloadDue).indexOf? owner = w.indexOf? owner ∧
      (w.happen n k .reloadDue).feedOf n = k.refresher.feed := by
  have hc := react_reloadDue modified w.endOfTime w.millis
  obtain ⟨paused, worker⟩ := happen_worker hc hk
  have kept := happen_indexOf? (n := n) hc
  rw [tracks.owner_eq] at kept
  exact ⟨⟨_, worker, rfl⟩, kept, by rw [feedOf, worker]; rfl⟩

theorem Listens.hasUnread {r : Refresher} {feed : FeedId}
    (listens : w.Listens plan owner r feed) :
    w.indexOf? owner = some (.ofList (w.zoneSet plan)) ∨ r.modified = true ∨ w.HasUnread feed := by
  obtain ⟨number, f, rfl, hears, made⟩ := listens
  refine made.imp_right (.imp_right fun news => ?_)
  obtain ⟨e, rest, hq⟩ := List.exists_cons_of_ne_nil news
  exact ⟨e, by simp [ScriptedStore.readFeed, MemoryStore.readFeed_of_queue hears.isOpen hq]⟩

end World

open World

/-- No change to the zone set is lost on a refresher that has a feed of its store, whatever is
written, to whatever keys, whatever the feed cannot take and whatever fails. While it waits, its
index is that of the zone set, or it takes the index for out of date, or its feed has an event for
it. It heeds its reload interval only when it has read all of its feed, so an index that it leaves
alone when a reload is due is that of the zone set. If it does not leave it alone, it begins to read
the zone set there and then. Whatever is done in the meantime, it reads until it has an answer, and
publishes the index of the zone set as it is when it is answered. A reading that fails changes
neither the index nor what it takes it for. At all times the index is the first one or that of a
complete reading. -/
theorem no_change_is_lost {w₀ w : World} {n : Nat} {plan : RefresherPlan} {owner : IndexOwner}
    {first : ZoneIndex} {h : List Seen} (start : Starts w₀ n plan owner first)
    (steps : Steps (RefresherStep n plan owner) w₀ h w) :
    ∃ k index, w.workers[n]? = some k ∧ w.indexOf? owner = some index ∧
      (k.refresher.phase = .idle → ∀ feed, k.refresher.feed = some feed →
        index = .ofList (w.zoneSet plan) ∨ k.refresher.modified = true ∨ w.HasUnread feed) ∧
      (∀ w' feed, RefresherStep n plan owner w (.moved (some .reloadDue)) w' →
        k.refresher.feed = some feed → ¬ w.HasUnread feed) ∧
      (∀ w', RefresherStep n plan owner w (.moved (some .reloadDue)) w' →
        k.refresher.feed.isSome → k.refresher.modified = false →
          index = .ofList (w.zoneSet plan) ∧ w'.indexOf? owner = some index) ∧
      (∀ w', RefresherStep n plan owner w (.moved (some .reloadDue)) w' →
        k.refresher.modified = true →
          w'.indexOf? owner = some index ∧ w'.feedOf n = k.refresher.feed ∧
          ∀ h' w'', Steps (RefresherStep n plan owner) w' h' w'' →
            (∀ o, .moved (some o) ∉ h') → ∃ k'', w''.Rereads n plan owner k'') ∧
      (∀ zones w', RefresherStep n plan owner w (.moved (some (.loaded (.ok zones)))) w' →
        zones = w.zoneSet plan ∧ w'.indexOf? owner = some (.ofList zones)) ∧
      (∀ cause w', RefresherStep n plan owner w (.moved (some (.loaded (.error cause)))) w' →
        w'.indexOf? owner = some index ∧
          ∃ k', w'.workers[n]? = some k' ∧ k'.refresher.modified = k.refresher.modified) ∧
      Past first h index := by
  have inStep : w.InStep n plan owner first h := by
    simpa using (InStep.of_starts start).steps steps
  obtain ⟨index, hi, past⟩ := inStep.index
  obtain ⟨k, hk, tracks⟩ := inStep.worker
  refine ⟨k, index, hk, hi, ?_, ?_, ?_, ?_, ?_, ?_, past⟩
  · intro hp feed hf
    have made := (tracks.listens feed hf (.inl hp)).hasUnread
    rw [hi] at made
    exact made.imp_left Option.some.inj
  · rintro w' feed s hf ⟨e, unread⟩
    cases tracks.turn hk s with
    | reloadDue hp silent => exact absurd ((silent feed hf).symm.trans unread) nofun
  · intro w' s connected unmodified
    obtain ⟨feed, hf⟩ := Option.isSome_iff_exists.1 connected
    cases tracks.turn hk s with
    | reloadDue hp silent =>
      rcases (tracks.listens feed hf (.inl hp)).unread (silent feed hf) with current | modified
      · have kept := happen_indexOf? (w := w) (n := n) (k := k) (o := .reloadDue) rfl
        rw [tracks.owner_eq] at kept
        exact ⟨Option.some.inj (hi.symm.trans current), kept.trans hi⟩
      · simp [unmodified] at modified
  · intro w' s modified
    have inStep' := inStep.step s
    cases tracks.turn hk s with
    | reloadDue hp silent =>
      obtain ⟨reading, kept, feed⟩ := tracks.reloadDue hk modified
      refine ⟨kept.trans hi, feed, fun h' w'' onward unanswered => ?_⟩
      obtain ⟨k'', hk'', hp''⟩ := reading.steps inStep' onward unanswered
      exact ⟨k'', (inStep'.steps onward).rereads hk'' hp''⟩
  · intro zones w' s
    cases tracks.turn hk s with
    | loaded hp gives =>
      obtain ⟨complete, published, _⟩ := happen_loaded_ok (n := n) tracks (by simp [hi]) gives
      exact ⟨complete, published⟩
  · intro cause w' s
    cases tracks.turn hk s with
    | @loaded _ store hp gives =>
      obtain ⟨kept, rest⟩ := happen_loaded_error hk tracks cause store
      exact ⟨kept.trans hi, rest⟩

/-- A world with a refresher that was just started. -/
private def quiet : World where
  clock := 0
  store := { memory := {} }
  catalog := {
    keys := {}
    reloadEvery := 100
    zones := { lifetime := 1 }
    locations := { lifetime := 1 } }
  workers := [{ refresher := .starting ⟨"zones", 100, 200⟩, owner := .catalog }]

private theorem zones_added : ∃ w v w' h k,
    Steps (RefresherStep 0 ⟨"zones", 100, 200⟩ .catalog) quiet h w ∧
      w.workers[0]? = some k ∧ k.refresher.modified = true ∧
      RefresherStep 0 ⟨"zones", 100, 200⟩ .catalog w (.moved (some .reloadDue)) v ∧
      RefresherStep 0 ⟨"zones", 100, 200⟩ .catalog v .aside
        { v with store.memory := v.store.memory.addMember "zones" "b." } ∧
      RefresherStep 0 ⟨"zones", 100, 200⟩ .catalog
        { v with store.memory := v.store.memory.addMember "zones" "b." }
        (.moved (some (.loaded (.ok ["a.", "b."])))) w' := by
  have move {w w' : World} (met : Option Occurrence) (h : w.stepWorker 0 = some w')
      (seen : w.meets 0 = some met) :
      RefresherStep 0 ⟨"zones", 100, 200⟩ .catalog w (.moved met) w' := .moved h seen
  have wait (w : World) (millis : Nat) :
      RefresherStep 0 ⟨"zones", 100, 200⟩ .catalog w .aside { w with millis } :=
    .elsewhere rfl rfl rfl
  have s : Steps (RefresherStep 0 ⟨"zones", 100, 200⟩ .catalog) quiet [] _ := .refl
  have s := s.snoc (move (some (.subscribed (.ok (.live 0)))) rfl rfl)
  have s := s.snoc (.stirred (.addMember "zones" "a."))
  have s := s.snoc (move (some (.event .connected)) rfl rfl)
  have s := s.snoc (move (some (.event (.changed "zones"))) rfl rfl)
  have s := s.snoc (wait _ 100)
  exact ⟨_, _, _, _, _, s, rfl, rfl, move _ rfl rfl, .stirred (.addMember "zones" "b."),
    move _ rfl rfl⟩

/-- Zones that were added before a tick, and up to the reading that it starts, are in the index
after it. -/
theorem no_change_is_lost_zone_added : ∃ w v w' h,
    Steps (RefresherStep 0 ⟨"zones", 100, 200⟩ .catalog) quiet h w ∧
      RefresherStep 0 ⟨"zones", 100, 200⟩ .catalog w (.moved (some .reloadDue)) v ∧
      RefresherStep 0 ⟨"zones", 100, 200⟩ .catalog v .aside
        { v with store.memory := v.store.memory.addMember "zones" "b." } ∧
      RefresherStep 0 ⟨"zones", 100, 200⟩ .catalog
        { v with store.memory := v.store.memory.addMember "zones" "b." }
        (.moved (some (.loaded (.ok ["a.", "b."])))) w' ∧
      w'.indexOf? .catalog = some (.ofList ["a.", "b."]) := by
  obtain ⟨w, v, w', h, k, steps, hk, modified, due, added, loaded⟩ := zones_added
  have start : Starts quiet 0 ⟨"zones", 100, 200⟩ .catalog .empty :=
    ⟨rfl, rfl, rfl, by simp [MemoryStore.Numbered, quiet]⟩
  obtain ⟨k', _, hk', _, _, _, _, reads, _⟩ := no_change_is_lost start steps
  obtain rfl : k = k' := Option.some.inj (hk.symm.trans hk')
  obtain ⟨_, _, onward⟩ := reads v due modified
  obtain ⟨_, reading⟩ := onward _ _ (.single added) (by simp)
  obtain ⟨complete, published⟩ | ⟨_, failed, _⟩ := reading.ends _ w' loaded
  · rw [← Except.ok.inj (Occurrence.loaded.inj complete)] at published
    exact ⟨w, v, w', h, steps, due, added, loaded, published⟩
  · cases failed

end ZoneCatalog
