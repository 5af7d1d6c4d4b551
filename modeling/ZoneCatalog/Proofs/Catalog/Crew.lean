import ZoneCatalog.Proofs.Catalog.Views
import ZoneCatalog.Proofs.Refresher.Ends

/-! The refreshers of the catalog. The catalog has a place for one of them; each of the others has
come to its end, or some call waits for its end. -/
namespace ZoneCatalog.World

open Refresher (Occurrence)

variable {w v u w' : World} {n : Nat} {k k' : Worker} {feed : FeedId}

/-- The refreshers of the catalog, by their numbers. Whether one waits for its turn is left out. -/
def crew (w : World) (n : Nat) : Option Worker :=
  (w.workers[n]?).bind fun k => if k.owner = .catalog then some { k with paused := false } else none

theorem crew_eq_some : w.crew n = some k ↔
    ∃ k', w.workers[n]? = some k' ∧ k'.owner = .catalog ∧ { k' with paused := false } = k := by
  simp only [crew, Option.bind_eq_some_iff, Option.ite_none_right_eq_some, Option.some.injEq]

theorem crew_set (set : v.workers = w.workers.set n k) (known : n < w.workers.length)
    (ours : k.owner = .catalog) :
    v.crew = Function.update w.crew n (some { k with paused := false }) := by
  funext m
  by_cases same : m = n
  · subst same
    simp [crew, set, known, ours]
  · rw [Function.update_of_ne same]
    simp [crew, set, List.getElem?_set_ne (Ne.symm same)]

theorem crew_append (added : v.workers = w.workers ++ [k]) (ours : k.owner = .catalog) :
    v.crew = Function.update w.crew w.workers.length (some { k with paused := false }) := by
  funext m
  by_cases same : m = w.workers.length
  · subst same
    simp [crew, added, ours]
  · have early : (w.workers ++ [k])[m]? = w.workers[m]? := by
      rw [List.getElem?_append, List.getElem?_singleton]
      split
      · rfl
      · rw [if_neg (by omega), List.getElem?_eq_none (by omega)]
    rw [Function.update_of_ne same, crew, added, early, crew]

theorem happen_eq {o : Occurrence} {c : Refresher.Consequence}
    (hc : k.refresher.react w.endOfTime w.millis o = c) :
    ∃ index solos notices reloads indexed paused, w.happen n k o = { w with
      catalog := { w.catalog with index }
      solos, notices, reloads, indexed
      store := match c.close with
        | some feed => w.store.closeFeed feed
        | none => w.store
      workers :=
        w.workers.set n { k with refresher := c.refresher, request := none, paused } } := by
  simp only [happen, hc]
  obtain ⟨r, notices, publish, close⟩ := c
  cases publish with
  | none => cases close <;> exact ⟨_, _, _, _, _, _, rfl⟩
  | some index => cases close <;> cases k.owner <;> exact ⟨_, _, _, _, _, _, rfl⟩

/-! A turn of one of them. -/

/-- A refresher stops only if it was told to. -/
theorem told_of_stopped (hk : w.workers[n]? = some k) (fits : Fits k)
    (h : w.observe n = some (some .stopped, w')) : k.refresher.stopping = true := by
  have hp : k.refresher.phase = .idle := by
    cases observe_turn hk fits h with
    | stopped hp => exact hp
  have quiet : requestIn k.refresher = none := by simp [requestIn, hp]
  have free : k.request = none := by
    rw [Option.eq_none_iff_forall_ne_some]
    intro work waits
    simpa [quiet] using fits work waits
  simp only [observe, hk, free, quiet, occurrence, hp, idleOccurrence] at h
  by_contra untold
  rw [if_neg untold] at h
  split at h
  · cases h
  · cases h
  · split at h
    · cases h
    · split at h
      · cases h
      · cases h

/-- What a turn of a refresher of the catalog leaves of it and of the store. -/
structure Turned (w : World) (n : Nat) (k : Worker) (met : Option Occurrence) (w' : World) :
    Prop where
  alive : k.refresher.phase.isFinal = false
  catalog : ∃ index, w'.catalog = { w.catalog with index }
  millis : w'.millis = w.millis
  uptime : w'.uptime = w.uptime
  store : w.store.Onward w'.store
  issues : ∀ feed, met = some (.subscribed (.ok feed)) →
    ¬ w.store.Issued feed ∧ w'.store.Issued feed
  crew : ∃ k', w'.crew = Function.update w.crew n (some k') ∧ Fits k' ∧
    k'.refresher.plan = k.refresher.plan ∧ k'.refresher.stopping = k.refresher.stopping ∧
    k'.refresher.Sound w.endOfTime w.millis ∧
    ∀ feed, k.refresher.feed = some feed ∨ met = some (.subscribed (.ok feed)) →
      k'.refresher.feed = some feed ∨ ¬ w'.store.IsOpen feed

theorem Turned.happen {o : Occurrence} {store : ScriptedStore} (hk : w.workers[n]? = some k)
    (ours : k.owner = .catalog) (sound : k.refresher.Sound w.endOfTime w.millis)
    (meets : k.refresher.Meets o) (onward : w.store.Onward store)
    (issues : ∀ feed, o = .subscribed (.ok feed) → ¬ w.store.Issued feed ∧ store.Issued feed) :
    w.Turned n k (some o) ({ w with store }.happen n k o) := by
  have known : n < w.workers.length := (List.getElem?_eq_some_iff.1 hk).1
  obtain ⟨plan, stopping⟩ := k.refresher.react_keeps w.endOfTime w.millis o
  have holds := sound.react_feed meets
  have after := sound.react meets
  generalize hc : k.refresher.react w.endOfTime w.millis o = c at plan stopping holds after
  obtain ⟨_, _, _, _, _, paused, happened⟩ := happen_eq (w := { w with store }) (n := n) hc
  rw [happened]
  have closed : store.Onward (match c.close with
      | some feed => store.closeFeed feed
      | none => store) := by
    split
    · exact .closeFeed store _
    · exact .refl store
  refine ⟨meets.not_isFinal, ⟨_, rfl⟩, rfl, rfl, onward.trans closed, ?_, _,
    crew_set rfl known ours, ?_, plan, stopping, after, ?_⟩
  · intro feed met
    obtain ⟨fresh, given⟩ := issues feed (Option.some.inj met)
    exact ⟨fresh, closed.issued feed given⟩
  · intro work waits
    cases waits
  · intro feed held
    rcases holds feed (held.imp_right Option.some.inj) with kept | close
    · exact .inl kept
    · refine .inr ?_
      simp only [close]
      exact store.not_isOpen_closeFeed feed

theorem stepWorker_turned {met : Option Occurrence} (crew : w.crew n = some k) (fits : Fits k)
    (sound : k.refresher.Sound w.endOfTime w.millis) (h : w.stepWorker n = some w')
    (seen : w.meets n = some met) : w.Turned n k met w' := by
  obtain ⟨k₀, hk, ours, rfl⟩ := crew_eq_some.1 crew
  have observed := observe_of_stepWorker h seen
  suffices turned : w.Turned n k₀ met w' by
    exact ⟨turned.alive, turned.catalog, turned.millis, turned.uptime, turned.store,
      turned.issues, turned.crew⟩
  cases observe_turn hk fits observed with
  | sent asks =>
    have alive : k₀.refresher.phase.isFinal = false := by
      rcases requestIn_eq_some asks with ⟨hp | hp, -⟩ | ⟨hp, -⟩ <;> rw [hp] <;> rfl
    refine ⟨alive, ⟨_, rfl⟩, rfl, rfl, .refl _, by simp, _,
      crew_set rfl (List.getElem?_eq_some_iff.1 hk).1 ours, ?_, rfl, rfl, sound, ?_⟩
    · intro work waits
      cases waits
      exact asks
    · intro feed held
      exact .inl (held.resolve_right (by simp))
  | subscribed hp gives =>
    refine .happen hk ours sound hp gives.onward ?_
    intro feed met
    cases met
    exact gives.issues
  | loaded hp gives => exact .happen hk ours sound hp gives.onward (by simp)
  | stopped hp =>
    have told := told_of_stopped hk fits observed
    exact .happen hk ours sound ⟨hp, told⟩ (.refl w.store) (by simp)
  | @event feed e store hp hf hr =>
    have onward : w.store.Onward store := by
      have read := ScriptedStore.Onward.readFeed w.store feed
      rwa [hr] at read
    exact .happen hk ours sound (o := .event e) hp onward (by simp)
  | feedEnded hp => exact .happen hk ours sound (o := .feedEnded) hp (.refl w.store) (by simp)
  | reloadDue hp => exact .happen hk ours sound (o := .reloadDue) hp (.refl w.store) (by simp)
  | forcedDue hp => exact .happen hk ours sound (o := .forcedDue) hp (.refl w.store) (by simp)
  | closed hp => exact .happen hk ours sound (o := .closed) hp (.refl w.store) (by simp)

/-! Who looks after them. -/

/-- The intervals of a refresher that the catalog starts now are due before time ends, however long
the machine has been running. -/
def InTime (w : World) : Prop := w.catalog.plan.1.InTime w.endOfTime w.millis

/-- A refresher that follows the plan of the catalog. -/
structure Follows (w : World) (k : Worker) : Prop where
  fits : Fits k
  plan : k.refresher.plan = w.catalog.plan.1
  sound : k.refresher.Sound w.endOfTime w.millis

/-- Every refresher of the catalog that has not come to its end has the place in the catalog, or is
awaited. The one with the place was not told to stop, and the feeds that were opened and are still
open are those that refreshers have. -/
structure Manned (awaited : Nat → Prop) (opened : Nat → FeedId → Prop) (w : World) : Prop where
  follows : ∀ n k, w.crew n = some k → w.Follows k
  placed : ∀ n, w.catalog.refresher = some n →
    ∃ k, w.crew n = some k ∧ k.refresher.stopping = false
  known : ∀ n, awaited n → (w.crew n).isSome
  manned : ∀ n k, w.crew n = some k → k.refresher.phase.isFinal = false →
    w.catalog.refresher = some n ∨ awaited n
  held : ∀ n feed, opened n feed → w.store.Issued feed ∧
    (w.store.IsOpen feed → ∃ k, w.crew n = some k ∧ k.refresher.feed = some feed)

/-- Something that leaves the refreshers of the catalog as they are. Others may move, time may pass,
and whatever else uses the store may do so. -/
structure Around (w v : World) : Prop where
  refresher : v.catalog.refresher = w.catalog.refresher
  plan : v.catalog.plan = w.catalog.plan
  millis : w.millis ≤ v.millis
  uptime : v.uptime = w.uptime
  store : w.store.Onward v.store
  crew : v.crew = w.crew

namespace Around

theorem refl (w : World) : w.Around w := ⟨rfl, rfl, Nat.le_refl _, rfl, .refl _, rfl⟩

theorem trans (first : w.Around v) (second : v.Around u) : w.Around u where
  refresher := second.refresher.trans first.refresher
  plan := second.plan.trans first.plan
  millis := Nat.le_trans first.millis second.millis
  uptime := second.uptime.trans first.uptime
  store := first.store.trans second.store
  crew := second.crew.trans first.crew

end Around

/-- A refresher that the catalog starts now. -/
def recruit (w : World) : Worker :=
  { refresher := .starting w.catalog.plan.1, owner := .catalog }

/-- The catalog starts a refresher in the place of the one before. -/
def enlist (w : World) : World :=
  let (number, v) := w.spawn w.catalog.plan.1 .catalog
  { v with catalog := (v.catalog.install number).2 }

theorem spawn_eq (w : World) : ∃ queue, w.spawn w.catalog.plan.1 .catalog =
    (w.workers.length, { w with workers := w.workers ++ [w.recruit], queue }) := by
  obtain ⟨queue, woken⟩ := wake_eq { w with workers := w.workers ++ [w.recruit] } w.workers.length
  exact ⟨queue, congrArg (Prod.mk w.workers.length) woken⟩

theorem enlist_eq (w : World) : ∃ queue, w.enlist = { w with
    workers := w.workers ++ [w.recruit], queue
    catalog := { w.catalog with refresher := some w.workers.length } } := by
  obtain ⟨queue, spawned⟩ := w.spawn_eq
  exact ⟨queue, by rw [enlist, spawned]; rfl⟩

theorem enrol_eq (w : World) (answer : Answer) : w.enrol answer =
    match w.catalog.refresher with
    | some previous => (w.enlist.stop previous).awaitEnd previous answer
    | none => (.answered answer, w.enlist) := by
  obtain ⟨queue, spawned⟩ := w.spawn_eq
  rw [enrol, enlist, spawned]
  rfl

section Manned

variable {awaited awaited' : Nat → Prop} {opened opened' : Nat → FeedId → Prop}

theorem Follows.mono (follows : w.Follows k) (plan : v.catalog.plan = w.catalog.plan)
    (onward : w.millis ≤ v.millis) (uptime : v.uptime = w.uptime) : v.Follows k := by
  refine ⟨follows.fits, by rw [plan, follows.plan], ?_⟩
  have sound := follows.sound.mono onward
  rwa [endOfTime, ← uptime] at sound

theorem Manned.around (manned : w.Manned awaited opened) (around : w.Around v) :
    v.Manned awaited opened := by
  obtain ⟨refresher, plan, millis, uptime, store, crew⟩ := around
  constructor
  · intro n k hk
    exact (manned.follows n k (crew ▸ hk)).mono plan millis uptime
  · rw [refresher, crew]
    exact manned.placed
  · rw [crew]
    exact manned.known
  · rw [refresher, crew]
    exact manned.manned
  · intro n feed here
    obtain ⟨issued, held⟩ := manned.held n feed here
    rw [crew]
    exact ⟨store.issued feed issued, fun isOpen => held (store.isOpen feed issued isOpen)⟩

theorem Manned.opens (manned : w.Manned awaited opened)
    (news : ∀ n feed, opened' n feed → opened n feed ∨ w.store.Issued feed ∧
      (w.store.IsOpen feed → ∃ k, w.crew n = some k ∧ k.refresher.feed = some feed)) :
    w.Manned awaited opened' :=
  { manned with held := fun n feed here => (news n feed here).elim (manned.held n feed) id }

/-- A refresher that has come to its end need not be awaited. -/
theorem Manned.awaits (manned : w.Manned awaited opened)
    (known : ∀ n, awaited' n → (w.crew n).isSome)
    (others : ∀ n k, awaited n → w.crew n = some k → k.refresher.phase.isFinal = false →
      awaited' n) : w.Manned awaited' opened where
  follows := manned.follows
  placed := manned.placed
  known := known
  manned n k hk alive :=
    (manned.manned n k hk alive).imp_right fun waits => others n k waits hk alive
  held := manned.held

/-- A refresher moves on, and keeps its place and its feed. -/
theorem Manned.update (manned : w.Manned awaited opened) (hk : w.crew n = some k)
    (crew : v.crew = Function.update w.crew n (some k'))
    (refresher : v.catalog.refresher = w.catalog.refresher)
    (plan : v.catalog.plan = w.catalog.plan) (millis : w.millis ≤ v.millis)
    (uptime : v.uptime = w.uptime) (store : w.store.Onward v.store) (follows : v.Follows k')
    (going : w.catalog.refresher = some n → k.refresher.stopping = false →
      k'.refresher.stopping = false)
    (alive : k'.refresher.phase.isFinal = false → k.refresher.phase.isFinal = false)
    (keeps : ∀ feed, k.refresher.feed = some feed → k'.refresher.feed = some feed ∨
      ¬ v.store.IsOpen feed) : v.Manned awaited opened := by
  have mine : v.crew n = some k' := by rw [crew, Function.update_self]
  have others {m : Nat} (other : m ≠ n) : v.crew m = w.crew m := by
    rw [crew, Function.update_of_ne other]
  constructor
  · intro m j hj
    by_cases same : m = n
    · cases (same ▸ hj).symm.trans mine
      exact follows
    · exact (manned.follows m j (others same ▸ hj)).mono plan millis uptime
  · intro m place
    rw [refresher] at place
    obtain ⟨j, hj, untold⟩ := manned.placed m place
    by_cases same : m = n
    · subst same
      cases hj.symm.trans hk
      exact ⟨k', mine, going place untold⟩
    · exact ⟨j, (others same).trans hj, untold⟩
  · intro m waits
    by_cases same : m = n
    · rw [same, mine]
      rfl
    · rw [others same]
      exact manned.known m waits
  · intro m j hj awake
    rw [refresher]
    by_cases same : m = n
    · subst same
      cases hj.symm.trans mine
      exact manned.manned m k hk (alive awake)
    · exact manned.manned m j (others same ▸ hj) awake
  · intro m feed here
    obtain ⟨issued, held⟩ := manned.held m feed here
    refine ⟨store.issued feed issued, fun isOpen => ?_⟩
    obtain ⟨j, hj, has⟩ := held (store.isOpen feed issued isOpen)
    by_cases same : m = n
    · subst same
      cases hj.symm.trans hk
      exact ⟨k', mine, (keeps feed has).resolve_right (not_not_intro isOpen)⟩
    · exact ⟨j, (others same).trans hj, has⟩

/-- No turn of a refresher leaves it, or another one, unmanned. -/
theorem Manned.turned {met : Option Occurrence} (manned : w.Manned awaited opened)
    (hk : w.crew n = some k) (turned : w.Turned n k met w')
    (news : ∀ m feed, opened' m feed → opened m feed ∨
      m = n ∧ met = some (.subscribed (.ok feed))) : w'.Manned awaited opened' := by
  obtain ⟨alive, ⟨index, catalog⟩, millis, uptime, store, issues, k', crew, fits, plan, stopping,
    sound, keeps⟩ := turned
  have same : w'.catalog.plan = w.catalog.plan := by
    rw [catalog]
    rfl
  have follows : w'.Follows k' :=
    ⟨fits, by rw [plan, same, (manned.follows n k hk).plan],
      by rwa [millis, endOfTime, uptime]⟩
  have moved : w'.Manned awaited opened :=
    manned.update hk crew (by rw [catalog]) same (Nat.le_of_eq millis.symm) uptime store follows
      (fun _ untold => stopping.trans untold) (fun _ => alive)
      (fun feed has => keeps feed (.inl has))
  refine moved.opens fun m feed here => ?_
  rcases news m feed here with old | ⟨rfl, met⟩
  · exact .inl old
  · refine .inr ⟨(issues feed met).2, fun isOpen => ?_⟩
    have has := (keeps feed (.inr met)).resolve_right (not_not_intro isOpen)
    exact ⟨k', by rw [crew, Function.update_self], has⟩

/-- A refresher without the place can be told to stop. -/
theorem Manned.stop (manned : w.Manned awaited opened) (hk : w.crew n = some k)
    (replaced : w.catalog.refresher ≠ some n) : (w.stop n).Manned awaited opened := by
  obtain ⟨k₀, known, ours, rfl⟩ := crew_eq_some.1 hk
  obtain ⟨queue, stopped⟩ := stop_eq known
  have follows := manned.follows n _ hk
  rw [stopped]
  refine manned.update hk (crew_set rfl (List.getElem?_eq_some_iff.1 known).1 ours) rfl rfl
    (Nat.le_refl _) rfl (.refl _) ?_ (fun place => absurd place replaced) id (fun _ => .inl)
  exact ⟨follows.fits, follows.plan, follows.sound.feed, fun _ => rfl, follows.sound.late⟩

/-- The refresher with the place gives it up, and has to be awaited. -/
theorem Manned.vacate (manned : w.Manned awaited opened) :
    { w with catalog := { w.catalog with refresher := none } }.Manned
      (fun n => awaited n ∨ w.catalog.refresher = some n) opened where
  follows n k hk :=
    have follows := manned.follows n k hk
    ⟨follows.fits, follows.plan, follows.sound⟩
  placed := by simp
  known n waits := by
    rcases waits with waits | place
    · exact manned.known n waits
    · obtain ⟨k, hk, -⟩ := manned.placed n place
      exact Option.isSome_of_eq_some hk
  manned n k hk alive := .inr (manned.manned n k hk alive).symm
  held := manned.held

/-- A refresher is started and takes the place of the one before, which has to be awaited. -/
theorem Manned.enlist (manned : w.Manned awaited opened) :
    w.enlist.Manned (fun n => awaited n ∨ w.catalog.refresher = some n) opened := by
  have vacated := manned.vacate
  obtain ⟨queue, enlisted⟩ := w.enlist_eq
  rw [enlisted]
  generalize hv : ({ w with workers := _, queue, catalog := _ } : World) = v
  have crew : v.crew = Function.update w.crew w.workers.length (some w.recruit) := by
    rw [← hv]
    exact crew_append (w := w) (k := w.recruit) rfl rfl
  have mine : v.crew w.workers.length = some w.recruit := by rw [crew, Function.update_self]
  have others {m : Nat} {j : Worker} (hj : w.crew m = some j) : v.crew m = some j := by
    rw [crew, Function.update_of_ne, hj]
    intro same
    simp [World.crew, same] at hj
  have cases {m : Nat} {j : Worker} (hj : v.crew m = some j) :
      w.crew m = some j ∨ m = w.workers.length ∧ j = w.recruit := by
    by_cases same : m = w.workers.length
    · subst same
      exact .inr ⟨rfl, Option.some.inj (hj.symm.trans mine)⟩
    · rw [crew, Function.update_of_ne same] at hj
      exact .inl hj
  subst hv
  constructor
  · intro m j hj
    rcases cases hj with old | ⟨-, rfl⟩
    · exact (manned.follows m j old).mono rfl (Nat.le_refl _) rfl
    · refine ⟨?_, rfl, .starting _ _ _⟩
      intro work waits
      cases waits
  · intro m place
    cases place
    exact ⟨_, mine, rfl⟩
  · intro m waits
    obtain ⟨j, hj⟩ := Option.isSome_iff_exists.1 (vacated.known m waits)
    exact Option.isSome_of_eq_some (others hj)
  · intro m j hj alive
    rcases cases hj with old | ⟨rfl, -⟩
    · exact .inr ((vacated.manned m j old alive).resolve_left (by simp))
    · exact .inl rfl
  · intro m feed here
    obtain ⟨issued, held⟩ := manned.held m feed here
    refine ⟨issued, fun isOpen => ?_⟩
    obtain ⟨j, hj, has⟩ := held isOpen
    exact ⟨j, others hj, has⟩

end Manned

end ZoneCatalog.World
