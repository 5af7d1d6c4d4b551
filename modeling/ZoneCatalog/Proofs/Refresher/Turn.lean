import ZoneCatalog.Proofs.Simulation.Work
import ZoneCatalog.Simulation.Worker

/-! One move of a refresher: what it meets with, and what comes of it. A refresher asks for nothing
but its feed and its zone set, so there are nine kinds of moves. -/
namespace ZoneCatalog.World

open Refresher (Occurrence)

variable {w w' : World} {n : Nat} {k : Worker}

def pursue (number : Nat) (worker : Worker) :
    Progress Occurrence × World → Option Occurrence × World
  | (.finished o, w) => (some o, w.happen number worker o)
  | (.suspended work, w) => (none, w.setWorker number { worker with request := some work })

/-- The move of a refresher, along with what it meets with in it. It meets with nothing while its
request is on its way. -/
def observe (w : World) (number : Nat) : Option (Option Occurrence × World) :=
  match w.workers[number]? with
  | some worker =>
    match worker.request, requestIn worker.refresher with
    | some work, _ => if w.isDue work then some (pursue number worker (w.resume work)) else none
    | none, some program => some (pursue number worker (w.run program))
    | none, none => (w.occurrence worker).map fun (o, w) => (some o, w.happen number worker o)
  | none => none

theorem stepWorker_eq_observe (w : World) (n : Nat) :
    w.stepWorker n = (w.observe n).map Prod.snd := by
  unfold stepWorker observe
  cases w.workers[n]? with
  | none => rfl
  | some k =>
    simp only [Option.bind_eq_bind, Option.bind_some]
    cases k.request with
    | some work =>
      simp only
      split
      · rcases w.resume work with ⟨_ | _, w₁⟩ <;> rfl
      · rfl
    | none =>
      cases requestIn k.refresher with
      | some program =>
        simp only
        rcases w.run program with ⟨_ | _, w₁⟩ <;> rfl
      | none =>
        simp only
        rcases w.occurrence k with _ | ⟨o, w₁⟩ <;> rfl

/-- A move of a refresher is work that goes on, or something that it meets with while it waits for
no answer. -/
theorem stepWorker_eq_some (h : w.stepWorker n = some w') : ∃ k r, w.workers[n]? = some k ∧
    w' = (pursue n k r).2 ∧ ((∃ work, r = w.resume work) ∨ (∃ program, r = w.run program) ∨
      ∃ o u, w.occurrence k = some (o, u) ∧ r = (.finished o, u)) := by
  rw [stepWorker_eq_observe] at h
  obtain ⟨⟨met, _⟩, ho, rfl⟩ := Option.map_eq_some_iff.1 h
  rw [observe] at ho
  cases hk : w.workers[n]? with
  | none => simp [hk] at ho
  | some k =>
    cases hr : k.request with
    | some work =>
      simp only [hk, hr, Option.ite_none_right_eq_some, Option.some.injEq] at ho
      exact ⟨k, w.resume work, rfl, by rw [ho.2], .inl ⟨work, rfl⟩⟩
    | none =>
      cases hq : requestIn k.refresher with
      | some program =>
        simp only [hk, hr, hq, Option.some.injEq] at ho
        exact ⟨k, w.run program, rfl, by rw [ho], .inr (.inl ⟨program, rfl⟩)⟩
      | none =>
        simp only [hk, hr, hq, Option.map_eq_some_iff, Prod.mk.injEq] at ho
        obtain ⟨⟨o, u⟩, found, -, rfl⟩ := ho
        exact ⟨k, (.finished o, u), rfl, rfl, .inr (.inr ⟨o, u, found, rfl⟩)⟩

/-- What a refresher meets with while it waits for no answer changes nothing, or is read from a
feed. -/
theorem occurrence_eq {o : Occurrence} (h : w.occurrence k = some (o, w')) :
    w' = w ∨ ∃ feed, w' = { w with store := (w.store.readFeed feed).2 } := by
  unfold occurrence idleOccurrence at h
  grind

/-- What a refresher meets with in its move, if it can move. -/
def meets (w : World) (n : Nat) : Option (Option Occurrence) := (w.observe n).map Prod.fst

theorem observe_of_stepWorker {met : Option Occurrence} (h : w.stepWorker n = some w')
    (seen : w.meets n = some met) : w.observe n = some (met, w') := by
  rw [stepWorker_eq_observe] at h
  rw [meets] at seen
  obtain ⟨⟨_, _⟩, ho, rfl⟩ := Option.map_eq_some_iff.1 h
  rw [ho] at seen
  cases seen
  exact ho

/-- A refresher has no request on its way but the one of its phase. -/
def Fits (k : Worker) : Prop := ∀ work, k.request = some work →
  requestIn k.refresher = some (.ask work.request work.next)

theorem requestIn_eq_some {r : Refresher} {p : Program Occurrence} (h : requestIn r = some p) :
    (r.phase = .subscribing ∨ r.phase = .resubscribing) ∧
      p = .ask (.subscribe r.plan.zoneSet) (fun result => .done (.subscribed result)) ∨
    r.phase = .reloading ∧
      p = .ask (.members r.plan.zoneSet) fun result => .done (.loaded result) := by
  rw [requestIn] at h
  cases hp : r.phase with
  | subscribing =>
    simp only [hp] at h
    exact .inl ⟨.inl rfl, (Option.some.inj h).symm⟩
  | resubscribing =>
    simp only [hp] at h
    exact .inl ⟨.inr rfl, (Option.some.inj h).symm⟩
  | reloading =>
    simp only [hp] at h
    exact .inr ⟨rfl, (Option.some.inj h).symm⟩
  | _ => simp [hp] at h

/-- The moves of a refresher that has only the request of its phase on its way. -/
inductive Turn (w : World) (n : Nat) (k : Worker) : Option Occurrence → World → Prop where
  /-- A request goes out. -/
  | sent {work : Suspended Occurrence}
      (asks : requestIn k.refresher = some (.ask work.request work.next)) :
      Turn w n k none (w.setWorker n { k with request := some work })
  | subscribed {result : Except StoreError FeedId} {store : ScriptedStore}
      (hp : k.refresher.phase = .subscribing ∨ k.refresher.phase = .resubscribing)
      (gives : w.store.Gives (.subscribe k.refresher.plan.zoneSet) result store) :
      Turn w n k (some (.subscribed result)) ({ w with store }.happen n k (.subscribed result))
  | loaded {result : Except StoreError (List String)} {store : ScriptedStore}
      (hp : k.refresher.phase = .reloading)
      (gives : w.store.Gives (.members k.refresher.plan.zoneSet) result store) :
      Turn w n k (some (.loaded result)) ({ w with store }.happen n k (.loaded result))
  | stopped (hp : k.refresher.phase = .idle) : Turn w n k (some .stopped) (w.happen n k .stopped)
  | event {feed : FeedId} {e : StoreEvent} {store : ScriptedStore}
      (hp : k.refresher.phase = .idle) (hf : k.refresher.feed = some feed)
      (hr : w.store.readFeed feed = (.event e, store)) :
      Turn w n k (some (.event e)) ({ w with store }.happen n k (.event e))
  | feedEnded {feed : FeedId} (hp : k.refresher.phase = .idle)
      (hf : k.refresher.feed = some feed) (hr : (w.store.readFeed feed).1 = .ended) :
      Turn w n k (some .feedEnded) (w.happen n k .feedEnded)
  /-- A time is noticed only when the feed has nothing to say. -/
  | reloadDue (hp : k.refresher.phase = .idle)
      (silent : ∀ feed, k.refresher.feed = some feed → (w.store.readFeed feed).1 = .silent) :
      Turn w n k (some .reloadDue) (w.happen n k .reloadDue)
  | forcedDue (hp : k.refresher.phase = .idle) :
      Turn w n k (some .forcedDue) (w.happen n k .forcedDue)
  | closed (hp : k.refresher.phase = .closing) : Turn w n k (some .closed) (w.happen n k .closed)

/-- A refresher that asks for something meets with what is given for it. -/
private theorem turn_of_request {p : Program Occurrence} (h : requestIn k.refresher = some p) :
    ∃ (r : StoreRequest) (f : r.Result → Occurrence), p = .ask r (fun result => .done (f result)) ∧
      ∀ result store, w.store.Gives r result store →
        Turn w n k (some (f result)) ({ w with store }.happen n k (f result)) := by
  rcases requestIn_eq_some h with ⟨hp, rfl⟩ | ⟨hp, rfl⟩
  · exact ⟨.subscribe k.refresher.plan.zoneSet, .subscribed, rfl, fun _ _ => .subscribed hp⟩
  · exact ⟨.members k.refresher.plan.zoneSet, .loaded, rfl, fun _ _ => .loaded hp⟩

private theorem turn_of_idle {o : Occurrence} {v : World} (hp : k.refresher.phase = .idle)
    (h : w.idleOccurrence k.refresher = some (o, v)) : Turn w n k (some o) (v.happen n k o) := by
  rw [idleOccurrence] at h
  split at h
  · cases h
    exact .stopped hp
  · cases hf : k.refresher.feed with
    | none =>
      simp only [hf] at h
      split at h
      · cases h
        exact .reloadDue hp (by simp [hf])
      · split at h
        · cases h
          exact .forcedDue hp
        · cases h
    | some feed =>
      rcases hr : w.store.readFeed feed with ⟨e | _ | _, store⟩
      · simp only [hf, hr] at h
        cases h
        exact .event hp hf hr
      · simp only [hf, hr] at h
        split at h
        · cases h
          exact .reloadDue hp (by simp [hf, hr])
        · split at h
          · cases h
            exact .forcedDue hp
          · cases h
      · simp only [hf, hr] at h
        cases h
        exact .feedEnded hp hf (by rw [hr])

/-- What a refresher can do in one move. -/
theorem observe_turn {met : Option Occurrence} (hk : w.workers[n]? = some k) (fits : Fits k)
    (h : w.observe n = some (met, w')) : Turn w n k met w' := by
  simp only [observe, hk] at h
  cases hr : k.request with
  | some work =>
    obtain ⟨request, pending, next⟩ := work
    simp only [hr, Option.ite_none_right_eq_some, Option.some.injEq] at h
    obtain ⟨due, h⟩ := h
    have asks : requestIn k.refresher = some (.ask request next) := fits _ hr
    obtain ⟨r, f, same, ends⟩ := turn_of_request (w := w) (n := n) asks
    cases same
    obtain ⟨result, store, gives, resumed⟩ := resume_gives _ f due
    rw [resumed] at h
    cases h
    exact ends result store gives
  | none =>
    cases hq : requestIn k.refresher with
    | some program =>
      simp only [hr, hq, Option.some.injEq] at h
      obtain ⟨r, f, rfl, ends⟩ := turn_of_request (w := w) (n := n) hq
      rcases run_gives r f w with ⟨pending, sent⟩ | ⟨result, store, gives, answered⟩
      · rw [sent] at h
        cases h
        exact .sent hq
      · rw [answered] at h
        cases h
        exact ends result store gives
    | none =>
      simp only [hr, hq, Option.map_eq_some_iff] at h
      obtain ⟨⟨o, v⟩, ho, h⟩ := h
      cases h
      rw [occurrence] at ho
      split at ho
      · rename_i hp
        exact turn_of_idle hp ho
      · rename_i hp
        split at ho
        · cases ho
        · cases ho
          exact .closed hp
      · cases ho

/-- A refresher that asks for something goes on when its answer is due, and meets with the answer if
its request is on its way. -/
theorem exists_observe (hk : w.workers[n]? = some k) (fits : Fits k)
    (asks : (requestIn k.refresher).isSome) (due : ∀ work, k.request = some work → w.isDue work) :
    ∃ met w', w.observe n = some (met, w') ∧ (k.request.isSome → met.isSome) := by
  simp only [observe, hk]
  cases hr : k.request with
  | some work =>
    obtain ⟨request, pending, next⟩ := work
    have isDue := due _ hr
    have asks : requestIn k.refresher = some (.ask request next) := fits _ hr
    obtain ⟨r, f, same, -⟩ := turn_of_request (w := w) (n := n) asks
    cases same
    obtain ⟨result, store, -, resumed⟩ := resume_gives _ f isDue
    simp only [if_pos isDue, resumed]
    exact ⟨_, _, rfl, fun _ => rfl⟩
  | none =>
    obtain ⟨program, hq⟩ := Option.isSome_iff_exists.1 asks
    simp only [hq]
    exact ⟨_, _, rfl, nofun⟩

/-! What comes of an occurrence. -/

def indexOf? (w : World) : IndexOwner → Option ZoneIndex
  | .catalog => some w.catalog.index
  | .solo number => (w.solos[number]?).map (·.index)

theorem publish_store (w : World) (owner : IndexOwner) (index : ZoneIndex) :
    (w.publish owner index).store = w.store := by
  cases owner <;> rfl

theorem publish_workers (w : World) (owner : IndexOwner) (index : ZoneIndex) :
    (w.publish owner index).workers = w.workers := by
  cases owner <;> rfl

theorem publish_indexOf? (w : World) (owner : IndexOwner) (index : ZoneIndex) :
    (w.publish owner index).indexOf? owner = (w.indexOf? owner).map fun _ => index := by
  cases owner with
  | catalog => rfl
  | solo number =>
    simp [publish, indexOf?, List.getElem?_modify_eq, Option.map_map, Function.comp_def]

section Happen

variable {o : Occurrence} {c : Refresher.Consequence}
  (hc : k.refresher.react w.endOfTime w.millis o = c)

include hc

theorem happen_store : (w.happen n k o).store =
    match c.close with
    | some feed => w.store.closeFeed feed
    | none => w.store := by
  simp only [happen, hc]
  cases c.publish <;> cases c.close <;> simp [setWorker, report, publish_store]

theorem happen_worker (hk : w.workers[n]? = some k) : ∃ paused, (w.happen n k o).workers[n]? =
    some { k with refresher := c.refresher, request := none, paused } := by
  have hn : n < w.workers.length := (List.getElem?_eq_some_iff.1 hk).1
  simp only [happen, hc]
  refine ⟨_, List.getElem?_set_self ?_⟩
  cases c.publish <;> cases c.close <;> simpa [report, publish_workers] using hn

theorem happen_indexOf? : (w.happen n k o).indexOf? k.owner =
    match c.publish with
    | some index => (w.indexOf? k.owner).map fun _ => index
    | none => w.indexOf? k.owner := by
  simp only [happen, hc]
  cases c.publish with
  | none => cases c.close <;> cases k.owner <;> rfl
  | some index =>
    have published := publish_indexOf? (w.report c.notices) k.owner index
    cases c.close <;> cases ho : k.owner <;> rw [ho] at published <;> exact published

end Happen

/-! Refreshers that are woken, and told to stop. -/

theorem wake_eq (w : World) (number : Nat) : ∃ queue, w.wake number = { w with queue } := by
  rw [wake]
  split
  · exact ⟨w.queue, rfl⟩
  · exact ⟨_, rfl⟩

theorem stop_eq (hk : w.workers[n]? = some k) :
    ∃ queue, w.stop n = { w.setWorker n { k with refresher.stopping := true } with queue } := by
  simp only [stop, hk]
  split
  · exact wake_eq _ n
  · exact ⟨w.queue, rfl⟩

theorem stop_worker (hk : w.workers[n]? = some k) :
    (w.stop n).workers[n]? = some { k with refresher.stopping := true } := by
  obtain ⟨queue, stopped⟩ := stop_eq hk
  rw [stopped]
  exact List.getElem?_set_self (List.getElem?_eq_some_iff.1 hk).1

end ZoneCatalog.World
