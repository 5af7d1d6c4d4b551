import ZoneCatalog.Proofs.Refresher.Turn
import ZoneCatalog.Simulation.Session

/-! What the moves of a world leave alone. Of the catalog they change the index, the refresher and
the cache in which something is looked up. So whatever shows none of the three is the same after a
move: the other cache, and the layout of the store. -/
namespace ZoneCatalog

variable {β V : Type} {view : Catalog → β}

/-- A part of the catalog that shows neither the index nor the refresher. -/
structure Catalog.Steady (view : Catalog → β) : Prop where
  index : ∀ (c : Catalog) (index : ZoneIndex), view { c with index } = view c
  refresher : ∀ (c : Catalog) (refresher : Option Nat), view { c with refresher } = view c

/-- A part of the catalog that does not show one of the caches. -/
def CacheOf.Hidden (k : CacheOf V) (view : Catalog → β) : Prop :=
  ∀ c cache, view (k.set c cache) = view c

/-- A part of the catalog is the same in both worlds. -/
def World.Same (view : Catalog → β) (w w' : World) : Prop := view w'.catalog = view w.catalog

namespace World

variable {w v u : World}

namespace Same

theorem refl (view : Catalog → β) (w : World) : w.Same view w := rfl

theorem trans (first : w.Same view v) (second : v.Same view u) : w.Same view u :=
  Eq.trans second first

theorem of_catalog (same : v.catalog = w.catalog) : w.Same view v := congrArg view same

theorem report (view : Catalog → β) (w : World) (notices : List Notice) :
    w.Same view (w.report notices) := rfl

end Same

/-! The refreshers. -/

@[simp] theorem wake_catalog (w : World) (number : Nat) : (w.wake number).catalog = w.catalog := by
  obtain ⟨queue, woken⟩ := w.wake_eq number
  rw [woken]

@[simp] theorem wakeAll_catalog (w : World) (numbers : List Nat) :
    (w.wakeAll numbers).catalog = w.catalog := by
  induction numbers generalizing w with
  | nil => rfl
  | cons n rest ih => exact (ih (w.wake n)).trans (w.wake_catalog n)

@[simp] theorem spawn_catalog (w : World) (plan : RefresherPlan) (owner : IndexOwner) :
    (w.spawn plan owner).2.catalog = w.catalog := wake_catalog _ _

@[simp] theorem stop_catalog (w : World) (number : Nat) : (w.stop number).catalog = w.catalog := by
  cases hk : w.workers[number]? with
  | none => simp [stop, hk]
  | some worker =>
    obtain ⟨queue, stopped⟩ := stop_eq hk
    rw [stopped]
    rfl

theorem occurrence_catalog {worker : Worker} {o : Refresher.Occurrence}
    (h : w.occurrence worker = some (o, v)) : v.catalog = w.catalog := by
  rcases occurrence_eq h with rfl | ⟨feed, rfl⟩
  · rfl
  · rfl

theorem rest_catalog (w : World) (number : Nat) : (w.rest number).catalog = w.catalog := by
  rw [rest]
  split
  · rfl
  · split
    · rfl
    · split
      · exact wake_catalog w number
      · rfl

@[simp] theorem wakeReaders_catalog (w : World) : w.wakeReaders.catalog = w.catalog :=
  wakeAll_catalog ..

@[simp] theorem passTo_catalog (w : World) (moment : Nat) : (w.passTo moment).catalog = w.catalog :=
  wakeAll_catalog ..

section Refreshers

variable (steady : Catalog.Steady view)

include steady

theorem publish_same (w : World) (owner : IndexOwner) (index : ZoneIndex) :
    w.Same view (w.publish owner index) := by
  cases owner with
  | catalog => exact steady.index w.catalog index
  | solo number => exact .refl view w

theorem happen_same (w : World) (number : Nat) (worker : Worker) (o : Refresher.Occurrence) :
    w.Same view (w.happen number worker o) := by
  rw [happen]
  generalize worker.refresher.react w.endOfTime w.millis o = c
  obtain ⟨r, notices, publish, close⟩ := c
  cases publish with
  | none => cases close <;> exact .refl view w
  | some index =>
    have published := (w.report notices).publish_same steady worker.owner index
    cases close <;> exact published

theorem pursue_same (number : Nat) (worker : Worker)
    (r : Progress Refresher.Occurrence × World) : r.2.Same view (pursue number worker r).2 := by
  obtain ⟨_ | _, w⟩ := r
  · exact happen_same steady ..
  · exact .refl view w

theorem stepWorker_same {number : Nat} (h : w.stepWorker number = some v) : w.Same view v := by
  obtain ⟨k, r, -, rfl, ⟨work, rfl⟩ | ⟨program, rfl⟩ | ⟨o, u, met, rfl⟩⟩ := stepWorker_eq_some h
  · exact .trans (.of_catalog (resume_catalog work w)) (pursue_same steady ..)
  · exact .trans (.of_catalog (run_catalog program w)) (pursue_same steady ..)
  · exact .trans (.of_catalog (occurrence_catalog met)) (happen_same steady ..)

theorem runWorker_same (number moves : Nat) (w : World) :
    w.Same view (runWorker number moves w) := by
  induction moves generalizing w with
  | zero => exact .refl view w
  | succ moves ih =>
    rw [runWorker]
    split
    · rename_i moved
      exact (stepWorker_same steady moved).trans (ih _)
    · exact .refl view w

theorem takeTurn_same (w : World) (number : Nat) : w.Same view (w.takeTurn number) := by
  unfold takeTurn
  extract_lets v
  have unpaused : w.Same view v := .refl view w
  exact (unpaused.trans (runWorker_same steady number workerMoves v)).trans
    (.of_catalog (rest_catalog _ number))

theorem runQueue_same (w : World) : w.Same view w.runQueue := by
  suffices turns : ∀ (numbers : List Nat) (v : World), v.Same view (numbers.foldl takeTurn v) from
    turns w.queue _
  intro numbers
  induction numbers with
  | nil => exact .refl view
  | cons number rest ih => exact fun v => (v.takeTurn_same steady number).trans (ih _)

theorem runWorkers_same (w : World) : w.Same view w.runWorkers :=
  (w.runQueue_same steady).trans (w.runQueue.runQueue_same steady)

end Refreshers

end World

/-! The calls. -/

/-- What waits without a view of it: its moves will leave that part of the catalog alone. -/
def Activity.Unseen (view : Catalog → β) : Activity → Prop
  | .zone .. => CacheOf.zones.Hidden view
  | .location .. => CacheOf.locations.Hidden view
  | .working work => work.Ends fun finish => ∀ w : World, w.Same view (finish w).2
  | .starting _ | .stopping .. | .sleeping _ => True

def Standing.Unseen (view : Catalog → β) : Standing → Prop
  | .answered _ => True
  | .waiting activity => activity.Unseen view

/-- What is asked without a view of it. -/
def Step.Unseen (view : Catalog → β) : Step → Prop
  | .getZone _ => CacheOf.zones.Hidden view
  | .getLocation _ _ => CacheOf.locations.Hidden view
  | _ => True

namespace World

variable {w : World}

/-- A call has moved and left a part of the catalog alone. -/
structure Leaves (view : Catalog → β) (w : World) (r : Standing × World) : Prop where
  unseen : r.1.Unseen view
  same : w.Same view r.2

theorem Leaves.of_same {v : World} {r : Standing × World} (same : w.Same view v)
    (leaves : v.Leaves view r) : w.Leaves view r := ⟨leaves.unseen, same.trans leaves.same⟩

theorem leaves_answered {v : World} (same : w.Same view v) (answer : Answer) :
    w.Leaves view (.answered answer, v) := ⟨trivial, same⟩

section Work

/-- Work whose result leaves a part of the catalog alone. -/
abbrev Spares (view : Catalog → β) (program : Program (World → Answer × World)) : Prop :=
  program.Ends fun finish => ∀ w : World, w.Same view (finish w).2

theorem spares_answering {α : Type} (program : Program α) (answer : α → Answer) :
    Spares view (answering program answer) :=
  (Program.Ends.of_forall (P := fun _ => True) (fun _ => trivial) program).bind
    fun _ _ => Same.refl view

theorem spares_requesting (r : StoreRequest) : Spares view (requesting r) := by
  intro result
  cases result with
  | error cause => exact Same.refl view
  | ok reply => cases r <;> exact Same.refl view

theorem work_leaves {program : Program (World → Answer × World)} (spares : Spares view program)
    (w : World) : w.Leaves view (w.work program) := by
  have ends := run_ends spares w
  have same := run_catalog program w
  rw [work]
  split
  · rename_i finish v hr
    rw [hr] at ends same
    exact leaves_answered ((Same.of_catalog same).trans (ends v)) _
  · rename_i rest v hr
    rw [hr] at ends same
    exact ⟨ends, .of_catalog same⟩

end Work

section Lookups

variable {k : CacheOf V} (hidden : k.Hidden view) (wrap : Entry V → Answer)
  (fetch : Fallible LoadError V) (lookup : Nat) (key : String)

include hidden

theorem setCache_same (w : World) (cache : Cache LoadError V) :
    w.Same view (w.setCache k cache) := hidden w.catalog cache

theorem startFetch_same (w : World) : w.Same view (w.startFetch k lookup) :=
  hidden w.catalog _

theorem concludeLookup_same (w : World) : w.Same view (w.concludeLookup k wrap lookup key).2 := by
  rw [concludeLookup]
  split
  · exact setCache_same hidden w _
  · exact .refl view w

theorem continueFetch_same (r : Progress (Except LoadError V) × World) :
    r.2.Same view (continueFetch k wrap lookup key r).2 := by
  obtain ⟨_ | _, w⟩ := r
  · exact (setCache_same hidden w _).trans (concludeLookup_same hidden wrap lookup key _)
  · exact .refl view w

theorem continueLookup_same (w : World) :
    w.Same view (w.continueLookup k wrap fetch lookup key).2 := by
  rw [continueLookup]
  split
  · split
    · exact (setCache_same hidden w _).trans (concludeLookup_same hidden wrap lookup key _)
    · have same := run_catalog fetch.run (w.startFetch k lookup)
      exact (startFetch_same hidden lookup w).trans
        ((Same.of_catalog same).trans (continueFetch_same hidden wrap lookup key _))
  · exact concludeLookup_same hidden wrap lookup key w

theorem beginLookup_same (w : World) : w.Same view (w.beginLookup k wrap fetch key).2 := by
  rw [beginLookup]
  split
  · exact setCache_same hidden w _
  · exact (setCache_same hidden w _).trans (continueLookup_same hidden wrap fetch _ key _)

end Lookups

theorem zoneStanding_leaves (hidden : CacheOf.zones.Hidden view) (name : String)
    {r : LookupStanding Zone × World} (same : w.Same view r.2) :
    w.Leaves view (zoneStanding name r) := by
  obtain ⟨_ | _, v⟩ := r
  · exact leaves_answered same _
  · exact ⟨hidden, same⟩

theorem locationStanding_leaves (hidden : CacheOf.locations.Hidden view) (label zone : String)
    {r : LookupStanding Location × World} (same : w.Same view r.2) :
    w.Leaves view (locationStanding label zone r) := by
  obtain ⟨_ | _, v⟩ := r
  · exact leaves_answered same _
  · exact ⟨hidden, same⟩

theorem awaitEnd_leaves (w : World) (worker : Nat) (answer : Answer) :
    w.Leaves view (w.awaitEnd worker answer) := by
  rw [awaitEnd]
  split
  · exact leaves_answered (.report view w _) answer
  · exact ⟨trivial, .refl view w⟩

theorem withZone_leaves {number : Nat} {f : Zone → Standing × World}
    (leaves : ∀ zone, w.Leaves view (f zone)) : w.Leaves view (w.withZone number f) := by
  rw [withZone]
  split
  · exact leaves _
  · exact leaves_answered (.refl view w) .noZone

theorem withFeed_leaves {number : Nat} {f : FeedId → Standing × World}
    (leaves : ∀ feed, w.Leaves view (f feed)) : w.Leaves view (w.withFeed number f) := by
  rw [withFeed]
  split
  · exact leaves _
  · exact leaves_answered (.refl view w) .noFeed

theorem withSolo_leaves {number : Nat} {f : Solo → Standing × World}
    (leaves : ∀ solo, w.Leaves view (f solo)) : w.Leaves view (w.withSolo number f) := by
  rw [withSolo]
  split
  · exact leaves _
  · exact leaves_answered (.refl view w) .noRefresher

/-- A catalog that has looked for its zones starts its refresher. -/
def enrol (w : World) (answer : Answer) : Standing × World :=
  let (number, v) := w.spawn w.catalog.plan.1 .catalog
  let (previous, catalog) := v.catalog.install number
  let v := { v with catalog }
  match previous with
  | some previous => (v.stop previous).awaitEnd previous answer
  | none => (.answered answer, v)

section Calls

variable (steady : Catalog.Steady view)

include steady

theorem publishZones_same (w : World) (owner : IndexOwner) (zones : List String) :
    w.Same view (w.publishZones owner zones).2 :=
  publish_same steady (w.report (Refresher.indexOf zones).2) owner (Refresher.indexOf zones).1

theorem enrol_leaves (w : World) (answer : Answer) : w.Leaves view (w.enrol answer) := by
  have same := spawn_catalog w w.catalog.plan.1 .catalog
  rw [enrol]
  generalize w.spawn w.catalog.plan.1 .catalog = spawned at same
  obtain ⟨number, v⟩ := spawned
  have installed : w.Same view { v with catalog := (v.catalog.install number).2 } :=
    (steady.refresher v.catalog number).trans (congrArg view same :)
  dsimp only
  split
  · exact .of_same (installed.trans (.of_catalog (stop_catalog _ _))) (awaitEnd_leaves ..)
  · exact leaves_answered installed answer

theorem finishStart_leaves (w : World) (result : Except StoreError (List String)) :
    w.Leaves view (w.finishStart result) := by
  cases result with
  | ok zones =>
    have published := w.publishZones_same steady .catalog zones
    exact .of_same (published.trans (.report view _ _)) (enrol_leaves steady _ .none)
  | error cause =>
    exact .of_same (.report view w _) (enrol_leaves steady _ (.storeFailure cause))

theorem continueStart_leaves (r : Progress (Except StoreError (List String)) × World) :
    r.2.Leaves view (continueStart r) := by
  obtain ⟨_ | _, w⟩ := r
  · exact finishStart_leaves steady w _
  · exact ⟨trivial, .refl view w⟩

theorem beginStart_leaves (w : World) : w.Leaves view w.beginStart := by
  rw [beginStart]
  split
  · exact leaves_answered (.report view w _) .none
  · extract_lets v
    have ran : w.Same view (v.run (.ask (.members v.catalog.keys.zoneSet) .done)).2 :=
      .of_catalog (run_catalog _ v)
    exact .of_same ran (continueStart_leaves steady _)

theorem beginShutdown_leaves (w : World) : w.Leaves view w.beginShutdown := by
  have uninstalled : w.Same view { w with catalog := w.catalog.uninstall.2 } :=
    steady.refresher w.catalog none
  rw [beginShutdown]
  split
  · rename_i worker catalog h
    rw [h] at uninstalled
    exact .of_same (uninstalled.trans (.of_catalog (stop_catalog _ _))) (awaitEnd_leaves ..)
  · rename_i catalog h
    rw [h] at uninstalled
    exact leaves_answered (uninstalled.trans (.report view _ _)) .done

theorem reloadSolo_leaves (w : World) (number : Nat) (plan : RefresherPlan) :
    w.Leaves view (w.reloadSolo number plan) := by
  refine work_leaves ?_ w
  intro result
  cases result with
  | error cause => exact Same.refl view
  | ok zones => exact fun w => w.publishZones_same steady (.solo number) zones

/-- Whatever begins unseen leaves that part of the catalog alone. -/
theorem begin_leaves (w : World) {step : Step} (unseen : step.Unseen view) :
    w.Leaves view (w.begin step) := by
  cases step with
  | getLocation location zone =>
    simp only [begin]
    exact withZone_leaves fun zone =>
      locationStanding_leaves unseen _ zone.name (beginLookup_same unseen ..)
  | getZone name => exact zoneStanding_leaves unseen name (beginLookup_same unseen ..)
  | start => exact w.beginStart_leaves steady
  | shutdown => exact w.beginShutdown_leaves steady
  | request r => exact work_leaves (spares_requesting r) w
  | loadZone name now => exact work_leaves (spares_answering _ _) w
  | loadKeys zone now => exact work_leaves (spares_answering _ _) w
  | sleep millis =>
    by_cases now : millis = 0
    · simp only [begin, if_pos now]
      exact ⟨trivial, .refl view w⟩
    · simp only [begin, if_neg now]
      exact ⟨trivial, .refl view w⟩
  | readFeed feed => exact withFeed_leaves fun id => ⟨trivial, rfl⟩
  | closeFeed feed => exact withFeed_leaves fun id => ⟨trivial, rfl⟩
  | setLocation location zone records =>
    simp only [begin]
    refine withZone_leaves fun zone => ?_
    split
    · exact ⟨trivial, .refl view w⟩
    · exact work_leaves (spares_answering _ _) w
  | sign zone role owner type ttl rdatas =>
    simp only [begin]
    exact withZone_leaves fun zone => ⟨trivial, .refl view w⟩
  | newRefresher reloadEvery forceEvery => exact ⟨trivial, rfl⟩
  | reloadRefresher number =>
    refine withSolo_leaves fun solo => ?_
    split
    · exact w.reloadSolo_leaves steady number solo.plan
    · exact ⟨trivial, .refl view w⟩
  | spawnRefresher number =>
    refine withSolo_leaves fun solo => ?_
    split
    · exact ⟨trivial, .of_catalog (spawn_catalog w solo.plan (.solo number))⟩
    · exact ⟨trivial, .refl view w⟩
  | refresherZones number => exact withSolo_leaves fun solo => ⟨trivial, .refl view w⟩
  | refresherFinished number =>
    refine withSolo_leaves fun solo => ?_
    split <;> exact ⟨trivial, .refl view w⟩
  | stopRefresher number =>
    refine withSolo_leaves fun solo => ?_
    split
    · rename_i worker _
      have stopped : w.Same view ((w.setSolo number .stopped).stop worker) :=
        .of_catalog (stop_catalog (w.setSolo number .stopped) worker)
      exact .of_same stopped (awaitEnd_leaves ..)
    · exact ⟨trivial, .refl view w⟩
  | _ => exact ⟨trivial, rfl⟩

/-- What waits unseen goes on unseen. -/
theorem proceed_leaves (w : World) {activity : Activity} (unseen : activity.Unseen view) :
    w.Leaves view (w.proceed activity) := by
  cases activity with
  | location lookup label zone fetch =>
    cases fetch with
    | none => exact locationStanding_leaves unseen label zone (continueLookup_same unseen ..)
    | some fetch =>
      have resumed : w.Same view (w.resume fetch).2 := .of_catalog (resume_catalog fetch w)
      exact locationStanding_leaves unseen label zone
        (resumed.trans (continueFetch_same unseen ..))
  | zone lookup name fetch =>
    cases fetch with
    | none => exact zoneStanding_leaves unseen name (continueLookup_same unseen ..)
    | some fetch =>
      have resumed : w.Same view (w.resume fetch).2 := .of_catalog (resume_catalog fetch w)
      exact zoneStanding_leaves unseen name (resumed.trans (continueFetch_same unseen ..))
  | working work =>
    have ends := resume_ends unseen w
    have same := resume_catalog work w
    simp only [proceed]
    split
    · rename_i finish v hr
      rw [hr] at ends same
      exact ⟨trivial, (Same.of_catalog same).trans (ends v)⟩
    · rename_i rest v hr
      rw [hr] at ends same
      exact ⟨ends, .of_catalog same⟩
  | starting work =>
    have resumed : w.Same view (w.resume work).2 := .of_catalog (resume_catalog work w)
    exact .of_same resumed (continueStart_leaves steady _)
  | stopping worker answer => exact w.awaitEnd_leaves worker answer
  | sleeping due =>
    simp only [proceed]
    split <;> exact ⟨trivial, .refl view w⟩

end Calls

theorem giveUp_same (w : World) {activity : Activity} (unseen : activity.Unseen view) :
    w.Same view (w.giveUp activity) := by
  cases activity with
  | location lookup label zone fetch => exact setCache_same unseen ..
  | zone lookup name fetch => exact setCache_same unseen ..
  | working _ | starting _ | stopping _ _ | sleeping _ => exact .refl view w

end World
end ZoneCatalog
