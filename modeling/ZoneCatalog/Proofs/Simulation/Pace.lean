import ZoneCatalog.Proofs.Catalog.Scene
import ZoneCatalog.Proofs.Simulation.Prompt

/-! What no move of a world touches: its time, and how long its store may take over a request. Time
passes between the moves only. -/
namespace ZoneCatalog

open Refresher (Occurrence)

/-! The store. -/

theorem MemoryStore.Move.readTimeout {mine : Option FeedId} {s s' : MemoryStore}
    (m : s.Move mine s') : s'.readTimeout = s.readTimeout := by
  cases m with
  | delete key =>
    rw [MemoryStore.delete]
    split <;> rfl
  | addMember key member =>
    simp only [MemoryStore.addMember]
    split <;> rfl
  | removeMember key member =>
    rw [MemoryStore.removeMember]
    split <;> rfl
  | read other =>
    rw [MemoryStore.readFeed]
    split
    · split <;> rfl
    · rfl
  | _ => rfl

namespace ScriptedStore

variable {s s' : ScriptedStore} {r : StoreRequest} {result : r.Result}

theorem Gives.readTimeout (gives : s.Gives r result s') :
    s'.memory.readTimeout = s.memory.readTimeout := by
  cases gives with
  | served => exact (serve_move none s.memory r).readTimeout
  | _ => rfl

theorem closeFeed_readTimeout (s : ScriptedStore) (feed : FeedId) :
    (s.closeFeed feed).memory.readTimeout = s.memory.readTimeout := by
  cases feed <;> rfl

theorem readFeed_readTimeout (s : ScriptedStore) (feed : FeedId) :
    (s.readFeed feed).2.memory.readTimeout = s.memory.readTimeout := by
  cases feed with
  | live number =>
    have move : s.memory.Move none (s.memory.readFeed number).2 := .read (by simp)
    exact move.readTimeout
  | manual number =>
    rw [readFeed]
    split
    · split <;> rfl
    · rfl

theorem post_readTimeout (s : ScriptedStore) (number : Nat) (e : StoreEvent) :
    (s.post number e).2.memory.readTimeout = s.memory.readTimeout := by
  rw [post]
  split
  · split <;> rfl
  · rfl

theorem endManual_readTimeout (s : ScriptedStore) (number : Nat) :
    (s.endManual number).2.memory.readTimeout = s.memory.readTimeout := by
  rw [endManual]
  split <;> rfl

end ScriptedStore

namespace World

variable {w v : World} {α V : Type}

/-- The time, and how long the store may take. -/
def pace (w : World) : Nat × Nat := (w.millis, w.store.memory.readTimeout)

/-! Work and the refreshers. -/

theorem run_pace (p : Program α) (w : World) : (w.run p).2.pace = w.pace := by
  induction p generalizing w with
  | done result => rfl
  | ask request next ih =>
    rw [run]
    split
    · rename_i result store sent
      rw [ih, pace, (ScriptedStore.send_gives sent).readTimeout]
      rfl
    · rfl
  | time next ih => exact ih w.clock w
  | report notice rest ih => exact ih (w.report [notice])

theorem resume_pace (work : Suspended α) (w : World) : (w.resume work).2.pace = w.pace := by
  rw [resume]
  split
  · rw [run_pace, pace, (w.store.answer_gives work.pending).readTimeout]
    rfl
  · rfl

theorem wake_pace (w : World) (number : Nat) : (w.wake number).pace = w.pace := by
  obtain ⟨queue, woken⟩ := w.wake_eq number
  rw [woken]
  rfl

theorem wakeAll_pace (w : World) (numbers : List Nat) : (w.wakeAll numbers).pace = w.pace := by
  induction numbers generalizing w with
  | nil => rfl
  | cons number rest ih => exact (ih (w.wake number)).trans (w.wake_pace number)

theorem wakeReaders_pace (w : World) : w.wakeReaders.pace = w.pace := wakeAll_pace w _

theorem spawn_pace (w : World) (plan : RefresherPlan) (owner : IndexOwner) :
    (w.spawn plan owner).2.pace = w.pace := wake_pace _ _

theorem stop_pace (w : World) (number : Nat) : (w.stop number).pace = w.pace := by
  cases hk : w.workers[number]? with
  | none => simp [stop, hk]
  | some worker =>
    obtain ⟨queue, stopped⟩ := stop_eq hk
    rw [stopped]
    rfl

theorem publish_pace (w : World) (owner : IndexOwner) (index : ZoneIndex) :
    (w.publish owner index).pace = w.pace := by
  cases owner <;> rfl

theorem happen_pace (w : World) (number : Nat) (worker : Worker) (o : Occurrence) :
    (w.happen number worker o).pace = w.pace := by
  rw [happen]
  generalize worker.refresher.react w.endOfTime w.millis o = c
  obtain ⟨r, notices, publish, close⟩ := c
  have published : ∀ index, ((w.report notices).publish worker.owner index).pace = w.pace :=
    publish_pace (w.report notices) worker.owner
  have closed (v : World) (feed : FeedId) :
      { v with store := v.store.closeFeed feed }.pace = v.pace := by
    rw [pace, v.store.closeFeed_readTimeout]
    rfl
  cases publish with
  | none =>
    cases close with
    | none => rfl
    | some feed => exact closed (w.report notices) feed
  | some index =>
    cases close with
    | none => exact published index
    | some feed => exact (closed _ feed).trans (published index)

theorem pursue_pace (number : Nat) (worker : Worker) (r : Progress Occurrence × World) :
    (pursue number worker r).2.pace = r.2.pace := by
  obtain ⟨_ | _, w⟩ := r
  · exact happen_pace w number worker _
  · rfl

theorem occurrence_pace {worker : Worker} {o : Occurrence}
    (h : w.occurrence worker = some (o, v)) : v.pace = w.pace := by
  rcases occurrence_eq h with rfl | ⟨feed, rfl⟩
  · rfl
  · rw [pace, w.store.readFeed_readTimeout]
    rfl

theorem stepWorker_pace {number : Nat} (h : w.stepWorker number = some v) : v.pace = w.pace := by
  obtain ⟨k, r, -, rfl, ⟨work, rfl⟩ | ⟨program, rfl⟩ | ⟨o, u, met, rfl⟩⟩ := stepWorker_eq_some h
  · exact (pursue_pace ..).trans (resume_pace work w)
  · exact (pursue_pace ..).trans (run_pace program w)
  · exact (pursue_pace ..).trans (occurrence_pace met)

theorem runWorker_pace (number moves : Nat) (w : World) :
    (runWorker number moves w).pace = w.pace := by
  induction moves generalizing w with
  | zero => rfl
  | succ moves ih =>
    rw [runWorker]
    split
    · rename_i moved
      exact (ih _).trans (stepWorker_pace moved)
    · rfl

theorem rest_pace (w : World) (number : Nat) : (w.rest number).pace = w.pace := by
  rw [rest]
  split
  · rfl
  · split
    · rfl
    · split
      · exact wake_pace w number
      · rfl

theorem takeTurn_pace (w : World) (number : Nat) : (w.takeTurn number).pace = w.pace := by
  unfold takeTurn
  extract_lets v
  exact (rest_pace _ number).trans (runWorker_pace number workerMoves v)

theorem runQueue_pace (w : World) : w.runQueue.pace = w.pace := by
  suffices turns : ∀ (numbers : List Nat) (v : World),
      (numbers.foldl takeTurn v).pace = v.pace from turns w.queue _
  intro numbers
  induction numbers with
  | nil => exact fun v => rfl
  | cons number rest ih => exact fun v => (ih _).trans (v.takeTurn_pace number)

theorem runWorkers_pace (w : World) : w.runWorkers.pace = w.pace :=
  (w.runQueue.runQueue_pace).trans w.runQueue_pace

/-- Time passes up to a moment, unless it has passed before. -/
theorem passTo_pace (w : World) (moment : Nat) :
    (w.passTo moment).pace = (max w.millis moment, w.store.memory.readTimeout) :=
  wakeAll_pace _ _

end World

/-! The calls. -/

/-- What waits will leave the pace alone: of all that calls wait for only the result of work is
dealt with by whoever waits. -/
def Activity.Paced : Activity → Prop
  | .working work => work.Ends fun finish => ∀ w : World, (finish w).2.pace = w.pace
  | .zone .. | .location .. | .starting _ | .stopping .. | .sleeping _ => True

def Standing.Paced : Standing → Prop
  | .answered _ => True
  | .waiting activity => activity.Paced

namespace World

variable {w v : World} {V : Type}

/-- A call has moved and left the pace alone. -/
structure Paces (w : World) (r : Standing × World) : Prop where
  paced : r.1.Paced
  pace : r.2.pace = w.pace

theorem Paces.after {r : Standing × World} (same : v.pace = w.pace) (paces : v.Paces r) :
    w.Paces r := ⟨paces.paced, paces.pace.trans same⟩

theorem paces_answered (same : v.pace = w.pace) (answer : Answer) :
    w.Paces (.answered answer, v) := ⟨trivial, same⟩

theorem work_paces {program : Program (World → Answer × World)}
    (ends : program.Ends fun finish => ∀ w : World, (finish w).2.pace = w.pace) (w : World) :
    w.Paces (w.work program) := by
  have ran := run_ends ends w
  have same := run_pace program w
  rw [work]
  split
  · rename_i finish v hr
    rw [hr] at ran same
    exact paces_answered ((ran v).trans same) _
  · rename_i rest v hr
    rw [hr] at ran same
    exact ⟨ran, same⟩

theorem answering_paces {α : Type} (program : Program α) (answer : α → Answer) :
    (answering program answer).Ends fun finish => ∀ w : World, (finish w).2.pace = w.pace :=
  (Program.Ends.of_forall (P := fun _ => True) (fun _ => trivial) program).bind
    fun _ _ _ => rfl

theorem requesting_paces (r : StoreRequest) :
    (requesting r).Ends fun finish => ∀ w : World, (finish w).2.pace = w.pace := by
  intro result
  cases result with
  | error cause => exact fun w => rfl
  | ok reply => cases r <;> exact fun w => rfl

section Lookups

variable (k : CacheOf V) (wrap : Entry V → Answer) (fetch : Fallible LoadError V) (lookup : Nat)
  (key : String)

theorem setCache_pace (w : World) (cache : Cache LoadError V) :
    (w.setCache k cache).pace = w.pace := rfl

theorem concludeLookup_pace (w : World) :
    (w.concludeLookup k wrap lookup key).2.pace = w.pace := by
  rw [concludeLookup]
  split <;> rfl

theorem continueFetch_pace (r : Progress (Except LoadError V) × World) :
    (continueFetch k wrap lookup key r).2.pace = r.2.pace := by
  obtain ⟨_ | _, w⟩ := r
  · exact concludeLookup_pace k wrap lookup key _
  · rfl

theorem continueLookup_pace (w : World) :
    (w.continueLookup k wrap fetch lookup key).2.pace = w.pace := by
  rw [continueLookup]
  split
  · split
    · exact concludeLookup_pace k wrap lookup key _
    · exact (continueFetch_pace k wrap lookup key _).trans (run_pace fetch.run _)
  · exact concludeLookup_pace k wrap lookup key w

theorem beginLookup_pace (w : World) : (w.beginLookup k wrap fetch key).2.pace = w.pace := by
  rw [beginLookup]
  split
  · rfl
  · exact continueLookup_pace k wrap fetch _ key _

end Lookups

theorem zoneStanding_paces (name : String) {r : LookupStanding Zone × World}
    (same : r.2.pace = w.pace) : w.Paces (zoneStanding name r) := by
  obtain ⟨_ | _, v⟩ := r
  · exact paces_answered same _
  · exact ⟨trivial, same⟩

theorem locationStanding_paces (label zone : String) {r : LookupStanding Location × World}
    (same : r.2.pace = w.pace) : w.Paces (locationStanding label zone r) := by
  obtain ⟨_ | _, v⟩ := r
  · exact paces_answered same _
  · exact ⟨trivial, same⟩

theorem awaitEnd_paces (w : World) (worker : Nat) (answer : Answer) :
    w.Paces (w.awaitEnd worker answer) := by
  rw [awaitEnd]
  split <;> exact ⟨trivial, rfl⟩

theorem withZone_paces {number : Nat} {f : Zone → Standing × World}
    (paces : ∀ zone, w.Paces (f zone)) : w.Paces (w.withZone number f) := by
  rw [withZone]
  split
  · exact paces _
  · exact paces_answered rfl .noZone

theorem withFeed_paces {number : Nat} {f : FeedId → Standing × World}
    (paces : ∀ feed, w.Paces (f feed)) : w.Paces (w.withFeed number f) := by
  rw [withFeed]
  split
  · exact paces _
  · exact paces_answered rfl .noFeed

theorem withSolo_paces {number : Nat} {f : Solo → Standing × World}
    (paces : ∀ solo, w.Paces (f solo)) : w.Paces (w.withSolo number f) := by
  rw [withSolo]
  split
  · exact paces _
  · exact paces_answered rfl .noRefresher

theorem enrol_paces (w : World) (answer : Answer) : w.Paces (w.enrol answer) := by
  have same := spawn_pace w w.catalog.plan.1 .catalog
  rw [enrol]
  generalize w.spawn w.catalog.plan.1 .catalog = spawned at same
  obtain ⟨number, v⟩ := spawned
  dsimp only
  split
  · refine .after ?_ (awaitEnd_paces ..)
    exact (stop_pace _ _).trans same
  · exact ⟨trivial, same⟩

theorem publishZones_pace (w : World) (owner : IndexOwner) (zones : List String) :
    (w.publishZones owner zones).2.pace = w.pace := publish_pace _ owner _

theorem finishStart_paces (w : World) (result : Except StoreError (List String)) :
    w.Paces (w.finishStart result) := by
  cases result with
  | ok zones =>
    refine .after ?_ (enrol_paces _ .none)
    exact w.publishZones_pace .catalog zones
  | error cause =>
    refine .after ?_ (enrol_paces _ (.storeFailure cause))
    rfl

theorem continueStart_paces (r : Progress (Except StoreError (List String)) × World) :
    r.2.Paces (continueStart r) := by
  obtain ⟨_ | _, w⟩ := r
  · exact finishStart_paces w _
  · exact ⟨trivial, rfl⟩

theorem beginStart_paces (w : World) : w.Paces w.beginStart := by
  rw [beginStart]
  split
  · exact ⟨trivial, rfl⟩
  · refine .after ?_ (continueStart_paces _)
    exact run_pace _ (w.report w.catalog.plan.2)

theorem beginShutdown_paces (w : World) : w.Paces w.beginShutdown := by
  rw [beginShutdown]
  split
  · refine .after ?_ (awaitEnd_paces ..)
    exact stop_pace _ _
  · exact ⟨trivial, rfl⟩

theorem reloadSolo_paces (w : World) (number : Nat) (plan : RefresherPlan) :
    w.Paces (w.reloadSolo number plan) := by
  refine work_paces ?_ w
  intro result
  cases result with
  | error cause => exact fun w => rfl
  | ok zones => exact fun w => w.publishZones_pace (.solo number) zones

theorem inMemory_paces (w : World) (change : MemoryStore → MemoryStore)
    (move : ∀ s : MemoryStore, s.Move none (change s)) : w.Paces (w.inMemory change) :=
  ⟨trivial, congrArg (w.millis, ·) (move w.store.memory).readTimeout⟩

/-- No call takes time as it begins. -/
theorem begin_paces (w : World) (step : Step) : w.Paces (w.begin step) := by
  cases step with
  | set key value => exact w.inMemory_paces (·.set key value) fun _ => .set key value
  | delete key => exact w.inMemory_paces (·.delete key) fun _ => .delete key
  | addMember key member =>
    exact w.inMemory_paces (·.addMember key member) fun _ => .addMember key member
  | removeMember key member =>
    exact w.inMemory_paces (·.removeMember key member) fun _ => .removeMember key member
  | putField key name value =>
    exact w.inMemory_paces (·.putField key name value) fun _ => .putField key name value
  | getLocation location zone =>
    simp only [begin]
    exact withZone_paces fun zone => locationStanding_paces _ zone.name (beginLookup_pace ..)
  | getZone name => exact zoneStanding_paces name (beginLookup_pace ..)
  | start => exact w.beginStart_paces
  | shutdown => exact w.beginShutdown_paces
  | request r => exact work_paces (requesting_paces r) w
  | loadZone name now => exact work_paces (answering_paces _ _) w
  | loadKeys zone now => exact work_paces (answering_paces _ _) w
  | sleep millis =>
    by_cases now : millis = 0
    · simp only [begin, if_pos now]
      exact ⟨trivial, rfl⟩
    · simp only [begin, if_neg now]
      exact ⟨trivial, rfl⟩
  | readFeed feed =>
    exact withFeed_paces fun id =>
      ⟨trivial, congrArg (w.millis, ·) (w.store.readFeed_readTimeout id)⟩
  | closeFeed feed =>
    exact withFeed_paces fun id =>
      ⟨trivial, congrArg (w.millis, ·) (w.store.closeFeed_readTimeout id)⟩
  | setLocation location zone records =>
    simp only [begin]
    refine withZone_paces fun zone => ?_
    split
    · exact ⟨trivial, rfl⟩
    · exact work_paces (answering_paces _ _) w
  | sign zone role owner type ttl rdatas =>
    simp only [begin]
    exact withZone_paces fun zone => ⟨trivial, rfl⟩
  | newRefresher reloadEvery forceEvery => exact ⟨trivial, rfl⟩
  | reloadRefresher number =>
    refine withSolo_paces fun solo => ?_
    split
    · exact w.reloadSolo_paces number solo.plan
    · exact ⟨trivial, rfl⟩
  | spawnRefresher number =>
    refine withSolo_paces fun solo => ?_
    split
    · exact ⟨trivial, spawn_pace w solo.plan (.solo number)⟩
    · exact ⟨trivial, rfl⟩
  | refresherZones number => exact withSolo_paces fun solo => ⟨trivial, rfl⟩
  | refresherFinished number =>
    refine withSolo_paces fun solo => ?_
    split <;> exact ⟨trivial, rfl⟩
  | stopRefresher number =>
    refine withSolo_paces fun solo => ?_
    split
    · exact .after (stop_pace (w.setSolo number .stopped) _) (awaitEnd_paces ..)
    · exact ⟨trivial, rfl⟩
  | post feed e => exact ⟨trivial, congrArg (w.millis, ·) (w.store.post_readTimeout feed e)⟩
  | endManual feed => exact ⟨trivial, congrArg (w.millis, ·) (w.store.endManual_readTimeout feed)⟩
  | _ => exact ⟨trivial, rfl⟩

/-- No call takes time as it goes on. -/
theorem proceed_paces (w : World) {activity : Activity} (paced : activity.Paced) :
    w.Paces (w.proceed activity) := by
  cases activity with
  | location lookup label zone fetch =>
    cases fetch with
    | none => exact locationStanding_paces label zone (continueLookup_pace ..)
    | some fetch =>
      exact locationStanding_paces label zone
        ((continueFetch_pace ..).trans (resume_pace fetch w))
  | zone lookup name fetch =>
    cases fetch with
    | none => exact zoneStanding_paces name (continueLookup_pace ..)
    | some fetch =>
      exact zoneStanding_paces name ((continueFetch_pace ..).trans (resume_pace fetch w))
  | working work =>
    have ends := resume_ends paced w
    have same := resume_pace work w
    simp only [proceed]
    split
    · rename_i finish v hr
      rw [hr] at ends same
      exact ⟨trivial, (ends v).trans same⟩
    · rename_i rest v hr
      rw [hr] at ends same
      exact ⟨ends, same⟩
  | starting work => exact .after (resume_pace work w) (continueStart_paces _)
  | stopping worker answer => exact w.awaitEnd_paces worker answer
  | sleeping due =>
    simp only [proceed]
    split <;> exact ⟨trivial, rfl⟩

theorem giveUp_pace (w : World) (activity : Activity) : (w.giveUp activity).pace = w.pace := by
  cases activity with
  | zone lookup name fetch => exact setCache_pace ..
  | location lookup label zone fetch => exact setCache_pace ..
  | _ => rfl

end World

namespace Call

variable {c : Call} {w : World}

/-- What a call waits for will leave the pace alone. -/
def Paced (c : Call) : Prop := ∀ activity, c.state = .active activity → activity.Paced

theorem settle_paces {r : Standing × World} (paces : w.Paces r) (c : Call) :
    (c.settle r).1.Paced ∧ (c.settle r).2.pace = w.pace := by
  obtain ⟨answer | activity, v⟩ := r
  · refine ⟨?_, paces.pace⟩
    rintro activity ⟨⟩
  · by_cases expired : c.isExpired v.millis
    · rw [settle_expired expired]
      refine ⟨?_, (v.giveUp_pace activity).trans paces.pace⟩
      rintro activity ⟨⟩
    · rw [settle_active expired]
      refine ⟨?_, paces.pace⟩
      rintro _ ⟨⟩
      exact paces.paced

/-- No call takes time as it moves. -/
theorem move_paces (paced : c.Paced) (w : World) :
    (c.move w).1.Paced ∧ (c.move w).2.pace = w.pace := by
  rw [move]
  split
  · split
    · exact settle_paces (w.begin_paces c.step) _
    · rename_i activity hs
      exact settle_paces (w.proceed_paces (paced activity hs)) c
    · exact ⟨paced, rfl⟩
  · exact ⟨paced, rfl⟩

end Call
end ZoneCatalog
