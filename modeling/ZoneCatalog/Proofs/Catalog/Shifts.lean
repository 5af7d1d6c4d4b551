import ZoneCatalog.Proofs.Catalog.Orphans
import ZoneCatalog.Proofs.Catalog.Session
import ZoneCatalog.Proofs.Simulation.Prompt

/-! Starts and shutdowns that are taken at once. However they are scheduled among the refreshers,
what happens is a run of a scene in which they pass each other. -/
namespace ZoneCatalog

open Refresher (Occurrence)

namespace World

variable {w v u : World} {n : Nat} {k : Worker} {α : Type}

namespace Around

theorem wake (w : World) (number : Nat) : w.Around (w.wake number) := by
  obtain ⟨queue, woken⟩ := w.wake_eq number
  rw [woken]
  exact ⟨rfl, rfl, Nat.le_refl _, rfl, .refl _, rfl⟩

theorem wakeAll (w : World) (numbers : List Nat) : w.Around (w.wakeAll numbers) := by
  induction numbers generalizing w with
  | nil => exact refl w
  | cons number rest ih => exact (wake w number).trans (ih _)

theorem passTo (w : World) (moment : Nat) : w.Around (w.passTo moment) := by
  refine .trans ?_ (wakeAll _ _)
  exact ⟨rfl, rfl, Nat.le_max_left _ _, rfl, .refl _, rfl⟩

theorem rest (w : World) (number : Nat) : w.Around (w.rest number) := by
  rw [World.rest]
  split
  · exact refl w
  · split
    · exact ⟨rfl, rfl, Nat.le_refl _, rfl, .refl _, rfl⟩
    · split
      · exact wake w number
      · exact ⟨rfl, rfl, Nat.le_refl _, rfl, .refl _, rfl⟩

/-- A refresher that waits for its turn gets it. -/
theorem unpause (w : World) (number : Nat) :
    w.Around { w with workers := w.workers.modify number fun k => { k with paused := false } } := by
  refine ⟨rfl, rfl, Nat.le_refl _, rfl, .refl _, ?_⟩
  funext m
  cases hk : w.workers[m]? with
  | none => simp [World.crew, List.getElem?_modify, hk]
  | some k =>
    by_cases same : number = m <;> simp [World.crew, hk, same]

end Around

/-! Refreshers that run for themselves. -/

theorem owner_of_crew (other : w.crew n = none) (hk : w.workers[n]? = some k) :
    k.owner ≠ .catalog := by
  intro ours
  simp [crew, hk, ours] at other

theorem crew_set_other (set : v.workers = w.workers.set n k) (other : w.crew n = none)
    (apart : k.owner ≠ .catalog) : v.crew = w.crew := by
  funext m
  by_cases same : m = n
  · subst same
    rw [other, crew, set, List.getElem?_set_self']
    cases w.workers[m]? <;> simp [apart]
  · simp [crew, set, List.getElem?_set_ne (Ne.symm same)]

/-- Work leaves all refreshers as they are. -/
theorem run_around (w : World) (p : Program α) :
    w.Around (w.run p).2 ∧ (w.run p).2.workers = w.workers := by
  have onward : w.store.Onward (w.run p).2.store := by
    induction p generalizing w with
    | done result => exact .refl _
    | ask request next ih =>
      rw [run]
      split
      · rename_i result store sent
        exact (ScriptedStore.send_gives sent).onward.trans (ih result { w with store })
      · exact .refl _
    | time next ih => exact ih w.clock w
    | report notice rest ih => exact ih (w.report [notice])
  obtain ⟨store, notices, ran⟩ := w.run_eq p
  rw [ran] at onward ⊢
  exact ⟨⟨rfl, rfl, Nat.le_refl _, rfl, onward, rfl⟩, rfl⟩

theorem resume_around (w : World) (work : Suspended α) :
    w.Around (w.resume work).2 ∧ (w.resume work).2.workers = w.workers := by
  rw [resume]
  split
  · have around := around_gives (w.store.answer_gives work.pending)
    obtain ⟨ran, workers⟩ := run_around { w with store := _ } (work.next _)
    exact ⟨around.trans ran, workers⟩
  · exact ⟨.refl w, rfl⟩

theorem occurrence_around {o : Occurrence} (h : w.occurrence k = some (o, v)) :
    w.Around v ∧ v.workers = w.workers := by
  rcases occurrence_eq h with rfl | ⟨feed, rfl⟩
  · exact ⟨.refl v, rfl⟩
  · exact ⟨⟨rfl, rfl, Nat.le_refl _, rfl, .readFeed w.store feed, rfl⟩, rfl⟩

theorem pursue_around {r : Progress Occurrence × World} (hk : r.2.workers[n]? = some k)
    (other : r.2.crew n = none) : r.2.Around (pursue n k r).2 := by
  have apart := owner_of_crew other hk
  obtain ⟨o | work, w⟩ := r
  · obtain ⟨_, _, _, _, _, _, happened⟩ := happen_eq (w := w) (n := n) (k := k) (o := o) rfl
    simp only [pursue, happened]
    refine ⟨rfl, rfl, Nat.le_refl _, rfl, ?_, crew_set_other rfl other apart⟩
    dsimp only
    split
    · exact .closeFeed _ _
    · exact .refl _
  · exact ⟨rfl, rfl, Nat.le_refl _, rfl, .refl _, crew_set_other rfl other apart⟩

/-- A refresher that runs for itself leaves those of the catalog as they are. -/
theorem stepWorker_around (h : w.stepWorker n = some v) (other : w.crew n = none) :
    w.Around v := by
  have pursued {k : Worker} {r : Progress Occurrence × World} (hk : w.workers[n]? = some k)
      (before : w.Around r.2 ∧ r.2.workers = w.workers) : w.Around (pursue n k r).2 :=
    before.1.trans (pursue_around (before.2 ▸ hk) ((congrFun before.1.crew n).trans other))
  obtain ⟨k, r, hk, rfl, ⟨work, rfl⟩ | ⟨program, rfl⟩ | ⟨o, u, found, rfl⟩⟩ := stepWorker_eq_some h
  · exact pursued hk (w.resume_around work)
  · exact pursued hk (w.run_around program)
  · exact pursued hk (occurrence_around found)

end World

namespace Scene

variable {w v : World} {calls : List Call} {s s₁ s₂ : Scene}

/-- A scene leads to another in which as many calls are. -/
def Relays (s s' : Scene) : Prop :=
  ∃ h, Steps HandoverStep s h s' ∧ s'.calls.length = s.calls.length

namespace Relays

theorem refl (s : Scene) : s.Relays s := ⟨[], .refl, rfl⟩

theorem trans (first : s.Relays s₁) (second : s₁.Relays s₂) : s.Relays s₂ := by
  obtain ⟨h, first, same⟩ := first
  obtain ⟨h', second, same'⟩ := second
  exact ⟨h ++ h', first.trans second, same'.trans same⟩

theorem beside (around : w.Around v) (calls : List Call) : Relays ⟨w, calls⟩ ⟨v, calls⟩ :=
  ⟨_, .single (.beside around), rfl⟩

theorem stepWorker {n : Nat} (h : w.stepWorker n = some v) (calls : List Call) :
    Relays ⟨w, calls⟩ ⟨v, calls⟩ := by
  cases ours : w.crew n with
  | none => exact beside (World.stepWorker_around h ours) calls
  | some k =>
    have moved := h
    rw [World.stepWorker_eq_observe] at moved
    obtain ⟨⟨met, _⟩, seen, -⟩ := Option.map_eq_some_iff.1 moved
    exact ⟨_, .single (.turned ours h (by rw [World.meets, seen]; rfl)), rfl⟩

theorem runWorker (n moves : Nat) (w : World) (calls : List Call) :
    Relays ⟨w, calls⟩ ⟨World.runWorker n moves w, calls⟩ := by
  induction moves generalizing w with
  | zero => exact refl _
  | succ moves ih =>
    rw [World.runWorker]
    split
    · rename_i moved
      exact (stepWorker moved calls).trans (ih _)
    · exact refl _

theorem takeTurn (w : World) (n : Nat) (calls : List Call) :
    Relays ⟨w, calls⟩ ⟨w.takeTurn n, calls⟩ :=
  ((beside (.unpause w n) calls).trans (runWorker n World.workerMoves _ calls)).trans
    (beside (.rest _ n) calls)

theorem runQueue (w : World) (calls : List Call) : Relays ⟨w, calls⟩ ⟨w.runQueue, calls⟩ := by
  have turns (numbers : List Nat) (v : World) :
      Relays ⟨v, calls⟩ ⟨numbers.foldl World.takeTurn v, calls⟩ := by
    induction numbers generalizing v with
    | nil => exact refl _
    | cons n rest ih => exact (takeTurn v n calls).trans (ih _)
  have emptied : w.Around { w with queue := [] } := ⟨rfl, rfl, Nat.le_refl _, rfl, .refl _, rfl⟩
  exact (beside emptied calls).trans (turns w.queue _)

theorem covers : Covers Relays where
  refl := refl
  trans := trans
  moved w before c after := ⟨_, .single (.moved w before c after), by simp⟩
  woken w calls := beside (.wakeAll w _) calls
  worked w calls := (runQueue w calls).trans (runQueue _ calls)
  passed w calls moment _ := beside (.passTo w moment) calls

end Relays

/-- Several starts and shutdowns come at once. -/
theorem exists_called (w : World) {steps : List TimedStep}
    (asks : ∀ s ∈ steps, (s.step = .start ∨ s.step = .shutdown) ∧ s.cancelAfter = none)
    (calls : List Call) :
    ∃ h, Steps HandoverStep ⟨w, calls⟩ h ⟨w, calls ++ steps.map (Call.ofStep w.millis)⟩ := by
  induction steps generalizing calls with
  | nil => exact ⟨[], by simpa using .refl⟩
  | cons s rest ih =>
    obtain ⟨⟨kind, patient⟩, others⟩ := List.forall_mem_cons.1 asks
    obtain ⟨h, called⟩ := ih others (calls ++ [.ofStep w.millis s])
    have same : s = { step := s.step, startAfter := s.startAfter } := by
      cases s
      simpa using patient
    have first : HandoverStep ⟨w, calls⟩ .aside ⟨w, calls ++ [.ofStep w.millis s]⟩ := by
      rw [same]
      exact .called kind s.startAfter
    rw [List.append_assoc] at called
    exact ⟨_, (Steps.single first).trans called⟩

end Scene

/-- Starts and shutdowns that are taken at once pass each other in a scene, however they are
scheduled, and are answered what their calls are in it. -/
theorem World.takeAll_relay (w : World) {steps : List TimedStep}
    (asks : ∀ s ∈ steps, (s.step = .start ∨ s.step = .shutdown) ∧ s.cancelAfter = none) :
    ∃ h calls, Steps HandoverStep ⟨w, []⟩ h ⟨(w.takeAll steps).2, calls⟩ ∧
      (w.takeAll steps).1 = calls.map fun c => c.answer?.getD .unfinished := by
  obtain ⟨h₁, calm, none_yet⟩ := Scene.Relays.covers.quiesce (rounds []) w []
  rw [takeAll]
  generalize quiesce (rounds []) w [] = r at calm none_yet ⊢
  obtain ⟨calls₀, v⟩ := r
  obtain rfl : calls₀ = [] := List.length_eq_zero_iff.1 none_yet
  obtain ⟨h₂, called⟩ := Scene.exists_called v asks []
  obtain ⟨h₃, ran, -⟩ :=
    Scene.Relays.covers.runCalls patience v (steps.map (Call.ofStep v.millis))
  exact ⟨_, _, (calm.trans called).trans ran, rfl⟩

/-- When starts and shutdowns that are taken at once are all answered, the refresher with the place
in the catalog is running, and no other. -/
theorem World.running_takeAll {settings : Settings} {clock : Seconds} {readTimeout uptime : Nat}
    {w : World} (made : World.ofSettings settings clock readTimeout uptime = .ok w)
    {steps : List TimedStep}
    (asks : ∀ s ∈ steps, (s.step = .start ∨ s.step = .shutdown) ∧ s.cancelAfter = none)
    (answered : .unfinished ∉ (w.takeAll steps).1) (inTime : (w.takeAll steps).2.InTime) :
    (w.takeAll steps).2.running = (w.takeAll steps).2.catalog.refresher.toList := by
  obtain ⟨h, calls, run, answers⟩ := w.takeAll_relay asks
  have tended := Scene.tended_of_run made run
  refine (tended.running_eq fun c hc ⟨activity, waits⟩ => answered ?_).2 inTime
  rw [answers]
  exact List.mem_map.2 ⟨c, hc, by simp [Call.answer?, waits]⟩

end ZoneCatalog
