import ZoneCatalog.Proofs.Simulation.Schedule

/-! How long requests take, and what comes of them. A request ends after the latency at which it
was sent, but no later than the read timeout, and without a trace if it fails. The exception is a
subscription: it takes the whole latency. -/
namespace ZoneCatalog

variable {r : StoreRequest}

namespace MemoryStore

/-- How long a request takes that is sent now. -/
def span (s : MemoryStore) (r : StoreRequest) : Nat :=
  if r.isTimed then min s.latency s.readTimeout else s.latency

/-- Why a request fails that ends now, if it does. It was sent at some latency. -/
def failure? (s : MemoryStore) (latency : Nat) (r : StoreRequest) : Option StoreError :=
  if r.isTimed ∧ s.readTimeout < latency then some (.timeout s.readTimeout)
  else if s.offline then some (.unavailable "in-memory store is offline")
  else none

/-- The result of a request that ends now, and the store then. -/
def outcome (s : MemoryStore) (latency : Nat) (r : StoreRequest) : r.Result × MemoryStore :=
  match s.failure? latency r with
  | some cause => (.error cause, s)
  | none => (.ok (s.serve r).1, (s.serve r).2)

theorem due_send (s : MemoryStore) (now : Nat) (r : StoreRequest) :
    (s.send now r).due = now + s.span r := by
  rw [send, span]
  by_cases timed : r.isTimed = true
  · by_cases slow : s.readTimeout < s.latency
    · rw [if_pos ⟨timed, slow⟩, if_pos timed, Nat.min_eq_right (by omega)]
    · rw [if_neg (fun h => slow h.2), if_pos timed, Nat.min_eq_left (by omega)]
  · rw [if_neg (fun h => timed h.1), if_neg timed]

theorem span_le_readTimeout (s : MemoryStore) (timed : ∀ pattern, r ≠ .subscribe pattern) :
    s.span r ≤ s.readTimeout := by
  cases r with
  | subscribe pattern => exact absurd rfl (timed pattern)
  | _ => exact Nat.min_le_right s.latency s.readTimeout

/-- A request is answered in the store of its end, whatever has happened since it was sent. -/
theorem answer_send {s s' : MemoryStore} (same : s'.readTimeout = s.readTimeout) (now : Nat)
    (r : StoreRequest) : s'.answer (s.send now r) = s'.outcome s.latency r := by
  rw [answer, outcome, failure?, send, same]
  by_cases late : r.isTimed = true ∧ s.readTimeout < s.latency
  · rw [if_pos late, if_pos late]
    rfl
  · rw [if_neg late, if_neg late]
    by_cases offline : s'.offline = true
    · rw [if_pos offline]
      simp only [offline, Bool.false_eq_true, if_true, if_false]
    · rw [if_neg offline]
      simp only [offline, Bool.false_eq_true, if_false]

end MemoryStore

namespace World

variable {w v : World}

/-- What is made of the result of a request. -/
def deliver : (r : StoreRequest) → r.Result → World → Answer × World
  | _, .error cause, w => (.storeFailure cause, w)
  | .members _, .ok found, w => (.texts found, w)
  | .fieldNames _, .ok found, w => (.texts found, w)
  | .get _, .ok found, w => (.text found, w)
  | .field _ _, .ok found, w => (.text found, w)
  | .setField _ _ _, .ok _, w => (.none, w)
  | .subscribe _, .ok feed, w => w.addFeed feed

theorem requesting_eq (r : StoreRequest) :
    requesting r = .ask r fun result => .done (deliver r result) := by
  rw [requesting]
  congr 1
  funext result
  cases result with
  | error cause => cases r <;> rfl
  | ok reply => cases r <;> rfl

/-- The answer to a request that ends in this world, and the world after. It was sent at some
latency. -/
def conclude (w : World) (latency : Nat) (r : StoreRequest) : Answer × World :=
  match w.store.memory.failure? latency r with
  | some cause => (.storeFailure cause, w)
  | none =>
    let (reply, memory) := w.store.memory.serve r
    deliver r (.ok reply) { w with store := { w.store with memory } }

theorem deliver_outcome (w : World) (latency : Nat) (r : StoreRequest) :
    deliver r (w.store.memory.outcome latency r).1
        { w with store := { w.store with memory := (w.store.memory.outcome latency r).2 } } =
      w.conclude latency r := by
  rw [MemoryStore.outcome, conclude]
  split
  · cases r <;> rfl
  · rfl

/-- A request that fails leaves the world as it was. -/
theorem conclude_of_failure {latency : Nat} {cause : StoreError}
    (failed : w.store.memory.failure? latency r = some cause) :
    w.conclude latency r = (.storeFailure cause, w) := by
  rw [conclude, failed]

theorem conclude_failure_iff {latency : Nat} {cause : StoreError} :
    (w.conclude latency r).1 = .storeFailure cause ↔
      w.store.memory.failure? latency r = some cause := by
  constructor
  · intro answered
    rw [conclude] at answered
    split at answered
    · rename_i known
      rw [known, Answer.storeFailure.inj answered]
    · cases r <;> cases answered
  · intro failed
    rw [conclude_of_failure failed]

/-- No script answers for the store. -/
structure Unscripted (w : World) : Prop where
  failure : w.store.failure = none
  manualFeeds : w.store.manualFeeds = false

/-- A request that was sent in this world and waits. -/
def sent (w : World) (r : StoreRequest) : Suspended (World → Answer × World) :=
  ⟨r, w.store.memory.send w.millis r, fun result => .done (deliver r result)⟩

theorem Unscripted.send (unscripted : w.Unscripted) (r : StoreRequest) :
    w.store.send w.millis r = w.store.forward w.millis r := by
  cases r with
  | subscribe pattern =>
    rw [ScriptedStore.send, unscripted.failure]
    simp only [unscripted.manualFeeds, Bool.false_eq_true, if_false]
  | _ => rw [ScriptedStore.send]; rw [unscripted.failure]

theorem begin_request (unscripted : w.Unscripted) (r : StoreRequest) : w.begin (.request r) =
    if w.store.memory.span r = 0 then
      (.answered (w.conclude w.store.memory.latency r).1, (w.conclude w.store.memory.latency r).2)
    else (.waiting (.working (w.sent r)), w) := by
  have due := w.store.memory.due_send w.millis r
  have answered : w.store.memory.answer (w.store.memory.send w.millis r) =
      w.store.memory.outcome w.store.memory.latency r := MemoryStore.answer_send rfl w.millis r
  rw [begin, work, requesting_eq, run, unscripted.send, ScriptedStore.forward]
  by_cases instant : w.store.memory.span r = 0
  · simp only [due, instant, Nat.add_zero, Nat.le_refl, if_true, ScriptedStore.answer, answered]
    rw [← deliver_outcome]
    rfl
  · have later : ¬ w.millis + w.store.memory.span r ≤ w.millis := by omega
    simp only [due, if_neg later, if_neg instant]
    rfl

/-- A request ends when it is due, in the world of that moment. -/
theorem proceed_sent
    (same : v.store.memory.readTimeout = w.store.memory.readTimeout) (r : StoreRequest) :
    v.proceed (.working (w.sent r)) = if w.millis + w.store.memory.span r ≤ v.millis then
      (.answered (v.conclude w.store.memory.latency r).1, (v.conclude w.store.memory.latency r).2)
    else (.waiting (.working (w.sent r)), v) := by
  have due := w.store.memory.due_send w.millis r
  have answered : v.store.memory.answer (w.store.memory.send w.millis r) =
      v.store.memory.outcome w.store.memory.latency r := MemoryStore.answer_send same w.millis r
  by_cases isOver : w.millis + w.store.memory.span r ≤ v.millis
  · have isDue : v.isDue (w.sent r) = true := by
      simpa [World.isDue, sent, due] using isOver
    simp only [proceed, resume, if_pos isDue, if_pos isOver]
    simp only [sent, ScriptedStore.answer, answered]
    rw [← deliver_outcome]
    rfl
  · have notDue : ¬ v.isDue (w.sent r) = true := by
      simpa [World.isDue, sent, due] using isOver
    simp only [proceed, resume, if_neg notDue, if_neg isOver]

end World

namespace Call

variable {v w : World}

/-- A call of a request that nobody gives up. -/
def asking (r : StoreRequest) (state : CallState) : Call :=
  { step := .request r, cancelAfter := none, state }

theorem move_asking_delayed (unscripted : w.Unscripted) {due : Nat} (begins : due ≤ w.millis)
    (r : StoreRequest) : (asking r (.delayed due)).move w =
      if w.store.memory.span r = 0 then
        (asking r (.over (w.conclude w.store.memory.latency r).1),
          (w.conclude w.store.memory.latency r).2)
      else (asking r (.active (.working (w.sent r))), w) := by
  have ready : (asking r (.delayed due)).isReady w = true := decide_eq_true begins
  rw [move, if_pos ready]
  simp only [asking, World.begin_request unscripted]
  split
  · rfl
  · rfl

theorem isReady_asking_sent (r : StoreRequest) (w v : World) :
    (asking r (.active (.working (w.sent r)))).isReady v =
      decide (w.millis + w.store.memory.span r ≤ v.millis) := by
  simp [asking, isReady, isExpired, World.isReady, World.isDue, World.sent, MemoryStore.due_send]

theorem move_asking_active
    (same : v.store.memory.readTimeout = w.store.memory.readTimeout) (r : StoreRequest) :
    (asking r (.active (.working (w.sent r)))).move v =
      if w.millis + w.store.memory.span r ≤ v.millis then
        (asking r (.over (v.conclude w.store.memory.latency r).1),
          (v.conclude w.store.memory.latency r).2)
      else (asking r (.active (.working (w.sent r))), v) := by
  have ready := isReady_asking_sent r w v
  by_cases isOver : w.millis + w.store.memory.span r ≤ v.millis
  · rw [move, ready, if_pos (decide_eq_true isOver), if_pos isOver]
    simp only [asking, World.proceed_sent same, if_pos isOver]
    rfl
  · rw [move, ready, if_neg (by simpa using isOver), if_neg isOver]

theorem move_asking_over (r : StoreRequest) (answer : Answer) (w : World) :
    (asking r (.over answer)).move w = (asking r (.over answer), w) := rfl

theorem due?_asking_sent (r : StoreRequest) (w : World) :
    (asking r (.active (.working (w.sent r)))).due? =
      some (w.millis + w.store.memory.span r) := by
  have due := w.store.memory.due_send w.millis r
  exact congrArg some due

end Call

/-! A request in company. -/

namespace Scene

variable {s s' s₁ s₂ : Scene} {number : Nat} {h : List Tick} {e : Tick}

/-- Where a call stands on a schedule that began with its sending a request. It waits until the
request is due and ends with its first move then. Unless the request is served, all others go on as
if it had not been sent. -/
inductive Stands (s : Scene) (number : Nat) (r : StoreRequest) (h : List Tick) (s' : Scene) : Prop
    where
  | waiting
      (call : s'.calls[number]? = some (.asking r (.active (.working (s.world.sent r)))))
      (soon : s'.world.millis ≤ s.world.millis + s.world.store.memory.span r)
      (early : ∀ u, .moved number u ∈ h → u.millis < s.world.millis + s.world.store.memory.span r)
      (bypasses : Bypasses number s h s')
  | ended {w : World} {before after : List Tick}
      (seen : h = before ++ .moved number w :: after)
      (due : w.millis = s.world.millis + s.world.store.memory.span r)
      (early : ∀ u, .moved number u ∈ before →
        u.millis < s.world.millis + s.world.store.memory.span r)
      (call : s'.calls[number]? =
        some (.asking r (.over (w.conclude s.world.store.memory.latency r).1)))
      (bypasses : ∀ cause,
        w.store.memory.failure? s.world.store.memory.latency r = some cause →
          Bypasses number s h s')

theorem stands_start {due : Nat} (known : s.calls[number]? = some (.asking r (.delayed due)))
    (begins : due ≤ s.world.millis) (unscripted : s.world.Unscripted) :
    s.Stands number r [.moved number s.world] (s.move number) := by
  have moved := Call.move_asking_delayed unscripted begins r
  have call := get_move known
  have world := world_move known
  have bypasses (still : (s.move number).world = s.world) :
      Bypasses number s [.moved number s.world] (s.move number) :=
    (Bypasses.start rfl).snoc (.moved s number) fun _ _ => still
  rw [moved] at call world
  by_cases instant : s.world.store.memory.span r = 0
  · rw [if_pos instant] at call world
    have first : [Tick.moved number s.world] = [] ++ .moved number s.world :: [] := rfl
    refine .ended first (by rw [instant, Nat.add_zero]) (by simp) call ?_
    intro cause failed
    apply bypasses
    rw [world, World.conclude_of_failure failed]
  · rw [if_neg instant] at call world
    refine .waiting call ?_ ?_ (bypasses world)
    · rw [world]
      exact Nat.le_add_right ..
    · intro u hu
      obtain ⟨-, rfl⟩ : number = number ∧ u = s.world := by simpa using hu
      omega

/-- A call that is over stays over, and its moves are nothing to the others. -/
theorem move_over {answer : Answer}
    (known : s.calls[number]? = some (.asking r (.over answer))) :
    (s.move number).calls[number]? = some (.asking r (.over answer)) ∧
      (s.move number).world = s.world := by
  have call := get_move known
  rw [Call.move_asking_over] at call
  exact ⟨call, world_move known⟩

/-- The calls of a step are those from before, but for the one that moves. -/
theorem get_of_step (step : ScheduleStep s e s') (other : ∀ w, e ≠ .moved number w) :
    s'.calls[number]? = s.calls[number]? := by
  cases step with
  | moved _ n =>
    apply get_move_ne
    rintro rfl
    exact other s.world rfl
  | _ => rfl

namespace Stands

/-- The call itself moves. -/
theorem own (stands : s.Stands number r h s₁)
    (same : s₁.world.store.memory.readTimeout = s.world.store.memory.readTimeout) :
    s.Stands number r (h ++ [.moved number s₁.world]) (s₁.move number) := by
  have step := ScheduleStep.moved s₁ number
  cases stands with
  | waiting call soon early bypasses =>
    have moved := Call.move_asking_active same r
    have next := get_move call
    have world := world_move call
    rw [moved] at next world
    by_cases isOver : s.world.millis + s.world.store.memory.span r ≤ s₁.world.millis
    · rw [if_pos isOver] at next world
      refine .ended rfl (Nat.le_antisymm soon isOver) early next ?_
      intro cause failed
      rw [World.conclude_of_failure failed] at world
      exact bypasses.snoc step fun _ _ => world
    · rw [if_neg isOver] at next world
      refine .waiting next (world ▸ soon) ?_ (bypasses.snoc step fun _ _ => world)
      intro u hu
      rcases List.mem_append.1 hu with before | here
      · exact early u before
      · obtain ⟨-, rfl⟩ : number = number ∧ u = s₁.world := by simpa using here
        omega
  | @ended w before after seen due early call bypasses =>
    obtain ⟨stays, still⟩ := move_over call
    have longer : h ++ [.moved number s₁.world] =
        before ++ .moved number w :: (after ++ [.moved number s₁.world]) := by
      rw [seen, List.append_assoc, List.cons_append]
    exact .ended longer due early stays fun cause failed =>
      (bypasses cause failed).snoc step fun _ _ => still

/-- Something else happens. -/
theorem other (stands : s.Stands number r h s₁) (paced : s₁.Paced)
    (step : ScheduleStep s₁ e s₂) (foreign : ∀ w, e ≠ .moved number w) :
    s.Stands number r (h ++ [e]) s₂ := by
  have stays := get_of_step step foreign
  cases stands with
  | waiting call soon early bypasses =>
    have urgent := (paced.step step).2.2 _ (List.mem_of_getElem? call)
    refine .waiting (stays.trans call) ?_ ?_ (bypasses.snoc step fun w own => (foreign w own).elim)
    · exact urgent _ (Call.due?_asking_sent r s.world) soon
    · intro u hu
      rcases List.mem_append.1 hu with before | here
      · exact early u before
      · exact (foreign u (List.mem_singleton.1 here).symm).elim
  | @ended w before after seen due early call bypasses =>
    have longer : h ++ [e] = before ++ .moved number w :: (after ++ [e]) := by
      rw [seen, List.append_assoc, List.cons_append]
    exact .ended longer due early (stays.trans call) fun cause failed =>
      (bypasses cause failed).snoc step fun w own => (foreign w own).elim

theorem step (stands : s.Stands number r h s₁) (paced : s₁.Paced)
    (same : s₁.world.store.memory.readTimeout = s.world.store.memory.readTimeout)
    (step : ScheduleStep s₁ e s₂) : s.Stands number r (h ++ [e]) s₂ := by
  by_cases its : ∃ w, e = .moved number w
  · obtain ⟨w, rfl⟩ := its
    cases step
    exact stands.own same
  · exact stands.other paced step fun w own => its ⟨w, own⟩

theorem steps {h' : List Tick} (stands : s.Stands number r h s₁) (paced : s₁.Paced)
    (same : s₁.world.store.memory.readTimeout = s.world.store.memory.readTimeout)
    (run : Steps ScheduleStep s₁ h' s₂) : s.Stands number r (h ++ h') s₂ := by
  induction run with
  | refl => simpa using stands
  | snoc before last ih =>
    obtain ⟨still, kept⟩ := paced.steps before
    rw [← List.append_assoc]
    exact ih.step still (kept.trans same) last

/-- A call ends with its next move once its request is due. -/
theorem over_of_due (stands : s.Stands number r h s')
    (same : s'.world.store.memory.readTimeout = s.world.store.memory.readTimeout)
    (due : s.world.millis + s.world.store.memory.span r ≤ s'.world.millis) :
    ∃ answer, (s'.move number).calls[number]? = some (.asking r (.over answer)) := by
  cases stands with
  | waiting call =>
    have next := get_move call
    rw [Call.move_asking_active same r, if_pos due] at next
    exact ⟨_, next⟩
  | ended _ _ _ call => exact ⟨_, (move_over call).1⟩

end Stands

end Scene

/-! A request alone. -/

namespace World

variable {w v : World} {c d : Call}

/-- The world some time later, with nothing else changed. -/
def aged (w : World) (time : Nat) : World := { w with millis := w.millis + time }

/-- Nothing goes on in a world but the calls. -/
structure Quiet (w : World) : Prop where
  workers : w.workers = []
  queue : w.queue = []
  alarms : w.alarms = []

namespace Quiet

theorem wakeReaders (quiet : w.Quiet) : w.wakeReaders = w := by
  rw [World.wakeReaders, quiet.workers]
  rfl

theorem runQueue (quiet : w.Quiet) : w.runQueue = w := by
  have same : { w with queue := [] } = w := by rw [← quiet.queue]
  rw [World.runQueue, same, quiet.queue]
  rfl

theorem runWorkers (quiet : w.Quiet) : w.runWorkers = w := by
  rw [World.runWorkers, quiet.runQueue, quiet.runQueue]

theorem aged (quiet : w.Quiet) (time : Nat) : (w.aged time).Quiet :=
  ⟨quiet.workers, quiet.queue, quiet.alarms⟩

theorem passTo (quiet : w.Quiet) (time : Nat) : w.passTo (w.millis + time) = w.aged time := by
  have later : max w.millis (w.millis + time) = w.millis + time :=
    Nat.max_eq_right (Nat.le_add_right ..)
  rw [World.aged, World.passTo, later, quiet.alarms]
  rfl

theorem conclude (quiet : w.Quiet) (latency : Nat) (r : StoreRequest) :
    (w.conclude latency r).2.Quiet := by
  rw [World.conclude]
  split
  · exact quiet
  · cases r <;> exact ⟨quiet.workers, quiet.queue, quiet.alarms⟩

/-- One call moves, and then nothing can. -/
theorem quiesce (quiet : v.Quiet) (ready : c.isReady w = true) (moved : c.move w = (d, v))
    (rests : d.isReady v = false) : World.quiesce (rounds [c]) w [c] = ([d], v) := by
  have moves : w.moveCalls [c] = ([d], v) := by
    simp only [moveCalls, moved, quiet.wakeReaders]
  have first : w.canMove [c] = true := by simp [canMove, ready]
  have then_none : v.canMove [d] = false := by simp [canMove, rests, quiet.queue]
  change World.quiesce (6 + 1 + 1) w [c] = _
  rw [World.quiesce, if_pos first, moves]
  simp only [quiet.runWorkers]
  rw [World.quiesce, if_neg (by simp [then_none])]

theorem runCalls_over (quiet : v.Quiet) (ready : c.isReady w = true) (moved : c.move w = (d, v))
    {answer : Answer} (ended : d.state = .over answer) (moments : Nat) :
    runCalls (moments + 1) w [c] = ([d], v) := by
  have rests : d.isReady v = false := by rw [Call.isReady, ended]
  have all : [d].all (·.answer?.isSome) = true := by simp [Call.answer?, ended]
  rw [runCalls, quiet.quiesce ready moved rests]
  exact if_pos all

theorem runCalls_waiting (quiet : v.Quiet) (ready : c.isReady w = true)
    (moved : c.move w = (d, v)) (rests : d.isReady v = false) {activity : Activity}
    (waits : d.state = .active activity) {moment : Nat} (due : d.due? = some moment)
    (moments : Nat) : runCalls (moments + 1) w [c] = runCalls moments (v.passTo moment) [d] := by
  have open_yet : ¬ [d].all (·.answer?.isSome) = true := by simp [Call.answer?, waits]
  have next : v.nextDue [d] = some moment := by simp [nextDue, due, quiet.alarms]
  rw [runCalls, quiet.quiesce ready moved rests]
  simp only [if_neg open_yet, next]

theorem quiesce_nil (quiet : w.Quiet) (rounds : Nat) : World.quiesce rounds w [] = ([], w) := by
  cases rounds with
  | zero => rfl
  | succ rounds =>
    have none : ¬ w.canMove [] = true := by simp [canMove, quiet.queue]
    rw [World.quiesce, if_neg none]

/-- A request that is alone in its world ends when it is due. -/
theorem takeAll_request (quiet : w.Quiet) (unscripted : w.Unscripted) (r : StoreRequest) :
    w.takeAll [{ step := .request r }] =
      let ended := (w.aged (w.store.memory.span r)).conclude w.store.memory.latency r
      ([ended.1], ended.2) := by
  have enough : patience = patience - 2 + 1 + 1 := by decide
  have calls : ([{ step := .request r }] : List TimedStep).map (Call.ofStep w.millis) =
      [.asking r (.delayed w.millis)] := rfl
  have begins : (Call.asking r (.delayed w.millis)).isReady w = true :=
    decide_eq_true (Nat.le_refl w.millis)
  have sends := Call.move_asking_delayed unscripted (Nat.le_refl w.millis) r
  simp only [takeAll, quiet.quiesce_nil, calls]
  rw [enough]
  by_cases instant : w.store.memory.span r = 0
  · rw [if_pos instant] at sends
    rw [(quiet.conclude _ r).runCalls_over begins sends rfl, instant]
    rfl
  · rw [if_neg instant] at sends
    have rests : (Call.asking r (.active (.working (w.sent r)))).isReady w = false := by
      rw [Call.isReady_asking_sent]
      exact decide_eq_false (by omega)
    rw [quiet.runCalls_waiting begins sends rests rfl (Call.due?_asking_sent r w), quiet.passTo]
    have due : w.millis + w.store.memory.span r ≤ (w.aged (w.store.memory.span r)).millis :=
      Nat.le_refl _
    have ready : (Call.asking r (.active (.working (w.sent r)))).isReady
        (w.aged (w.store.memory.span r)) = true := by
      rw [Call.isReady_asking_sent]
      exact decide_eq_true due
    have same : (w.aged (w.store.memory.span r)).store.memory.readTimeout =
        w.store.memory.readTimeout := rfl
    have ends := Call.move_asking_active same r
    rw [if_pos due] at ends
    rw [((quiet.aged _).conclude _ r).runCalls_over ready ends rfl]
    rfl

end Quiet
end World

/-- How long a request takes and what comes of it, whatever the state of the store. It is over when
it is due, alone as well as in company, and that is within the read timeout unless it is a
subscription. If it fails, all else is as it would be without it. -/
theorem request_in_time (r : StoreRequest) :
    (∀ s : MemoryStore, (∀ pattern, r ≠ .subscribe pattern) → s.span r ≤ s.readTimeout) ∧
      (∀ w : World, w.Quiet → w.Unscripted → w.takeAll [{ step := .request r }] =
        let ended := (w.aged (w.store.memory.span r)).conclude w.store.memory.latency r
        ([ended.1], ended.2)) ∧
      (∀ (w : World) (latency : Nat) (cause : StoreError),
        (w.conclude latency r).1 = .storeFailure cause ↔
          w.store.memory.failure? latency r = some cause) ∧
      ∀ (s₀ s s' : Scene) (number due : Nat) (h₀ h : List Tick),
        s₀.Unbegun → Steps ScheduleStep s₀ h₀ s →
          s.calls[number]? = some (.asking r (.delayed due)) → due ≤ s.world.millis →
            s.world.Unscripted → Steps ScheduleStep s (.moved number s.world :: h) s' →
              s.Stands number r (.moved number s.world :: h) s' ∧
                (s.world.millis + s.world.store.memory.span r ≤ s'.world.millis →
                  ∃ answer, (s'.move number).calls[number]? =
                    some (.asking r (.over answer))) := by
  refine ⟨fun s timed => s.span_le_readTimeout timed, fun w quiet unscripted =>
    quiet.takeAll_request unscripted r, fun w latency cause => World.conclude_failure_iff, ?_⟩
  intro s₀ s s' number due h₀ h unbegun before known begins unscripted run
  obtain ⟨s₁, first, rest⟩ := run.cons_inv
  have paced := (unbegun.paced.steps before).1
  obtain ⟨paced₁, same₁, -⟩ := paced.step first
  have started := Scene.stands_start known begins unscripted
  cases first
  have stands := started.steps paced₁ same₁ rest
  have same := (paced₁.steps rest).2.trans same₁
  exact ⟨stands, stands.over_of_due same⟩

/-- A world whose store is slower than it may be. -/
def World.slow : World where
  clock := 0
  store := { memory := { latency := 600, readTimeout := 500 } }
  catalog := {
    keys := {}
    reloadEvery := 0
    zones := { lifetime := 0 }
    locations := { lifetime := 0 } }

theorem World.slow_quiet : slow.Quiet := ⟨rfl, rfl, rfl⟩

theorem World.slow_unscripted : slow.Unscripted := ⟨rfl, rfl⟩

/-- A read and a write, taken at once. -/
def Scene.slowRead : Scene where
  world := .slow
  calls := [.ofStep 0 { step := .request (.get "k") }, .ofStep 0 { step := .set "k" "v" }]

/-- A read times out, alone and beside a write that takes no time. -/
theorem request_in_time_slow_get :
    World.slow.takeAll [{ step := .request (.get "k") }] =
        ([.storeFailure (.timeout 500)], World.slow.aged 500) ∧
      ∃ w s', Scene.slowRead.Stands 0 (.get "k")
          [.moved 0 .slow, .moved 1 w, .passed 500] s' ∧
        ∃ answer, (s'.move 0).calls[0]? = some (.asking (.get "k") (.over answer)) := by
  obtain ⟨-, alone, -, company⟩ := request_in_time (.get "k")
  constructor
  · exact alone .slow World.slow_quiet World.slow_unscripted
  · have unbegun : Scene.slowRead.Unbegun := by
      intro c hc
      rcases List.mem_pair.1 hc with rfl | rfl
      · exact ⟨_, _, rfl⟩
      · exact ⟨_, _, rfl⟩
    have run : Steps ScheduleStep Scene.slowRead [.moved 0 .slow] (Scene.slowRead.move 0) :=
      .single (.moved Scene.slowRead 0)
    have run := run.snoc (.moved _ 1)
    have soon : ∀ c ∈ ((Scene.slowRead.move 0).move 1).calls, ∀ due ∈ c.due?, 500 ≤ due := by
      decide
    have run := run.snoc (.passed _ _ soon)
    have ⟨stands, ends⟩ := company _ _ _ 0 0 [] _ unbegun .refl rfl (Nat.le_refl 0)
      World.slow_unscripted run
    exact ⟨_, _, stands, ends (Nat.le_refl 500)⟩

/-- A subscription takes longer than the store may, and does not fail. -/
theorem slow_subscription :
    let ended := World.slow.takeAll [{ step := .request (.subscribe "*") }]
    ended.1 = [.feed 0] ∧
      World.slow.millis + World.slow.store.memory.readTimeout < ended.2.millis := by
  rw [World.slow_quiet.takeAll_request World.slow_unscripted]
  exact ⟨rfl, by decide⟩

end ZoneCatalog
