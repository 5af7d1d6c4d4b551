import ZoneCatalog.Proofs.Catalog.Session
import ZoneCatalog.Proofs.Simulation.Pace

/-! The schedule of the calls in a scene, one step after the other. Calls move in any order, and
refreshers between them, but time passes only up to a moment at which no call could have gone on
before. What is taken at once runs on such a schedule. -/
namespace ZoneCatalog

/-- A step of a schedule. Of a call's move it tells the world in which the call moves. -/
inductive Tick where
  | moved (number : Nat) (w : World)
  | woken
  | worked
  | passed (moment : Nat)

/-- The number of another call once the call with a number is left out. -/
def seatWithout (number n : Nat) : Nat := if n < number then n else n - 1

/-- A step once the call with a number is left out. None is left of the moves of that call. -/
def Tick.without (number : Nat) : Tick → Option Tick
  | .moved n w => if n = number then none else some (.moved (seatWithout number n) w)
  | e => some e

/-- The scene after a move of the call with a number. -/
def Scene.move (s : Scene) (number : Nat) : Scene :=
  match s.calls[number]? with
  | some c => ⟨(c.move s.world).2, s.calls.set number (c.move s.world).1⟩
  | none => s

/-- A scene in which the call with a number is left out. -/
def Scene.without (s : Scene) (number : Nat) : Scene := ⟨s.world, s.calls.eraseIdx number⟩

/-- What a step of a schedule makes of a scene. -/
inductive ScheduleStep : Scene → Tick → Scene → Prop where
  | moved (s : Scene) (number : Nat) : ScheduleStep s (.moved number s.world) (s.move number)
  | woken (w : World) (calls : List Call) : ScheduleStep ⟨w, calls⟩ .woken ⟨w.wakeReaders, calls⟩
  | worked (w : World) (calls : List Call) : ScheduleStep ⟨w, calls⟩ .worked ⟨w.runWorkers, calls⟩
  | passed (w : World) (calls : List Call) {moment : Nat}
      (soon : ∀ c ∈ calls, ∀ due ∈ c.due?, moment ≤ due) :
      ScheduleStep ⟨w, calls⟩ (.passed moment) ⟨w.passTo moment, calls⟩

namespace Scene

variable {s s₁ s₂ : Scene} {number n : Nat} {c : Call} {h : List Tick} {e : Tick}

theorem move_of_get (known : s.calls[number]? = some c) :
    s.move number = ⟨(c.move s.world).2, s.calls.set number (c.move s.world).1⟩ := by
  rw [move, known]

theorem get_move (known : s.calls[number]? = some c) :
    (s.move number).calls[number]? = some (c.move s.world).1 := by
  rw [move_of_get known]
  exact List.getElem?_set_self (List.getElem?_eq_some_iff.1 known).1

theorem world_move (known : s.calls[number]? = some c) :
    (s.move number).world = (c.move s.world).2 := by
  rw [move_of_get known]

theorem get_move_ne (other : n ≠ number) : (s.move n).calls[number]? = s.calls[number]? := by
  rw [move]
  split
  · exact List.getElem?_set_ne other
  · rfl

/-! What goes on beside a call. -/

theorem get_without (other : n ≠ number) :
    (s.without number).calls[seatWithout number n]? = s.calls[n]? := by
  rw [without, seatWithout, List.getElem?_eraseIdx]
  rcases Nat.lt_or_gt_of_ne other with before | after
  · rw [if_pos before, if_pos before]
  · have later : ¬ n < number := Nat.lt_asymm after
    rw [if_neg later, if_neg (by omega), Nat.sub_add_cancel (by omega)]

/-- The move of another call is its move without the call that is left out. -/
theorem move_without (other : n ≠ number) :
    (s.without number).move (seatWithout number n) = (s.move n).without number := by
  have same := get_without (s := s) other
  rw [move, same, move]
  split
  · rw [without, without, seatWithout]
    rcases Nat.lt_or_gt_of_ne other with before | after
    · rw [if_pos before, List.eraseIdx_set_gt before]
    · rw [if_neg (by omega), List.eraseIdx_set_lt after]
  · rfl

/-- Nothing is left of the move of a call that does not change the world. -/
theorem without_move_self (still : (s.move number).world = s.world) :
    (s.move number).without number = s.without number := by
  rw [without, without, still, move]
  split
  · rw [List.eraseIdx_set_eq]
  · rfl

/-- All but the call with a number goes on as if it were not there: on the same schedule without
it, all others move in the same worlds. -/
def Bypasses (number : Nat) (s : Scene) (h : List Tick) (s' : Scene) : Prop :=
  Steps ScheduleStep (s.without number) (h.filterMap (·.without number)) (s'.without number)

theorem Bypasses.start (same : s₁.without number = s.without number) :
    Bypasses number s [] s₁ := by
  rw [Bypasses, same]
  exact .refl

theorem Bypasses.snoc (bypasses : Bypasses number s h s₁) (step : ScheduleStep s₁ e s₂)
    (still : ∀ w, e = .moved number w → s₂.world = s₁.world) :
    Bypasses number s (h ++ [e]) s₂ := by
  rw [Bypasses] at bypasses ⊢
  rw [List.filterMap_append]
  refine bypasses.trans ?_
  cases step with
  | moved _ n =>
    by_cases own : n = number
    · subst own
      rw [without_move_self (still _ rfl)]
      simpa [Tick.without] using Steps.refl
    · have moved : ScheduleStep (s₁.without number) (.moved (seatWithout number n) s₁.world)
          ((s₁.move n).without number) := move_without own ▸ .moved (s₁.without number) _
      simpa [Tick.without, own] using Steps.single moved
  | woken w calls => exact .single (.woken w _)
  | worked w calls => exact .single (.worked w _)
  | passed w calls soon =>
    refine .single (.passed w _ fun c hc => ?_)
    exact soon c (List.mem_of_mem_eraseIdx hc)

/-! What is taken at once. -/

/-- A scene leads to another on a schedule. -/
def Schedules (s s' : Scene) : Prop := ∃ h, Steps ScheduleStep s h s'

namespace Schedules

theorem refl (s : Scene) : s.Schedules s := ⟨[], .refl⟩

theorem trans (first : s.Schedules s₁) (second : s₁.Schedules s₂) : s.Schedules s₂ := by
  obtain ⟨h, first⟩ := first
  obtain ⟨h', second⟩ := second
  exact ⟨h ++ h', first.trans second⟩

theorem single (step : ScheduleStep s e s₁) : s.Schedules s₁ := ⟨[e], .single step⟩

/-- The schedules cover all that happens to calls that are taken at once. -/
theorem covers : Covers Schedules where
  refl := refl
  trans := trans
  moved w before c after := by
    have known : (⟨w, before ++ c :: after⟩ : Scene).calls[before.length]? = some c := by simp
    have step := ScheduleStep.moved ⟨w, before ++ c :: after⟩ before.length
    rw [move_of_get known, List.set_append_right _ _ (Nat.le_refl _), Nat.sub_self] at step
    exact single step
  woken w calls := single (.woken w calls)
  worked w calls := single (.worked w calls)
  passed w calls _ soon := single (.passed w calls soon)

end Schedules

/-- No call of a scene takes time as it moves. -/
def Paced (s : Scene) : Prop := ∀ c ∈ s.calls, c.Paced

theorem Paced.move (paced : s.Paced) (number : Nat) :
    (s.move number).Paced ∧ (s.move number).world.pace = s.world.pace := by
  cases known : s.calls[number]? with
  | none =>
    rw [Scene.move, known]
    exact ⟨paced, rfl⟩
  | some c =>
    rw [move_of_get known]
    obtain ⟨moved, pace⟩ := Call.move_paces (paced c (List.mem_of_getElem? known)) s.world
    refine ⟨fun d hd => ?_, pace⟩
    rcases List.mem_or_eq_of_mem_set hd with other | rfl
    · exact paced d other
    · exact moved

/-- Time does not pass beyond a moment at which a call can go on, and nothing changes how long the
store may take. -/
theorem Paced.step (paced : s.Paced) (step : ScheduleStep s e s₁) : s₁.Paced ∧
    s₁.world.store.memory.readTimeout = s.world.store.memory.readTimeout ∧
      ∀ c ∈ s.calls, ∀ due ∈ c.due?, s.world.millis ≤ due → s₁.world.millis ≤ due := by
  -- nothing but the passing of time changes the pace
  have keeps {w : World} (same : w.pace = s.world.pace) :
      w.store.memory.readTimeout = s.world.store.memory.readTimeout ∧
        ∀ c ∈ s.calls, ∀ due ∈ c.due?, s.world.millis ≤ due → w.millis ≤ due := by
    refine ⟨congrArg Prod.snd same, fun _ _ due _ before => ?_⟩
    have millis : w.millis = s.world.millis := congrArg Prod.fst same
    exact millis ▸ before
  cases step with
  | moved _ number => exact ⟨(paced.move number).1, keeps (paced.move number).2⟩
  | woken w calls => exact ⟨paced, keeps w.wakeReaders_pace⟩
  | worked w calls => exact ⟨paced, keeps w.runWorkers_pace⟩
  | @passed w calls moment soon =>
    have pace := w.passTo_pace moment
    refine ⟨paced, congrArg Prod.snd pace, fun c hc due hd before => ?_⟩
    have millis : (w.passTo moment).millis = max w.millis moment := congrArg Prod.fst pace
    exact millis ▸ Nat.max_le.2 ⟨before, soon c hc due hd⟩

theorem Paced.steps (paced : s.Paced) (run : Steps ScheduleStep s h s₁) : s₁.Paced ∧
    s₁.world.store.memory.readTimeout = s.world.store.memory.readTimeout := by
  induction run with
  | refl => exact ⟨paced, rfl⟩
  | snoc _ last ih =>
    obtain ⟨after, same, -⟩ := ih.1.step last
    exact ⟨after, same.trans ih.2⟩

/-- No call has begun. -/
def Unbegun (s : Scene) : Prop := ∀ c ∈ s.calls, ∃ now timed, c = .ofStep now timed

theorem Unbegun.paced (unbegun : s.Unbegun) : s.Paced := by
  intro c hc
  obtain ⟨now, timed, rfl⟩ := unbegun c hc
  rintro activity ⟨⟩

end Scene

/-- What is taken at once runs on a schedule. -/
theorem World.takeAll_schedule (w : World) (steps : List TimedStep) :
    ∃ (s : Scene) (calls : List Call), s.Unbegun ∧ s.calls.map (·.step) = steps.map (·.step) ∧
      s.Schedules ⟨(w.takeAll steps).2, calls⟩ ∧
        (w.takeAll steps).1 = calls.map fun c => c.answer?.getD .unfinished := by
  simp only [takeAll]
  generalize (quiesce (rounds []) w []).2 = v
  have ran := Scene.Schedules.covers.runCalls patience v (steps.map (Call.ofStep v.millis))
  refine ⟨⟨v, steps.map (Call.ofStep v.millis)⟩, _, ?_, ?_, ran, rfl⟩
  · intro c hc
    obtain ⟨timed, -, rfl⟩ := List.mem_map.1 hc
    exact ⟨v.millis, timed, rfl⟩
  · rw [List.map_map]
    rfl

end ZoneCatalog
