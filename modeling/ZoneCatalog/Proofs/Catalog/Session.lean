import ZoneCatalog.Proofs.Catalog.Scene

/-! Sessions as scenes. However the calls of a session are scheduled, what they do is a run of a
scene, and what they are answered was returned in it. So what holds of every scene holds of every
session. -/
namespace ZoneCatalog

/-- The activity is a lookup of a location. -/
def Activity.IsLocation (activity : Activity) : Prop :=
  ∃ lookup label zone fetch, activity = .location lookup label zone fetch

namespace Call

variable {c : Call} {w : World}

theorem settle_step (c : Call) (r : Standing × World) : (c.settle r).1.step = c.step := by
  obtain ⟨_ | activity, w⟩ := r
  · rfl
  · by_cases expired : c.isExpired w.millis
    · rw [settle_expired expired]
    · rw [settle_active expired]

theorem move_step (c : Call) (w : World) : (c.move w).1.step = c.step := by
  rw [move]
  split
  · split
    · exact settle_step ..
    · exact settle_step ..
    · rfl
  · rfl

/-- A call that asks for a location waits for that and nothing else, and has been answered what was
returned for it. -/
structure Told (c : Call) (h : List Sight) : Prop where
  waits : ∀ location number activity, c.step = .getLocation location number →
    c.state = .active activity → activity.IsLocation
  answer : ∀ location number entry, c.step = .getLocation location number →
    c.state = .over (.location entry) → ∃ zone, Scene.Returned h location zone entry

theorem settle_locationStanding (c : Call) (label zone : String)
    (r : World.LookupStanding Location × World) {activity : Activity}
    (h : (c.settle (World.locationStanding label zone r)).1.state = .active activity) :
    activity.IsLocation := by
  obtain ⟨_ | ⟨lookup, fetch⟩, v⟩ := r
  · cases h
  · by_cases expired : c.isExpired v.millis
    · simp [World.locationStanding, settle_expired expired] at h
    · simp only [World.locationStanding, settle_active expired, CallState.active.injEq] at h
      exact ⟨lookup, label, zone, fetch, h.symm⟩

/-- A call that asks for a location asks for it in every move, unless it stands still or there is no
zone to look in. -/
theorem move_getLocation {location : String} {number : Nat}
    (asks : c.step = .getLocation location number)
    (waits : ∀ activity, c.state = .active activity → activity.IsLocation) :
    ((∃ zone, c.asked? w = some (location, zone)) ∧
        ∀ activity, (c.move w).1.state = .active activity → activity.IsLocation) ∨
      (c.move w).1 = c ∨ (c.move w).1.state = .over .noZone := by
  by_cases ready : c.isReady w
  · match hs : c.state with
    | .over answer => simp [isReady, hs] at ready
    | .active activity =>
      have moved : c.move w = c.settle (w.proceed activity) := by simp [move, ready, hs]
      obtain ⟨lookup, label, zone, fetch, rfl⟩ := waits activity hs
      refine .inl ⟨⟨zone, by simp [asked?, asks, hs]⟩, fun activity ha => ?_⟩
      rw [moved] at ha
      cases fetch <;> exact settle_locationStanding c label zone _ ha
    | .delayed due =>
      have moved : c.move w = { c with cancelAt := c.cancelAfter.map (w.millis + ·) }.settle
          (w.begin (.getLocation location number)) := by simp [move, ready, hs, asks]
      cases hz : w.shownZones[number]? with
      | none =>
        refine .inr (.inr ?_)
        simp [moved, World.begin, World.withZone, hz, World.answered, settle]
      | some entry =>
        refine .inl ⟨⟨entry.value.name, by simp [asked?, asks, hs, hz]⟩, fun activity ha => ?_⟩
        simp only [moved, World.begin, World.withZone, hz] at ha
        exact settle_locationStanding _ _ _ _ ha
  · exact .inr (.inl (by simp [move, ready]))

theorem Told.append {h : List Sight} (told : c.Told h) (h' : List Sight) : c.Told (h ++ h') where
  waits := told.waits
  answer location number entry asks ended := by
    obtain ⟨zone, d, v, mem, rest⟩ := told.answer location number entry asks ended
    exact ⟨zone, d, v, List.mem_append_left h' mem, rest⟩

theorem Told.move {h : List Sight} (told : c.Told h) (w : World) :
    (c.move w).1.Told (h ++ [.moved c w]) := by
  constructor
  · intro location number activity asks active
    rw [move_step] at asks
    rcases move_getLocation asks (told.waits _ _ · asks) with ⟨_, waits⟩ | still | ended
    · exact waits activity active
    · exact told.waits location number activity asks (still ▸ active)
    · simp [ended] at active
  · intro location number entry asks ended
    rw [move_step] at asks
    rcases move_getLocation (w := w) asks (told.waits _ _ · asks) with
      ⟨⟨zone, asked⟩, _⟩ | still | none_there
    · exact ⟨zone, c, w, by simp, asked, ended⟩
    · exact (told.append _).answer location number entry asks (still ▸ ended)
    · simp [ended] at none_there

end Call

/-! The schedule of a session. -/

/-- A relation of scenes that covers the moves of calls and all that happens between them. -/
structure Scene.Covers (R : Scene → Scene → Prop) : Prop where
  refl : ∀ s, R s s
  trans : ∀ {s s₁ s₂}, R s s₁ → R s₁ s₂ → R s s₂
  moved : ∀ w before c after,
    R ⟨w, before ++ c :: after⟩ ⟨(c.move w).2, before ++ (c.move w).1 :: after⟩
  woken : ∀ w calls, R ⟨w, calls⟩ ⟨w.wakeReaders, calls⟩
  worked : ∀ w calls, R ⟨w, calls⟩ ⟨w.runWorkers, calls⟩
  /-- Time passes, but not beyond a moment at which a call can go on. -/
  passed : ∀ w calls moment, (∀ c ∈ calls, ∀ due ∈ c.due?, moment ≤ due) →
    R ⟨w, calls⟩ ⟨w.passTo moment, calls⟩

/-- No call is due before the next moment at which something is. -/
theorem World.nextDue_le {w : World} {calls : List Call} {moment : Nat}
    (h : w.nextDue calls = some moment) : ∀ c ∈ calls, ∀ due ∈ c.due?, moment ≤ due := by
  intro c hc due hd
  have least := (List.min?_eq_some_iff.1 h).2
  exact least due (List.mem_append_left _ (List.mem_filterMap.2 ⟨c, hc, hd⟩))

namespace Scene.Covers

open World

variable {R : Scene → Scene → Prop} (covers : Covers R)

include covers

theorem moveCalls (w : World) (before calls : List Call) :
    R ⟨w, before ++ calls⟩ ⟨(w.moveCalls calls).2, before ++ (w.moveCalls calls).1⟩ := by
  induction calls generalizing w before with
  | nil => exact covers.refl _
  | cons c rest ih =>
    have others := ih (c.move w).2.wakeReaders (before ++ [(c.move w).1])
    simp only [List.append_assoc, List.singleton_append] at others
    exact covers.trans (covers.moved w before c rest) (covers.trans (covers.woken _ _) others)

theorem quiesce (rounds : Nat) (w : World) (calls : List Call) :
    R ⟨w, calls⟩ ⟨(quiesce rounds w calls).2, (quiesce rounds w calls).1⟩ := by
  induction rounds generalizing w calls with
  | zero => exact covers.refl _
  | succ rounds ih =>
    rw [World.quiesce]
    split
    · have moved := covers.moveCalls w [] calls
      exact covers.trans moved (covers.trans (covers.worked _ _) (ih _ _))
    · exact covers.refl _

theorem runCalls (moments : Nat) (w : World) (calls : List Call) :
    R ⟨w, calls⟩ ⟨(runCalls moments w calls).2, (runCalls moments w calls).1⟩ := by
  induction moments generalizing w calls with
  | zero => exact covers.refl _
  | succ moments ih =>
    have calm := covers.quiesce (rounds calls) w calls
    rw [World.runCalls]
    generalize World.quiesce (rounds calls) w calls = r at calm ⊢
    obtain ⟨calls', v⟩ := r
    dsimp only at calm ⊢
    split
    · exact calm
    · split
      · rename_i moment next
        have soon := nextDue_le next
        exact covers.trans calm (covers.trans (covers.passed _ _ moment soon) (ih _ _))
      · exact calm

end Scene.Covers

namespace Scene

variable {s s₁ s₂ : Scene} {h : List Sight}

/-- A scene leads to another in which the same calls are. What they were answered until then was
returned to them on the way. -/
def Leads (s s' : Scene) : Prop := ∃ h, Steps SceneStep s h s' ∧
  s'.calls.map (·.step) = s.calls.map (·.step) ∧
    ∀ h₀, (∀ c ∈ s.calls, c.Told h₀) → ∀ c ∈ s'.calls, c.Told (h₀ ++ h)

namespace Leads

theorem refl (s : Scene) : s.Leads s := ⟨[], .refl, rfl, fun h₀ told => by simpa using told⟩

theorem trans (first : s.Leads s₁) (second : s₁.Leads s₂) : s.Leads s₂ := by
  obtain ⟨h, first, same, told⟩ := first
  obtain ⟨h', second, same', told'⟩ := second
  refine ⟨h ++ h', first.trans second, same'.trans same, fun h₀ known => ?_⟩
  rw [← List.append_assoc]
  exact told' (h₀ ++ h) (told h₀ known)

theorem beside {w w' : World} (keeps : w.Keeps w') (calls : List Call) :
    Leads ⟨w, calls⟩ ⟨w', calls⟩ :=
  ⟨_, .single (.beside keeps), rfl, fun _ told c hc => (told c hc).append _⟩

theorem moved (w : World) (before : List Call) (c : Call) (after : List Call) :
    Leads ⟨w, before ++ c :: after⟩ ⟨(c.move w).2, before ++ (c.move w).1 :: after⟩ := by
  refine ⟨_, .single (.moved w before c after), by simp [Call.move_step], fun h₀ told d hd => ?_⟩
  rcases mem_moved hd with rfl | other
  · exact (told c (by simp)).move w
  · exact (told d other).append _

theorem covers : Covers Leads where
  refl := refl
  trans := trans
  moved := moved
  woken w calls := beside (.of_catalog (World.wakeReaders_catalog w)) calls
  worked w calls := beside (World.runWorkers_keeps w) calls
  passed w calls moment _ := beside (.of_catalog (World.passTo_catalog w moment)) calls

end Leads

end Scene

namespace World

open Scene

theorem numberAnswer_answer (w : World) (answer : Answer) :
    (w.numberAnswer answer).1.answer = answer := by
  cases answer <;> rfl

theorem numberAnswer_catalog (w : World) (answer : Answer) :
    (w.numberAnswer answer).2.catalog = w.catalog := by
  cases answer <;> rfl

theorem numberAnswers_answers (w : World) (answers : List Answer) :
    (w.numberAnswers answers).1.map (·.answer) = answers := by
  induction answers generalizing w with
  | nil => rfl
  | cons answer rest ih =>
    simp only [numberAnswers, List.map_cons, numberAnswer_answer, ih]

theorem numberAnswers_catalog (w : World) (answers : List Answer) :
    (w.numberAnswers answers).2.catalog = w.catalog := by
  induction answers generalizing w with
  | nil => rfl
  | cons answer rest ih => exact (ih _).trans (w.numberAnswer_catalog answer)

/-- Every step has an answer, and those that ask for a location are answered what was returned. -/
def Answers (h : List Sight) (steps : List TimedStep) (answers : List Answer) : Prop :=
  answers.length = steps.length ∧
    ∀ p ∈ steps.zip answers, ∀ location number entry, p.1.step = .getLocation location number →
      p.2 = .location entry → ∃ zone, Returned h location zone entry

theorem Answers.nil (h : List Sight) : Answers h [] [] := ⟨rfl, by simp⟩

theorem Answers.append {h h' : List Sight} {steps steps' : List TimedStep}
    {answers answers' : List Answer} (first : Answers h steps answers)
    (second : Answers h' steps' answers') :
    Answers (h ++ h') (steps ++ steps') (answers ++ answers') := by
  refine ⟨by simp [first.1, second.1], ?_⟩
  rw [List.zip_append first.1.symm]
  intro p hp location number entry asks answered
  rcases List.mem_append.1 hp with early | late
  · obtain ⟨zone, c, w, mem, rest⟩ := first.2 p early location number entry asks answered
    exact ⟨zone, c, w, List.mem_append_left h' mem, rest⟩
  · obtain ⟨zone, c, w, mem, rest⟩ := second.2 p late location number entry asks answered
    exact ⟨zone, c, w, List.mem_append_right h mem, rest⟩

theorem answers_of_told {h : List Sight} {steps : List TimedStep} {calls : List Call}
    (same : calls.map (·.step) = steps.map (·.step)) (told : ∀ c ∈ calls, c.Told h) :
    Answers h steps (calls.map fun c => c.answer?.getD .unfinished) := by
  refine ⟨by simpa using congrArg List.length same, ?_⟩
  intro p hp location number entry asks answered
  obtain ⟨n, hn⟩ := List.mem_iff_getElem?.1 hp
  obtain ⟨hs, ha⟩ := List.getElem?_zip_eq_some.1 hn
  rw [List.getElem?_map, Option.map_eq_some_iff] at ha
  obtain ⟨c, hc, ended⟩ := ha
  have step : c.step = p.1.step := by
    have nth := congrArg (·[n]?) same
    simpa [hc, hs] using nth
  have state : c.state = .over (.location entry) := by
    rw [answered] at ended
    apply Call.over_of_answer
    cases known : c.answer? with
    | none => simp [known] at ended
    | some answer => simpa [known] using ended
  exact (told c (List.mem_of_getElem? hc)).answer location number entry (step.trans asks) state

/-- However the steps are scheduled that are taken at once: what they are answered was returned in
a run of a scene. -/
theorem takeAll_answers (w : World) (steps : List TimedStep) :
    ∃ h, Steps SceneStep ⟨w, []⟩ h ⟨(w.takeAll steps).2, []⟩ ∧
      Answers h steps (w.takeAll steps).1 := by
  obtain ⟨h₁, calm, -⟩ := Leads.covers.quiesce (rounds []) w []
  rw [takeAll]
  generalize quiesce (rounds []) w [] = r at calm ⊢
  obtain ⟨calls₀, v⟩ := r
  obtain ⟨h₂, ran, same, told⟩ :=
    Leads.covers.runCalls patience v (steps.map (Call.ofStep v.millis))
  dsimp only at calm ⊢
  generalize runCalls patience v (steps.map (Call.ofStep v.millis)) = r at ran same told ⊢
  obtain ⟨calls, u⟩ := r
  have come : SceneStep ⟨v, calls₀⟩ .beside ⟨v, steps.map (Call.ofStep v.millis)⟩ := by
    refine .called fun c hc => .inr ?_
    obtain ⟨timed, _, rfl⟩ := List.mem_map.1 hc
    exact ⟨timed, rfl⟩
  have gone : SceneStep ⟨u, calls⟩ .beside ⟨u, []⟩ := .called (by simp)
  have fresh : ∀ c ∈ steps.map (Call.ofStep v.millis), c.Told (h₁ ++ [.beside]) := by
    intro c hc
    obtain ⟨timed, _, rfl⟩ := List.mem_map.1 hc
    constructor
    · rintro _ _ _ _ ⟨⟩
    · rintro _ _ _ _ ⟨⟩
  refine ⟨_, ((calm.snoc come).trans ran).snoc gone, answers_of_told ?_ ?_⟩
  · rw [same, List.map_map]
    rfl
  · exact fun c hc => (told _ fresh c hc).append _

/-- What a session does next, with the answers to all of it. -/
def takes (w : World) : List SessionStep → List NumberedAnswer × World
  | [] => ([], w)
  | s :: rest =>
    let (answers, w) := w.take s
    let (others, w) := w.takes rest
    (answers ++ others, w)

/-- What is answered in a session was returned in a run of a scene. -/
theorem takes_answers (w : World) (session : List SessionStep) :
    ∃ h, Steps SceneStep ⟨w, []⟩ h ⟨(w.takes session).2, []⟩ ∧
      Answers h (session.flatMap timedSteps) ((w.takes session).1.map (·.answer)) := by
  induction session generalizing w with
  | nil => exact ⟨[], .refl, .nil []⟩
  | cons s rest ih =>
    obtain ⟨h₁, first, told⟩ := w.takeAll_answers (timedSteps s)
    obtain ⟨h₂, second, told'⟩ := ih (w.take s).2
    have numbered : (w.takeAll (timedSteps s)).2.Keeps (w.take s).2 :=
      .of_catalog (numberAnswers_catalog _ _)
    have answers : (w.take s).1.map (·.answer) = (w.takeAll (timedSteps s)).1 :=
      numberAnswers_answers _ _
    refine ⟨h₁ ++ [.beside] ++ h₂, (first.snoc (.beside numbered)).trans second, ?_⟩
    rw [← answers] at told
    have both := (told.append (.nil [.beside])).append told'
    simpa [takes, List.append_assoc] using both

end World
end ZoneCatalog
