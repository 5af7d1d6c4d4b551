import ZoneCatalog.Proofs.Store.Requests
import ZoneCatalog.Proofs.Store.Runs
import ZoneCatalog.Simulation.World

/-! Work in a world: it changes nothing but the store and the reports, and what holds of every
result it can have holds of the result it has, however often it had to wait. -/
namespace ZoneCatalog

variable {α β : Type}

namespace Program

/-- Whatever is answered to it, the result of a piece of work has a property. -/
def Ends (P : α → Prop) : Program α → Prop
  | .done result => P result
  | .ask _ next => ∀ result, (next result).Ends P
  | .time next => ∀ now, (next now).Ends P
  | .report _ rest => rest.Ends P

theorem Ends.bind {P : α → Prop} {Q : β → Prop} {p : Program α} {f : α → Program β}
    (first : p.Ends P) (second : ∀ result, P result → (f result).Ends Q) : (p.bind f).Ends Q := by
  induction p with
  | done result => exact second result first
  | ask request next ih => exact fun result => ih result (first result)
  | time next ih => exact fun now => ih now (first now)
  | report notice rest ih => exact ih first

theorem Ends.of_forall {P : α → Prop} (h : ∀ result, P result) (p : Program α) : p.Ends P := by
  induction p with
  | done result => exact h result
  | ask request next ih => exact ih
  | time next ih => exact ih
  | report notice rest ih => exact ih

theorem ends_of_yields {P : α → Prop} {p : Program α}
    (yields : ∀ h result, p.Yields h result → P result) : p.Ends P := by
  induction p with
  | done result => exact yields [] result (.done result)
  | ask request next ih => exact fun result => ih result fun h a run => yields _ a (.ask result run)
  | time next ih => exact fun now => ih now fun h a run => yields _ a (.time now run)
  | report notice rest ih => exact ih fun h a run => yields _ a (.report run)

theorem Ends.mono {P Q : α → Prop} {p : Program α} (ends : p.Ends P)
    (weaker : ∀ result, P result → Q result) : p.Ends Q := by
  induction p with
  | done result => exact weaker result ends
  | ask request next ih => exact fun result => ih result (ends result)
  | time next ih => exact fun now => ih now (ends now)
  | report notice rest ih => exact ih ends

end Program

/-- Whatever is answered to it, work that waits ends with a property. -/
def Suspended.Ends (P : α → Prop) (work : Suspended α) : Prop :=
  ∀ result, (work.next result).Ends P

/-- The property of a result, or of all that waiting work can come to. -/
def Progress.Ends (P : α → Prop) : Progress α → Prop
  | .finished result => P result
  | .suspended work => work.Ends P

namespace World

variable {P : α → Prop}

theorem run_ends {p : Program α} (h : p.Ends P) (w : World) : (w.run p).1.Ends P := by
  induction p generalizing w with
  | done result => exact h
  | ask request next ih =>
    rw [run]
    split
    · exact ih _ (h _) _
    · exact h
  | time next ih => exact ih _ (h _) w
  | report notice rest ih => exact ih h _

theorem resume_ends {work : Suspended α} (h : work.Ends P) (w : World) :
    (w.resume work).1.Ends P := by
  rw [resume]
  split
  · exact run_ends (h _) _
  · exact h

/-- Work changes the store and what is reported, and nothing else. -/
theorem run_eq (p : Program α) (w : World) :
    ∃ store notices, (w.run p).2 = { w with store, notices } := by
  induction p generalizing w with
  | done result => exact ⟨w.store, w.notices, rfl⟩
  | ask request next ih =>
    rw [run]
    split
    · rename_i result store _
      obtain ⟨store', notices, ran⟩ := ih result { w with store }
      exact ⟨store', notices, ran⟩
    · exact ⟨w.store, w.notices, rfl⟩
  | time next ih => exact ih w.clock w
  | report notice rest ih =>
    obtain ⟨store, notices, ran⟩ := ih (w.report [notice])
    exact ⟨store, notices, ran⟩

@[simp] theorem run_catalog (p : Program α) (w : World) : (w.run p).2.catalog = w.catalog := by
  obtain ⟨store, notices, ran⟩ := run_eq p w
  rw [ran]

@[simp] theorem run_clock (p : Program α) (w : World) : (w.run p).2.clock = w.clock := by
  obtain ⟨store, notices, ran⟩ := run_eq p w
  rw [ran]

@[simp] theorem resume_catalog (work : Suspended α) (w : World) :
    (w.resume work).2.catalog = w.catalog := by
  rw [resume]
  split
  · exact run_catalog _ _
  · rfl

@[simp] theorem resume_clock (work : Suspended α) (w : World) :
    (w.resume work).2.clock = w.clock := by
  rw [resume]
  split
  · exact run_clock _ _
  · rfl

theorem tick_eq_self {w : World} (still : w.ticks = []) : w.tick = w := by
  simp only [tick, still, List.headD_nil, List.tail_nil, Seconds.later_zero]
  rw [← still]

/-- By itself the clock never goes back. -/
theorem clock_le_tick (w : World) : w.clock ≤ w.tick.clock := w.clock.le_later _

section Requests

variable (request : StoreRequest) (f : request.Result → α)

/-- A single request is answered at once or goes out. -/
theorem run_gives (w : World) :
    (∃ pending, w.run (.ask request fun result => .done (f result)) =
      (.suspended ⟨request, pending, fun result => .done (f result)⟩, w)) ∨
    ∃ result store, w.store.Gives request result store ∧
      w.run (.ask request fun result => .done (f result)) =
        (.finished (f result), { w with store }) := by
  cases h : w.store.send w.millis request with
  | pending pending => exact .inl ⟨pending, by simp only [run, h]⟩
  | answered result store =>
    exact .inr ⟨result, store, ScriptedStore.send_gives h, by simp only [run, h]⟩

theorem resume_gives {w : World} {pending : Pending request}
    (due : w.isDue ⟨request, pending, fun result => .done (f result)⟩) :
    ∃ result store, w.store.Gives request result store ∧
      w.resume ⟨request, pending, fun result => .done (f result)⟩ =
        (.finished (f result), { w with store }) :=
  ⟨_, _, w.store.answer_gives pending, by rw [resume, if_pos due]; rfl⟩

end Requests

end World

/-! Work from its start to its end, over the waits in between and whatever happens in them. -/

/-- What a program waits with once it was started in some world, and each time that it still has to
wait in some world after. -/
inductive Program.Waits (p : Program α) : Suspended α → Prop where
  | sent {w : World} {work : Suspended α} (h : (w.run p).1 = .suspended work) : p.Waits work
  | again {w : World} {work work' : Suspended α} (before : p.Waits work)
      (h : (w.resume work).1 = .suspended work') : p.Waits work'

/-- A program ends in a world with a result, started there or resumed there after some wait, and
leaves another world. -/
def World.Completes (w : World) (p : Program α) (result : α) (w' : World) : Prop :=
  w.run p = (.finished result, w') ∨
    ∃ work, p.Waits work ∧ w.resume work = (.finished result, w')

/-- Work comes to a result, and to no other, however often it is resumed in worlds of a kind. -/
inductive Progress.Comes (kind : World → Prop) (result : α) : Progress α → Prop where
  | finished : Comes kind result (.finished result)
  | suspended {work : Suspended α}
      (h : ∀ w, kind w → w.isDue work → Comes kind result (w.resume work).1) :
    Comes kind result (.suspended work)

section Requests

variable {request : StoreRequest} {f : request.Result → α}

theorem Program.Waits.of_ask {work : Suspended α}
    (waits : (Program.ask request fun result => .done (f result)).Waits work) :
    ∃ pending, work = ⟨request, pending, fun result => .done (f result)⟩ := by
  induction waits with
  | @sent w _ h =>
    rcases w.run_gives request f with ⟨pending, sent⟩ | ⟨result, store, -, answered⟩
    · rw [sent] at h
      cases h
      exact ⟨pending, rfl⟩
    · rw [answered] at h
      cases h
  | @again w _ _ _ h ih =>
    obtain ⟨pending, rfl⟩ := ih
    by_cases due : w.isDue ⟨request, pending, fun result => .done (f result)⟩
    · obtain ⟨result, store, -, answered⟩ := World.resume_gives request f due
      rw [answered] at h
      cases h
    · rw [World.resume, if_neg due] at h
      cases h
      exact ⟨pending, rfl⟩

/-- A single request ends with what the store gives in the world in which it ends. -/
theorem World.Completes.of_ask {w w' : World} {a : α}
    (h : w.Completes (.ask request fun result => .done (f result)) a w') :
    ∃ result store, w.store.Gives request result store ∧ a = f result ∧
      w' = { w with store } := by
  rcases h with ran | ⟨work, waits, resumed⟩
  · rcases w.run_gives request f with ⟨pending, sent⟩ | ⟨result, store, gives, answered⟩
    · rw [sent] at ran
      cases ran
    · rw [answered] at ran
      cases ran
      exact ⟨result, store, gives, rfl, rfl⟩
  · obtain ⟨pending, rfl⟩ := waits.of_ask
    by_cases due : w.isDue ⟨request, pending, fun result => .done (f result)⟩
    · obtain ⟨result, store, gives, answered⟩ := World.resume_gives request f due
      rw [answered] at resumed
      cases resumed
      exact ⟨result, store, gives, rfl, rfl⟩
    · rw [World.resume, if_neg due] at resumed
      cases resumed

end Requests
end ZoneCatalog
