import ZoneCatalog.Proofs.Simulation.Work

/-! Work over a store that answers at once: it comes to its result without a wait. -/
namespace ZoneCatalog

variable {α : Type}

/-- The reply of a store with some content, if the request leaves the content alone. -/
def Content.reply? (c : Content) : (r : StoreRequest) → Option r.Reply
  | .members key => some (c.members key)
  | .fieldNames key => some (c.fieldNames key)
  | .get key => some (c.strings.get? key)
  | .field key name => some (c.field? key name)
  | .setField .. => none
  | .subscribe _ => none

theorem MemoryStore.serve_of_reply {s : MemoryStore} {r : StoreRequest} {reply : r.Reply}
    (h : s.content.reply? r = some reply) :
    s.serve r = (reply, { s with reads := s.reads + 1 }) := by
  cases r <;> cases h <;> rfl

namespace World

variable {w : World}

/-- The store answers at once. -/
structure Prompt (w : World) : Prop where
  works : w.store.failure = none
  online : w.store.memory.offline = false
  latency : w.store.memory.latency = 0

theorem Prompt.send (prompt : w.Prompt) {r : StoreRequest} {reply : r.Reply}
    (h : w.store.memory.content.reply? r = some reply) :
    w.store.send w.millis r = .answered (.ok reply)
      { w.store with memory := { w.store.memory with reads := w.store.memory.reads + 1 } } := by
  have forwarded : w.store.send w.millis r = w.store.forward w.millis r := by
    cases r with
    | subscribe => cases h
    | _ => rw [ScriptedStore.send]; rw [prompt.works]
  simp [forwarded, ScriptedStore.forward, ScriptedStore.answer, MemoryStore.send,
    MemoryStore.answer, MemoryStore.serve_of_reply h, prompt.online, prompt.latency]

/-- What is seen of work is what the store of a world has to say, and its time. -/
def Tells (w : World) : Program.Event → Prop
  | .answered request result =>
    ∃ reply, w.store.memory.content.reply? request = some reply ∧ result = .ok reply
  | .looked now => now = w.clock
  | .reported _ => True

/-- Whatever work can come to over the content of the store and at the time, it does. -/
theorem Prompt.run_of_yields (prompt : w.Prompt) {p : Program α} {h : List Program.Event} {a : α}
    (yields : p.Yields h a) (tells : ∀ e ∈ h, w.Tells e) : (w.run p).1 = .finished a := by
  induction yields generalizing w with
  | done result => rfl
  | ask result rest ih =>
    obtain ⟨reply, replies, rfl⟩ := tells _ List.mem_cons_self
    rw [run]
    simp only [prompt.send replies]
    exact ih ⟨prompt.works, prompt.online, prompt.latency⟩
      fun e mem => tells e (List.mem_cons_of_mem _ mem)
  | time now rest ih =>
    obtain rfl : now = w.clock := tells _ List.mem_cons_self
    exact ih prompt fun e mem => tells e (List.mem_cons_of_mem _ mem)
  | report rest ih =>
    exact ih ⟨prompt.works, prompt.online, prompt.latency⟩
      fun e mem => tells e (List.mem_cons_of_mem _ mem)

end World
end ZoneCatalog
