import ZoneCatalog.Proofs.Store.Feeds
import ZoneCatalog.Store.Scripted

/-! What comes of a request, whenever it is answered: a failure that leaves the store as it was, or
what the store in memory holds at the moment of the answer. -/
namespace ZoneCatalog

/-- A request fails and leaves the store as it was, or is served. -/
theorem MemoryStore.answer_cases (s : MemoryStore) {r : StoreRequest} (p : Pending r) :
    (∃ cause, s.answer p = (.error cause, s)) ∨
      s.answer p = (.ok (s.serve r).1, (s.serve r).2) := by
  rw [answer]
  split
  · exact .inl ⟨_, rfl⟩
  · split
    · exact .inl ⟨_, rfl⟩
    · exact .inr rfl

namespace ScriptedStore

variable {s s' : ScriptedStore} {r : StoreRequest} {result : r.Result}

/-- A store answers a request with a result. -/
inductive Gives (s : ScriptedStore) : (r : StoreRequest) → r.Result → ScriptedStore → Prop where
  | failed {r : StoreRequest} (cause : StoreError) : Gives s r (.error cause) s
  | served (r : StoreRequest) :
      Gives s r (.ok (s.memory.serve r).1) { s with memory := (s.memory.serve r).2 }
  /-- A subscription gets a feed that is filled by hand. -/
  | byHand {pattern : String} (h : s.manualFeeds = true) :
      Gives s (.subscribe pattern) (.ok s.openManual.1) s.openManual.2

theorem answer_gives (s : ScriptedStore) (p : Pending r) :
    s.Gives r (s.answer p).1 (s.answer p).2 := by
  rcases s.memory.answer_cases p with ⟨cause, failed⟩ | served
  · simp only [answer, failed]
    exact .failed cause
  · simp only [answer, served]
    exact .served r

theorem forward_gives {now : Nat} (h : s.forward now r = .answered result s') :
    s.Gives r result s' := by
  simp only [forward] at h
  split at h
  · obtain ⟨rfl, rfl⟩ := Sent.answered.inj h
    exact answer_gives s _
  · cases h

theorem send_gives {now : Nat} (h : s.send now r = .answered result s') :
    s.Gives r result s' := by
  cases hf : s.failure with
  | some cause =>
    simp only [send, hf] at h
    obtain ⟨rfl, rfl⟩ := Sent.answered.inj h
    exact .failed cause
  | none =>
    cases r with
    | subscribe pattern =>
      simp only [send, hf] at h
      split at h
      · rename_i manual
        obtain ⟨rfl, rfl⟩ := Sent.answered.inj h
        exact .byHand manual
      · exact forward_gives h
    | _ =>
      simp only [send, hf] at h
      exact forward_gives h

theorem Gives.members_inv {key : String} {result : Except StoreError (List String)}
    (h : s.Gives (.members key) result s') : (∃ cause, result = .error cause ∧ s' = s) ∨
      result = .ok (s.memory.content.members key) ∧
        s' = { s with memory := { s.memory with reads := s.memory.reads + 1 } } := by
  cases h with
  | failed cause => exact .inl ⟨cause, rfl, rfl⟩
  | served => exact .inr ⟨rfl, rfl⟩

theorem Gives.field_inv {key name : String} {result : Except StoreError (Option String)}
    (h : s.Gives (.field key name) result s') : (∃ cause, result = .error cause ∧ s' = s) ∨
      result = .ok (s.memory.content.field? key name) ∧
        s' = { s with memory := { s.memory with reads := s.memory.reads + 1 } } := by
  cases h with
  | failed cause => exact .inl ⟨cause, rfl, rfl⟩
  | served => exact .inr ⟨rfl, rfl⟩

theorem Gives.setField_inv {key name value : String} {result : Except StoreError Unit}
    (h : s.Gives (.setField key name value) result s') :
    (∃ cause, result = .error cause ∧ s' = s) ∨
      result = .ok () ∧ s' = { s with memory := s.memory.putField key name value } := by
  cases h with
  | failed cause => exact .inl ⟨cause, rfl, rfl⟩
  | served => exact .inr ⟨rfl, rfl⟩

theorem Gives.subscribe_inv {pattern : String} {result : Except StoreError FeedId}
    (h : s.Gives (.subscribe pattern) result s') (automatic : s.manualFeeds = false) :
    (∃ cause, result = .error cause ∧ s' = s) ∨ result = .ok (.live s.memory.nextFeed) ∧
      s' = { s with memory := (s.memory.openFeed pattern).2 } := by
  cases h with
  | failed cause => exact .inl ⟨cause, rfl, rfl⟩
  | served => exact .inr ⟨rfl, rfl⟩
  | byHand manual => simp [automatic] at manual

/-- Whatever a request does to the memory, the feeds live through it as a move. -/
theorem serve_move (mine : Option FeedId) (m : MemoryStore) (r : StoreRequest) :
    m.Move mine (m.serve r).2 := by
  cases r with
  | members key => exact .tuned _ _ _
  | fieldNames key => exact .tuned _ _ _
  | get key => exact .tuned _ _ _
  | field key name => exact .tuned _ _ _
  | setField key name value => exact .putField key name value
  | subscribe pattern => exact .opened pattern

end ScriptedStore
end ZoneCatalog
