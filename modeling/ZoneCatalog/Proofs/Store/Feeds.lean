import ZoneCatalog.Proofs.Text.Glob
import ZoneCatalog.Store.Memory

/-! What a store in memory does to a feed while its reader does not read it. Whatever changes the
set at a key leaves an event in every feed about that key: a new one if there is room, and those
that fill it if there is none. -/
namespace ZoneCatalog

namespace Content

variable (c : Content)

theorem members_delete {key k : String} (h : k ≠ key) : (c.delete key).members k = c.members k := by
  simp [members, delete, SortedMap.get?_erase, h]

theorem members_addMember {key k : String} (member : String) (h : k ≠ key) :
    (c.addMember key member).members k = c.members k := by
  simp [members, addMember, SortedMap.get?_insert, h]

theorem addMember_present {key member : String} (h : c.hasMember key member) :
    c.addMember key member = c := by
  obtain ⟨u, hu⟩ := Option.isSome_iff_exists.1 h
  cases hs : c.sets.get? key with
  | none => simp [hs] at hu
  | some set =>
    rw [hs, Option.getD_some] at hu
    rw [addMember, hs, Option.getD_some, SortedMap.insert_eq_self hu, SortedMap.insert_eq_self hs]

theorem members_removeMember {key k : String} (member : String) (h : k ≠ key) :
    (c.removeMember key member).members k = c.members k := by
  rw [removeMember]
  split
  · simp [members, SortedMap.get?_insert, h]
  · rfl

end Content

namespace Feed

variable (f : Feed) (key : String)

@[simp] theorem notify_number : (f.notify key).number = f.number := by
  rw [notify]; split <;> rfl

@[simp] theorem notify_pattern : (f.notify key).pattern = f.pattern := by
  rw [notify]; split <;> rfl

/-- A feed whose store never reports a failure. -/
def Plain : Prop := ∀ e ∈ f.queue, ∀ cause, e ≠ .failed cause

variable {f key}

theorem notify_plain (h : f.Plain) : (f.notify key).Plain := by
  rw [notify]
  split
  · intro e he cause
    simp only [EventQueue.offer] at he
    split at he
    · rcases List.mem_append.1 he with old | new
      · exact h e old cause
      · simp [List.mem_singleton.1 new]
    · exact h e he cause
  · exact h

theorem notify_unread (h : f.queue ≠ []) : (f.notify key).queue ≠ [] := by
  rw [notify]
  split
  · rw [EventQueue.offer]
    split
    · simp
    · exact h
  · exact h

/-- A full queue has no room, but it is not empty either. -/
theorem notify_covered (h : f.covers key) : (f.notify key).queue ≠ [] := by
  rw [notify, if_pos h]
  rw [EventQueue.offer]
  split
  · simp
  · rename_i full
    intro none_left
    simp only at none_left
    simp [none_left, feedCapacity] at full

end Feed

namespace MemoryStore

variable {s s' : MemoryStore}

/-- A move of a store, other than of a given feed: a write or a deletion at any key, a feed that is
opened, read or closed, or another state of the connection. -/
inductive Move (mine : Option FeedId) (s : MemoryStore) : MemoryStore → Prop where
  | set (key value : String) : Move mine s (s.set key value)
  | putField (key name value : String) : Move mine s (s.putField key name value)
  | delete (key : String) : Move mine s (s.delete key)
  | addMember (key member : String) : Move mine s (s.addMember key member)
  | removeMember (key member : String) : Move mine s (s.removeMember key member)
  | opened (pattern : String) : Move mine s (s.openFeed pattern).2
  | read {number : Nat} (other : mine ≠ some (.live number)) : Move mine s (s.readFeed number).2
  | closed {number : Nat} (other : mine ≠ some (.live number)) : Move mine s (s.closeFeed number)
  | tuned (reads latency : Nat) (offline : Bool) : Move mine s { s with reads, latency, offline }

/-- What a move comes to for the feeds. -/
inductive Effect (mine : Option FeedId) (s : MemoryStore) : MemoryStore → Prop where
  /-- The set at a key may have changed, and the feeds about the key are told. -/
  | changed {key : String} {content : Content}
      (others : ∀ k, k ≠ key → content.members k = s.content.members k) :
      Effect mine s ({ s with content }.notify key)
  | kept {s' : MemoryStore} (feeds : s'.feeds = s.feeds) (nextFeed : s'.nextFeed = s.nextFeed)
      (members : ∀ k, s'.content.members k = s.content.members k) : Effect mine s s'
  | opened (pattern : String) : Effect mine s (s.openFeed pattern).2
  | read {number : Nat} (other : mine ≠ some (.live number)) : Effect mine s (s.readFeed number).2
  | closed {number : Nat} (other : mine ≠ some (.live number)) :
      Effect mine s (s.closeFeed number)

theorem Move.effect {mine : Option FeedId} (m : Move mine s s') : Effect mine s s' := by
  cases m with
  | set key value => exact .changed fun _ _ => rfl
  | putField key name value => exact .changed fun _ _ => rfl
  | delete key =>
    rw [MemoryStore.delete]
    split
    · exact .changed fun k hk => s.content.members_delete hk
    · exact .kept rfl rfl fun _ => rfl
  | addMember key member =>
    simp only [MemoryStore.addMember]
    split
    · rename_i present
      exact .kept rfl rfl fun k => congrArg (·.members k) (s.content.addMember_present present)
    · exact .changed fun k hk => s.content.members_addMember member hk
  | removeMember key member =>
    rw [MemoryStore.removeMember]
    split
    · exact .changed fun k hk => s.content.members_removeMember member hk
    · exact .kept rfl rfl fun _ => rfl
  | opened pattern => exact .opened pattern
  | read other => exact .read other
  | closed other => exact .closed other
  | tuned => exact .kept rfl rfl fun _ => rfl

/-- The feed with a number. -/
def feed? (s : MemoryStore) (number : Nat) : Option Feed := s.feeds.find? (·.number = number)

theorem feed?_number {number : Nat} {f : Feed} (h : s.feed? number = some f) :
    f.number = number := by
  simpa using List.find?_some h

theorem feed?_notify (s : MemoryStore) (key : String) (number : Nat) :
    (s.notify key).feed? number = (s.feed? number).map (·.notify key) := by
  simp only [feed?, notify, List.find?_map]
  congr 2
  funext f
  simp

theorem feed?_closeFeed (s : MemoryStore) {number other : Nat} (h : number ≠ other) :
    (s.closeFeed other).feed? number = s.feed? number := by
  simp only [feed?, closeFeed, List.find?_filter]
  congr 1
  funext f
  by_cases hf : f.number = number
  · simp [hf, h]
  · simp [hf]

theorem feed?_openFeed (s : MemoryStore) (pattern : String) {number : Nat} {f : Feed}
    (h : s.feed? number = some f) : (s.openFeed pattern).2.feed? number = some f := by
  simp only [feed?, openFeed, List.find?_append] at h ⊢
  simp [h]

/-- What is left unread of a feed does not change its number. -/
theorem feed?_leave (s : MemoryStore) (number other : Nat) (rest : List StoreEvent) :
    ({ s with feeds := s.feeds.map fun g =>
      if g.number = other then { g with queue := rest } else g } : MemoryStore).feed? number =
        (s.feed? number).map fun g => if number = other then { g with queue := rest } else g := by
  have same (g : Feed) :
      (if g.number = other then { g with queue := rest } else g).number = g.number := by
    split <;> rfl
  simp only [feed?, List.find?_map, Function.comp_def, same]
  cases hf : s.feeds.find? (·.number = number) with
  | none => rfl
  | some f =>
    have hn : f.number = number := feed?_number hf
    simp [hn]

theorem feed?_readFeed (s : MemoryStore) {number other : Nat} (h : number ≠ other) :
    (s.readFeed other).2.feed? number = s.feed? number := by
  rw [readFeed]
  split
  · split
    · rw [feed?_leave]
      simp [h]
    · rfl
  · rfl

theorem content_readFeed (s : MemoryStore) (number : Nat) :
    (s.readFeed number).2.content = s.content := by
  rw [readFeed]
  split
  · split <;> rfl
  · rfl

/-- A feed that tells its reader of every change to the set it is about: it is open, and it says
nothing else than that something changed. -/
structure Hears (s : MemoryStore) (number : Nat) (key : String) (f : Feed) : Prop where
  isOpen : s.feed? number = some f
  pattern : f.pattern = key
  plain : f.Plain

/-- What becomes of a feed that hears of a key: it still does, it loses nothing, and it has
something to say unless the set is as it was. -/
def Heard (s s' : MemoryStore) (number : Nat) (key : String) (f : Feed) : Prop :=
  ∃ f', s'.Hears number key f' ∧ (f.queue ≠ [] → f'.queue ≠ []) ∧
    (s'.content.members key = s.content.members key ∨ f'.queue ≠ [])

variable {number : Nat} {key : String} {f : Feed}

theorem Hears.kept (h : s.Hears number key f) (same : s'.feed? number = s.feed? number)
    (members : s'.content.members key = s.content.members key) : Heard s s' number key f :=
  ⟨f, ⟨same.trans h.isOpen, h.pattern, h.plain⟩, id, .inl members⟩

/-- A change at one key that leaves the sets at all others as they are is heard. -/
theorem Hears.notified (h : s.Hears number key f) {changed : String} {content : Content}
    (others : ∀ k, k ≠ changed → content.members k = s.content.members k) :
    Heard s ({ s with content }.notify changed) number key f := by
  refine ⟨f.notify changed, ⟨?_, by simp [h.pattern], Feed.notify_plain h.plain⟩,
    Feed.notify_unread, ?_⟩
  · have same : ({ s with content } : MemoryStore).feed? number = some f := h.isOpen
    rw [feed?_notify, same, Option.map_some]
  · by_cases hk : key = changed
    · subst hk
      exact .inr (Feed.notify_covered (by simp [Feed.covers, h.pattern]))
    · exact .inl (others key hk)

/-- No move of a store goes unheard. -/
theorem Hears.move (h : s.Hears number key f) (m : Move (some (.live number)) s s') :
    Heard s s' number key f := by
  cases m.effect with
  | changed others => exact h.notified others
  | kept feeds _ members => exact h.kept (by rw [feed?, feed?, feeds]) (members key)
  | opened pattern =>
    exact h.kept ((s.feed?_openFeed pattern h.isOpen).trans h.isOpen.symm) rfl
  | read other =>
    refine h.kept (s.feed?_readFeed fun same => other (by rw [same])) ?_
    rw [content_readFeed]
  | closed other => exact h.kept (s.feed?_closeFeed fun same => other (by rw [same])) rfl

theorem readFeed_of_queue {e : StoreEvent} {rest : List StoreEvent} (h : s.feed? number = some f)
    (hq : f.queue = e :: rest) : s.readFeed number = (.event e, { s with
      feeds := s.feeds.map fun g =>
        if g.number = number then { g with queue := rest } else g }) := by
  rw [feed?] at h
  simp only [readFeed, h, hq]

theorem readFeed_of_silence (h : s.feed? number = some f) (hq : f.queue = []) :
    s.readFeed number = (.silent, s) := by
  rw [feed?] at h
  simp only [readFeed, h, hq]

/-- A feed that was read still hears of its key, and what was read is no failure. -/
theorem Hears.read {e : StoreEvent} (h : s.Hears number key f)
    (hr : s.readFeed number = (.event e, s')) :
    (∀ cause, e ≠ .failed cause) ∧ ∃ f', s'.Hears number key f' := by
  cases hq : f.queue with
  | nil => simp [readFeed_of_silence h.isOpen hq] at hr
  | cons d rest =>
    rw [readFeed_of_queue h.isOpen hq] at hr
    cases hr
    refine ⟨h.plain e (by simp [hq]), { f with queue := rest }, ?_, h.pattern, ?_⟩
    · rw [feed?_leave, h.isOpen, Option.map_some, if_pos rfl]
    · intro d hd
      exact h.plain d (by simp [hq, hd])

/-- The numbers of open feeds were all given out. -/
def Numbered (s : MemoryStore) : Prop := ∀ f ∈ s.feeds, f.number < s.nextFeed

theorem Numbered.notify (h : Numbered s) (key : String) : Numbered (s.notify key) := by
  intro f hf
  obtain ⟨g, hg, rfl⟩ := List.mem_map.1 hf
  simpa [MemoryStore.notify] using h g hg

theorem Numbered.openFeed (h : Numbered s) (pattern : String) :
    Numbered (s.openFeed pattern).2 := by
  intro f hf
  rcases List.mem_append.1 hf with old | new
  · exact Nat.lt_succ_of_lt (h f old)
  · obtain rfl := List.mem_singleton.1 new
    exact Nat.lt_succ_self _

theorem Numbered.readFeed (h : Numbered s) (number : Nat) :
    Numbered (s.readFeed number).2 := by
  rw [MemoryStore.readFeed]
  split
  · split
    · intro f hf
      obtain ⟨g, hg, rfl⟩ := List.mem_map.1 hf
      have := h g hg
      split
      · exact this
      · exact this
    · exact h
  · exact h

theorem Numbered.closeFeed (h : Numbered s) (number : Nat) : Numbered (s.closeFeed number) :=
  fun f hf => h f (List.mem_filter.1 hf).1

theorem Numbered.move {mine : Option FeedId} (h : Numbered s) (m : Move mine s s') :
    Numbered s' := by
  cases m.effect with
  | changed => exact Numbered.notify (s := { s with content := _ }) h _
  | kept feeds nextFeed =>
    intro f hf
    rw [nextFeed]
    exact h f (feeds ▸ hf)
  | opened pattern => exact h.openFeed pattern
  | read => exact h.readFeed _
  | closed => exact h.closeFeed _

/-- A feed hears of its pattern from its opening on. -/
theorem hears_openFeed (h : Numbered s) (key : String) :
    (s.openFeed key).2.Hears s.nextFeed key (.opened s.nextFeed key) := by
  refine ⟨?_, rfl, by simp [Feed.Plain, Feed.opened]⟩
  have fresh : s.feeds.find? (·.number = s.nextFeed) = none := by
    rw [List.find?_eq_none]
    intro f hf
    simpa using Nat.ne_of_lt (h f hf)
  simp [feed?, openFeed, List.find?_append, fresh, Feed.opened]

end MemoryStore
end ZoneCatalog
