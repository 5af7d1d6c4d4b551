import Mathlib.Data.List.Induction
import ZoneCatalog.Proofs.Store.Calls

/-! What comes into the feeds of a store in memory. A feed that has room is told of every change at a
key it is about, and one that has none holds events already. So whoever finds a feed empty has
missed nothing, and whatever a feed holds was changed while it was open. -/
namespace ZoneCatalog

namespace Feed

variable {f f' : Feed} {key k : String} {e : StoreEvent}

/-- A feed has been left as it was, or has at most been read. -/
def Remains (f f' : Feed) : Prop :=
  f.number = f'.number ∧ f.pattern = f'.pattern ∧ f'.queue <:+ f.queue

theorem Remains.refl (f : Feed) : f.Remains f := ⟨rfl, rfl, List.suffix_rfl⟩

theorem notify_within (h : f.queue.length ≤ feedCapacity) :
    (f.notify key).queue.length ≤ feedCapacity := by
  rw [notify]
  split
  · simp only [EventQueue.offer]
    split
    · rename_i room
      rw [List.length_append]
      exact room
    · exact h
  · exact h

theorem mem_notify (h : e ∈ (f.notify key).queue) :
    e ∈ f.queue ∨ e = .changed key ∧ f.covers key := by
  rw [notify] at h
  split at h
  · rename_i covers
    simp only [EventQueue.offer] at h
    split at h
    · rcases List.mem_append.1 h with old | new
      · exact .inl old
      · exact .inr ⟨List.mem_singleton.1 new, covers⟩
    · exact .inl h
  · exact .inl h

@[simp] theorem notify_covers : (f.notify key).covers k = f.covers k := by
  rw [covers, covers, notify_pattern]

end Feed

namespace MemoryStore

variable {s s' : MemoryStore} {c : StoreCall} {key : String} {f f' : Feed}

/-- The feeds of a store have numbers of their own, and none holds more than it has room for. -/
structure Orderly (s : MemoryStore) : Prop where
  numbered : Numbered s
  distinct : (s.feeds.map (·.number)).Nodup
  within : ∀ f ∈ s.feeds, f.queue.length ≤ feedCapacity

theorem numbers_notify (s : MemoryStore) (key : String) :
    (s.notify key).feeds.map (·.number) = s.feeds.map (·.number) := by
  simp [notify, Function.comp_def]

theorem numbers_readFeed (s : MemoryStore) (number : Nat) :
    (s.readFeed number).2.feeds.map (·.number) = s.feeds.map (·.number) := by
  rw [readFeed]
  split
  · split
    · rw [List.map_map]
      apply List.map_congr_left
      intro f _
      rw [Function.comp_apply]
      split <;> rfl
    · rfl
  · rfl

theorem Untold.distinct (u : Untold s s') (orderly : Orderly s) :
    (s'.feeds.map (·.number)).Nodup := by
  cases u with
  | kept feeds => rw [feeds]; exact orderly.distinct
  | opened pattern =>
    have fresh : s.nextFeed ∉ s.feeds.map (·.number) := by
      intro given
      obtain ⟨f, hf, same⟩ := List.mem_map.1 given
      exact Nat.ne_of_lt (orderly.numbered f hf) same
    simpa [openFeed, Feed.opened, List.nodup_append, orderly.distinct] using fresh
  | read number => rw [numbers_readFeed]; exact orderly.distinct
  | closed number => exact orderly.distinct.sublist (List.filter_sublist.map _)

/-- A feed that is read loses its first event, and all others stay as they are. -/
theorem remains_readFeed (orderly : Orderly s) {number : Nat}
    (h : f' ∈ (s.readFeed number).2.feeds) : ∃ f ∈ s.feeds, f.Remains f' := by
  cases found : s.feed? number with
  | none =>
    rw [feed?] at found
    simp only [readFeed, found] at h
    exact ⟨f', h, .refl f'⟩
  | some g =>
    cases hq : g.queue with
    | nil =>
      rw [readFeed_of_silence found hq] at h
      exact ⟨f', h, .refl f'⟩
    | cons e rest =>
      rw [readFeed_of_queue found hq] at h
      obtain ⟨f, hf, rfl⟩ := List.mem_map.1 h
      refine ⟨f, hf, ?_⟩
      split
      · rename_i here
        have mine : f = g := List.inj_on_of_nodup_map orderly.distinct hf
          (List.mem_of_find?_eq_some found) (here.trans (feed?_number found).symm)
        exact ⟨rfl, rfl, mine ▸ hq ▸ List.suffix_cons e rest⟩
      · exact .refl f

/-- A feed that is not told of anything is a new one, or is what remains of one. -/
theorem Untold.feed (u : Untold s s') (orderly : Orderly s) (h : f' ∈ s'.feeds) :
    (∃ pattern, f' = .opened s.nextFeed pattern) ∨ ∃ f ∈ s.feeds, f.Remains f' := by
  cases u with
  | kept feeds => exact .inr ⟨f', feeds ▸ h, .refl f'⟩
  | opened pattern =>
    rcases List.mem_append.1 h with old | new
    · exact .inr ⟨f', old, .refl f'⟩
    · exact .inl ⟨pattern, List.mem_singleton.1 new⟩
  | read number => exact .inr (remains_readFeed orderly h)
  | closed number => exact .inr ⟨f', (List.mem_filter.1 h).1, .refl f'⟩

/-- A feed after a call was told of the key at which the call has changed something, or the call has
changed nothing and the feed is a new one or what remains of one. -/
theorem feed_after (orderly : Orderly s) (h : f' ∈ (s.after c).feeds) :
    (∃ key, (∀ k, s.Changes c k ↔ k = key) ∧ ∃ f ∈ s.feeds, f' = f.notify key) ∨
      (∀ key, ¬ s.Changes c key) ∧ ((∃ pattern, f' = .opened s.nextFeed pattern) ∨
        ∃ f ∈ s.feeds, f.Remains f') := by
  cases s.news c with
  | told same only =>
    rw [same] at h
    obtain ⟨f, hf, rfl⟩ := List.mem_map.1 h
    exact .inl ⟨_, only, f, hf, rfl⟩
  | untold quiet u => exact .inr ⟨quiet, u.feed orderly h⟩

theorem Orderly.after (orderly : Orderly s) (c : StoreCall) : Orderly (s.after c) where
  numbered := orderly.numbered.move (s.after_move c)
  distinct := by
    cases s.news c with
    | told same =>
      rw [same, numbers_notify]
      exact orderly.distinct
    | untold _ u => exact u.distinct orderly
  within := by
    intro f' hf'
    rcases feed_after orderly hf' with
      ⟨key, -, f, hf, rfl⟩ | ⟨-, ⟨pattern, rfl⟩ | ⟨f, hf, -, -, rest⟩⟩
    · exact Feed.notify_within (orderly.within f hf)
    · simp [Feed.opened, feedCapacity]
    · exact Nat.le_trans rest.length_le (orderly.within f hf)

/-- A feed about a key at which a call changes something has something to say after the call. -/
theorem unread_after (orderly : Orderly s) (changes : s.Changes c key)
    (h : f' ∈ (s.after c).feeds) (covers : f'.covers key) : f'.queue ≠ [] := by
  rcases feed_after orderly h with ⟨k, only, f, -, rfl⟩ | ⟨quiet, -⟩
  · obtain rfl := (only key).1 changes
    exact Feed.notify_covered (by simpa using covers)
  · exact absurd changes (quiet key)

/-- Nothing comes into a feed by a call that changes nothing, but for the first event of a new
feed. -/
theorem nothing_delivered (orderly : Orderly s) (quiet : ∀ key, ¬ s.Changes c key)
    (h : f' ∈ (s.after c).feeds) :
    (∃ pattern, f' = .opened s.nextFeed pattern) ∨ ∃ f ∈ s.feeds, f.Remains f' := by
  rcases feed_after orderly h with ⟨key, only, -⟩ | ⟨-, rest⟩
  · exact absurd ((only key).2 rfl) (quiet key)
  · exact rest

/-! Runs, from a store of which no feed is open. -/

section Run

variable {start : MemoryStore} {calls : List StoreCall}

theorem afterAll_concat (start : MemoryStore) (calls : List StoreCall) (c : StoreCall) :
    start.afterAll (calls ++ [c]) = (start.afterAll calls).after c := by
  simp [afterAll]

theorem orderly_afterAll (bare : start.feeds = []) (calls : List StoreCall) :
    Orderly (start.afterAll calls) := by
  induction calls using List.reverseRecOn with
  | nil => constructor <;> simp [afterAll, bare, Numbered]
  | append_singleton calls c ih =>
    rw [afterAll_concat]
    exact ih.after c

/-- A feed is open. -/
def HasFeed (s : MemoryStore) (number : Nat) (pattern : String) : Prop :=
  ∃ f ∈ s.feeds, f.number = number ∧ f.pattern = pattern

/-- A feed is open at some time of a run and from then on. -/
def OpenSince (start : MemoryStore) (calls : List StoreCall) (time number : Nat)
    (pattern : String) : Prop :=
  ∀ m, time ≤ m → (start.afterAll (calls.take m)).HasFeed number pattern

theorem OpenSince.now {number : Nat} {pattern : String}
    (h : (start.afterAll calls).HasFeed number pattern) :
    OpenSince start calls calls.length number pattern := by
  intro m beyond
  rwa [List.take_of_length_le beyond]

theorem OpenSince.concat {time number : Nat} {pattern : String}
    (before : OpenSince start calls time number pattern)
    (last : (start.afterAll (calls ++ [c])).HasFeed number pattern) :
    OpenSince start (calls ++ [c]) time number pattern := by
  intro m later
  by_cases within : m ≤ calls.length
  · rw [List.take_append_of_le_length within]
    exact before m later
  · rwa [List.take_of_length_le (by simp; omega)]

/-- An event about a key was brought by a call that changed something at the key while the feed was
open. -/
def Caused (start : MemoryStore) (calls : List StoreCall) (key : String) (f : Feed) : Prop :=
  ∃ before cause later, calls = before ++ cause :: later ∧
    (start.afterAll before).Changes cause key ∧
      OpenSince start calls before.length f.number f.pattern

theorem Caused.concat (caused : Caused start calls key f)
    (h : f' ∈ (start.afterAll (calls ++ [c])).feeds) (number : f.number = f'.number)
    (pattern : f.pattern = f'.pattern) : Caused start (calls ++ [c]) key f' := by
  obtain ⟨before, cause, later, rfl, changes, since⟩ := caused
  refine ⟨before, cause, later ++ [c], by simp, changes, ?_⟩
  rw [number, pattern] at since
  exact since.concat ⟨f', h, rfl, rfl⟩

/-- Whatever a feed holds was brought. The induction is on the last call: the event was there before
it, or the call has brought it. -/
theorem caused_of_mem (bare : start.feeds = []) (h : f ∈ (start.afterAll calls).feeds)
    (he : .changed key ∈ f.queue) : f.covers key ∧ Caused start calls key f := by
  induction calls using List.reverseRecOn generalizing f with
  | nil => simp [afterAll, bare] at h
  | append_singleton calls c ih =>
    have here := h
    rw [afterAll_concat] at h
    rcases feed_after (orderly_afterAll bare calls) h with
      ⟨k, only, g, hg, rfl⟩ | ⟨-, ⟨pattern, rfl⟩ | ⟨g, hg, number, pattern, rest⟩⟩
    -- told, new, or left with the rest of its queue
    · rcases Feed.mem_notify he with old | ⟨new, covers⟩
      · obtain ⟨covers, caused⟩ := ih hg old
        exact ⟨by simpa using covers, caused.concat here (by simp) (by simp)⟩
      · cases new
        refine ⟨by simpa using covers, calls, c, [], rfl, (only key).2 rfl, ?_⟩
        have before : (start.afterAll calls).HasFeed (g.notify key).number (g.notify key).pattern :=
          ⟨g, hg, by simp, by simp⟩
        exact (OpenSince.now before).concat ⟨_, here, rfl, rfl⟩
    · simp [Feed.opened] at he
    · obtain ⟨covers, caused⟩ := ih hg (rest.subset he)
      refine ⟨?_, caused.concat here number pattern⟩
      rwa [Feed.covers, ← pattern]

theorem head_of_readFeed {number : Nat} {e : StoreEvent} (h : (s.readFeed number).1 = .event e) :
    ∃ f ∈ s.feeds, f.number = number ∧ f.queue.head? = some e := by
  cases found : s.feed? number with
  | none =>
    rw [feed?] at found
    simp [readFeed, found] at h
  | some f =>
    refine ⟨f, List.mem_of_find?_eq_some found, feed?_number found, ?_⟩
    cases hq : f.queue with
    | nil => simp [readFeed_of_silence found hq] at h
    | cons d rest =>
      rw [readFeed_of_queue found hq] at h
      cases h
      rfl

/-- After any calls of a store that began without feeds: a call that changes what is stored at a key,
or writes it again, leaves every open feed about the key with something to say. Feeds are told apart
by their numbers, and none holds more than 64 events. An event about a key is held only by a feed
about the key, and was brought while the feed was open by a call that changed something there; who
reads a feed gets the first event that it holds. A call that changes nothing brings no event into a
feed that is open; so it is with the deletion of a key at which nothing is stored, the addition of a
member that is there and the removal of one that is not, which leave the store as it was. -/
theorem feeds_tell_of_changes (bare : start.feeds = []) (calls : List StoreCall) :
    let s := start.afterAll calls
    (∀ c key, s.Changes c key → ∀ f ∈ (s.after c).feeds, f.covers key → f.queue ≠ []) ∧
    (s.feeds.map (·.number)).Nodup ∧
    (∀ f ∈ s.feeds, f.queue.length ≤ 64) ∧
    (∀ f ∈ s.feeds, ∀ key, .changed key ∈ f.queue → f.covers key ∧ Caused start calls key f) ∧
    (∀ number e, (s.readFeed number).1 = .event e →
      ∃ f ∈ s.feeds, f.number = number ∧ f.queue.head? = some e) ∧
    (∀ c, (∀ key, ¬ s.Changes c key) → ∀ f' ∈ (s.after c).feeds,
      (∃ pattern, f' = .opened s.nextFeed pattern) ∨ ∃ f ∈ s.feeds, f.Remains f') ∧
    (∀ key, s.content.stored key = (none, none, none) → s.delete key = s) ∧
    (∀ key member, member ∈ s.content.members key → s.addMember key member = s) ∧
    ∀ key member, member ∉ s.content.members key → s.removeMember key member = s := by
  intro s
  have orderly : Orderly s := orderly_afterAll bare calls
  refine ⟨fun c key changes f => unread_after orderly changes, orderly.distinct, orderly.within,
    fun f hf key => caused_of_mem bare hf, fun number e => head_of_readFeed,
    fun c quiet f' => nothing_delivered orderly quiet, ?absent, ?present, ?missing⟩
  case absent =>
    intro key nothing
    exact delete_eq_self fun holds => Content.holds_iff.1 holds nothing
  case present =>
    intro key member present
    exact addMember_eq_self (Content.hasMember_iff.2 present)
  case missing =>
    intro key member missing
    exact removeMember_eq_self fun present => missing (Content.hasMember_iff.1 present)

end Run

/-- A feed of all keys, and more changes than it has room for. -/
def crowd : List StoreCall :=
  .request (⟨0, false⟩ : Pending (.subscribe "*")) :: List.replicate 70 (.set "k" "v")

/-- The feed after them. -/
def crowded : Feed := ⟨0, "*", .connected :: List.replicate 63 (.changed "k")⟩

theorem crowd_feeds : (({} : MemoryStore).afterAll crowd).feeds = [crowded] := by
  decide +kernel

/-- A full feed loses what happens next, but says that something happened. -/
theorem feeds_tell_of_changes_crowd :
    ({} : MemoryStore).feeds = [] ∧
    let s := ({} : MemoryStore).afterAll crowd
    s.feeds = [crowded] ∧ crowded.queue.length = 64 ∧ s.Changes (.delete "k") "k" ∧
      (s.after (.delete "k")).feeds = [crowded] ∧ crowded.queue ≠ [] ∧
      Caused {} crowd "k" crowded ∧ s.removeMember "k" "m" = s := by
  obtain ⟨unread, -, -, caused, -, -, -, -, missing⟩ :=
    feeds_tell_of_changes (rfl : ({} : MemoryStore).feeds = []) crowd
  have deleted : (((({} : MemoryStore).afterAll crowd).after (.delete "k"))).feeds = [crowded] := by
    decide +kernel
  have holds : (({} : MemoryStore).afterAll crowd).content.holds "k" := by decide +kernel
  have changes : (({} : MemoryStore).afterAll crowd).Changes (.delete "k") "k" := by
    refine .inr ?_
    rw [after, delete, if_pos holds]
    exact Content.stored_delete holds
  refine ⟨rfl, crowd_feeds, rfl, changes, deleted, ?_, ?_, missing "k" "m" (by decide +kernel)⟩
  · exact unread _ "k" changes crowded (by simp [deleted]) (by decide +kernel)
  · exact (caused crowded (by simp [crowd_feeds]) "k" (by decide)).2

end MemoryStore
end ZoneCatalog
