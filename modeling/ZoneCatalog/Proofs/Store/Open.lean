import ZoneCatalog.Proofs.Store.Requests

/-! Which feeds of a store are open. A feed is given out once, is open from then on until it is
closed, and is not opened again. -/
namespace ZoneCatalog

namespace MemoryStore

variable {s s' : MemoryStore} {mine : Option FeedId}

theorem feed?_openFeed_of_lt (s : MemoryStore) (pattern : String) {number : Nat}
    (given : number < s.nextFeed) : (s.openFeed pattern).2.feed? number = s.feed? number := by
  have other : s.nextFeed ≠ number := Nat.ne_of_gt given
  cases hf : s.feed? number with
  | some f => exact s.feed?_openFeed pattern hf
  | none =>
    rw [feed?] at hf
    simp [feed?, openFeed, List.find?_append, hf, Feed.opened, other]

theorem feed?_closeFeed_self (s : MemoryStore) (number : Nat) :
    (s.closeFeed number).feed? number = none := by
  simp [feed?, closeFeed, List.find?_filter]

theorem nextFeed_readFeed (s : MemoryStore) (number : Nat) :
    (s.readFeed number).2.nextFeed = s.nextFeed := by
  rw [readFeed]
  split
  · split <;> rfl
  · rfl

theorem isSome_feed?_readFeed (s : MemoryStore) (number other : Nat) :
    ((s.readFeed other).2.feed? number).isSome = (s.feed? number).isSome := by
  rw [readFeed]
  split
  · split
    · rw [feed?_leave, Option.isSome_map]
    · rfl
  · rfl

/-- Whatever a store does, it gives out new numbers for feeds only, and opens none again. -/
theorem Move.feeds_onward (m : Move mine s s') : s.nextFeed ≤ s'.nextFeed ∧
    ∀ number < s.nextFeed, (s'.feed? number).isSome → (s.feed? number).isSome := by
  cases m.effect with
  | @changed key content others =>
    refine ⟨Nat.le_refl _, fun number _ isOpen => ?_⟩
    rw [feed?_notify, Option.isSome_map] at isOpen
    exact isOpen
  | kept feeds nextFeed =>
    refine ⟨Nat.le_of_eq nextFeed.symm, fun number _ isOpen => ?_⟩
    rwa [feed?, feeds] at isOpen
  | opened pattern =>
    refine ⟨Nat.le_succ _, fun number given isOpen => ?_⟩
    rwa [feed?_openFeed_of_lt s pattern given] at isOpen
  | @read other =>
    refine ⟨Nat.le_of_eq (s.nextFeed_readFeed other).symm, fun number _ isOpen => ?_⟩
    rwa [isSome_feed?_readFeed] at isOpen
  | @closed other =>
    refine ⟨Nat.le_refl _, fun number _ isOpen => ?_⟩
    by_cases same : number = other
    · rw [same, feed?_closeFeed_self] at isOpen
      cases isOpen
    · rwa [s.feed?_closeFeed same] at isOpen

end MemoryStore

namespace ScriptedStore

variable {s s' s'' : ScriptedStore} {feed : FeedId}

/-- A feed is open at its reading end. -/
def IsOpen (s : ScriptedStore) : FeedId → Prop
  | .live number => (s.memory.feed? number).isSome
  | .manual number => (s.manual[number]?).any (·.reading)

/-- A feed was given out, whether it is open or not. -/
def Issued (s : ScriptedStore) : FeedId → Prop
  | .live number => number < s.memory.nextFeed
  | .manual number => number < s.manual.length

/-- A store and a later state of it: feeds may have been closed and new ones given out, but none was
opened again. -/
structure Onward (s s' : ScriptedStore) : Prop where
  issued : ∀ feed, s.Issued feed → s'.Issued feed
  isOpen : ∀ feed, s.Issued feed → s'.IsOpen feed → s.IsOpen feed

namespace Onward

theorem refl (s : ScriptedStore) : s.Onward s := ⟨fun _ issued => issued, fun _ _ isOpen => isOpen⟩

theorem trans (first : s.Onward s') (second : s'.Onward s'') : s.Onward s'' where
  issued feed issued := second.issued feed (first.issued feed issued)
  isOpen feed issued isOpen :=
    first.isOpen feed issued (second.isOpen feed (first.issued feed issued) isOpen)

theorem of_same (memory : s'.memory = s.memory) (manual : s'.manual = s.manual) : s.Onward s' := by
  constructor
  · intro feed issued
    cases feed <;> simpa [Issued, memory, manual] using issued
  · intro feed _ isOpen
    cases feed <;> simpa [IsOpen, memory, manual] using isOpen

theorem move {memory : MemoryStore} (m : s.memory.Move none memory) :
    s.Onward { s with memory } := by
  obtain ⟨more, kept⟩ := m.feeds_onward
  constructor
  · intro feed issued
    cases feed with
    | live number => exact Nat.lt_of_lt_of_le issued more
    | manual number => exact issued
  · intro feed issued isOpen
    cases feed with
    | live number => exact kept number issued isOpen
    | manual number => exact isOpen

theorem openManual (s : ScriptedStore) : s.Onward s.openManual.2 := by
  constructor
  · intro feed issued
    cases feed with
    | live number => exact issued
    | manual number => simpa [ScriptedStore.openManual, Issued] using Nat.lt_succ_of_lt issued
  · intro feed issued isOpen
    cases feed with
    | live number => exact isOpen
    | manual number =>
      have within : number < s.manual.length := issued
      simpa [ScriptedStore.openManual, IsOpen, List.getElem?_append_left within] using isOpen

/-- A change to a feed that is filled by hand does not open it if it was given up. -/
theorem modifyManual (s : ScriptedStore) (number : Nat) {change : ManualFeed → ManualFeed}
    (shut : ∀ f, (change f).reading = true → f.reading = true) :
    s.Onward (s.modifyManual number change) := by
  constructor
  · intro feed issued
    cases feed with
    | live other => exact issued
    | manual other => simpa [ScriptedStore.modifyManual, Issued] using issued
  · intro feed _ isOpen
    cases feed with
    | live other => exact isOpen
    | manual other =>
      simp only [IsOpen, ScriptedStore.modifyManual, List.getElem?_modify, Option.map_eq_map,
        Option.any_map, Option.any_eq_true] at isOpen ⊢
      obtain ⟨f, found, reading⟩ := isOpen
      refine ⟨f, found, ?_⟩
      split at reading
      · exact shut f reading
      · exact reading

theorem closeFeed (s : ScriptedStore) (feed : FeedId) : s.Onward (s.closeFeed feed) := by
  cases feed with
  | live number => exact move (.closed (by simp))
  | manual number => exact modifyManual s number (by simp)

theorem readFeed (s : ScriptedStore) (feed : FeedId) : s.Onward (s.readFeed feed).2 := by
  cases feed with
  | live number => exact move (.read (by simp))
  | manual number =>
    rw [ScriptedStore.readFeed]
    split
    · split
      · exact modifyManual s number fun _ reading => reading
      · exact refl s
    · exact refl s

end Onward

theorem not_isOpen_closeFeed (s : ScriptedStore) (feed : FeedId) :
    ¬ (s.closeFeed feed).IsOpen feed := by
  cases feed with
  | live number => simp [IsOpen, closeFeed, MemoryStore.feed?_closeFeed_self]
  | manual number => simp [IsOpen, closeFeed, modifyManual, Option.any_map]

variable {r : StoreRequest} {result : r.Result}

theorem Gives.onward (gives : s.Gives r result s') : s.Onward s' := by
  cases gives with
  | failed cause => exact .refl s
  | served => exact .move (serve_move none s.memory r)
  | byHand => exact .openManual s

/-- The feed of a subscription is a new one. -/
theorem Gives.issues {pattern : String} (gives : s.Gives (.subscribe pattern) (.ok feed) s') :
    ¬ s.Issued feed ∧ s'.Issued feed := by
  cases gives with
  | served => exact ⟨Nat.lt_irrefl _, Nat.lt_succ_self _⟩
  | byHand => simp [Issued, openManual]

end ScriptedStore
end ZoneCatalog
