import ZoneCatalog.Proofs.Cache.Failures

/-! What the counters of a cache count. Each of them counts lookups: those answered as they begin,
all others, and of these the ones answered after a failed fetch, with an entry or without. A failed
fetch is counted once for every lookup that is answered after it, so the counter of failures is not
the number of failed fetches where several lookups share one. -/
namespace ZoneCatalog.Cache

variable {ε V : Type} {c c' : Cache ε V} {h : List (Event ε V)} {key : String}

def Event.isHit : Event ε V → Bool
  | .hit .. => true
  | .joined .. | .spared .. | .started .. | .fetched .. | .answered .. | .givenUp .. => false

def Event.isMiss : Event ε V → Bool
  | .joined .. => true
  | .hit .. | .spared .. | .started .. | .fetched .. | .answered .. | .givenUp .. => false

def Event.isStale : Event ε V → Bool
  | .answered _ _ (.stale _ _) => true
  | .answered _ _ (.found _) | .answered _ _ (.failed _) => false
  | .hit .. | .joined .. | .spared .. | .started .. | .fetched .. | .givenUp .. => false

/-- The counters as they follow from what was seen. -/
def tally (h : List (Event ε V)) : Counters where
  hits := h.countP Event.isHit
  misses := h.countP Event.isMiss
  stale := h.countP Event.isStale
  failures := (failures h).length

/-! Counting step by step. -/

def Counters.see (n : Counters) : Event ε V → Counters
  | .hit .. => { n with hits := n.hits + 1 }
  | .joined .. => { n with misses := n.misses + 1 }
  | .answered _ _ answer => n.count answer
  | .spared .. | .started .. | .fetched .. | .givenUp .. => n

theorem tally_snoc (h : List (Event ε V)) (e : Event ε V) : tally (h ++ [e]) = (tally h).see e := by
  cases e with
  | answered n key answer =>
    cases answer <;>
      simp [tally, failures, Counters.see, Counters.count, Event.isHit, Event.isMiss, Event.isStale,
        Event.failure?, Answer.cause?]
  | _ =>
    simp [tally, failures, Counters.see, Event.isHit, Event.isMiss, Event.isStale, Event.failure?]

@[simp] theorem land_counters (c : Cache ε V) (key : String) (o : Outcome ε V) :
    (c.land key o).counters = c.counters := by
  rw [land]; split <;> rfl

@[simp] theorem release_counters (c : Cache ε V) (key : String) (flight : Nat) :
    (c.release key flight).counters = c.counters := by
  rw [release]; split
  · split <;> rfl
  · rfl

@[simp] theorem abandon_counters (c : Cache ε V) (n : Nat) :
    (c.abandon n).counters = c.counters := by
  rw [abandon]; split
  · dsimp only
    split
    · split <;> rfl
    · rfl
  · rfl

theorem Step.counters {e : Event ε V} (s : Step c e c') : c'.counters = c.counters.see e := by
  cases s with
  | hit s =>
    obtain ⟨-, rfl⟩ := begin_eq_hit s
    rfl
  | joined s =>
    obtain ⟨-, -, rfl⟩ := begin_eq_joined s
    rfl
  | spared hl _ s =>
    obtain ⟨_, -, rfl⟩ := spare?_eq_some hl s
    exact land_counters ..
  | started hl =>
    rw [start_eq hl]
    rfl
  | fetched result hl hp =>
    cases result with
    | ok v =>
      rw [finish_ok hl hp]
      exact land_counters ..
    | error cause =>
      rw [finish_error hl hp]
      exact land_counters ..
  | answered hl s =>
    obtain ⟨_, -, -, rfl⟩ := conclude_eq_some hl s
    simp [Counters.see]
  | givenUp => exact abandon_counters ..

theorem Run.counters {lifetime : UInt64} (run : Run lifetime h c) : c.counters = tally h := by
  rw [Run] at run
  induction run with
  | refl => rfl
  | snoc before last ih => rw [last.counters, ih, tally_snoc]

/-! A lookup is spared its fetch only under a clock that goes back. -/

/-- Whoever waits began when the entry of its key was too old, and the entry is still the same. -/
def Overdue (h : List (Event ε V)) (c : Cache ε V) : Prop :=
  ∀ m l, c.lookups.get? m = some l → l.phase = .waiting →
    ∃ now, .joined m l.key l.flight now ∈ h ∧
      ∀ entry, c.entries.get? l.key = some entry → entry.expiresAt < now

theorem Overdue.step (hc : Sound c) {e : Event ε V} (overdue : Overdue h c) (s : Step c e c') :
    Overdue (h ++ [e]) c' := by
  intro m l' hl' waiting
  have next := hl' ▸ s.lookup m
  generalize hb : c.lookups.get? m = b at next
  cases next with
  | kept apart =>
    obtain ⟨now, joined, old⟩ := overdue m l' hb waiting
    refine ⟨now, List.mem_append_left _ joined, fun entry he => ?_⟩
    rcases s.entry l'.key with ⟨same, -⟩ | ⟨n, l, u, x, v, hl, hk, hp, rfl, -⟩
    · exact old entry (same.symm.trans he)
    · -- A fetch of this key ends the flight in which the lookup waits.
      obtain ⟨f, hf, hn, -⟩ := hc.waiting m l' hb waiting
      exact absurd hn.symm (apart l' _ f rfl (.fetched hl hk hp) hf)
  | begun _ miss =>
    refine ⟨_, List.mem_append_right _ List.mem_cons_self, fun entry he => ?_⟩
    rw [s.entries_same (by simp)] at he
    exact expired_of_current?_eq_none miss he
  | started => cases waiting
  | landed => cases waiting

theorem Run.overdue {lifetime : UInt64} (run : Run lifetime h c) : Overdue h c :=
  run.preserves (fun m l hl => by cases hl) fun overdue hc s => overdue.step hc s

theorem isCurrent_of_current? {now : Seconds} {entry : Entry V}
    (current : c.current? key now = some entry) : entry.isCurrent now := by
  rw [current?, Option.filter_eq_some_iff] at current
  exact current.2

theorem Overdue.spared (overdue : Overdue h c) {n : Nat} {now : Seconds}
    (s : Step c (.spared n key now) c') :
    ∃ flight begun, .joined n key flight begun ∈ h ∧ now < begun := by
  cases s with
  | spared hl turn s =>
    obtain ⟨waiting, -⟩ := (hasTurn_iff hl).1 turn
    obtain ⟨begun, joined, old⟩ := overdue _ _ hl waiting
    obtain ⟨entry, current, -⟩ := spare?_eq_some hl s
    have inTime : now ≤ entry.expiresAt := of_decide_eq_true (isCurrent_of_current? current)
    exact ⟨_, begun, joined, UInt64.lt_of_le_of_lt inTime (old entry (current?_eq_some current))⟩

/-! Where an entry comes from that is served in spite of a failure. -/

/-- An entry was there before or has been brought since. -/
theorem Steps.brought (s : Steps Step c h c') {entry : Entry V}
    (he : c'.entries.get? key = some entry) :
    c.entries.get? key = some entry ∨ Brought h key entry := by
  induction s with
  | refl => exact .inl he
  | snoc before last ih =>
    rcases last.entry key with ⟨same, -⟩ | ⟨n, l, t, x, v, -, -, -, rfl, now⟩
    · exact (ih (same.symm.trans he)).imp_right fun brought => brought.append _
    · obtain rfl := Option.some.inj (now.symm.trans he)
      exact .inr ⟨n, List.mem_append_right _ List.mem_cons_self⟩

end ZoneCatalog.Cache
