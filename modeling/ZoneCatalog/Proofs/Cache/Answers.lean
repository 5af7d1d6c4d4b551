import ZoneCatalog.Proofs.Cache.Sound

/-! Answers over time. What a lookup returns was fetched under its key. A lookup that begins after
its key was answered returns the same entry or one of a later fetch, and no key that has been
fetched is ever answered without a value. -/
namespace ZoneCatalog

/-- The same entry, or one of a later fetch. -/
def Entry.NotOlder {V : Type} (e d : Entry V) : Prop := e = d ∨ d.serial < e.serial

namespace Entry.NotOlder

variable {V : Type} {d e : Entry V}

theorem refl (e : Entry V) : e.NotOlder e := .inl rfl

theorem serial_le (h : e.NotOlder d) : d.serial ≤ e.serial := by
  rcases h with rfl | h
  · exact Nat.le_refl _
  · exact Nat.le_of_lt h

end Entry.NotOlder

namespace Cache

variable {ε V : Type} {c c' : Cache ε V} {h : List (Event ε V)} {key : String}

/-- The entry that a lookup returns. -/
def Event.returned? : Event ε V → Option (Entry V)
  | .hit _ _ entry => some entry
  | .answered _ _ answer => answer.entry?
  | .joined .. | .spared .. | .started .. | .fetched .. | .givenUp .. => none

/-- A lookup of a key has returned an entry. -/
def Returned (h : List (Event ε V)) (key : String) (entry : Entry V) : Prop :=
  ∃ e ∈ h, e.key = key ∧ e.returned? = some entry

/-- A fetch under a key has brought an entry. -/
def Brought (h : List (Event ε V)) (key : String) (entry : Entry V) : Prop :=
  ∃ n, .fetched n key entry.serial (.ok entry.value) ∈ h

/-- The numbers of fetches as they start. -/
def Event.serial? : Event ε V → Option Nat
  | .started _ _ serial _ => some serial
  | .hit .. | .joined .. | .spared .. | .fetched .. | .answered .. | .givenUp .. => none

/-- A key has a given entry or one of a later fetch. -/
def Upheld (c : Cache ε V) (key : String) (entry : Entry V) : Prop :=
  ∃ e, c.entries.get? key = some e ∧ e.NotOlder entry

/-- What a cache holds, and what was seen of it. -/
structure Recorded (h : List (Event ε V)) (c : Cache ε V) : Prop where
  serial_lt : ∀ k e, c.entries.get? k = some e → e.serial < c.nextFetch
  newer : ∀ m l s x e, c.lookups.get? m = some l → l.phase = .fetching s x →
    c.entries.get? l.key = some e → e.serial < s
  outcome : ∀ k f e, c.flights.get? k = some f → f.outcome = some (.ok e) →
    c.entries.get? k = some e
  kept : ∀ n k s v, .fetched n k s (.ok v) ∈ h → ∃ e, c.entries.get? k = some e
  entries : ∀ k e, c.entries.get? k = some e → Brought h k e
  lookups : ∀ m l e, c.lookups.get? m = some l → l.cached = some e ∨ l.phase = .landed (.ok e) →
    Brought h l.key e ∧ c.Upheld l.key e
  returned : ∀ k e, Returned h k e → Brought h k e ∧ c.Upheld k e

theorem Recorded.empty (lifetime : UInt64) : Recorded [] ({ lifetime } : Cache ε V) := by
  constructor <;> intros <;> simp_all [Returned]

theorem Brought.append {entry : Entry V} (b : Brought h key entry) (h' : List (Event ε V)) :
    Brought (h ++ h') key entry := by
  obtain ⟨n, hn⟩ := b
  exact ⟨n, List.mem_append_left _ hn⟩

theorem Upheld.of_entry {entry : Entry V} (he : c.entries.get? key = some entry) :
    c.Upheld key entry := ⟨entry, he, .refl entry⟩

/-- Entries are replaced by newer ones only. -/
theorem Upheld.step (held : Recorded h c) {e : Event ε V} {entry : Entry V}
    (up : c.Upheld key entry) (s : Step c e c') : c'.Upheld key entry := by
  obtain ⟨e₀, he₀, hn⟩ := up
  rcases s.entry key with ⟨same, _⟩ | ⟨n, l, t, x, v, hl, rfl, hp, _, now⟩
  · exact ⟨e₀, same.trans he₀, hn⟩
  · have newer := held.newer n l t x e₀ hl hp he₀
    exact ⟨⟨t, x, v⟩, now, .inr (Nat.lt_of_le_of_lt hn.serial_le newer)⟩

theorem flightFor_landed {o : Outcome ε V} (h : (c.flightFor key).outcome = some o) :
    ∃ f, c.flights.get? key = some f ∧ f.outcome = some o := by
  rw [flightFor] at h
  cases hf : c.flights.get? key with
  | none => simp [hf] at h
  | some f => exact ⟨f, rfl, by simpa [hf] using h⟩

namespace Recorded

variable {e : Event ε V}

theorem step_newer (held : Recorded h c) (hc : Sound c) (s : Step c e c') {m t : Nat}
    {l' : Lookup ε V} {x : Seconds} {entry : Entry V} (hl' : c'.lookups.get? m = some l')
    (hp : l'.phase = .fetching t x) (he : c'.entries.get? l'.key = some entry) :
    entry.serial < t := by
  have next := hl' ▸ s.lookup m
  generalize hb : c.lookups.get? m = b at next
  cases next with
  | kept =>
    rcases s.entry l'.key with ⟨same, _⟩ | ⟨n, l, u, y, v, _, _, _, rfl, _⟩
    · exact held.newer m l' t x entry hb hp (same.symm.trans he)
    · exact absurd hp (hc.not_fetching_after s hl' rfl t x)
  | begun => exact (Flight.entryPhase_ne_fetching _ _ _ hp).elim
  | started =>
    obtain ⟨rfl, _⟩ := Phase.fetching.inj hp
    rw [s.entries_same (by simp)] at he
    exact held.serial_lt _ entry he
  | landed => cases hp

theorem step_outcome (held : Recorded h c) (hc : Sound c) (s : Step c e c') {k : String}
    {f' : Flight ε V} {entry : Entry V} (hf' : c'.flights.get? k = some f')
    (ho : f'.outcome = some (.ok entry)) : c'.entries.get? k = some entry := by
  have next := hf' ▸ s.flight k
  generalize hb : c.flights.get? k = b at next
  cases next with
  | kept =>
    rcases s.entry k with ⟨same, _⟩ | ⟨n, l, u, y, v, hl, rfl, hp, _, _⟩
    · exact same.trans (held.outcome k f' entry hb ho)
    · -- The flight of a key that is being fetched is not over.
      obtain ⟨f, hf, _, open_, _⟩ := hc.fetching n l u y hl hp
      obtain rfl := Option.some.inj (hb.symm.trans hf)
      simp [open_] at ho
  | joined =>
    rw [Flight.board_outcome] at ho
    obtain ⟨f, hf, hfo⟩ := flightFor_landed ho
    rw [s.entries_same (by simp)]
    exact held.outcome k f entry hf hfo
  | landed lands =>
    obtain rfl := Option.some.inj ho
    exact s.landed_entry lands
  | left =>
    rw [Flight.leave_outcome] at ho
    rw [s.entries_same (by simp)]
    exact held.outcome k _ entry hb ho

theorem step_entries (held : Recorded h c) (s : Step c e c') {k : String} {entry : Entry V}
    (he : c'.entries.get? k = some entry) : Brought (h ++ [e]) k entry := by
  rcases s.entry k with ⟨same, _⟩ | ⟨n, l, u, y, v, _, _, _, rfl, now⟩
  · exact (held.entries k entry (same.symm.trans he)).append _
  · obtain rfl := Option.some.inj (now.symm.trans he)
    exact ⟨n, by simp⟩

theorem step_kept (held : Recorded h c) (s : Step c e c') {n t : Nat} {k : String} {v : V}
    (hb : .fetched n k t (.ok v) ∈ h ++ [e]) : ∃ entry, c'.entries.get? k = some entry := by
  rcases s.entry k with ⟨same, other⟩ | ⟨_, _, _, _, _, _, _, _, _, now⟩
  · rw [same]
    rcases List.mem_append.1 hb with before | last
    · exact held.kept n k t v before
    · exact absurd (List.mem_singleton.1 last).symm (other n t v)
  · exact ⟨_, now⟩

theorem step_lookups (held : Recorded h c) (s : Step c e c') {m : Nat} {l' : Lookup ε V}
    {entry : Entry V} (hl' : c'.lookups.get? m = some l')
    (he : l'.cached = some entry ∨ l'.phase = .landed (.ok entry)) :
    Brought (h ++ [e]) l'.key entry ∧ c'.Upheld l'.key entry := by
  have earlier {k : String} : Brought h k entry ∧ c.Upheld k entry →
      Brought (h ++ [e]) k entry ∧ c'.Upheld k entry :=
    fun ⟨b, up⟩ => ⟨b.append _, up.step held s⟩
  have here {k : String} (hk : c.entries.get? k = some entry) :
      Brought h k entry ∧ c.Upheld k entry := ⟨held.entries k entry hk, .of_entry hk⟩
  have next := hl' ▸ s.lookup m
  generalize hb : c.lookups.get? m = b at next
  cases next with
  | kept => exact earlier (held.lookups m l' entry hb he)
  | begun =>
    rcases he with cached | landed
    · exact earlier (here cached)
    · obtain ⟨f, hf, ho⟩ := flightFor_landed (Flight.entryPhase_eq_landed _ landed)
      exact earlier (here (held.outcome _ f entry hf ho))
  | started =>
    rcases he with cached | fetching
    · have old := held.lookups m _ entry hb (.inl cached)
      exact earlier old
    · cases fetching
  | landed lands =>
    rcases he with cached | landed
    · have old := held.lookups m _ entry hb (.inl cached)
      exact earlier old
    · obtain rfl := Phase.landed.inj landed
      have now := s.landed_entry lands
      exact ⟨held.step_entries s now, .of_entry now⟩

/-- What an answer holds was cached when its lookup began, came of its flight, or is cached. -/
theorem answer (held : Recorded h c) {n : Nat} {l : Lookup ε V} {o : Outcome ε V}
    {entry : Entry V} (hl : c.lookups.get? n = some l) (hp : l.phase = .landed o)
    (ha : Answer.entry? (c.answerOf l o) = some entry) :
    Brought h l.key entry ∧ c.Upheld l.key entry := by
  cases o with
  | ok e₀ =>
    obtain rfl := Option.some.inj ha
    exact held.lookups n l e₀ hl (.inr hp)
  | error cause =>
    simp only [answerOf] at ha
    split at ha
    · rename_i e₀ hor
      obtain rfl := Option.some.inj ha
      rcases Option.or_eq_some_iff.1 hor with cached | ⟨_, now⟩
      · exact held.lookups n l e₀ hl (.inl cached)
      · exact ⟨held.entries _ e₀ now, .of_entry now⟩
    · cases ha

theorem step_returned (held : Recorded h c) (s : Step c e c') {k : String} {entry : Entry V}
    (hr : Returned (h ++ [e]) k entry) : Brought (h ++ [e]) k entry ∧ c'.Upheld k entry := by
  suffices old : Brought h k entry ∧ c.Upheld k entry from
    ⟨old.1.append _, old.2.step held s⟩
  obtain ⟨d, hd, rfl, he⟩ := hr
  rcases List.mem_append.1 hd with before | last
  · exact held.returned _ entry ⟨d, before, rfl, he⟩
  · obtain rfl := List.mem_singleton.1 last
    cases s with
    | hit hs =>
      obtain rfl := Option.some.inj he
      have now := current?_eq_some (begin_eq_hit hs).1
      exact ⟨held.entries _ _ now, .of_entry now⟩
    | answered hl hs =>
      obtain ⟨o, hp, rfl, _⟩ := conclude_eq_some hl hs
      exact held.answer hl hp he
    | _ => cases he

theorem step (held : Recorded h c) (hc : Sound c) (s : Step c e c') : Recorded (h ++ [e]) c' where
  serial_lt k entry he := by
    have grows := s.numbers.2.2.1
    rcases s.entry k with ⟨same, _⟩ | ⟨n, l, u, y, v, hl, _, hp, _, now⟩
    · exact Nat.lt_of_lt_of_le (held.serial_lt k entry (same.symm.trans he)) grows
    · obtain rfl := Option.some.inj (now.symm.trans he)
      exact Nat.lt_of_lt_of_le (hc.serial_lt n l u y hl hp) grows
  newer _ _ _ _ _ hl' hp he := held.step_newer hc s hl' hp he
  outcome _ _ _ hf' ho := held.step_outcome hc s hf' ho
  kept _ _ _ _ hb := held.step_kept s hb
  entries _ _ he := held.step_entries s he
  lookups _ _ _ hl' he := held.step_lookups s hl' he
  returned _ _ hr := held.step_returned s hr

end Recorded

theorem Run.recorded {lifetime : UInt64} (run : Run lifetime h c) : Recorded h c :=
  run.preserves (.empty lifetime) .step

/-! From an answer on. -/

/-- What the lookups of a key from a number on will return, and what is cached for it, is not older
than a given entry. -/
structure Floor (c : Cache ε V) (key : String) (entry : Entry V) (first : Nat) : Prop where
  upheld : c.Upheld key entry
  lookups : ∀ m l, first ≤ m → c.lookups.get? m = some l → l.key = key →
    (∃ e, l.cached = some e ∧ e.NotOlder entry) ∧
      ∀ e, l.phase = .landed (.ok e) → e.NotOlder entry

theorem Floor.step (held : Recorded h c) {e : Event ε V} {entry : Entry V} {first : Nat}
    (floor : Floor c key entry first) (s : Step c e c') : Floor c' key entry first := by
  constructor
  · exact floor.upheld.step held s
  · intro m l' hm hl' hk
    have next := hl' ▸ s.lookup m
    generalize hb : c.lookups.get? m = b at next
    cases next with
    | kept => exact floor.lookups m l' hm hb hk
    | @begun _ key' =>
      obtain rfl : key' = key := hk
      obtain ⟨e₀, he₀, hn⟩ := floor.upheld
      refine ⟨⟨e₀, he₀, hn⟩, fun e₁ landed => ?_⟩
      obtain ⟨f, hf, ho⟩ := flightFor_landed (Flight.entryPhase_eq_landed _ landed)
      obtain rfl := Option.some.inj (he₀.symm.trans (held.outcome _ f e₁ hf ho))
      exact hn
    | started =>
      refine ⟨(floor.lookups m _ hm hb hk).1, fun e₁ fetching => ?_⟩
      cases fetching
    | landed lands =>
      refine ⟨(floor.lookups m _ hm hb hk).1, fun e₁ landed => ?_⟩
      obtain rfl := Phase.landed.inj landed
      obtain ⟨e₂, he₂, hn⟩ := floor.upheld.step held s
      have now := s.landed_entry lands
      obtain rfl := Option.some.inj (he₂.symm.trans (hk ▸ now))
      exact hn

theorem Floor.hit {now : Seconds} {e entry : Entry V} {first : Nat}
    (floor : Floor c key entry first) (s : Step c (.hit key now e) c') : e.NotOlder entry := by
  obtain ⟨e₀, he₀, hn⟩ := floor.upheld
  obtain rfl := Option.some.inj (he₀.symm.trans (current?_eq_some s.hit_inv))
  exact hn

theorem Floor.answered {n : Nat} {a : Answer ε V} {entry : Entry V} {first : Nat}
    (floor : Floor c key entry first) (hn : first ≤ n) (s : Step c (.answered n key a) c') :
    ∃ e, a.entry? = some e ∧ e.NotOlder entry := by
  obtain ⟨l, o, hl, hk, hp, rfl⟩ := s.answered_inv
  obtain ⟨⟨e₀, cached, old⟩, landed⟩ := floor.lookups n l hn hl hk
  cases o with
  | ok e₁ => exact ⟨e₁, rfl, landed e₁ hp⟩
  | error cause => exact ⟨e₀, by simp [answerOf, cached, Answer.entry?], old⟩

theorem Recorded.steps {h' : List (Event ε V)} (held : Recorded h c) (hc : Sound c)
    (s : Steps Step c h' c') : Recorded (h ++ h') c' := by
  induction s with
  | refl => simpa using held
  | snoc before last ih =>
    rw [← List.append_assoc]
    exact ih.step (hc.steps before) last

theorem Floor.steps (hc : Sound c) (held : Recorded h c) {h' : List (Event ε V)} {entry : Entry V}
    {first : Nat} (floor : Floor c key entry first) (s : Steps Step c h' c') :
    Floor c' key entry first := by
  induction s with
  | refl => exact floor
  | snoc before last ih => exact ih.step (held.steps hc before) last

/-- All that is returned for a key after an entry is not older than this entry. -/
theorem Recorded.floor (held : Recorded h c) (hc : Sound c) {entry : Entry V}
    (returned : Returned h key entry) : Floor c key entry c.nextLookup where
  upheld := (held.returned key entry returned).2
  lookups m l hm hl := absurd (hc.lookup_lt m l hl) (Nat.not_lt.2 hm)

/-- A key is answered without an entry only if no fetch has brought one. -/
theorem Recorded.not_brought (held : Recorded h c) {n : Nat} {cause : ε}
    (s : Step c (.answered n key (.failed cause)) c') (m t : Nat) (v : V) :
    .fetched m key t (.ok v) ∉ h := by
  intro brought
  obtain ⟨l, o, hl, rfl, hp, ha⟩ := s.answered_inv
  obtain ⟨entry, he⟩ := held.kept m l.key t v brought
  cases o with
  | ok e => cases ha
  | error cause' =>
    simp only [answerOf, he] at ha
    split at ha
    · cases ha
    · rename_i none_of_them
      simp at none_of_them

/-- Fetches are numbered as they start. -/
theorem serials_ascend {lifetime : UInt64} (run : Run lifetime h c) :
    (h.filterMap Event.serial?).Pairwise (· < ·) := by
  suffices both : (h.filterMap Event.serial?).Pairwise (· < ·) ∧
      ∀ s ∈ h.filterMap Event.serial?, s < c.nextFetch from both.1
  rw [Run] at run
  induction run with
  | refl => simp
  | @snoc h c₁ c₂ e before last ih =>
    obtain ⟨ascend, below⟩ := ih
    have grows := last.numbers.2.2.1
    rw [List.filterMap_append]
    cases e with
    | started n k s now =>
      obtain ⟨_, _, _, _, _, rfl, _⟩ := last.started_inv
      have next := last.started_numbers
      simp only [List.filterMap_cons, Event.serial?, List.filterMap_nil, List.pairwise_append,
        List.pairwise_singleton, List.mem_append, List.mem_singleton]
      refine ⟨⟨ascend, trivial, fun a ha b hb => hb ▸ below a ha⟩, fun s hs => ?_⟩
      rcases hs with hs | rfl
      · exact Nat.lt_of_lt_of_le (below s hs) grows
      · omega
    | _ =>
      simp only [List.filterMap_cons, Event.serial?, List.filterMap_nil, List.append_nil]
      exact ⟨ascend, fun s hs => Nat.lt_of_lt_of_le (below s hs) grows⟩

/-- In every run of a cache, under any clock, what a lookup returns was brought by a fetch under
its key. A lookup that begins after an answer for its key returns an entry, the same or one of a
later fetch. A lookup returns none only if no fetch of its key has brought one. A fetch that fails
leaves the entries as they are. -/
theorem answers_never_go_back {lifetime : UInt64} (run : Run lifetime h c) (key : String) :
    (∀ entry, Returned h key entry → Brought h key entry) ∧
    ((h.filterMap Event.serial?).Pairwise (· < ·) ∧
      ∀ h₁ h₂ entry, h = h₁ ++ h₂ → Returned h₁ key entry →
        (∀ now e, .hit key now e ∈ h₂ → e.NotOlder entry) ∧
        ∀ n flight now a, .joined n key flight now ∈ h₂ → .answered n key a ∈ h₂ →
          ∃ e, a.entry? = some e ∧ e.NotOlder entry) ∧
    (∀ h₁ h₂ n cause, h = h₁ ++ .answered n key (.failed cause) :: h₂ →
      ∀ m s v, .fetched m key s (.ok v) ∉ h₁) ∧
    ∀ n s cause c', Step c (.fetched n key s (.error cause)) c' → c'.entries = c.entries := by
  refine ⟨fun entry hr => (run.recorded.returned key entry hr).1, ⟨serials_ascend run, ?_⟩, ?_, ?_⟩
  · rintro h₁ h₂ entry rfl before
    obtain ⟨c₁, first, rest⟩ := Steps.split _ run
    have hc₁ := Run.sound first
    have held := Run.recorded first
    have floor := held.floor hc₁ before
    constructor
    · intro now e he
      obtain ⟨_, _, c₂, c₃, _, toHit, hit, _⟩ := rest.mem_inv he
      exact (floor.steps hc₁ held toHit).hit hit
    · intro n flight now a joined answered
      have hn : c₁.nextLookup ≤ n := by
        obtain ⟨_, _, c₂, c₃, _, toJoin, join, _⟩ := rest.mem_inv joined
        obtain ⟨_, rfl, _⟩ := join.joined_inv
        exact (Steps.numbers toJoin).1
      obtain ⟨_, _, c₂, c₃, _, toAnswer, answer, _⟩ := rest.mem_inv answered
      exact (floor.steps hc₁ held toAnswer).answered hn answer
  · rintro h₁ h₂ n cause rfl m s v
    obtain ⟨c₁, before, rest⟩ := Steps.split _ run
    obtain ⟨c₂, answer, _⟩ := rest.cons_inv
    exact (Run.recorded before).not_brought answer m s v
  · intro n s cause c' ends
    exact ends.entries_same (by simp)

private theorem served_stale : ∃ c : Cache Unit Nat, Run 10 ([.joined 0 "a" 0 5,
    .started 0 "a" 0 5, .fetched 0 "a" 0 (.ok 7), .answered 0 "a" (.found ⟨0, 15, 7⟩)] ++
      [.joined 1 "a" 1 16, .started 1 "a" 1 16, .fetched 1 "a" 1 (.error ()),
        .answered 1 "a" (.stale ⟨0, 15, 7⟩ ())]) c := by
  have s : Steps Step ({ lifetime := 10 } : Cache Unit Nat) [] _ := .refl
  have s := s.snoc (.joined (rfl : begin _ "a" 5 = _))
  have s := s.snoc (.started (n := 0) rfl rfl (rfl : spare? _ 0 5 = none))
  have s := s.snoc (.fetched (n := 0) (.ok 7) rfl rfl)
  have s := s.snoc (.answered (n := 0) rfl rfl)
  have s := s.snoc (.joined (rfl : begin _ "a" 16 = _))
  have s := s.snoc (.started (n := 1) rfl rfl (rfl : spare? _ 1 16 = none))
  have s := s.snoc (.fetched (n := 1) (.error ()) rfl rfl)
  have s := s.snoc (.answered (n := 1) rfl rfl)
  exact ⟨_, s⟩

/-- A value whose refresh fails is served on. -/
theorem answers_never_go_back_served_stale : ∃ c : Cache Unit Nat, Run 10 ([.joined 0 "a" 0 5,
    .started 0 "a" 0 5, .fetched 0 "a" 0 (.ok 7), .answered 0 "a" (.found ⟨0, 15, 7⟩)] ++
      [.joined 1 "a" 1 16, .started 1 "a" 1 16, .fetched 1 "a" 1 (.error ()),
        .answered 1 "a" (.stale ⟨0, 15, 7⟩ ())]) c ∧
      (⟨0, 15, 7⟩ : Entry Nat).NotOlder ⟨0, 15, 7⟩ := by
  obtain ⟨c, run⟩ := served_stale
  obtain ⟨_, ⟨_, later⟩, _, _⟩ := answers_never_go_back run "a"
  have before : Returned ([.joined 0 "a" 0 5, .started 0 "a" 0 5, .fetched 0 "a" 0 (.ok 7),
      .answered 0 "a" (.found ⟨0, 15, 7⟩)] : List (Event Unit Nat)) "a" ⟨0, 15, 7⟩ :=
    ⟨.answered 0 "a" (.found ⟨0, 15, 7⟩), by simp, rfl, rfl⟩
  obtain ⟨e, he, hn⟩ := (later _ _ _ rfl before).2 1 1 16 (.stale ⟨0, 15, 7⟩ ()) (by simp)
    (by simp)
  obtain rfl := Option.some.inj he
  exact ⟨c, run, hn⟩

end Cache
end ZoneCatalog
