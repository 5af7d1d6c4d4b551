import ZoneCatalog.Proofs.Cache.Sound

/-! One fetch for all lookups that wait for it. A key has one fetch at a time, which starts only
without a current entry; whoever waits when it ends gets what came of it. Under a clock that never
goes back, a fetch that brought a value keeps the next one off for longer than the lifetime. -/
namespace ZoneCatalog.Cache

variable {ε V : Type} {c c' : Cache ε V} {key : String}

/-- A lookup that runs the fetch of a key. -/
def Fetches (c : Cache ε V) (n : Nat) (key : String) : Prop :=
  ∃ l s x, c.lookups.get? n = some l ∧ l.key = key ∧ l.phase = .fetching s x

/-- A lookup that waits for the flight of a key. -/
def Waits (c : Cache ε V) (n : Nat) (key : String) : Prop :=
  ∃ l, c.lookups.get? n = some l ∧ l.key = key ∧ l.phase = .waiting

/-- A lookup of a key that is in the flight of a given lookup, whenever it joined it. -/
def Lookup.Shares (k : Lookup ε V) (c : Cache ε V) (n : Nat) (key : String) : Prop :=
  k.key = key ∧ ∃ l, c.lookups.get? n = some l ∧ k.flight = l.flight

/-- An answer that a fetch leads to: the entry it brought, or its failure, whether or not an old
entry is served in spite of it. -/
def Answer.ComesOf (a : Answer ε V) (s : Nat) : Except ε V → Prop
  | .ok v => ∃ x, a = .found ⟨s, x, v⟩
  | .error cause => a = .failed cause ∨ ∃ entry, a = .stale entry cause

/-- The times at which the clock is read. -/
def Event.time? : Event ε V → Option Seconds
  | .hit _ now _ | .joined _ _ _ now | .spared _ _ now | .started _ _ _ now => some now
  | .fetched _ _ _ _ | .answered _ _ _ | .givenUp _ _ => none

/-- The clock never goes back. -/
def ClockAscends (h : List (Event ε V)) : Prop := (h.filterMap Event.time?).Pairwise (· ≤ ·)

theorem Fetches.unique (hc : Sound c) {m n : Nat} (hm : c.Fetches m key) (hn : c.Fetches n key) :
    m = n := by
  obtain ⟨l, s, x, hl, rfl, hp⟩ := hm
  obtain ⟨k, t, y, hk, hkey, hq⟩ := hn
  exact hc.fetching_unique hl hk hkey.symm hp hq

theorem not_fetches_of_hasTurn (hc : Sound c) {m n : Nat} {k : Lookup ε V}
    (hk : c.lookups.get? n = some k) (turn : c.hasTurn n) : ¬ c.Fetches m k.key := by
  rintro ⟨l, s, x, hl, hkey, hp⟩
  exact hc.not_hasTurn_of_fetching hl hk hkey hp turn

/-- The flight that a move ends was not over before. -/
theorem Lands.flight_open (hc : Sound c) {e : Event ε V} {o : Outcome ε V} {f : Flight ε V}
    (h : Lands c e key o) (hf : c.flights.get? key = some f) : f.outcome = none := by
  cases h with
  | spared hl hk turn =>
    obtain ⟨hw, _⟩ := (hasTurn_iff hl).1 turn
    obtain ⟨g, hg, _, ho⟩ := hc.waiting _ _ hl hw
    rw [hk, hf] at hg
    rwa [Option.some.inj hg]
  | fetched hl hk hp =>
    obtain ⟨g, hg, _, ho, _⟩ := hc.fetching _ _ _ _ hl hp
    rw [hk, hf] at hg
    rwa [Option.some.inj hg]

/-- A flight of a key that is over with an outcome, for all who are in it or still join it. -/
structure Over (c : Cache ε V) (key : String) (flight : Nat) (o : Outcome ε V) : Prop where
  old : flight < c.nextFlight
  lookups : ∀ m l, c.lookups.get? m = some l → l.key = key → l.flight = flight →
    l.phase = .landed o
  flights : ∀ f, c.flights.get? key = some f → f.number = flight → f.outcome = some o

theorem Over.step (hc : Sound c) {e : Event ε V} {flight : Nat} {o : Outcome ε V}
    (ended : Over c key flight o) (h : Step c e c') : Over c' key flight o := by
  constructor
  · exact Nat.lt_of_lt_of_le ended.old h.numbers.2.1
  · rintro m l' hl' hk hfl
    have next := hl' ▸ h.lookup m
    generalize hb : c.lookups.get? m = b at next
    cases next with
    | kept => exact ended.lookups m l' hb hk hfl
    | @begun _ key' =>
      obtain rfl : key' = key := hk
      have known := flights_of_flightFor_lt (hfl ▸ ended.old)
      rw [Flight.entryPhase]
      rw [ended.flights _ known hfl]
    | @started l _ turn =>
      have landed := ended.lookups m l hb hk hfl
      rw [((hasTurn_iff hb).1 turn).1] at landed
      cases landed
    | @landed l f _ _ lands hf hn =>
      have := ended.flights f (hk ▸ hf) (hn.symm.trans hfl)
      rw [lands.flight_open hc hf] at this
      cases this
  · intro f' hf' hn
    have next := hf' ▸ h.flight key
    generalize hb : c.flights.get? key = b at next
    cases next with
    | kept => exact ended.flights f' hb hn
    | joined =>
      rw [Flight.board_number] at hn
      rw [Flight.board_outcome]
      have known := flights_of_flightFor_lt (hn ▸ ended.old)
      exact ended.flights _ known hn
    | @landed f _ _ lands =>
      have := ended.flights f hb hn
      rw [lands.flight_open hc hb] at this
      cases this
    | left =>
      rw [Flight.leave_outcome]
      exact ended.flights _ hb (by simpa using hn)

theorem Over.steps (hc : Sound c) {h : List (Event ε V)} {flight : Nat} {o : Outcome ε V}
    (ended : Over c key flight o) (s : Steps Step c h c') : Over c' key flight o := by
  induction s with
  | refl => exact ended
  | snoc before last ih => exact ih.step (hc.steps before) last

/-- The end of a fetch ends its flight for all lookups in it. -/
theorem Over.of_fetched (hc : Sound c) {n s : Nat} {l : Lookup ε V} {x : Seconds}
    {result : Except ε V} (hl : c.lookups.get? n = some l) (hk : l.key = key)
    (hp : l.phase = .fetching s x) (h : Step c (.fetched n key s result) c') :
    Over c' key l.flight (result.map (Entry.mk s x)) := by
  have lands : Lands c (.fetched n key s result) key (result.map (Entry.mk s x)) :=
    .fetched hl hk hp
  obtain ⟨f, hf, hn, _⟩ := hc.fetching n l s x hl hp
  rw [hk] at hf
  constructor
  · exact Nat.lt_of_lt_of_le (hc.joined_lt n l hl) h.numbers.2.1
  · intro m l' hl' hk' hfl
    have next := hl' ▸ h.lookup m
    generalize hb : c.lookups.get? m = b at next
    cases next with
    | kept apart =>
      exact absurd (hfl.trans hn.symm)
        (apart l' _ f rfl (by rw [hk']; exact lands) (by rw [hk']; exact hf))
    | @landed k g _ o lands' =>
      have same : k.key = key := hk'
      rw [same] at lands'
      exact congrArg Phase.landed (lands'.outcome_unique lands)
  · intro f' hf' _
    have next := hf' ▸ h.flight key
    rw [hf] at next
    cases next with
    | kept apart => exact absurd lands (apart _ _ rfl)
    | landed lands' => exact congrArg some (lands'.outcome_unique lands)

/-- A lookup that waits for a key is in the flight of whoever fetches it. -/
theorem Waits.same_flight (hc : Sound c) {m n s : Nat} {k l : Lookup ε V} {x : Seconds}
    (hk : c.lookups.get? m = some k) (hw : k.phase = .waiting) (hl : c.lookups.get? n = some l)
    (hp : l.phase = .fetching s x) (hkey : k.key = l.key) : k.flight = l.flight := by
  obtain ⟨f, hf, hn, _⟩ := hc.waiting m k hk hw
  obtain ⟨g, hg, hn', _⟩ := hc.fetching n l s x hl hp
  rw [hkey, hg] at hf
  obtain rfl := Option.some.inj hf
  exact hn.symm.trans hn'

/-- The lookup that fetched, whoever waits for the key when its fetch ends, and whoever is in the
flight then or later can be answered at any time from then on, with what came of the fetch. -/
theorem Step.shared (hc : Sound c) {c'' : Cache ε V} {m n s : Nat} {result : Except ε V}
    {h : List (Event ε V)} (ends : Step c (.fetched n key s result) c')
    (later : Steps Step c' h c'')
    {k : Lookup ε V} (hk : c''.lookups.get? m = some k)
    (hm : m = n ∨ c.Waits m key ∨ k.Shares c n key) :
    ∃ a c₁, c''.conclude m = some (a, c₁) ∧ a.ComesOf s result := by
  obtain ⟨l, x, hl, hkey, hp, _⟩ := ends.fetched_inv
  have ended := (Over.of_fetched hc hl hkey hp ends).steps (hc.step ends) later
  have landed : k.phase = .landed (result.map (Entry.mk s x)) := by
    rcases hm with rfl | ⟨j, hj, hjkey, hw⟩ | ⟨hkkey, l', hl', hflight⟩
    · obtain ⟨l', hl', same, sameFlight, -⟩ :=
        Steps.lookup_same ((Steps.single ends).trans later) hk (hc.lookup_lt m l hl)
      obtain rfl := Option.some.inj (hl.symm.trans hl')
      exact ended.lookups m k hk (same.trans hkey) sameFlight
    · obtain ⟨j', hj', same, sameFlight, -⟩ :=
        Steps.lookup_same ((Steps.single ends).trans later) hk (hc.lookup_lt m j hj)
      obtain rfl := Option.some.inj (hj.symm.trans hj')
      have hjflight := Waits.same_flight hc hj hw hl hp (hjkey.trans hkey.symm)
      exact ended.lookups m k hk (same.trans hjkey) (sameFlight.trans hjflight)
    · obtain rfl := Option.some.inj (hl.symm.trans hl')
      exact ended.lookups m k hk hkkey hflight
  refine ⟨_, _, by simp only [conclude, hk, landed]; rfl, ?_⟩
  cases result with
  | ok v => exact ⟨x, rfl⟩
  | error cause =>
    simp only [Except.map, answerOf]
    split
    · exact .inr ⟨_, rfl⟩
    · exact .inl rfl

/-! The time between two fetches. -/

theorem expired_of_current?_eq_none {now : Seconds} (h : c.current? key now = none)
    {entry : Entry V} (he : c.entries.get? key = some entry) : entry.expiresAt < now := by
  simp only [current?, he, Entry.isCurrent, Option.filter_some, ite_eq_right_iff, reduceCtorEq,
    decide_eq_true_eq, imp_false] at h
  exact UInt64.not_le.1 h

theorem Step.fetching_backward {e : Event ε V} (h : Step c e c') {m s : Nat} {l : Lookup ε V}
    {x : Seconds} (hl : c'.lookups.get? m = some l) (hp : l.phase = .fetching s x)
    (old : s < c.nextFetch) : c.lookups.get? m = some l := by
  have next := hl ▸ h.lookup m
  generalize hb : c.lookups.get? m = b at next
  cases next with
  | kept => rfl
  | begun => exact (Flight.entryPhase_ne_fetching _ _ _ hp).elim
  | started =>
    obtain ⟨rfl, _⟩ := Phase.fetching.inj hp
    omega
  | landed => cases hp

/-- A fetch that runs now and had started then has been running all the time. -/
theorem Steps.fetching_backward {h : List (Event ε V)} (steps : Steps Step c h c') {m s : Nat}
    {l : Lookup ε V} {x : Seconds} (hl : c'.lookups.get? m = some l)
    (hp : l.phase = .fetching s x) (old : s < c.nextFetch) : c.lookups.get? m = some l := by
  induction steps with
  | refl => exact hl
  | snoc before last ih =>
    have grows := (Steps.numbers before).2.2
    exact ih (last.fetching_backward hl hp (by omega))

/-- The entry of a key, and whatever a fetch of it will bring, is current up to a time. -/
structure Covered (c : Cache ε V) (key : String) (x : Seconds) : Prop where
  entry : ∃ e, c.entries.get? key = some e ∧ x ≤ e.expiresAt
  fetches : ∀ m l s y, c.lookups.get? m = some l → l.key = key → l.phase = .fetching s y → x ≤ y

theorem Covered.step {e : Event ε V} {x : Seconds} (covered : Covered c key x) (h : Step c e c')
    (times : ∀ t, e.time? = some t → x ≤ t.later c.lifetime) : Covered c' key x := by
  constructor
  · rcases h.entry key with ⟨same, _⟩ | ⟨n, l, s, y, v, hl, hk, hp, _, now⟩
    · rw [same]
      exact covered.entry
    · exact ⟨_, now, covered.fetches n l s y hl hk hp⟩
  · intro m l' s y hl' hk hp
    have next := hl' ▸ h.lookup m
    generalize hb : c.lookups.get? m = b at next
    cases next with
    | kept => exact covered.fetches m l' s y hb hk hp
    | begun => exact (Flight.entryPhase_ne_fetching _ _ _ hp).elim
    | started =>
      obtain ⟨_, rfl⟩ := Phase.fetching.inj hp
      exact times _ rfl
    | landed => cases hp

theorem Covered.steps {h : List (Event ε V)} {x : Seconds} (covered : Covered c key x)
    (s : Steps Step c h c') (times : ∀ e ∈ h, ∀ t, e.time? = some t → x ≤ t.later c.lifetime) :
    Covered c' key x := by
  induction s with
  | refl => exact covered
  | snoc before last ih =>
    have rest := ih fun e he => times e (List.mem_append_left _ he)
    refine rest.step last fun t ht => ?_
    rw [Steps.lifetime_eq before]
    exact times _ (List.mem_append_right _ List.mem_cons_self) t ht

/-- A fetch that brings a value leaves its key covered up to the time the value carries. -/
theorem Covered.of_fetched (hc : Sound c) {n s : Nat} {l : Lookup ε V} {x : Seconds} {v : V}
    (hl : c.lookups.get? n = some l) (hk : l.key = key) (hp : l.phase = .fetching s x)
    (h : Step c (.fetched n key s (.ok v)) c') : Covered c' key x := by
  constructor
  · exact ⟨_, h.landed_entry (.fetched hl hk hp), UInt64.le_refl x⟩
  · intro m l' s' y hl' hk' hp'
    exact absurd hp' (hc.not_fetching_after h hl' hk' s' y)

theorem ClockAscends.after {h₁ h₂ : List (Event ε V)} {e : Event ε V} {t : Seconds}
    (asc : ClockAscends (h₁ ++ e :: h₂)) (he : e.time? = some t) :
    ∀ d ∈ h₂, ∀ u, d.time? = some u → t ≤ u := by
  intro d hd u hu
  rw [ClockAscends] at asc
  rw [List.filterMap_append, List.filterMap_cons_some he] at asc
  have tail := (List.pairwise_append.1 asc).2.1
  exact (List.pairwise_cons.1 tail).1 u (List.mem_filterMap.2 ⟨d, hd, hu⟩)

/-- After a fetch that brought a value the key is left alone for longer than the lifetime. -/
theorem fetches_apart (hc : Sound c) {c₁ c₂ : Cache ε V} {h : List (Event ε V)}
    {n₁ n₂ s₁ s₂ : Nat} {t₁ t₂ : Seconds} {v : V}
    (first : Step c (.started n₁ key s₁ t₁) c₁) (rest : Steps Step c₁ h c₂)
    (times : ∀ e ∈ h, ∀ t, e.time? = some t → t₁ ≤ t)
    (brought : .fetched n₁ key s₁ (.ok v) ∈ h) (second : .started n₂ key s₂ t₂ ∈ h) :
    t₁.toNat + c.lifetime.toNat < t₂.toNat := by
  obtain ⟨p, q, c₃, c₄, rfl, toEnd, ends, afterwards⟩ := rest.mem_inv brought
  have hc₁ := hc.step first
  have hc₃ := hc₁.steps toEnd
  have same : c₄.lifetime = c.lifetime :=
    ends.numbers.2.2.2.trans ((Steps.lifetime_eq toEnd).trans first.numbers.2.2.2)
  obtain ⟨l, x, hl, hk, hp, _⟩ := ends.fetched_inv
  obtain ⟨l₀, _, _, _, _, hs, hc₁eq⟩ := first.started_inv
  have old : s₁ < c₁.nextFetch := by
    have := first.started_numbers
    omega
  obtain rfl : x = t₁.later c.lifetime := by
    have started := Steps.fetching_backward toEnd hl hp old
    simp only [hc₁eq, SortedMap.get?_insert, if_true] at started
    rw [← Option.some.inj started] at hp
    exact (Phase.fetching.inj hp).2.symm
  rcases List.mem_append.1 second with before | later
  · -- The second fetch would have started while the first one was running.
    obtain ⟨_, _, c₅, c₆, _, toStart, starts, fromStart⟩ := toEnd.mem_inv before
    obtain ⟨k, hk', hkey, turn, _⟩ := starts.started_inv
    have grows := (Steps.numbers toStart).2.2
    have running := Steps.fetching_backward ((Steps.single starts).trans fromStart) hl hp
      (by omega)
    exact absurd turn
      ((hc₁.steps toStart).not_hasTurn_of_fetching running hk' (hk.trans hkey.symm) hp)
  · have late := (List.mem_cons.1 later).resolve_left (by simp)
    obtain ⟨q₁, q₂, c₅, c₆, rfl, toStart, starts, _⟩ := afterwards.mem_inv late
    obtain ⟨_, _, _, _, miss, _⟩ := starts.started_inv
    have covered := (Covered.of_fetched hc₃ hl hk hp ends).steps toStart fun e he t ht => by
      rw [same]
      exact Seconds.later_le_later (times e (by simp [he]) t ht) _
    obtain ⟨entry, he, hx⟩ := covered.entry
    exact Seconds.add_lt_of_later_lt
      (UInt64.lt_of_le_of_lt hx (expired_of_current?_eq_none miss he))

/-- In every run of a cache a key has at most one fetch at a time, a fetch starts only without an
entry that is current at that moment, and whoever waits when it ends or shares its flight is
answered with what came of it. If the clock never goes back, a fetch that brought a value and the
next fetch of its key start further apart than the lifetime. -/
theorem one_fetch_for_all {lifetime : UInt64} {h : List (Event ε V)} (run : Run lifetime h c)
    (key : String) :
    (∀ m n, c.Fetches m key → c.Fetches n key → m = n) ∧
    (∀ n s now c', Step c (.started n key s now) c' →
      (∀ entry, c.entries.get? key = some entry → entry.isCurrent now = false) ∧
        ∀ m, ¬ c.Fetches m key) ∧
    (∀ n s result c' h' c'', Step c (.fetched n key s result) c' → Steps Step c' h' c'' →
      ∀ m k, c''.lookups.get? m = some k → m = n ∨ c.Waits m key ∨ k.Shares c n key →
        ∃ a c₁, c''.conclude m = some (a, c₁) ∧ a.ComesOf s result) ∧
    (ClockAscends h → ∀ h₁ h₂ n₁ n₂ s₁ s₂ t₁ t₂ v, h = h₁ ++ .started n₁ key s₁ t₁ :: h₂ →
      .fetched n₁ key s₁ (.ok v) ∈ h₂ → .started n₂ key s₂ t₂ ∈ h₂ →
        t₁.toNat + lifetime.toNat < t₂.toNat) := by
  have hc := run.sound
  refine ⟨fun m n => Fetches.unique hc, ?_, ?_, ?_⟩
  · intro n s now c' starts
    obtain ⟨l, hl, rfl, turn, miss, _⟩ := starts.started_inv
    refine ⟨fun entry he => ?_, fun m => not_fetches_of_hasTurn hc hl turn⟩
    have expired := expired_of_current?_eq_none miss he
    simpa [Entry.isCurrent, UInt64.not_le] using expired
  · intro n s result c' h' c'' ends later m k hk hm
    exact ends.shared hc later hk hm
  · rintro asc h₁ h₂ n₁ n₂ s₁ s₂ t₁ t₂ v rfl brought second
    obtain ⟨c₁, before, after⟩ := Steps.split _ run
    obtain ⟨c₂, first, rest⟩ := after.cons_inv
    have far := fetches_apart (Run.sound before) first rest (asc.after rfl) brought second
    rwa [Steps.lifetime_eq before] at far

private theorem fetched_anew : ∃ c : Cache Unit Nat, Run 10 [.joined 0 "a" 0 5,
    .joined 1 "a" 0 5, .started 0 "a" 0 5, .fetched 0 "a" 0 (.ok 7),
    .answered 1 "a" (.found ⟨0, 15, 7⟩), .joined 2 "a" 1 16, .started 2 "a" 1 16] c ∧
      c.Fetches 2 "a" := by
  have s : Steps Step ({ lifetime := 10 } : Cache Unit Nat) [] _ := .refl
  have s := s.snoc (.joined (rfl : begin _ "a" 5 = _))
  have s := s.snoc (.joined (rfl : begin _ "a" 5 = _))
  have s := s.snoc (.started (n := 0) rfl rfl (rfl : spare? _ 0 5 = none))
  have s := s.snoc (.fetched (n := 0) (.ok 7) rfl rfl)
  have s := s.snoc (.answered (n := 1) rfl rfl)
  have s := s.snoc (.joined (rfl : begin _ "a" 16 = _))
  have s := s.snoc (.started (n := 2) rfl rfl (rfl : spare? _ 2 16 = none))
  exact ⟨_, s, _, 1, 26, rfl, rfl, rfl⟩

/-- A value that is fetched for two lookups, and fetched anew as its time is over. -/
theorem one_fetch_for_all_anew : ∃ c : Cache Unit Nat, Run 10 [.joined 0 "a" 0 5,
    .joined 1 "a" 0 5, .started 0 "a" 0 5, .fetched 0 "a" 0 (.ok 7),
    .answered 1 "a" (.found ⟨0, 15, 7⟩), .joined 2 "a" 1 16, .started 2 "a" 1 16] c ∧
      c.Fetches 2 "a" ∧ (∀ m, c.Fetches m "a" → m = 2) ∧
      (5 : UInt64).toNat + (10 : UInt64).toNat < (16 : UInt64).toNat := by
  obtain ⟨c, run, fetches⟩ := fetched_anew
  obtain ⟨one, _, _, apart⟩ := one_fetch_for_all run "a"
  exact ⟨c, run, fetches, fun m hm => one m 2 hm fetches, apart
    (by rw [ClockAscends]; decide) [_, _] _ 0 2 0 1 5 16 7 rfl (by simp) (by simp)⟩

end ZoneCatalog.Cache
