import ZoneCatalog.Proofs.Cache.Run

/-! What one move does to the entries, the flights and the lookups of a cache. Everything about
runs is derived from the three case distinctions `Step.entries`, `Step.flight` and `Step.lookup`. -/
namespace ZoneCatalog.Cache

variable {ε V : Type} {c c' : Cache ε V}

theorem current?_eq_some {key : String} {now : Seconds} {entry : Entry V}
    (h : c.current? key now = some entry) : c.entries.get? key = some entry := by
  rw [current?] at h
  exact (Option.filter_eq_some_iff.1 h).1

theorem begin_eq_hit {key : String} {now : Seconds} {entry : Entry V}
    (h : c.begin key now = (.hit entry, c')) : c.current? key now = some entry ∧
      c' = { c with counters.hits := c.counters.hits + 1 } := by
  rw [begin] at h
  split at h
  · rename_i e he
    obtain ⟨rfl, rfl⟩ : e = entry ∧ _ = c' := by simpa using h
    exact ⟨he, rfl⟩
  · simp at h

theorem begin_eq_joined {key : String} {now : Seconds} {n : Nat}
    (h : c.begin key now = (.joined n, c')) : c.current? key now = none ∧
      n = c.nextLookup ∧ c' = (c.join key).2 := by
  rw [begin] at h
  split at h
  · simp at h
  · rename_i miss
    obtain ⟨hn, hc⟩ : (c.join key).1 = n ∧ (c.join key).2 = c' := by simpa using h
    exact ⟨miss, hn.symm, hc.symm⟩

theorem hasTurn_iff {n : Nat} {l : Lookup ε V} (hl : c.lookups.get? n = some l) :
    c.hasTurn n ↔ l.phase = .waiting ∧ ∃ f, c.flights.get? l.key = some f ∧
      f.number = l.flight ∧ f.holder = some n := by
  simp only [hasTurn, hl]
  split
  · rename_i f hp hf
    simp [hp, hf]
  · rename_i none_of_them
    constructor
    · simp
    · rintro ⟨hp, f, hf, _⟩
      exact absurd hf (none_of_them f hp)

theorem spare?_eq_some {n : Nat} {l : Lookup ε V} {now : Seconds}
    (hl : c.lookups.get? n = some l) (h : c.spare? n now = some c') :
    ∃ entry, c.current? l.key now = some entry ∧ c' = c.land l.key (.ok entry) := by
  simp only [spare?, hl, Option.map_eq_some_iff] at h
  obtain ⟨entry, current, rfl⟩ := h
  exact ⟨entry, current, rfl⟩

theorem spare?_eq_none {n : Nat} {l : Lookup ε V} {now : Seconds}
    (hl : c.lookups.get? n = some l) :
    c.spare? n now = none ↔ c.current? l.key now = none := by
  simp only [spare?, hl, Option.map_eq_none_iff]

theorem start_eq {n : Nat} {l : Lookup ε V} (hl : c.lookups.get? n = some l) (now : Seconds) :
    c.start n now = { c with
      lookups := c.lookups.insert n
        { l with phase := .fetching c.nextFetch (now.later c.lifetime) }
      nextFetch := c.nextFetch + 1 } := by
  simp only [start, hl]

/-- An entry that is not current will not be so again unless the clock is set back. -/
theorem current?_eq_none_mono {key : String} {now later : Seconds}
    (miss : c.current? key now = none) (onward : now ≤ later) : c.current? key later = none := by
  rw [current?, Option.filter_eq_none_iff] at miss ⊢
  intro entry he current
  exact miss entry he (decide_eq_true (UInt64.le_trans onward (of_decide_eq_true current)))

/-- The end of a fetch that nobody waits for any more. -/
theorem finish_eq_self {n : Nat}
    (idle : ∀ l s x, c.lookups.get? n = some l → l.phase ≠ .fetching s x) (result : Except ε V) :
    c.finish n result = c := by
  rw [finish]
  grind

theorem conclude_eq_some {n : Nat} {l : Lookup ε V} {a : Answer ε V}
    (hl : c.lookups.get? n = some l) (h : c.conclude n = some (a, c')) :
    ∃ o, l.phase = .landed o ∧ a = c.answerOf l o ∧
      c' = { c.release l.key l.flight with
        lookups := (c.release l.key l.flight).lookups.erase n
        counters := (c.release l.key l.flight).counters.count a } := by
  simp only [conclude, hl] at h
  split at h
  · rename_i o ho
    obtain ⟨rfl, rfl⟩ : c.answerOf l o = a ∧ _ = c' := by simpa using h
    exact ⟨o, ho, rfl, rfl⟩
  · simp at h

/-! The end of a flight and its release. -/

section Views

variable (c) (key : String) (o : Outcome ε V) (flight : Nat)

@[simp] theorem land_entries : (c.land key o).entries = c.entries := by
  rw [land]; split <;> rfl

@[simp] theorem land_numbers : (c.land key o).nextLookup = c.nextLookup ∧
    (c.land key o).nextFlight = c.nextFlight ∧ (c.land key o).nextFetch = c.nextFetch ∧
      (c.land key o).lifetime = c.lifetime := by
  rw [land]; split <;> simp

theorem land_flights (k : String) : (c.land key o).flights.get? k =
    if k = key then (c.flights.get? k).map fun f =>
      { f with holder := none, queue := [], outcome := some o }
    else c.flights.get? k := by
  rw [land]
  split
  · rename_i f hf
    rw [SortedMap.get?_insert]
    by_cases h : k = key
    · simp [h, hf]
    · simp [h]
  · rename_i hf
    by_cases h : k = key
    · simp [h, hf]
    · simp [h]

theorem land_lookups (m : Nat) : (c.land key o).lookups.get? m =
    (c.lookups.get? m).map fun l =>
      if ∃ f, c.flights.get? key = some f ∧ l.key = key ∧ l.flight = f.number then
        { l with phase := .landed o }
      else l := by
  rw [land]
  split
  · rename_i f hf
    simp [hf]
  · rename_i hf
    simp [hf]

@[simp] theorem release_entries : (c.release key flight).entries = c.entries := by
  rw [release]; split
  · split <;> rfl
  · rfl

@[simp] theorem release_lookups : (c.release key flight).lookups = c.lookups := by
  rw [release]; split
  · split <;> rfl
  · rfl

@[simp] theorem release_numbers : (c.release key flight).nextLookup = c.nextLookup ∧
    (c.release key flight).nextFlight = c.nextFlight ∧
      (c.release key flight).nextFetch = c.nextFetch ∧
        (c.release key flight).lifetime = c.lifetime := by
  rw [release]; split
  · split <;> simp
  · simp

theorem release_flights (k : String) : (c.release key flight).flights.get? k =
    if k = key then (c.flights.get? k).filter (·.number ≠ flight) else c.flights.get? k := by
  rw [release]
  by_cases h : k = key
  · subst h
    cases hf : c.flights.get? k with
    | none => simp [hf]
    | some f =>
      by_cases hn : f.number = flight
      · simp [hn, SortedMap.get?_erase, Option.filter]
      · simp [hn, hf, Option.filter]
  · rw [if_neg h]
    split
    · split
      · simp [h, SortedMap.get?_erase]
      · rfl
    · rfl

variable {n : Nat} {l : Lookup ε V} (hl : c.lookups.get? n = some l)

include hl

@[simp] theorem abandon_entries : (c.abandon n).entries = c.entries := by
  simp only [abandon, hl]
  split
  · split <;> rfl
  · rfl

theorem abandon_lookups (m : Nat) : (c.abandon n).lookups.get? m =
    if m = n then none else c.lookups.get? m := by
  simp only [abandon, hl]
  split
  · split <;> simp [SortedMap.get?_erase]
  · simp [SortedMap.get?_erase]

theorem abandon_flights (k : String) : (c.abandon n).flights.get? k =
    if k = l.key then (c.flights.get? k).map fun f =>
      if f.number = l.flight then f.leave n else f
    else c.flights.get? k := by
  simp only [abandon, hl]
  by_cases hk : k = l.key
  · subst hk
    split
    · rename_i f hf
      by_cases hn : f.number = l.flight
      · simp [hn, hf, SortedMap.get?_insert]
      · simp [hn, hf]
    · rename_i hf
      simp [hf]
  · rw [if_neg hk]
    split
    · split
      · simp [hk, SortedMap.get?_insert]
      · rfl
    · rfl

end Views

section Finish

variable {n s : Nat} {l : Lookup ε V} {x : Seconds} (hl : c.lookups.get? n = some l)
  (hp : l.phase = .fetching s x)

include hl hp

theorem finish_ok (v : V) : c.finish n (.ok v) =
    ({ c with entries := c.entries.insert l.key ⟨s, x, v⟩ } : Cache ε V).land l.key
      (.ok ⟨s, x, v⟩) := by
  simp [finish, hl, hp]

theorem finish_error (cause : ε) : c.finish n (.error cause) = c.land l.key (.error cause) := by
  simp [finish, hl, hp]

theorem finish_lookups (result : Except ε V) (m : Nat) : (c.finish n result).lookups.get? m =
    (c.land l.key (result.map (Entry.mk s x))).lookups.get? m := by
  cases result with
  | ok v =>
    rw [finish_ok hl hp, land_lookups, land_lookups]
    rfl
  | error cause =>
    rw [finish_error hl hp]
    rfl

theorem finish_flights (result : Except ε V) (k : String) : (c.finish n result).flights.get? k =
    (c.land l.key (result.map (Entry.mk s x))).flights.get? k := by
  cases result with
  | ok v =>
    rw [finish_ok hl hp, land_flights, land_flights]
    rfl
  | error cause =>
    rw [finish_error hl hp]
    rfl

end Finish

/-- A move ends the flight of a key with an outcome. -/
inductive Lands (c : Cache ε V) : Event ε V → String → Outcome ε V → Prop where
  | spared {n : Nat} {l : Lookup ε V} {key : String} {now : Seconds} {entry : Entry V}
      (hl : c.lookups.get? n = some l) (hk : l.key = key) (turn : c.hasTurn n)
      (current : c.current? key now = some entry) : Lands c (.spared n key now) key (.ok entry)
  | fetched {n s : Nat} {l : Lookup ε V} {key : String} {x : Seconds} {result : Except ε V}
      (hl : c.lookups.get? n = some l) (hk : l.key = key) (hp : l.phase = .fetching s x) :
      Lands c (.fetched n key s result) key (result.map (Entry.mk s x))

theorem Lands.key_eq {e : Event ε V} {key : String} {o : Outcome ε V} (h : Lands c e key o) :
    e.key = key := by
  cases h <;> rfl

theorem Lands.outcome_unique {e : Event ε V} {key : String} {o o' : Outcome ε V}
    (h : Lands c e key o) (h' : Lands c e key o') : o = o' := by
  cases h with
  | spared _ _ _ current =>
    cases h' with
    | spared _ _ _ current' => rw [Option.some.inj (current.symm.trans current')]
  | fetched hl _ hp =>
    cases h' with
    | fetched hl' _ hp' =>
      obtain rfl := Option.some.inj (hl.symm.trans hl')
      obtain ⟨_, rfl⟩ := Phase.fetching.inj (hp.symm.trans hp')
      rfl

/-- The entries change by a fetch that brings a value, and by nothing else. -/
theorem Step.entries {e : Event ε V} (h : Step c e c') :
    (c'.entries = c.entries ∧ ∀ n key s v, e ≠ .fetched n key s (.ok v)) ∨
      ∃ n l s x v, c.lookups.get? n = some l ∧ l.phase = .fetching s x ∧
        e = .fetched n l.key s (.ok v) ∧ c'.entries = c.entries.insert l.key ⟨s, x, v⟩ := by
  cases h with
  | hit h =>
    obtain ⟨_, rfl⟩ := begin_eq_hit h
    exact .inl ⟨rfl, by simp⟩
  | joined h =>
    obtain ⟨_, _, rfl⟩ := begin_eq_joined h
    exact .inl ⟨rfl, by simp⟩
  | spared hl _ h =>
    obtain ⟨_, _, rfl⟩ := spare?_eq_some hl h
    exact .inl ⟨land_entries .., by simp⟩
  | started hl =>
    rw [start_eq hl]
    exact .inl ⟨rfl, by simp⟩
  | @fetched n s l x result hl hp =>
    cases result with
    | ok v =>
      rw [finish_ok hl hp]
      exact .inr ⟨n, l, s, x, v, hl, hp, rfl, land_entries ..⟩
    | error cause =>
      rw [finish_error hl hp]
      exact .inl ⟨land_entries .., by simp⟩
  | answered hl h =>
    obtain ⟨_, _, _, rfl⟩ := conclude_eq_some hl h
    exact .inl ⟨release_entries .., by simp⟩
  | givenUp hl => exact .inl ⟨abandon_entries c hl, by simp⟩

theorem Step.entries_same {e : Event ε V} (h : Step c e c')
    (he : ∀ n key s v, e ≠ .fetched n key s (.ok v)) : c'.entries = c.entries := by
  rcases h.entries with ⟨same, _⟩ | ⟨n, l, s, _, v, _, _, rfl, _⟩
  · exact same
  · exact absurd rfl (he n l.key s v)

/-- What becomes of the entry of a key by a move. -/
theorem Step.entry {e : Event ε V} (h : Step c e c') (k : String) :
    (c'.entries.get? k = c.entries.get? k ∧ ∀ n s v, e ≠ .fetched n k s (.ok v)) ∨
      ∃ n l s x v, c.lookups.get? n = some l ∧ l.key = k ∧ l.phase = .fetching s x ∧
        e = .fetched n k s (.ok v) ∧ c'.entries.get? k = some ⟨s, x, v⟩ := by
  rcases h.entries with ⟨same, other⟩ | ⟨n, l, s, x, v, hl, hp, rfl, changed⟩
  · exact .inl ⟨by rw [same], fun n s v => other n k s v⟩
  · rw [changed, SortedMap.get?_insert]
    by_cases hk : k = l.key
    · exact .inr ⟨n, l, s, x, v, hl, hk.symm, hp, by rw [hk], if_pos hk⟩
    · refine .inl ⟨if_neg hk, ?_⟩
      rintro _ _ _ ⟨⟩
      exact hk rfl

/-- A flight that ends with an entry leaves its key with this entry. -/
theorem Step.landed_entry {e : Event ε V} {key : String} {entry : Entry V} (h : Step c e c')
    (lands : Lands c e key (.ok entry)) : c'.entries.get? key = some entry := by
  generalize ho : (.ok entry : Outcome ε V) = o at lands
  cases lands with
  | spared _ _ _ current =>
    obtain rfl := Except.ok.inj ho
    rw [h.entries_same (by simp)]
    exact current?_eq_some current
  | @fetched n s l _ x result hl hk hp =>
    cases result with
    | error => cases ho
    | ok v =>
      obtain rfl := Except.ok.inj ho
      rcases h.entry key with ⟨_, other⟩ | ⟨n', l', s', x', v', hl', _, hp', he, now⟩
      · exact absurd rfl (other n s v)
      · cases he
        obtain rfl := Option.some.inj (hl.symm.trans hl')
        obtain ⟨_, rfl⟩ := Phase.fetching.inj (hp.symm.trans hp')
        exact now

/-- What becomes of a lookup by a move. One that is kept was in no flight that ended. -/
inductive LookupNext (c : Cache ε V) (m : Nat) :
    Option (Lookup ε V) → Event ε V → Option (Lookup ε V) → Prop where
  | kept {b : Option (Lookup ε V)} {e : Event ε V}
      (apart : ∀ l o f, b = some l → Lands c e l.key o → c.flights.get? l.key = some f →
        l.flight ≠ f.number) : LookupNext c m b e b
  | begun {b : Option (Lookup ε V)} {key : String} {now : Seconds} (hm : m = c.nextLookup)
      (miss : c.current? key now = none) :
      LookupNext c m b (.joined m key (c.flightFor key).number now)
        (some ⟨key, c.entries.get? key, (c.flightFor key).number, (c.flightFor key).entryPhase⟩)
  | started {l : Lookup ε V} {now : Seconds} (turn : c.hasTurn m)
      (miss : c.current? l.key now = none) :
      LookupNext c m (some l) (.started m l.key c.nextFetch now)
        (some { l with phase := .fetching c.nextFetch (now.later c.lifetime) })
  | landed {l : Lookup ε V} {f : Flight ε V} {e : Event ε V} {o : Outcome ε V}
      (ho : Lands c e l.key o) (hf : c.flights.get? l.key = some f) (hn : l.flight = f.number) :
      LookupNext c m (some l) e (some { l with phase := .landed o })
  | answered {l : Lookup ε V} {o : Outcome ε V} (hp : l.phase = .landed o) :
      LookupNext c m (some l) (.answered m l.key (c.answerOf l o)) none
  | givenUp {l : Lookup ε V} : LookupNext c m (some l) (.givenUp m l.key) none

private theorem land_lookupNext {e : Event ε V} {key : String} {o : Outcome ε V}
    (ho : Lands c e key o) (m : Nat) :
    LookupNext c m (c.lookups.get? m) e ((c.land key o).lookups.get? m) := by
  rw [land_lookups]
  cases hb : c.lookups.get? m with
  | none => exact .kept (by simp)
  | some l =>
    by_cases hin : ∃ f, c.flights.get? key = some f ∧ l.key = key ∧ l.flight = f.number
    · obtain ⟨f, hf, rfl, hn⟩ := hin
      rw [Option.map_some, if_pos ⟨f, hf, rfl, hn⟩]
      exact .landed ho hf hn
    · rw [Option.map_some, if_neg hin]
      refine .kept ?_
      rintro _ o' f ⟨⟩ ho' hf hn
      have hk := ho'.key_eq.symm.trans ho.key_eq
      exact hin ⟨f, hk ▸ hf, hk, hn⟩

theorem Step.lookup {e : Event ε V} (h : Step c e c') (m : Nat) :
    LookupNext c m (c.lookups.get? m) e (c'.lookups.get? m) := by
  cases h with
  | hit h =>
    obtain ⟨_, rfl⟩ := begin_eq_hit h
    exact .kept (by rintro _ _ _ _ ⟨⟩)
  | joined h =>
    obtain ⟨miss, rfl, rfl⟩ := begin_eq_joined h
    by_cases hm : m = c.nextLookup
    · subst hm
      simpa [join, SortedMap.get?_insert] using LookupNext.begun rfl miss
    · simp only [join, SortedMap.get?_insert, hm, if_false]
      exact .kept (by rintro _ _ _ _ ⟨⟩)
  | spared hl turn h =>
    obtain ⟨entry, current, rfl⟩ := spare?_eq_some hl h
    exact land_lookupNext (.spared hl rfl turn current) m
  | @started n l now hl turn miss =>
    rw [spare?_eq_none hl] at miss
    rw [start_eq hl]
    by_cases hm : m = n
    · subst hm
      simpa [SortedMap.get?_insert, hl] using LookupNext.started turn miss
    · simp only [SortedMap.get?_insert, hm, if_false]
      exact .kept (by rintro _ _ _ _ ⟨⟩)
  | fetched result hl hp =>
    rw [finish_lookups hl hp]
    exact land_lookupNext (.fetched hl rfl hp) m
  | @answered _ n l a hl h =>
    obtain ⟨o, hp, rfl, rfl⟩ := conclude_eq_some hl h
    by_cases hm : m = n
    · subst hm
      simpa [SortedMap.get?_erase, hl] using LookupNext.answered hp
    · simp only [SortedMap.get?_erase, hm, if_false, release_lookups]
      exact .kept (by rintro _ _ _ _ ⟨⟩)
  | @givenUp n l hl =>
    rw [abandon_lookups c hl]
    by_cases hm : m = n
    · subst hm
      simpa [hl] using LookupNext.givenUp
    · rw [if_neg hm]
      exact .kept (by rintro _ _ _ _ ⟨⟩)

/-- What becomes of the flight of a key by a move. -/
inductive FlightNext (c : Cache ε V) (k : String) :
    Option (Flight ε V) → Event ε V → Option (Flight ε V) → Prop where
  | kept {b : Option (Flight ε V)} {e : Event ε V}
      (apart : ∀ f o, b = some f → ¬ Lands c e k o) : FlightNext c k b e b
  | joined {b : Option (Flight ε V)} {now : Seconds} :
      FlightNext c k b (.joined c.nextLookup k (c.flightFor k).number now)
        (some ((c.flightFor k).board c.nextLookup))
  | landed {f : Flight ε V} {e : Event ε V} {o : Outcome ε V} (ho : Lands c e k o) :
      FlightNext c k (some f) e (some { f with holder := none, queue := [], outcome := some o })
  | left {f : Flight ε V} {n : Nat} {l : Lookup ε V} (hl : c.lookups.get? n = some l)
      (hk : l.key = k) (hn : f.number = l.flight) :
      FlightNext c k (some f) (.givenUp n k) (some (f.leave n))
  | released {f : Flight ε V} {n : Nat} {l : Lookup ε V} {o : Outcome ε V} {a : Answer ε V}
      (hl : c.lookups.get? n = some l) (hk : l.key = k) (hp : l.phase = .landed o)
      (hn : f.number = l.flight) : FlightNext c k (some f) (.answered n k a) none

private theorem land_flightNext {e : Event ε V} {key : String} {o : Outcome ε V}
    (ho : Lands c e key o) (k : String) :
    FlightNext c k (c.flights.get? k) e ((c.land key o).flights.get? k) := by
  rw [land_flights]
  by_cases hk : k = key
  · subst hk
    rw [if_pos rfl]
    cases hf : c.flights.get? k with
    | none => exact .kept (by simp)
    | some f => exact .landed ho
  · rw [if_neg hk]
    exact .kept fun _ _ _ ho' => hk (ho'.key_eq.symm.trans ho.key_eq)

theorem Step.flight {e : Event ε V} (h : Step c e c') (k : String) :
    FlightNext c k (c.flights.get? k) e (c'.flights.get? k) := by
  cases h with
  | hit h =>
    obtain ⟨_, rfl⟩ := begin_eq_hit h
    exact .kept (by rintro _ _ _ ⟨⟩)
  | @joined _ key now n h =>
    obtain ⟨_, rfl, rfl⟩ := begin_eq_joined h
    by_cases hk : k = key
    · subst hk
      simpa [join, SortedMap.get?_insert] using FlightNext.joined
    · simp only [join, SortedMap.get?_insert, hk, if_false]
      exact .kept (by rintro _ _ _ ⟨⟩)
  | spared hl turn h =>
    obtain ⟨entry, current, rfl⟩ := spare?_eq_some hl h
    exact land_flightNext (.spared hl rfl turn current) k
  | started hl turn =>
    rw [start_eq hl]
    exact .kept (by rintro _ _ _ ⟨⟩)
  | fetched result hl hp =>
    rw [finish_flights hl hp]
    exact land_flightNext (.fetched hl rfl hp) k
  | @answered _ n l a hl h =>
    obtain ⟨o, hp, rfl, rfl⟩ := conclude_eq_some hl h
    rw [show ∀ (d : Cache ε V) x y, ({ d with lookups := x, counters := y } : Cache ε V).flights =
      d.flights from fun _ _ _ => rfl, release_flights]
    by_cases hk : k = l.key
    · subst hk
      rw [if_pos rfl]
      cases hf : c.flights.get? l.key with
      | none => exact .kept (by simp)
      | some f =>
        by_cases hn : f.number = l.flight
        · simpa [Option.filter, hn] using FlightNext.released hl rfl hp hn
        · simpa [Option.filter, hn] using FlightNext.kept (by rintro _ _ _ ⟨⟩)
    · rw [if_neg hk]
      exact .kept (by rintro _ _ _ ⟨⟩)
  | @givenUp n l hl =>
    rw [abandon_flights c hl]
    by_cases hk : k = l.key
    · subst hk
      rw [if_pos rfl]
      cases hf : c.flights.get? l.key with
      | none => exact .kept (by simp)
      | some f =>
        by_cases hn : f.number = l.flight
        · simpa [hn] using FlightNext.left hl rfl hn
        · simpa [hn] using FlightNext.kept (by rintro _ _ _ ⟨⟩)
    · rw [if_neg hk]
      exact .kept (by rintro _ _ _ ⟨⟩)

theorem Step.joined_inv {n flight : Nat} {key : String} {now : Seconds}
    (h : Step c (.joined n key flight now) c') : c.current? key now = none ∧ n = c.nextLookup ∧
      flight = (c.flightFor key).number ∧ c' = (c.join key).2 := by
  cases h with
  | joined h =>
    obtain ⟨miss, hn, hc⟩ := begin_eq_joined h
    exact ⟨miss, hn, rfl, hc⟩

theorem Step.started_inv {n s : Nat} {key : String} {now : Seconds}
    (h : Step c (.started n key s now) c') : ∃ l, c.lookups.get? n = some l ∧ l.key = key ∧
      c.hasTurn n ∧ c.current? key now = none ∧ s = c.nextFetch ∧ c' = { c with
        lookups := c.lookups.insert n { l with phase := .fetching s (now.later c.lifetime) }
        nextFetch := c.nextFetch + 1 } := by
  cases h with
  | started hl turn miss =>
    exact ⟨_, hl, rfl, turn, (spare?_eq_none hl).1 miss, rfl, start_eq hl now⟩

/-- A fetch may start some time after its lookup has looked again. -/
theorem Step.started_later {n : Nat} {l : Lookup ε V} {looked now : Seconds}
    (hl : c.lookups.get? n = some l) (turn : c.hasTurn n) (miss : c.spare? n looked = none)
    (onward : looked ≤ now) : Step c (.started n l.key c.nextFetch now) (c.start n now) := by
  rw [spare?_eq_none hl] at miss
  exact .started hl turn ((spare?_eq_none hl).2 (current?_eq_none_mono miss onward))

theorem Step.fetched_inv {n s : Nat} {key : String} {result : Except ε V}
    (h : Step c (.fetched n key s result) c') : ∃ l x, c.lookups.get? n = some l ∧ l.key = key ∧
      l.phase = .fetching s x ∧ c' = c.finish n result := by
  cases h with
  | fetched _ hl hp => exact ⟨_, _, hl, rfl, hp, rfl⟩

theorem Step.answered_inv {n : Nat} {key : String} {a : Answer ε V}
    (h : Step c (.answered n key a) c') : ∃ l o, c.lookups.get? n = some l ∧ l.key = key ∧
      l.phase = .landed o ∧ a = c.answerOf l o := by
  cases h with
  | answered hl h =>
    obtain ⟨o, hp, ha, _⟩ := conclude_eq_some hl h
    exact ⟨_, o, hl, rfl, hp, ha⟩

theorem Step.hit_inv {key : String} {now : Seconds} {entry : Entry V}
    (h : Step c (.hit key now entry) c') : c.current? key now = some entry := by
  cases h with
  | hit h => exact (begin_eq_hit h).1

/-- A lookup that was answered or given up is gone. -/
theorem Step.lookup_over {n : Nat} {key : String} {e : Event ε V} (h : Step c e c')
    (he : e = .givenUp n key ∨ ∃ a, e = .answered n key a) : c'.lookups.get? n = none := by
  rcases he with rfl | ⟨a, rfl⟩
  · cases h with
    | givenUp hl => simp [abandon_lookups c hl]
  · cases h with
    | answered hl h =>
      obtain ⟨_, _, _, rfl⟩ := conclude_eq_some hl h
      simp [SortedMap.get?_erase]

theorem flightFor_eq {key : String} {f : Flight ε V} (hf : c.flights.get? key = some f) :
    c.flightFor key = f := by
  rw [flightFor, hf, Option.getD_some]

/-- A flight whose number was given out before is the one the key has. -/
theorem flights_of_flightFor_lt {key : String} (h : (c.flightFor key).number < c.nextFlight) :
    c.flights.get? key = some (c.flightFor key) := by
  rw [flightFor] at h ⊢
  cases hf : c.flights.get? key with
  | none => simp [hf] at h
  | some f => rfl

/-! Numbers only grow, and the lifetime stays. -/

theorem Step.numbers {e : Event ε V} (h : Step c e c') : c.nextLookup ≤ c'.nextLookup ∧
    c.nextFlight ≤ c'.nextFlight ∧ c.nextFetch ≤ c'.nextFetch ∧ c'.lifetime = c.lifetime := by
  cases h with
  | hit h =>
    obtain ⟨_, rfl⟩ := begin_eq_hit h
    simp
  | joined h =>
    obtain ⟨_, _, rfl⟩ := begin_eq_joined h
    simp only [join]
    split <;> simp
  | spared hl _ h =>
    obtain ⟨_, _, rfl⟩ := spare?_eq_some hl h
    simp
  | started hl =>
    rw [start_eq hl]
    simp
  | fetched result hl hp =>
    cases result with
    | ok v => simp [finish_ok hl hp]
    | error cause => simp [finish_error hl hp]
  | answered hl h =>
    obtain ⟨_, _, _, rfl⟩ := conclude_eq_some hl h
    simp
  | givenUp hl =>
    simp only [abandon, hl]
    split
    · split <;> simp
    · simp

theorem Step.joined_numbers {n flight : Nat} {key : String} {now : Seconds}
    (h : Step c (.joined n key flight now) c') : c'.nextLookup = c.nextLookup + 1 ∧
      (c.flights.get? key = none → c'.nextFlight = c.nextFlight + 1) := by
  obtain ⟨_, _, _, rfl⟩ := h.joined_inv
  exact ⟨rfl, fun hf => by simp [join, hf]⟩

theorem Step.started_numbers {n s : Nat} {key : String} {now : Seconds}
    (h : Step c (.started n key s now) c') : c'.nextFetch = c.nextFetch + 1 := by
  obtain ⟨_, _, _, _, _, _, rfl⟩ := h.started_inv
  rfl

/-! What joining and leaving do to a flight. -/

namespace Flight

variable (f : Flight ε V) (n : Nat)

theorem entryPhase_ne_fetching (s : Nat) (x : Seconds) : f.entryPhase ≠ .fetching s x := by
  rw [entryPhase]
  split <;> simp

theorem entryPhase_eq_landed {o : Outcome ε V} (h : f.entryPhase = .landed o) :
    f.outcome = some o := by
  rw [entryPhase] at h
  split at h
  · rename_i ho
    rw [ho, Phase.landed.inj h]
  · cases h

theorem entryPhase_eq_waiting (h : f.entryPhase = .waiting) : f.outcome = none := by
  rw [entryPhase] at h
  split at h
  · cases h
  · assumption

@[simp] theorem board_number : (f.board n).number = f.number := by
  rw [board]; split <;> rfl

@[simp] theorem board_outcome : (f.board n).outcome = f.outcome := by
  rw [board]; split <;> rfl

theorem board_holder {m : Nat} (hm : f.holder = some m) : (f.board n).holder = some m := by
  rw [board]
  split
  · exact hm
  · rename_i hn
    simp [hm] at hn
  · exact hm

@[simp] theorem leave_number : (f.leave n).number = f.number := by
  rw [leave]; split <;> rfl

@[simp] theorem leave_outcome : (f.leave n).outcome = f.outcome := by
  rw [leave]; split <;> rfl

theorem leave_holder {m : Nat} (hm : f.holder = some m) (hne : m ≠ n) :
    (f.leave n).holder = some m := by
  simp [leave, hm, hne]

end Flight

/-- The answer to the first lookup of all, which has no earlier entry to fall back on. -/
def Answer.first (expiresAt : Seconds) : Except ε V → Answer ε V
  | .ok value => .found ⟨0, expiresAt, value⟩
  | .error cause => .failed cause

/-- A lookup in an empty cache fetches, and is answered with what comes of its fetch. -/
theorem lookup_of_empty (lifetime : UInt64) (key : String) (first stamped : Seconds)
    (result : Except ε V) : ∃ c₁ c₂ : Cache ε V,
      begin { lifetime } key first = (.joined 0, c₁) ∧ c₁.hasTurn 0 ∧
      (∀ now, c₁.spare? 0 now = none) ∧
      ((c₁.start 0 stamped).finish 0 result).conclude 0 =
        some (.first (stamped.later lifetime) result, c₂) ∧
      c₂.entries.get? key = Answer.entry? (.first (stamped.later lifetime) result) := by
  obtain ⟨c₁, begun, l₁, f₁, bare, rfl, fetch⟩ : ∃ c₁ : Cache ε V,
      begin { lifetime } key first = (.joined 0, c₁) ∧
        c₁.lookups.get? 0 = some ⟨key, none, 0, .waiting⟩ ∧
          c₁.flights.get? key = some ⟨0, some 0, [], none⟩ ∧ c₁.entries.get? key = none ∧
            c₁.lifetime = lifetime ∧ c₁.nextFetch = 0 := by
    refine ⟨(join { lifetime } key).2, by simp [begin, current?, join], ?_, ?_, rfl, rfl, rfl⟩
    · simp [join, SortedMap.get?_insert, flightFor, Flight.entryPhase]
    · simp [join, SortedMap.get?_insert, flightFor, Flight.board]
  have turn : c₁.hasTurn 0 := (hasTurn_iff l₁).2 ⟨rfl, _, f₁, rfl, rfl⟩
  have miss (now : Seconds) : c₁.spare? 0 now = none := by
    rw [spare?_eq_none l₁, current?, bare]
    rfl
  have started := start_eq l₁ stamped
  have l₂ : (c₁.start 0 stamped).lookups.get? 0 =
      some ⟨key, none, 0, .fetching 0 (stamped.later c₁.lifetime)⟩ := by
    simp [started, SortedMap.get?_insert, fetch]
  have f₂ : (c₁.start 0 stamped).flights.get? key = some ⟨0, some 0, [], none⟩ := by
    rw [started, ← f₁]
  have bare₂ : (c₁.start 0 stamped).entries.get? key = none := by rw [started, ← bare]
  suffices answers : ∃ c₂, ((c₁.start 0 stamped).finish 0 result).conclude 0 =
      some (.first (stamped.later c₁.lifetime) result, c₂) ∧
        c₂.entries.get? key = Answer.entry? (.first (stamped.later c₁.lifetime) result) from
    let ⟨c₂, answered, cached⟩ := answers
    ⟨c₁, c₂, begun, turn, miss, answered, cached⟩
  generalize c₁.start 0 stamped = c at l₂ f₂ bare₂ ⊢
  have l₃ : (c.finish 0 result).lookups.get? 0 =
      some ⟨key, none, 0, .landed (result.map (Entry.mk 0 (stamped.later c₁.lifetime)))⟩ := by
    rw [finish_lookups l₂ rfl, land_lookups]
    simp [l₂, f₂]
  cases result with
  | ok value =>
    refine ⟨_, by simp only [conclude, l₃]; rfl, ?_⟩
    simp [finish_ok l₂ rfl, SortedMap.get?_insert, Answer.first, Answer.entry?]
  | error cause =>
    have bare₃ : (c.finish 0 (.error cause)).entries.get? key = none := by
      rw [finish_error l₂ rfl, land_entries, bare₂]
    have answer : (c.finish 0 (.error cause)).answerOf
        ⟨key, none, 0, .landed (.error cause)⟩ (.error cause) = .failed cause := by
      simp [answerOf, bare₃]
    refine ⟨_, by simp only [conclude, l₃, Except.map, answer]; rfl, ?_⟩
    simp [bare₃, Answer.first, Answer.entry?]

end ZoneCatalog.Cache
