import ZoneCatalog.Proofs.Cache.Moves

/-! Flights and the lookups in them. A lookup that waits or fetches is in the flight its key has
at the time, and that flight is not over; the one that fetches holds its turn. So no key has two
fetches at once. -/
namespace ZoneCatalog.Cache

variable {ε V : Type} {c c' : Cache ε V}

/-- How flights and lookups fit together. -/
structure Sound (c : Cache ε V) : Prop where
  flight_lt : ∀ k f, c.flights.get? k = some f → f.number < c.nextFlight
  joined_lt : ∀ m l, c.lookups.get? m = some l → l.flight < c.nextFlight
  lookup_lt : ∀ m l, c.lookups.get? m = some l → m < c.nextLookup
  serial_lt : ∀ m l s x, c.lookups.get? m = some l → l.phase = .fetching s x → s < c.nextFetch
  waiting : ∀ m l, c.lookups.get? m = some l → l.phase = .waiting →
    ∃ f, c.flights.get? l.key = some f ∧ f.number = l.flight ∧ f.outcome = none
  fetching : ∀ m l s x, c.lookups.get? m = some l → l.phase = .fetching s x →
    ∃ f, c.flights.get? l.key = some f ∧ f.number = l.flight ∧ f.outcome = none ∧
      f.holder = some m
  landed : ∀ m l o f, c.lookups.get? m = some l → l.phase = .landed o →
    c.flights.get? l.key = some f → f.number = l.flight → f.outcome = some o

theorem Sound.empty (lifetime : UInt64) : Sound ({ lifetime } : Cache ε V) := by
  constructor <;> intros <;> simp_all

namespace Sound

variable (hc : Sound c)

include hc

/-- Two lookups that fetch the same key are one. -/
theorem fetching_unique {m n s t : Nat} {l k : Lookup ε V} {x y : Seconds}
    (hl : c.lookups.get? m = some l) (hk : c.lookups.get? n = some k) (hkey : l.key = k.key)
    (hp : l.phase = .fetching s x) (hq : k.phase = .fetching t y) : m = n := by
  obtain ⟨f, hf, _, _, hm⟩ := hc.fetching m l s x hl hp
  obtain ⟨g, hg, _, _, hn⟩ := hc.fetching n k t y hk hq
  rw [hkey, hg] at hf
  obtain rfl := Option.some.inj hf
  exact Option.some.inj (hm.symm.trans hn)

/-- While a key is fetched nobody else has the turn. -/
theorem not_hasTurn_of_fetching {m n s : Nat} {l k : Lookup ε V} {x : Seconds}
    (hl : c.lookups.get? m = some l) (hk : c.lookups.get? n = some k) (hkey : l.key = k.key)
    (hp : l.phase = .fetching s x) : ¬ c.hasTurn n := by
  intro turn
  obtain ⟨hw, g, hg, _, hn⟩ := (hasTurn_iff hk).1 turn
  obtain ⟨f, hf, _, _, hm⟩ := hc.fetching m l s x hl hp
  rw [hkey, hg] at hf
  obtain rfl := Option.some.inj hf
  obtain rfl := Option.some.inj (hm.symm.trans hn)
  obtain rfl := Option.some.inj (hl.symm.trans hk)
  simp [hp] at hw

theorem flightFor_lt {n flight : Nat} {key : String} {now : Seconds}
    (h : Step c (.joined n key flight now) c') : (c.flightFor key).number < c'.nextFlight := by
  have grows := h.numbers.2.1
  rw [flightFor]
  cases hf : c.flights.get? key with
  | none =>
    have := h.joined_numbers.2 hf
    simp only [Option.getD_none]
    omega
  | some f =>
    have := hc.flight_lt key f hf
    simp only [Option.getD_some]
    omega

/-- A flight that is not over is still there after any move that does not end it. -/
theorem flight_kept {e : Event ε V} {key : String} {f : Flight ε V} (h : Step c e c')
    (hf : c.flights.get? key = some f) (open_ : f.outcome = none)
    (apart : ∀ o, ¬ Lands c e key o) : ∃ f', c'.flights.get? key = some f' ∧
      f'.number = f.number ∧ f'.outcome = none ∧
      ∀ m, f.holder = some m → e ≠ .givenUp m key → f'.holder = some m := by
  have next := h.flight key
  rw [hf] at next
  generalize c'.flights.get? key = b at next
  cases next with
  | kept => exact ⟨f, rfl, rfl, open_, fun _ hm _ => hm⟩
  | joined =>
    rw [flightFor_eq hf]
    exact ⟨_, rfl, f.board_number _, by simpa using open_, fun _ hm _ => f.board_holder _ hm⟩
  | landed ho => exact absurd ho (apart _)
  | left =>
    refine ⟨_, rfl, f.leave_number _, by simpa using open_, fun m hm ne => ?_⟩
    exact f.leave_holder _ hm (by rintro rfl; exact ne rfl)
  | released hl hk hp hn =>
    have := hc.landed _ _ _ f hl hp (hk ▸ hf) hn
    simp [open_] at this

/-- When a fetch ends nobody fetches its key. -/
theorem not_fetching_after {n s : Nat} {key : String} {result : Except ε V}
    (h : Step c (.fetched n key s result) c') {m : Nat} {l' : Lookup ε V}
    (hl' : c'.lookups.get? m = some l') (hk' : l'.key = key) (t : Nat) (y : Seconds) :
    l'.phase ≠ .fetching t y := by
  intro hp'
  obtain ⟨l, x, hl, hk, hp, _⟩ := h.fetched_inv
  have next := hl' ▸ h.lookup m
  generalize hb : c.lookups.get? m = b at next
  cases next with
  | kept apart =>
    obtain rfl := hc.fetching_unique hb hl (hk'.trans hk.symm) hp' hp
    obtain rfl := Option.some.inj (hb.symm.trans hl)
    obtain ⟨f, hf, hn, _⟩ := hc.fetching m l' s x hb hp
    exact absurd hn.symm (apart l' _ f rfl (by rw [hk']; exact .fetched hb hk' hp) hf)
  | landed => cases hp'

theorem step_waiting {e : Event ε V} (h : Step c e c') {m : Nat} {l' : Lookup ε V}
    (hl' : c'.lookups.get? m = some l') (hp : l'.phase = .waiting) :
    ∃ f, c'.flights.get? l'.key = some f ∧ f.number = l'.flight ∧ f.outcome = none := by
  have next := hl' ▸ h.lookup m
  generalize hb : c.lookups.get? m = b at next
  cases next with
  | kept apart =>
    obtain ⟨f, hf, hn, ho⟩ := hc.waiting m l' hb hp
    obtain ⟨f', hf', hn', ho', _⟩ := hc.flight_kept h hf ho
      fun o lands => apart l' o f rfl lands hf hn.symm
    exact ⟨f', hf', hn'.trans hn, ho'⟩
  | @begun _ key =>
    obtain ⟨_, _, _, rfl⟩ := h.joined_inv
    refine ⟨(c.flightFor key).board c.nextLookup, by simp [join, SortedMap.get?_insert],
      by simp, ?_⟩
    simpa using Flight.entryPhase_eq_waiting _ hp
  | started => cases hp
  | landed => cases hp

theorem step_fetching {e : Event ε V} (h : Step c e c') {m s : Nat} {l' : Lookup ε V} {x : Seconds}
    (hl' : c'.lookups.get? m = some l') (hp : l'.phase = .fetching s x) :
    ∃ f, c'.flights.get? l'.key = some f ∧ f.number = l'.flight ∧ f.outcome = none ∧
      f.holder = some m := by
  have next := hl' ▸ h.lookup m
  generalize hb : c.lookups.get? m = b at next
  cases next with
  | kept apart =>
    obtain ⟨f, hf, hn, ho, hm⟩ := hc.fetching m l' s x hb hp
    obtain ⟨f', hf', hn', ho', held⟩ := hc.flight_kept h hf ho
      fun o lands => apart l' o f rfl lands hf hn.symm
    refine ⟨f', hf', hn'.trans hn, ho', held m hm ?_⟩
    intro he
    simp [h.lookup_over (.inl he)] at hl'
  | begun => exact (Flight.entryPhase_ne_fetching _ _ _ hp).elim
  | started turn =>
    obtain ⟨hw, f, hf, hn, hm⟩ := (hasTurn_iff hb).1 turn
    obtain ⟨g, hg, _, ho⟩ := hc.waiting m _ hb hw
    obtain rfl := Option.some.inj (hf.symm.trans hg)
    obtain ⟨f', hf', hn', ho', held⟩ := hc.flight_kept h hf ho (by rintro _ ⟨⟩)
    exact ⟨f', hf', hn'.trans hn, ho', held m hm (by simp)⟩
  | landed => cases hp

theorem step_landed {e : Event ε V} (h : Step c e c') {m : Nat} {l' : Lookup ε V}
    {o : Outcome ε V} {f' : Flight ε V} (hl' : c'.lookups.get? m = some l')
    (hp : l'.phase = .landed o) (hf' : c'.flights.get? l'.key = some f')
    (hn : f'.number = l'.flight) : f'.outcome = some o := by
  have next := hl' ▸ h.lookup m
  generalize hb : c.lookups.get? m = b at next
  have nextFlight := hf' ▸ h.flight l'.key
  generalize hd : c.flights.get? l'.key = d at nextFlight
  cases next with
  | kept apart =>
    cases nextFlight with
    | kept => exact hc.landed m l' o f' hb hp hd hn
    | joined =>
      rw [Flight.board_number] at hn
      rw [Flight.board_outcome]
      have known := flights_of_flightFor_lt (hn ▸ hc.joined_lt m l' hb)
      exact hc.landed m l' o _ hb hp known hn
    | @landed f _ _ ho => exact absurd hn.symm (apart l' _ f rfl ho hd)
    | left =>
      rw [Flight.leave_outcome]
      exact hc.landed m l' o _ hb hp hd (by simpa using hn)
  | @begun _ key =>
    obtain ⟨_, _, _, rfl⟩ := h.joined_inv
    obtain rfl : (c.flightFor key).board c.nextLookup = f' := by
      simpa [join, SortedMap.get?_insert] using hf'
    rw [Flight.board_outcome]
    exact Flight.entryPhase_eq_landed _ hp
  | started => cases hp
  | landed ho hf hn' =>
    obtain rfl := Phase.landed.inj hp
    rw [hf] at hd
    subst hd
    cases nextFlight with
    | kept apart => exact absurd ho (apart _ _ rfl)
    | joined => cases ho
    | landed ho' => exact congrArg some (ho'.outcome_unique ho)
    | left => cases ho

theorem step {e : Event ε V} (h : Step c e c') : Sound c' where
  flight_lt k f' hf' := by
    have grows := h.numbers.2.1
    have next := hf' ▸ h.flight k
    generalize hb : c.flights.get? k = b at next
    cases next with
    | kept => exact Nat.lt_of_lt_of_le (hc.flight_lt k f' hb) grows
    | joined => simpa using hc.flightFor_lt h
    | @landed f => exact Nat.lt_of_lt_of_le (hc.flight_lt k f hb) grows
    | left => simpa using Nat.lt_of_lt_of_le (hc.flight_lt k _ hb) grows
  joined_lt m l' hl' := by
    have grows := h.numbers.2.1
    have next := hl' ▸ h.lookup m
    generalize hb : c.lookups.get? m = b at next
    cases next with
    | kept => exact Nat.lt_of_lt_of_le (hc.joined_lt m l' hb) grows
    | begun => exact hc.flightFor_lt h
    | @started l => exact Nat.lt_of_lt_of_le (hc.joined_lt m l hb) grows
    | @landed l => exact Nat.lt_of_lt_of_le (hc.joined_lt m l hb) grows
  lookup_lt m l' hl' := by
    have grows := h.numbers.1
    have next := hl' ▸ h.lookup m
    generalize hb : c.lookups.get? m = b at next
    cases next with
    | kept => exact Nat.lt_of_lt_of_le (hc.lookup_lt m l' hb) grows
    | begun hm =>
      have := h.joined_numbers.1
      omega
    | started => exact Nat.lt_of_lt_of_le (hc.lookup_lt m _ hb) grows
    | landed => exact Nat.lt_of_lt_of_le (hc.lookup_lt m _ hb) grows
  serial_lt m l' s x hl' hp := by
    have grows := h.numbers.2.2.1
    have next := hl' ▸ h.lookup m
    generalize hb : c.lookups.get? m = b at next
    cases next with
    | kept => exact Nat.lt_of_lt_of_le (hc.serial_lt m l' s x hb hp) grows
    | begun => exact (Flight.entryPhase_ne_fetching _ _ _ hp).elim
    | started =>
      have := h.started_numbers
      obtain ⟨rfl, _⟩ := Phase.fetching.inj hp
      omega
    | landed => cases hp
  waiting _ _ hl' hp := hc.step_waiting h hl' hp
  fetching _ _ _ _ hl' hp := hc.step_fetching h hl' hp
  landed _ _ _ _ hl' hp hf' hn := hc.step_landed h hl' hp hf' hn

end Sound

theorem Steps.numbers {h : List (Event ε V)} (s : Steps Step c h c') :
    c.nextLookup ≤ c'.nextLookup ∧ c.nextFlight ≤ c'.nextFlight ∧ c.nextFetch ≤ c'.nextFetch := by
  induction s with
  | refl => simp
  | snoc _ last ih =>
    have := last.numbers
    omega

theorem Steps.lifetime_eq {h : List (Event ε V)} (s : Steps Step c h c') :
    c'.lifetime = c.lifetime := by
  induction s with
  | refl => rfl
  | snoc _ last ih => exact last.numbers.2.2.2.trans ih

/-- A lookup keeps its key, its flight and the entry that was cached when it began. -/
theorem Step.lookup_same {e : Event ε V} (h : Step c e c') {m : Nat} {l' : Lookup ε V}
    (hl' : c'.lookups.get? m = some l') (old : m < c.nextLookup) :
    ∃ l, c.lookups.get? m = some l ∧ l'.key = l.key ∧ l'.flight = l.flight ∧
      l'.cached = l.cached := by
  have next := hl' ▸ h.lookup m
  generalize hb : c.lookups.get? m = b at next
  cases next with
  | kept => exact ⟨l', rfl, rfl, rfl, rfl⟩
  | begun hm => omega
  | started => exact ⟨_, rfl, rfl, rfl, rfl⟩
  | landed => exact ⟨_, rfl, rfl, rfl, rfl⟩

theorem Steps.lookup_same {h : List (Event ε V)} (s : Steps Step c h c') {m : Nat} {l' : Lookup ε V}
    (hl' : c'.lookups.get? m = some l') (old : m < c.nextLookup) :
    ∃ l, c.lookups.get? m = some l ∧ l'.key = l.key ∧ l'.flight = l.flight ∧
      l'.cached = l.cached := by
  induction s generalizing l' with
  | refl => exact ⟨l', hl', rfl, rfl, rfl⟩
  | snoc before last ih =>
    have grows := (Steps.numbers before).1
    obtain ⟨l, hl, hk, hf, hc⟩ := last.lookup_same hl' (by omega)
    obtain ⟨l₀, hl₀, hk₀, hf₀, hc₀⟩ := ih hl
    exact ⟨l₀, hl₀, hk.trans hk₀, hf.trans hf₀, hc.trans hc₀⟩

/-- Without a fetch that brings a value the entries stay. -/
theorem Steps.entries_same {h : List (Event ε V)} (s : Steps Step c h c')
    (bare : ∀ n key t v, .fetched n key t (.ok v) ∉ h) : c'.entries = c.entries := by
  induction s with
  | refl => rfl
  | snoc before last ih =>
    rw [last.entries_same ?_, ih ?_]
    · exact fun n key t v he => bare n key t v (List.mem_append_left _ he)
    · rintro n key t v rfl
      exact bare n key t v (by simp)

theorem Sound.steps {h : List (Event ε V)} (hc : Sound c) (s : Steps Step c h c') : Sound c' := by
  induction s with
  | refl => exact hc
  | snoc _ last ih => exact ih.step last

theorem Run.sound {lifetime : UInt64} {h : List (Event ε V)} (r : Run lifetime h c) : Sound c :=
  (Sound.empty lifetime).steps r

/-- What holds of an empty cache and is preserved by the moves of a sound one, along with what has
been seen, holds throughout every run. -/
theorem Run.preserves {P : List (Event ε V) → Cache ε V → Prop} {lifetime : UInt64}
    {h : List (Event ε V)} (r : Run lifetime h c) (start : P [] { lifetime })
    (each : ∀ {h c e c'}, P h c → Sound c → Step c e c' → P (h ++ [e]) c') : P h c := by
  rw [Run] at r
  induction r with
  | refl => exact start
  | snoc before last ih => exact each ih (Run.sound before) last

end ZoneCatalog.Cache
