import ZoneCatalog.Proofs.Cache.Sound

/-! What stays in the table of flights. A flight is taken out when one of its lookups is answered,
so one whose lookups were all given up stays until its key is asked for again. -/
namespace ZoneCatalog.Cache

variable {ε V : Type} {c c' : Cache ε V} {key : String} {f : Flight ε V}

/-- A lookup that is under way is in a flight. -/
def Occupied (c : Cache ε V) (key : String) (flight : Nat) : Prop :=
  ∃ m l, c.lookups.get? m = some l ∧ l.key = key ∧ l.flight = flight

/-- A flight is no longer in the table when one of its lookups has been answered. -/
theorem Step.answered_flight {m : Nat} {l : Lookup ε V} {a : Answer ε V}
    (h : Step c (.answered m l.key a) c') (hl : c.lookups.get? m = some l)
    (hf : c'.flights.get? l.key = some f) : f.number ≠ l.flight := by
  generalize hk : l.key = key at h
  cases h with
  | answered hl' h =>
    obtain rfl := Option.some.inj (hl.symm.trans hl')
    obtain ⟨o, -, -, rfl⟩ := conclude_eq_some hl h
    change (c.release l.key l.flight).flights.get? l.key = some f at hf
    rw [release_flights, if_pos rfl, Option.filter_eq_some_iff] at hf
    exact of_decide_eq_true hf.2

/-- A flight that is occupied stays so while it is in the table, unless a lookup is given up. -/
theorem Occupied.step (hc : Sound c) {e : Event ε V} (h : Step c e c')
    (occupied : c.Occupied key f.number) (hf : c'.flights.get? key = some f) :
    c'.Occupied key f.number ∨ ∃ m, e = .givenUp m key := by
  obtain ⟨m, l, hl, rfl, hn⟩ := occupied
  have next := h.lookup m
  rw [hl] at next
  generalize hl' : c'.lookups.get? m = after at next
  cases next with
  | kept => exact .inl ⟨m, l, hl', rfl, hn⟩
  | begun new =>
    have := hc.lookup_lt m l hl
    omega
  | started => exact .inl ⟨m, _, hl', rfl, hn⟩
  | landed => exact .inl ⟨m, _, hl', rfl, hn⟩
  | answered => exact absurd hn.symm (h.answered_flight hl hf)
  | givenUp => exact .inr ⟨m, rfl⟩

theorem occupied_of_joined {n flight : Nat} {now : Seconds}
    (h : Step c (.joined n key flight now) c') : c'.Occupied key flight := by
  obtain ⟨-, rfl, rfl, rfl⟩ := h.joined_inv
  exact ⟨_, _, by rw [join, SortedMap.get?_insert, if_pos rfl], rfl, rfl⟩

/-- A flight in the table is occupied, or a lookup of its key was given up. -/
def Accounted (h : List (Event ε V)) (c : Cache ε V) : Prop :=
  ∀ key f, c.flights.get? key = some f →
    c.Occupied key f.number ∨ ∃ m, .givenUp m key ∈ h

theorem Accounted.step (hc : Sound c) {h : List (Event ε V)} (accounted : Accounted h c)
    {e : Event ε V} (one : Step c e c') : Accounted (h ++ [e]) c' := by
  intro key f' hf'
  -- the flight was there before under the same number, or its first lookup has just joined it
  have before : (∃ f, c.flights.get? key = some f ∧ f.number = f'.number) ∨
      c'.Occupied key f'.number := by
    have next := one.flight key
    rw [hf'] at next
    generalize hf : c.flights.get? key = b at next
    cases next with
    | kept => exact .inl ⟨f', rfl, rfl⟩
    | joined =>
      rw [Flight.board_number]
      exact .inr (occupied_of_joined one)
    | landed => exact .inl ⟨_, rfl, rfl⟩
    | left => exact .inl ⟨_, rfl, (Flight.leave_number ..).symm⟩
  rcases before with ⟨f, hf, same⟩ | occupied
  · rcases accounted key f hf with occupied | ⟨m, gone⟩
    · rw [same] at occupied
      rcases occupied.step hc one hf' with still | ⟨m, rfl⟩
      · exact .inl still
      · exact .inr ⟨m, by simp⟩
    · exact .inr ⟨m, List.mem_append_left _ gone⟩
  · exact .inl occupied

theorem Run.accounted {lifetime : UInt64} {h : List (Event ε V)} (run : Run lifetime h c) :
    Accounted h c :=
  run.preserves (fun key f hf => by cases hf) fun accounted hc one => accounted.step hc one

/-- A key of which no lookup was given up has a flight in the table only while one is under way. -/
theorem no_flight_of_no_lookup {lifetime : UInt64} {h : List (Event ε V)} (run : Run lifetime h c)
    (kept : ∀ m, Event.givenUp m key ∉ h) (ended : ∀ m l, c.lookups.get? m = some l → l.key ≠ key) :
    c.flights.get? key = none := by
  refine Option.eq_none_iff_forall_ne_some.2 fun f hf => ?_
  rcases run.accounted key f hf with ⟨m, l, hl, hk, -⟩ | ⟨m, gone⟩
  · exact ended m l hl hk
  · exact kept m gone

/-- If the only lookup in a flight is given up, the flight stays. -/
theorem flight_left_behind : ∃ c : Cache Unit Nat,
    Run 10 [.joined 0 "a" 0 5, .started 0 "a" 0 5, .givenUp 0 "a"] c ∧
      (∀ m, c.lookups.get? m = none) ∧ (c.flights.get? "a").isSome := by
  have s : Steps Step ({ lifetime := 10 } : Cache Unit Nat) [] _ := .refl
  have s := s.snoc (.joined (rfl : begin _ "a" 5 = _))
  have s := s.snoc (.started (n := 0) rfl rfl (rfl : spare? _ 0 5 = none))
  have s := s.snoc (.givenUp (n := 0) rfl)
  exact ⟨_, s, fun m => rfl, rfl⟩

end ZoneCatalog.Cache
