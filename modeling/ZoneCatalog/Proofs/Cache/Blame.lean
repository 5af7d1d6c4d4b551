import ZoneCatalog.Proofs.Cache.Answers
import ZoneCatalog.Proofs.Cache.InFlight
import ZoneCatalog.Proofs.Cache.SharedFetch

/-! Whose failure a lookup is answered with. A lookup is in one flight, and it is answered with a
failure exactly if a fetch in this flight fails. -/
namespace ZoneCatalog.Cache

variable {ε V : Type} {c c' : Cache ε V} {h : List (Event ε V)} {key : String}

/-- The failure after which a lookup is answered. -/
def Answer.cause? : Answer ε V → Option ε
  | .found _ => none
  | .stale _ cause | .failed cause => some cause

theorem cause?_answerOf {l : Lookup ε V} {o : Outcome ε V} {cause : ε} :
    (c.answerOf l o).cause? = some cause ↔ o = .error cause := by
  cases o with
  | ok entry => exact iff_of_false nofun nofun
  | error cause' =>
    simp only [answerOf]
    split <;> simp [Answer.cause?]

/-- The fetch of a flight has failed. -/
def FlightFailed (h : List (Event ε V)) (key : String) (flight : Nat) (cause : ε) : Prop :=
  ∃ n serial now, .joined n key flight now ∈ h ∧ .fetched n key serial (.error cause) ∈ h

theorem FlightFailed.append {flight : Nat} {cause : ε} (failed : FlightFailed h key flight cause)
    (h' : List (Event ε V)) : FlightFailed (h ++ h') key flight cause := by
  obtain ⟨n, serial, now, joined, fetched⟩ := failed
  exact ⟨n, serial, now, List.mem_append_left _ joined, List.mem_append_left _ fetched⟩

/-- Every lookup is in the flight it joined, and a failure in which a flight ended is that of a
fetch by one of its lookups. -/
structure Blamed (h : List (Event ε V)) (c : Cache ε V) : Prop where
  joined : ∀ m l, c.lookups.get? m = some l → ∃ now, .joined m l.key l.flight now ∈ h
  landed : ∀ m l cause, c.lookups.get? m = some l → l.phase = .landed (.error cause) →
    FlightFailed h l.key l.flight cause
  flights : ∀ k f cause, c.flights.get? k = some f → f.outcome = some (.error cause) →
    FlightFailed h k f.number cause

namespace Blamed

theorem empty (lifetime : UInt64) : Blamed [] ({ lifetime } : Cache ε V) := by
  constructor <;> intros <;> simp_all

variable {e : Event ε V}

theorem step_joined (blamed : Blamed h c) (s : Step c e c') {m : Nat} {l' : Lookup ε V}
    (hl' : c'.lookups.get? m = some l') : ∃ now, .joined m l'.key l'.flight now ∈ h ++ [e] := by
  have earlier (l : Lookup ε V) (hl : c.lookups.get? m = some l) :
      ∃ now, .joined m l.key l.flight now ∈ h ++ [e] :=
    (blamed.joined m l hl).imp fun _ => List.mem_append_left _
  have next := hl' ▸ s.lookup m
  generalize hb : c.lookups.get? m = b at next
  cases next with
  | kept => exact earlier l' hb
  | begun => exact ⟨_, List.mem_append_right _ List.mem_cons_self⟩
  | @started l => exact earlier l hb
  | @landed l => exact earlier l hb

/-- A move that ends a flight with a failure is the end of a fetch by one of its lookups. -/
theorem of_lands (blamed : Blamed h c) (hc : Sound c) {f : Flight ε V} {cause : ε}
    (lands : Lands c e key (.error cause)) (hf : c.flights.get? key = some f) :
    FlightFailed (h ++ [e]) key f.number cause := by
  generalize ho : (.error cause : Outcome ε V) = o at lands
  cases lands with
  | spared => cases ho
  | @fetched n serial l _ x result hl hk hp =>
    cases result with
    | ok v => cases ho
    | error cause' =>
      obtain rfl := Except.error.inj ho
      obtain ⟨now, joined⟩ := blamed.joined n l hl
      obtain ⟨g, hg, hn, -⟩ := hc.fetching n l serial x hl hp
      subst hk
      obtain rfl := Option.some.inj (hf.symm.trans hg)
      rw [← hn] at joined
      exact ⟨n, serial, now, List.mem_append_left _ joined,
        List.mem_append_right _ List.mem_cons_self⟩

/-- A flight that has failed when it is joined. -/
theorem of_flightFor (blamed : Blamed h c) {cause : ε}
    (failed : (c.flightFor key).outcome = some (.error cause)) :
    FlightFailed h key (c.flightFor key).number cause := by
  obtain ⟨f, hf, ho⟩ := flightFor_landed failed
  rw [flightFor_eq hf]
  exact blamed.flights key f cause hf ho

theorem step_landed (blamed : Blamed h c) (hc : Sound c) (s : Step c e c') {m : Nat}
    {l' : Lookup ε V} {cause : ε} (hl' : c'.lookups.get? m = some l')
    (hp : l'.phase = .landed (.error cause)) : FlightFailed (h ++ [e]) l'.key l'.flight cause := by
  have next := hl' ▸ s.lookup m
  generalize hb : c.lookups.get? m = b at next
  cases next with
  | kept => exact (blamed.landed m l' cause hb hp).append _
  | begun => exact (blamed.of_flightFor (Flight.entryPhase_eq_landed _ hp)).append _
  | started => cases hp
  | landed lands hf hn =>
    obtain rfl := Phase.landed.inj hp
    rw [hn]
    exact blamed.of_lands hc lands hf

theorem step_flights (blamed : Blamed h c) (hc : Sound c) (s : Step c e c') {k : String}
    {f' : Flight ε V} {cause : ε} (hf' : c'.flights.get? k = some f')
    (ho : f'.outcome = some (.error cause)) : FlightFailed (h ++ [e]) k f'.number cause := by
  have next := hf' ▸ s.flight k
  generalize hb : c.flights.get? k = b at next
  cases next with
  | kept => exact (blamed.flights k f' cause hb ho).append _
  | joined =>
    rw [Flight.board_outcome] at ho
    rw [Flight.board_number]
    exact (blamed.of_flightFor ho).append _
  | @landed f _ _ lands =>
    obtain rfl := Option.some.inj ho
    have failed : FlightFailed (h ++ [e]) k f.number cause := blamed.of_lands hc lands hb
    exact failed
  | left =>
    rw [Flight.leave_outcome] at ho
    rw [Flight.leave_number]
    exact (blamed.flights k _ cause hb ho).append _

theorem step (blamed : Blamed h c) (hc : Sound c) (s : Step c e c') : Blamed (h ++ [e]) c' where
  joined _ _ hl' := blamed.step_joined s hl'
  landed _ _ _ hl' hp := blamed.step_landed hc s hl' hp
  flights _ _ _ hf' ho := blamed.step_flights hc s hf' ho

end Blamed

theorem Run.blamed {lifetime : UInt64} (run : Run lifetime h c) : Blamed h c :=
  run.preserves (.empty lifetime) .step

/-- A lookup is answered with a failure only if the fetch of its flight has failed. -/
theorem Blamed.answered (blamed : Blamed h c) {n : Nat} {answer : Answer ε V} {cause : ε}
    (s : Step c (.answered n key answer) c') (after : answer.cause? = some cause) :
    ∃ l, c.lookups.get? n = some l ∧ FlightFailed h key l.flight cause := by
  obtain ⟨l, o, hl, rfl, hp, rfl⟩ := s.answered_inv
  obtain rfl := cause?_answerOf.1 after
  exact ⟨l, hl, blamed.landed n l cause hl hp⟩

/-! The flight of a lookup. -/

/-- Nobody waits or fetches in a flight, and nobody can join it. -/
structure Closed (c : Cache ε V) (key : String) (flight : Nat) : Prop where
  old : flight < c.nextFlight
  lookups : ∀ m l, c.lookups.get? m = some l → l.key = key → l.flight = flight →
    ∃ o, l.phase = .landed o
  flights : ∀ f, c.flights.get? key = some f → f.number ≠ flight

namespace Closed

variable {flight : Nat}

theorem step {e : Event ε V} (closed : Closed c key flight) (s : Step c e c') :
    Closed c' key flight := by
  have unjoined : (c.flightFor key).number ≠ flight := by
    intro same
    have known := flights_of_flightFor_lt (same ▸ closed.old)
    exact closed.flights _ known same
  refine ⟨Nat.lt_of_lt_of_le closed.old s.numbers.2.1, fun m l' hl' hk hn => ?lookups,
    fun f' hf' => ?flights⟩
  case lookups =>
    have next := hl' ▸ s.lookup m
    generalize hb : c.lookups.get? m = b at next
    cases next with
    | kept => exact closed.lookups m l' hb hk hn
    | begun =>
      subst hk
      exact absurd hn unjoined
    | @started l _ turn =>
      obtain ⟨o, landed⟩ := closed.lookups m l hb hk hn
      rw [((hasTurn_iff hb).1 turn).1] at landed
      cases landed
    | landed => exact ⟨_, rfl⟩
  case flights =>
    have next := hf' ▸ s.flight key
    generalize hb : c.flights.get? key = b at next
    cases next with
    | kept => exact closed.flights f' hb
    | joined => simpa using unjoined
    | @landed f => exact closed.flights f hb
    | left => simpa using closed.flights _ hb

theorem steps (closed : Closed c key flight) (s : Steps Step c h c') : Closed c' key flight := by
  induction s with
  | refl => exact closed
  | snoc _ last ih => exact ih.step last

end Closed

end ZoneCatalog.Cache
