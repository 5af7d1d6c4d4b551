import ZoneCatalog.Proofs.Cache.Answers
import ZoneCatalog.Proofs.Catalog.Views
import ZoneCatalog.Proofs.Simulation.Prompt

/-! Properties of entries. If every entry that a fetch brings has a property, then so does every
entry that is cached or answered, whichever lookups share the fetches and however they are mixed. -/
namespace ZoneCatalog

namespace Cache

variable {ε V : Type} {c c' : Cache ε V} {P Q : Entry V → Prop}

/-- A property of all entries that are cached, or that a lookup has at hand. -/
structure Holds (P : Entry V → Prop) (c : Cache ε V) : Prop where
  entries : ∀ k e, c.entries.get? k = some e → P e
  cached : ∀ m l e, c.lookups.get? m = some l → l.cached = some e → P e
  landed : ∀ m l e, c.lookups.get? m = some l → l.phase = .landed (.ok e) → P e
  flights : ∀ k f e, c.flights.get? k = some f → f.outcome = some (.ok e) → P e

theorem Holds.empty (P : Entry V → Prop) (lifetime : UInt64) :
    Holds P ({ lifetime } : Cache ε V) := by
  constructor <;> intros <;> simp_all

theorem Holds.mono (holds : c.Holds P) (weaker : ∀ e, P e → Q e) : c.Holds Q where
  entries k e he := weaker e (holds.entries k e he)
  cached m l e hl he := weaker e (holds.cached m l e hl he)
  landed m l e hl he := weaker e (holds.landed m l e hl he)
  flights k f e hf he := weaker e (holds.flights k f e hf he)

/-- The entry that a move brings has a property, if it brings one. -/
def Brings (P : Entry V → Prop) (c : Cache ε V) (e : Event ε V) : Prop :=
  ∀ n l s x v, c.lookups.get? n = some l → l.phase = .fetching s x →
    e = .fetched n l.key s (.ok v) → P ⟨s, x, v⟩

theorem Holds.step (holds : c.Holds P) {e : Event ε V} (s : Step c e c') (brings : c.Brings P e) :
    c'.Holds P := by
  have entries : ∀ k entry, c'.entries.get? k = some entry → P entry := by
    intro k entry he
    rcases s.entry k with ⟨same, _⟩ | ⟨n, l, t, x, v, hl, rfl, hp, rfl, now⟩
    · exact holds.entries k entry (same.symm.trans he)
    · obtain rfl := Option.some.inj (now.symm.trans he)
      exact brings n l t x v hl hp rfl
  refine ⟨entries, ?_, ?_, ?_⟩
  · intro m l' entry hl' he
    have next := hl' ▸ s.lookup m
    generalize hb : c.lookups.get? m = b at next
    cases next with
    | kept => exact holds.cached m l' entry hb he
    | begun => exact holds.entries _ entry he
    | started => exact holds.cached m _ entry hb he
    | landed => exact holds.cached m _ entry hb he
  · intro m l' entry hl' he
    have next := hl' ▸ s.lookup m
    generalize hb : c.lookups.get? m = b at next
    cases next with
    | kept => exact holds.landed m l' entry hb he
    | begun =>
      obtain ⟨f, hf, ho⟩ := flightFor_landed (Flight.entryPhase_eq_landed _ he)
      exact holds.flights _ f entry hf ho
    | started => cases he
    | landed lands =>
      obtain rfl := Phase.landed.inj he
      exact entries _ entry (s.landed_entry lands)
  · intro k f' entry hf' ho
    have next := hf' ▸ s.flight k
    generalize hb : c.flights.get? k = b at next
    cases next with
    | kept => exact holds.flights k f' entry hb ho
    | joined =>
      rw [Flight.board_outcome] at ho
      obtain ⟨f, hf, hfo⟩ := flightFor_landed ho
      exact holds.flights k f entry hf hfo
    | landed lands =>
      obtain rfl := Option.some.inj ho
      exact entries k entry (s.landed_entry lands)
    | left =>
      rw [Flight.leave_outcome] at ho
      exact holds.flights k _ entry hb ho

/-- A move that brings no entry preserves what holds of all. -/
theorem Holds.bare (holds : c.Holds P) {e : Event ε V} (s : Step c e c')
    (bare : ∀ n key t v, e ≠ .fetched n key t (.ok v)) : c'.Holds P :=
  holds.step s fun n l t _ v _ _ he => absurd he (bare n l.key t v)

theorem Holds.hit (holds : c.Holds P) {key : String} {now : Seconds} {e : Entry V}
    (s : Step c (.hit key now e) c') : P e :=
  holds.entries key e (current?_eq_some s.hit_inv)

/-- What a lookup answers was at hand for it, or is cached. -/
theorem Holds.answered (holds : c.Holds P) {n : Nat} {key : String} {a : Answer ε V} {e : Entry V}
    (s : Step c (.answered n key a) c') (he : a.entry? = some e) : P e := by
  obtain ⟨l, o, hl, -, hp, rfl⟩ := s.answered_inv
  cases o with
  | ok e₀ =>
    obtain rfl := Option.some.inj he
    exact holds.landed n l e₀ hl hp
  | error cause =>
    simp only [answerOf] at he
    split at he
    · rename_i e₀ hor
      obtain rfl := Option.some.inj he
      rcases Option.or_eq_some_iff.1 hor with cached | ⟨_, now⟩
      · exact holds.cached n l e₀ hl cached
      · exact holds.entries _ e₀ now
    · cases he

/-- A lookup has had its turn, and fetches what will be current up to a given time unless its flight
is over. -/
structure Underway (c : Cache ε V) (n : Nat) (x : Seconds) : Prop where
  begun : n < c.nextLookup
  phase : ∀ l, c.lookups.get? n = some l → (∃ s, l.phase = .fetching s x) ∨ ∃ o, l.phase = .landed o

theorem Underway.step {n : Nat} {x : Seconds} {e : Event ε V} (u : c.Underway n x)
    (s : Step c e c') : c'.Underway n x := by
  refine ⟨Nat.lt_of_lt_of_le u.begun s.numbers.1, ?_⟩
  intro l' hl'
  have next := hl' ▸ s.lookup n
  generalize hb : c.lookups.get? n = b at next
  cases next with
  | kept => exact u.phase l' hb
  | begun new => exact absurd new (Nat.ne_of_lt u.begun)
  | started turn =>
    have waits := ((hasTurn_iff hb).1 turn).1
    rcases u.phase _ hb with ⟨s, hp⟩ | ⟨o, hp⟩ <;> cases waits.symm.trans hp
  | landed => exact .inr ⟨_, rfl⟩

theorem Underway.steps {n : Nat} {x : Seconds} {es : List (Event ε V)} (u : c.Underway n x)
    (s : Steps Step c es c') : c'.Underway n x := by
  induction s with
  | refl => exact u
  | snoc _ last ih => exact ih.step last

theorem underway_of_started {n s : Nat} {key : String} {now : Seconds}
    (h : Step c (.started n key s now) c') (begun : n < c.nextLookup) :
    c'.Underway n (now.later c.lifetime) := by
  obtain ⟨l, hl, rfl, -, -, rfl, rfl⟩ := h.started_inv
  refine ⟨begun, ?_⟩
  intro l' hl'
  rw [SortedMap.get?_insert, if_pos rfl] at hl'
  cases hl'
  exact .inl ⟨_, rfl⟩

/-- An entry is dropped, whether it is current or not. -/
def drop (c : Cache ε V) (key : String) : Cache ε V := { c with entries := c.entries.erase key }

/-- What holds of all entries holds of those that are left. -/
theorem Holds.drop (holds : c.Holds P) (key : String) : (c.drop key).Holds P where
  entries k e he := by
    rw [Cache.drop, SortedMap.get?_erase, Option.ite_none_left_eq_some] at he
    exact holds.entries k e he.2
  cached := holds.cached
  landed := holds.landed
  flights := holds.flights

end Cache

/-! Lookups in a world. -/

/-- What is set is there, and is all that is there. -/
def CacheOf.Lawful {V : Type} (k : CacheOf V) : Prop := ∀ c cache, k.get (k.set c cache) = cache

/-- A property of entries at a time that they keep as time goes on. -/
def Lasting {V : Type} (P : Seconds → Entry V → Prop) : Prop :=
  ∀ t u e, t ≤ u → P t e → P u e

namespace World

section Standing

variable {V : Type} {k : CacheOf V} {P Q : Entry V → Prop} {w v : World} {lookup : Nat}

/-- A result of a fetch is an entry with a property, whatever its number. -/
def Makes (P : Entry V → Prop) (x : Seconds) (r : Except LoadError V) : Prop :=
  ∀ s value, r = .ok value → P ⟨s, x, value⟩

/-- A lookup waits. If it is for the store, then what it will bring has a property. -/
structure Expects (k : CacheOf V) (P : Entry V → Prop) (w : World) (lookup : Nat)
    (fetch : Option (Suspended (Except LoadError V))) : Prop where
  begun : lookup < (w.cacheOf k).nextLookup
  fetch : ∀ work, fetch = some work →
    ∃ x, (w.cacheOf k).Underway lookup x ∧ work.Ends (Makes P x)

theorem Expects.kept {fetch : Option (Suspended (Except LoadError V))}
    {es : List (Cache.Event LoadError V)} (expects : w.Expects k P lookup fetch)
    (moves : Steps Cache.Step (w.cacheOf k) es (v.cacheOf k)) : v.Expects k P lookup fetch where
  begun := Nat.lt_of_lt_of_le expects.begun (Cache.Steps.numbers moves).1
  fetch work hw := by
    obtain ⟨x, underway, ends⟩ := expects.fetch work hw
    exact ⟨x, underway.steps moves, ends⟩

/-- No lookup minds that an entry is dropped. -/
theorem Expects.dropped {fetch : Option (Suspended (Except LoadError V))} {key : String}
    (expects : w.Expects k P lookup fetch) (drops : v.cacheOf k = (w.cacheOf k).drop key) :
    v.Expects k P lookup fetch where
  begun := drops ▸ expects.begun
  fetch work hw := by
    obtain ⟨x, ⟨begun, phase⟩, ends⟩ := expects.fetch work hw
    exact ⟨x, drops ▸ ⟨begun, phase⟩, ends⟩

theorem Expects.mono {fetch : Option (Suspended (Except LoadError V))}
    (expects : w.Expects k P lookup fetch) (weaker : ∀ e, P e → Q e) :
    w.Expects k Q lookup fetch where
  begun := expects.begun
  fetch work hw := by
    obtain ⟨x, underway, ends⟩ := expects.fetch work hw
    refine ⟨x, underway, fun result => ?_⟩
    exact (ends result).mono fun r makes s value hr => weaker _ (makes s value hr)

/-- What is to be said of where a lookup stands. -/
def Yields (k : CacheOf V) (P : Entry V → Prop) (wrap : Entry V → Answer) (w : World) :
    LookupStanding V → Prop
  | .answered answer =>
    ∃ found : Option (Entry V), answer = (found.map wrap).getD .none ∧ ∀ e, found = some e → P e
  | .waiting lookup fetch => w.Expects k P lookup fetch

end Standing

variable {V : Type} {k : CacheOf V} {P : Seconds → Entry V → Prop} {w v : World} {lookup : Nat}
  {wrap : Entry V → Answer} {key : String}

/-- A lookup has moved its cache and nobody else's lookups. The clock may have gone on meanwhile;
what is said of entries is said of them at its time. -/
structure Attends (k : CacheOf V) (P : Seconds → Entry V → Prop) (wrap : Entry V → Answer)
    (w : World) (r : LookupStanding V × World) : Prop where
  moves : ∃ es, Steps Cache.Step (w.cacheOf k) es (r.2.cacheOf k)
  onward : w.clock ≤ r.2.clock
  holds : (r.2.cacheOf k).Holds (P r.2.clock)
  yields : r.2.Yields k (P r.2.clock) wrap r.1

theorem Attends.before {r : LookupStanding V × World} {es : List (Cache.Event LoadError V)}
    (moves : Steps Cache.Step (w.cacheOf k) es (v.cacheOf k)) (onward : w.clock ≤ v.clock)
    (attends : v.Attends k P wrap r) : w.Attends k P wrap r := by
  obtain ⟨⟨es', later⟩, onward', holds, yields⟩ := attends
  exact ⟨⟨es ++ es', moves.trans later⟩, UInt64.le_trans onward onward', holds, yields⟩

section Lookups

variable (lawful : k.Lawful)

include lawful

theorem cacheOf_set (w : World) (cache : Cache LoadError V) :
    (w.setCache k cache).cacheOf k = cache := lawful w.catalog cache

theorem startFetch_cacheOf (w : World) (lookup : Nat) :
    (w.startFetch k lookup).cacheOf k = (w.cacheOf k).start lookup w.tick.clock :=
  cacheOf_set lawful w.tick _

theorem Attends.set {cache : Cache LoadError V} {es : List (Cache.Event LoadError V)}
    {r : LookupStanding V × World} (moves : Steps Cache.Step (w.cacheOf k) es cache)
    (attends : (w.setCache k cache).Attends k P wrap r) : w.Attends k P wrap r := by
  have moved : Steps Cache.Step (w.cacheOf k) es ((w.setCache k cache).cacheOf k) := by
    rwa [cacheOf_set lawful]
  exact .before moved (UInt64.le_refl _) attends

theorem concludeLookup_attends (holds : (w.cacheOf k).Holds (P w.clock))
    (begun : lookup < (w.cacheOf k).nextLookup) :
    w.Attends k P wrap (w.concludeLookup k wrap lookup key) := by
  rw [concludeLookup]
  split
  · rename_i answer cache concluded
    cases hl : (w.cacheOf k).lookups.get? lookup with
    | none => simp [Cache.conclude, hl] at concluded
    | some l =>
      have move : Cache.Step (w.cacheOf k) (.answered lookup l.key answer) cache :=
        .answered hl concluded
      refine .set lawful (.single move)
        ⟨⟨[], .refl⟩, UInt64.le_refl _, ?_, answer.entry?, rfl, ?_⟩
      · change ((w.setCache k cache).cacheOf k).Holds (P w.clock)
        rw [cacheOf_set lawful]
        exact holds.bare move (by simp)
      · exact fun e he => holds.answered move he
  · refine ⟨⟨[], .refl⟩, UInt64.le_refl _, holds, begun, ?_⟩
    intro work hw
    cases hw

/-- What a fetch brings is cached. -/
theorem continueFetch_attends (holds : (w.cacheOf k).Holds (P w.clock)) {x : Seconds}
    (underway : (w.cacheOf k).Underway lookup x)
    {p : Progress (Except LoadError V)} (ends : p.Ends (Makes (P w.clock) x)) :
    w.Attends k P wrap (continueFetch k wrap lookup key (p, w)) := by
  cases p with
  | suspended work =>
    refine ⟨⟨[], .refl⟩, UInt64.le_refl _, holds, underway.begun, ?_⟩
    rintro _ ⟨⟩
    exact ⟨x, underway, ends⟩
  | finished result =>
    obtain ⟨es, moves, held⟩ : ∃ es,
        Steps Cache.Step (w.cacheOf k) es ((w.cacheOf k).finish lookup result) ∧
          ((w.cacheOf k).finish lookup result).Holds (P w.clock) := by
      by_cases fetching : ∃ l s y, (w.cacheOf k).lookups.get? lookup = some l ∧
          l.phase = .fetching s y
      · obtain ⟨l, s, y, hl, hp⟩ := fetching
        have move : Cache.Step (w.cacheOf k) (.fetched lookup l.key s result) _ :=
          .fetched result hl hp
        refine ⟨_, .single move, holds.step move ?_⟩
        intro n l' s' y' value hl' hp' he
        obtain ⟨rfl, -, rfl, rfl⟩ := Cache.Event.fetched.inj he
        obtain rfl := Option.some.inj (hl.symm.trans hl')
        rcases underway.phase l hl with ⟨t, due⟩ | ⟨o, ended⟩
        · cases due.symm.trans hp'
          exact ends s value rfl
        · cases ended.symm.trans hp'
      · rw [Cache.finish_eq_self fun l s y hl hp => fetching ⟨l, s, y, hl, hp⟩]
        exact ⟨[], .refl, holds⟩
    refine .set lawful moves (concludeLookup_attends lawful ?_ ?_)
    · rwa [cacheOf_set lawful]
    · rw [cacheOf_set lawful]
      exact Nat.lt_of_lt_of_le underway.begun (Cache.Steps.numbers moves).1

/-- A fetch makes entries with a property at the time at which it starts, if they are stamped before
with the end of a lifetime. -/
def Fetches (P : Seconds → Entry V → Prop) (lifetime : UInt64) (fetch : Fallible LoadError V) :
    Prop :=
  ∀ (w : World) (stamped : Seconds), stamped ≤ w.clock →
    (w.run fetch.run).1.Ends (Makes (P w.clock) (stamped.later lifetime))

theorem startFetch_attends {fetch : Fallible LoadError V} (lasting : Lasting P)
    (holds : (w.cacheOf k).Holds (P w.clock)) (begun : lookup < (w.cacheOf k).nextLookup)
    (fetches : Fetches P (w.cacheOf k).lifetime fetch) {l : Cache.Lookup LoadError V}
    (hl : (w.cacheOf k).lookups.get? lookup = some l) (turn : (w.cacheOf k).hasTurn lookup)
    (miss : (w.cacheOf k).spare? lookup w.clock = none) :
    w.Attends k P wrap
      (continueFetch k wrap lookup key ((w.startFetch k lookup).run fetch.run)) := by
  have move := Cache.Step.started_later hl turn miss w.clock_le_tick
  rw [← startFetch_cacheOf lawful] at move
  have stamped : w.tick.clock ≤ (w.startFetch k lookup).clock := clock_le_tick _
  have onward := UInt64.le_trans w.clock_le_tick stamped
  have ends := fetches (w.startFetch k lookup) _ stamped
  have underway := Cache.underway_of_started move begun
  have held := (holds.mono fun e => lasting _ _ e onward).bare move (by simp)
  generalize w.startFetch k lookup = u at move onward ends underway held
  have ran : (u.run fetch.run).2.cacheOf k = u.cacheOf k := by rw [cacheOf, run_catalog, cacheOf]
  have still : (u.run fetch.run).2.clock = u.clock := run_clock _ u
  generalize u.run fetch.run = r at ran still ends
  obtain ⟨p, v⟩ := r
  dsimp only at ran still ends
  rw [← ran] at move underway held
  rw [← still] at onward ends held
  exact .before (.single move) onward (continueFetch_attends lawful held underway ends)

theorem continueLookup_attends {fetch : Fallible LoadError V} (lasting : Lasting P)
    (holds : (w.cacheOf k).Holds (P w.clock)) (begun : lookup < (w.cacheOf k).nextLookup)
    (fetches : Fetches P (w.cacheOf k).lifetime fetch) :
    w.Attends k P wrap (w.continueLookup k wrap fetch lookup key) := by
  rw [continueLookup]
  split
  · rename_i turn
    cases hl : (w.cacheOf k).lookups.get? lookup with
    | none => simp [Cache.hasTurn, hl] at turn
    | some l =>
      split
      · rename_i cache spares
        have move : Cache.Step (w.cacheOf k) (.spared lookup l.key w.clock) cache :=
          .spared hl turn spares
        refine .set lawful (.single move) (concludeLookup_attends lawful ?_ ?_)
        · rw [cacheOf_set lawful]
          exact holds.bare move (by simp)
        · rw [cacheOf_set lawful]
          exact Nat.lt_of_lt_of_le begun move.numbers.1
      · rename_i miss
        exact startFetch_attends lawful lasting holds begun fetches hl turn miss
  · exact concludeLookup_attends lawful holds begun

theorem beginLookup_attends {fetch : Fallible LoadError V} (lasting : Lasting P)
    (holds : (w.cacheOf k).Holds (P w.clock)) (fetches : Fetches P (w.cacheOf k).lifetime fetch) :
    w.Attends k P wrap (w.beginLookup k wrap fetch key) := by
  rw [beginLookup]
  split
  · rename_i entry cache hit
    have move : Cache.Step (w.cacheOf k) (.hit key w.clock entry) cache := .hit hit
    refine .set lawful (.single move)
      ⟨⟨[], .refl⟩, UInt64.le_refl _, ?_, some entry, rfl, ?_⟩
    · rw [cacheOf_set lawful]
      exact holds.bare move (by simp)
    · rintro _ ⟨⟩
      exact holds.hit move
  · rename_i lookup cache joined
    have move := Cache.Step.joined joined
    have moved : (w.setCache k cache).tick.cacheOf k = cache := cacheOf_set lawful w cache
    have onward : w.clock ≤ (w.setCache k cache).tick.clock := w.clock_le_tick
    refine .before (moved.symm ▸ Steps.single move) onward
      (continueLookup_attends lawful lasting ?_ ?_ ?_)
    · rw [moved]
      exact (holds.mono fun e => lasting _ _ e onward).bare move (by simp)
    · rw [moved]
      obtain ⟨_, rfl, _, rfl⟩ := move.joined_inv
      exact Nat.lt_succ_self _
    · rw [moved, move.numbers.2.2.2]
      exact fetches

theorem proceedFetch_attends {work : Suspended (Except LoadError V)}
    (holds : (w.cacheOf k).Holds (P w.clock))
    (expects : w.Expects k (P w.clock) lookup (some work)) :
    w.Attends k P wrap (continueFetch k wrap lookup key (w.resume work)) := by
  obtain ⟨x, underway, ends⟩ := expects.fetch work rfl
  have resumed : (w.resume work).2.cacheOf k = w.cacheOf k := by
    rw [cacheOf, resume_catalog, cacheOf]
  have clock : (w.resume work).2.clock = w.clock := resume_clock work w
  have ends := resume_ends ends w
  generalize w.resume work = r at resumed clock ends
  obtain ⟨p, u⟩ := r
  dsimp only at resumed clock ends
  have still : Steps Cache.Step (w.cacheOf k) [] (u.cacheOf k) := resumed ▸ .refl
  rw [← clock, ← resumed] at holds
  rw [← resumed] at underway
  rw [← clock] at ends
  exact .before still (UInt64.le_of_eq clock.symm)
    (continueFetch_attends lawful holds underway ends)

end Lookups

/-- The first lookup of all, if its fetch needs no wait. It begins, looks again, stamps its entry
and starts its fetch one after the other. -/
theorem beginLookup_of_empty (lawful : k.Lawful) (wrap : Entry V → Answer) (key : String)
    {lifetime : UInt64} {fetch : Fallible LoadError V} {result : Except LoadError V}
    {found : Option (Entry V)} (empty : w.cacheOf k = { lifetime })
    (ran : ∀ catalog, (({ w.tick.tick.tick with catalog } : World).run fetch.run).1 =
      .finished result)
    (brings : Cache.Answer.entry? (.first (w.tick.tick.clock.later lifetime) result) = found) :
    ∃ catalog store notices, w.beginLookup k wrap fetch key =
        (.answered ((found.map wrap).getD .none),
          { w.tick.tick.tick with catalog, store, notices }) ∧
      (k.get catalog).entries.get? key = found := by
  subst brings
  obtain ⟨c₁, c₂, begun, turn, miss, concluded, cached⟩ :=
    Cache.lookup_of_empty lifetime key w.clock w.tick.tick.clock result
  have joined : (w.setCache k c₁).tick.cacheOf k = c₁ := cacheOf_set lawful w c₁
  generalize hu : (w.setCache k c₁).tick.startFetch k 0 = u
  have started : u.cacheOf k = c₁.start 0 w.tick.tick.clock := by
    rw [← hu, startFetch_cacheOf lawful, joined]
    rfl
  have same : u = { w.tick.tick.tick with catalog := u.catalog } := by
    rw [← hu]
    rfl
  obtain ⟨store, notices, left⟩ := run_eq fetch.run u
  have ran : u.run fetch.run = (.finished result, { u with store, notices }) := by
    refine Prod.ext ?_ left
    rw [same]
    exact ran u.catalog
  have fetched : ({ u with store, notices } : World).cacheOf k = c₁.start 0 w.tick.tick.clock :=
    started
  have begins : w.beginLookup k wrap fetch key =
      (({ u with store, notices } : World).setCache k
        ((c₁.start 0 w.tick.tick.clock).finish 0 result)).concludeLookup k wrap 0 key := by
    simp only [beginLookup, empty, begun, continueLookup, joined, turn, if_true, miss, hu, ran,
      continueFetch, fetched]
  rw [begins]
  simp only [concludeLookup, cacheOf_set lawful, concluded]
  rw [same]
  refine ⟨_, _, _, rfl, ?_⟩
  change (k.get (k.set _ c₂)).entries.get? key = _
  rw [lawful, cached]

/-- A lookup of what is cached and current changes nothing but the cache. -/
theorem beginLookup_of_current (wrap : Entry V → Answer) (fetch : Fallible LoadError V)
    {entry : Entry V} (current : (w.cacheOf k).current? key w.clock = some entry) :
    ∃ cache, w.beginLookup k wrap fetch key = (.answered (wrap entry), w.setCache k cache) := by
  simp only [beginLookup, Cache.begin, current]
  exact ⟨_, rfl⟩

/-- A lookup that is given up leaves the entries alone. -/
theorem abandon_holds {P : Entry V → Prop} {c : Cache LoadError V} (holds : c.Holds P)
    (lookup : Nat) :
    ∃ es, Steps Cache.Step c es (c.abandon lookup) ∧ (c.abandon lookup).Holds P := by
  cases hl : c.lookups.get? lookup with
  | none =>
    have same : c.abandon lookup = c := by simp [Cache.abandon, hl]
    rw [same]
    exact ⟨[], .refl, holds⟩
  | some l =>
    have move : Cache.Step c (.givenUp lookup l.key) _ := .givenUp hl
    exact ⟨_, .single move, holds.bare move (by simp)⟩

end World
end ZoneCatalog
