import ZoneCatalog.Proofs.Cache.Blame

/-! Failures and failed fetches. Every lookup runs at most one fetch and ends once. If its fetch
fails it ends with the failure, unless it is given up; but it may also end with the failure of a
fetch that another lookup ran. -/
namespace ZoneCatalog.Cache

variable {ε V : Type} {c c' : Cache ε V} {h : List (Event ε V)}

/-- The lookup that is answered after a failed fetch. -/
def Event.failure? : Event ε V → Option Nat
  | .answered n _ answer => answer.cause?.map fun _ => n
  | .hit .. | .joined .. | .spared .. | .started .. | .fetched .. | .givenUp .. => none

/-- The lookup whose own fetch fails. -/
def Event.failedFetch? : Event ε V → Option Nat
  | .fetched n _ _ (.error _) => some n
  | .fetched _ _ _ (.ok _) => none
  | .hit .. | .joined .. | .spared .. | .started .. | .answered .. | .givenUp .. => none

def Event.abandoned? : Event ε V → Option Nat
  | .givenUp n _ => some n
  | .hit .. | .joined .. | .spared .. | .started .. | .fetched .. | .answered .. => none

/-- The lookups answered after a failed fetch, their own or another's. -/
def failures (h : List (Event ε V)) : List Nat := h.filterMap Event.failure?

/-- The failed fetches, by the lookups that ran them. -/
def failedFetches (h : List (Event ε V)) : List Nat := h.filterMap Event.failedFetch?

def abandoned (h : List (Event ε V)) : List Nat := h.filterMap Event.abandoned?

/-- A lookup has been answered after a failure or given up. -/
def Ended (h : List (Event ε V)) (n : Nat) : Prop := n ∈ failures h ∨ n ∈ abandoned h

/-- Every lookup ends once and runs at most one fetch; if this fails, the lookup ends with the
failure unless it is given up. -/
structure Settled (h : List (Event ε V)) (c : Cache ε V) : Prop where
  ended : ∀ n, Ended h n → n < c.nextLookup ∧ c.lookups.get? n = none
  failures_once : (failures h).Nodup
  abandoned_once : (abandoned h).Nodup
  apart : ∀ n ∈ failures h, n ∉ abandoned h
  failed_once : (failedFetches h).Nodup
  failed : ∀ n ∈ failedFetches h, n < c.nextLookup ∧
    ∀ l, c.lookups.get? n = some l → ∃ cause, l.phase = .landed (.error cause)
  failed_ended : ∀ n ∈ failedFetches h, c.lookups.get? n = none → Ended h n

section Snoc

variable {e : Event ε V} {n : Nat}

private theorem filterMap_snoc {α β : Type} (f : α → Option β) (xs : List α) (x : α) :
    (xs ++ [x]).filterMap f = xs.filterMap f ++ (f x).toList := by
  rw [List.filterMap_append]
  cases hx : f x <;> simp [hx]

private theorem mem_filterMap_snoc {α β : Type} {f : α → Option β} {xs : List α} {x : α} {y : β} :
    y ∈ (xs ++ [x]).filterMap f ↔ y ∈ xs.filterMap f ∨ f x = some y := by
  simp [eq_comm]

private theorem nodup_snoc {xs : List Nat} (o : Option Nat) (once : xs.Nodup)
    (new : ∀ n, o = some n → n ∉ xs) : (xs ++ o.toList).Nodup := by
  cases o with
  | none => simpa using once
  | some n =>
    refine List.nodup_append.2 ⟨once, by simp, fun a ha b hb same => ?_⟩
    obtain rfl := List.mem_singleton.1 hb
    exact new b rfl (same ▸ ha)

/-- A move that answers a lookup after a failure or gives it up. -/
def Event.Ends (e : Event ε V) (n : Nat) : Prop := e.failure? = some n ∨ e.abandoned? = some n

theorem ended_snoc : Ended (h ++ [e]) n ↔ Ended h n ∨ e.Ends n := by
  simp only [Ended, Event.Ends, failures, abandoned, mem_filterMap_snoc]
  tauto

/-- A lookup that ends was under way. -/
theorem Step.of_ends (s : Step c e c') (ends : e.Ends n) :
    (∃ l, c.lookups.get? n = some l) ∧ c'.lookups.get? n = none := by
  cases e with
  | answered m key a =>
    rcases ends with failure | given
    · obtain ⟨cause, after, rfl⟩ := Option.map_eq_some_iff.1 failure
      obtain ⟨l, -, hl, -⟩ := s.answered_inv
      exact ⟨⟨l, hl⟩, s.lookup_over (.inr ⟨a, rfl⟩)⟩
    · cases given
  | givenUp m key =>
    rcases ends with failure | given
    · cases failure
    · obtain rfl := Option.some.inj given
      have gone := s.lookup_over (.inl rfl)
      cases s with
      | givenUp hl => exact ⟨⟨_, hl⟩, gone⟩
  | _ => rcases ends with failure | given <;> contradiction

/-- A lookup that runs a fetch as it fails. -/
theorem Step.of_failedFetch (hc : Sound c) (s : Step c e c') (failed : e.failedFetch? = some n) :
    (∃ l t x, c.lookups.get? n = some l ∧ l.phase = .fetching t x) ∧
      ∃ l cause, c'.lookups.get? n = some l ∧ l.phase = .landed (.error cause) := by
  cases e with
  | fetched m key t result =>
    cases result with
    | ok v => cases failed
    | error cause =>
      obtain rfl := Option.some.inj failed
      obtain ⟨l, x, hl, rfl, hp, rfl⟩ := s.fetched_inv
      obtain ⟨f, hf, hn, -⟩ := hc.fetching m l t x hl hp
      refine ⟨⟨l, t, x, hl, hp⟩, { l with phase := .landed (.error cause) }, cause, ?_, rfl⟩
      rw [finish_error hl hp, land_lookups, hl, Option.map_some, if_pos ⟨f, hf, rfl, hn.symm⟩]
  | _ => cases failed

theorem Step.gone (s : Step c e c') (old : n < c.nextLookup) (gone : c.lookups.get? n = none) :
    c'.lookups.get? n = none := by
  refine Option.eq_none_iff_forall_ne_some.2 fun l' hl' => ?_
  obtain ⟨l, hl, -⟩ := s.lookup_same hl' old
  rw [gone] at hl
  cases hl

/-- What a flight has come to is not changed any more. -/
theorem Step.landed_same (hc : Sound c) (s : Step c e c') {l l' : Lookup ε V} {o : Outcome ε V}
    (hl : c.lookups.get? n = some l) (hp : l.phase = .landed o)
    (hl' : c'.lookups.get? n = some l') : l'.phase = .landed o := by
  have next := hl' ▸ s.lookup n
  rw [hl] at next
  cases next with
  | kept => exact hp
  | begun hm => exact absurd (hc.lookup_lt n l hl) (by omega)
  | started turn =>
    rw [((hasTurn_iff hl).1 turn).1] at hp
    cases hp
  | landed lands hf hn =>
    have ended := hc.landed n l o _ hl hp hf hn.symm
    rw [lands.flight_open hc hf] at ended
    cases ended

/-- A lookup whose flight has failed goes only by being answered with the failure or given up. -/
theorem Step.ends_of_gone (s : Step c e c') {l : Lookup ε V} {cause : ε}
    (hl : c.lookups.get? n = some l) (hp : l.phase = .landed (.error cause))
    (gone : c'.lookups.get? n = none) : e.Ends n := by
  have next := s.lookup n
  rw [hl, gone] at next
  cases next with
  | answered hp' =>
    obtain rfl := Phase.landed.inj (hp.symm.trans hp')
    exact .inl (by simp [Event.failure?, cause?_answerOf.2])
  | givenUp => exact .inr rfl

end Snoc

namespace Settled

theorem empty (lifetime : UInt64) : Settled [] ({ lifetime } : Cache ε V) := by
  constructor <;> simp [Ended, failures, abandoned, failedFetches]

theorem step (settled : Settled h c) (hc : Sound c) {e : Event ε V} (s : Step c e c') :
    Settled (h ++ [e]) c' := by
  have grows := s.numbers.1
  have new : ∀ n, e.Ends n → ¬ Ended h n := by
    intro n ends past
    obtain ⟨l, hl⟩ := (s.of_ends ends).1
    rw [(settled.ended n past).2] at hl
    cases hl
  refine ⟨?ended, ?failures_once, ?abandoned_once, ?apart, ?failed_once, ?failed, ?failed_ended⟩
  case ended =>
    intro n past
    rcases ended_snoc.1 past with past | ends
    · obtain ⟨old, gone⟩ := settled.ended n past
      exact ⟨by omega, s.gone old gone⟩
    · obtain ⟨⟨l, hl⟩, gone⟩ := s.of_ends ends
      exact ⟨Nat.lt_of_lt_of_le (hc.lookup_lt n l hl) grows, gone⟩
  case failures_once =>
    rw [failures, filterMap_snoc]
    exact nodup_snoc _ settled.failures_once fun n hn past => new n (.inl hn) (.inl past)
  case abandoned_once =>
    rw [abandoned, filterMap_snoc]
    exact nodup_snoc _ settled.abandoned_once fun n hn past => new n (.inr hn) (.inr past)
  case apart =>
    intro n hn given
    rcases mem_filterMap_snoc.1 hn with failed | failed
    · rcases mem_filterMap_snoc.1 given with given | given
      · exact settled.apart n failed given
      · exact new n (.inr given) (.inl failed)
    · rcases mem_filterMap_snoc.1 given with given | given
      · exact new n (.inl failed) (.inr given)
      · cases e <;> simp [Event.failure?, Event.abandoned?] at failed given
  case failed_once =>
    rw [failedFetches, filterMap_snoc]
    refine nodup_snoc _ settled.failed_once fun n hn before => ?_
    obtain ⟨⟨l, t, x, hl, fetching⟩, -⟩ := s.of_failedFetch hc hn
    obtain ⟨cause, landed⟩ := (settled.failed n before).2 l hl
    rw [fetching] at landed
    cases landed
  case failed =>
    intro n hn
    rcases mem_filterMap_snoc.1 hn with before | now
    · obtain ⟨old, landed⟩ := settled.failed n before
      refine ⟨by omega, fun l' hl' => ?_⟩
      obtain ⟨l, hl, -⟩ := s.lookup_same hl' old
      obtain ⟨cause, hp⟩ := landed l hl
      exact ⟨cause, s.landed_same hc hl hp hl'⟩
    · obtain ⟨⟨l, t, x, hl, -⟩, l₁, cause, hl₁, hp⟩ := s.of_failedFetch hc now
      refine ⟨Nat.lt_of_lt_of_le (hc.lookup_lt n l hl) grows, fun l' hl' => ?_⟩
      obtain rfl := Option.some.inj (hl₁.symm.trans hl')
      exact ⟨cause, hp⟩
  case failed_ended =>
    intro n hn gone
    rcases mem_filterMap_snoc.1 hn with before | now
    · refine ended_snoc.2 ?_
      cases hl : c.lookups.get? n with
      | none => exact .inl (settled.failed_ended n before hl)
      | some l =>
        obtain ⟨cause, hp⟩ := (settled.failed n before).2 l hl
        exact .inr (s.ends_of_gone hl hp gone)
    · obtain ⟨-, l₁, -, hl₁, -⟩ := s.of_failedFetch hc now
      rw [gone] at hl₁
      cases hl₁

end Settled

theorem Run.settled {lifetime : UInt64} (run : Run lifetime h c) : Settled h c :=
  run.preserves (.empty lifetime) fun settled hc s => settled.step hc s

end ZoneCatalog.Cache
