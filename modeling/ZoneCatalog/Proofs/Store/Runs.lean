import ZoneCatalog.Store.Program

/-! Runs of work: what it asks and is answered, in order, up to its result. Nothing binds one answer
to another, so what holds of all runs holds over every store, also one that fails at some requests
and serves the others. -/
namespace ZoneCatalog

variable {α β ε : Type}

namespace Program

/-- What is seen of work. -/
inductive Event where
  | answered (request : StoreRequest) (result : request.Result)
  | looked (now : Seconds)
  | reported (notice : Notice)

/-- Work comes to a result, and this is seen of it. -/
inductive Yields : Program α → List Event → α → Prop where
  | done (result : α) : (done result).Yields [] result
  | ask {request : StoreRequest} {next : request.Result → Program α} {h : List Event} {a : α}
      (result : request.Result) (rest : (next result).Yields h a) :
      (ask request next).Yields (.answered request result :: h) a
  | time {next : Seconds → Program α} {h : List Event} {a : α} (now : Seconds)
      (rest : (next now).Yields h a) : (time next).Yields (.looked now :: h) a
  | report {notice : Notice} {p : Program α} {h : List Event} {a : α} (rest : p.Yields h a) :
      (report notice p).Yields (.reported notice :: h) a

variable {p : Program α} {f : α → Program β} {h : List Event} {a : α} {b : β}

@[simp] theorem yields_done {x : α} : (done x).Yields h a ↔ h = [] ∧ a = x := by
  constructor
  · rintro ⟨⟩
    exact ⟨rfl, rfl⟩
  · rintro ⟨rfl, rfl⟩
    exact .done _

@[simp] theorem yields_ask {request : StoreRequest} {next : request.Result → Program α} :
    (ask request next).Yields h a ↔
      ∃ result rest, h = .answered request result :: rest ∧ (next result).Yields rest a := by
  constructor
  · rintro (_ | ⟨result, rest⟩)
    exact ⟨result, _, rfl, rest⟩
  · rintro ⟨result, _, rfl, rest⟩
    exact .ask result rest

@[simp] theorem yields_report {notice : Notice} :
    (report notice p).Yields h a ↔ ∃ rest, h = .reported notice :: rest ∧ p.Yields rest a := by
  constructor
  · rintro (_ | _ | _ | ⟨rest⟩)
    exact ⟨_, rfl, rest⟩
  · rintro ⟨_, rfl, rest⟩
    exact .report rest

/-- Work comes to a result whatever is answered to it. -/
theorem exists_yields (serve : (request : StoreRequest) → request.Result) (p : Program α) :
    ∃ h a, p.Yields h a ∧ ∀ request result, .answered request result ∈ h →
      result = serve request := by
  induction p with
  | done a => exact ⟨[], a, .done a, by simp⟩
  | ask request next ih =>
    obtain ⟨h, a, run, told⟩ := ih (serve request)
    refine ⟨_, a, .ask _ run, fun request' result mem => ?_⟩
    rcases List.mem_cons.1 mem with first | later
    · cases first
      rfl
    · exact told request' result later
  | time next ih =>
    obtain ⟨h, a, run, told⟩ := ih 0
    exact ⟨_, a, .time 0 run, by simpa using told⟩
  | report notice p ih =>
    obtain ⟨h, a, run, told⟩ := ih
    exact ⟨_, a, .report run, by simpa using told⟩

/-- Work after work: what is seen of it falls into two parts. -/
theorem yields_bind : (p >>= f).Yields h b ↔
    ∃ h₁ h₂ a, h = h₁ ++ h₂ ∧ p.Yields h₁ a ∧ (f a).Yields h₂ b := by
  constructor
  · intro run
    induction p generalizing h with
    | done a => exact ⟨[], h, a, rfl, .done a, run⟩
    | ask request next ih =>
      obtain ⟨result, rest, rfl, goes⟩ := yields_ask.1 run
      obtain ⟨h₁, h₂, a, rfl, first, second⟩ := ih result goes
      exact ⟨_ :: h₁, h₂, a, rfl, .ask result first, second⟩
    | time next ih =>
      obtain _ | _ | ⟨now, goes⟩ := run
      obtain ⟨h₁, h₂, a, rfl, first, second⟩ := ih now goes
      exact ⟨_ :: h₁, h₂, a, rfl, .time now first, second⟩
    | report notice p ih =>
      obtain ⟨rest, rfl, goes⟩ := yields_report.1 run
      obtain ⟨h₁, h₂, a, rfl, first, second⟩ := ih goes
      exact ⟨_ :: h₁, h₂, a, rfl, .report first, second⟩
  · rintro ⟨h₁, h₂, a, rfl, first, second⟩
    induction first with
    | done a => exact second
    | ask result _ ih => exact .ask result (ih second)
    | time now _ ih => exact .time now (ih second)
    | report _ ih => exact .report (ih second)

end Program

namespace Fallible

open Program (Event)

variable {x : Fallible ε α} {f : α → Fallible ε β} {h : List Event}

/-- Work that can fail, one after the other: a failure of the first is one of both. -/
theorem yields_bind {r : Except ε β} : (x >>= f).run.Yields h r ↔
    (∃ cause, r = .error cause ∧ x.run.Yields h (.error cause)) ∨
      ∃ h₁ h₂ a, h = h₁ ++ h₂ ∧ x.run.Yields h₁ (.ok a) ∧ (f a).run.Yields h₂ r := by
  rw [ExceptT.run_bind, Program.yields_bind]
  constructor
  · rintro ⟨h₁, h₂, result, rfl, first, second⟩
    cases result with
    | error cause =>
      obtain ⟨rfl, rfl⟩ := Program.yields_done.1 second
      exact .inl ⟨cause, rfl, by simpa using first⟩
    | ok a => exact .inr ⟨h₁, h₂, a, rfl, first, second⟩
  · rintro (⟨cause, rfl, first⟩ | ⟨h₁, h₂, a, rfl, first, second⟩)
    · exact ⟨h, [], .error cause, by simp, first, .done _⟩
    · exact ⟨h₁, h₂, .ok a, rfl, first, second⟩

theorem yields_ofExcept {y r : Except ε α} :
    (Fallible.ofExcept y).run.Yields h r ↔ h = [] ∧ r = y := Program.yields_done

theorem yields_request {wrap : StoreError → ε} {request : StoreRequest}
    {r : Except ε request.Reply} : (Fallible.request wrap request).run.Yields h r ↔
      ∃ result, h = [.answered request result] ∧ r = result.mapError wrap := by
  refine Program.yields_ask.trans ⟨?_, ?_⟩
  · rintro ⟨result, rest, rfl, last⟩
    obtain ⟨rfl, rfl⟩ := Program.yields_done.1 last
    exact ⟨result, rfl, rfl⟩
  · rintro ⟨result, rfl, rfl⟩
    exact ⟨result, [], rfl, .done _⟩

theorem yields_lift {p : Program α} {r : Except ε α} :
    (liftM p : Fallible ε α).run.Yields h r ↔ ∃ a, r = .ok a ∧ p.Yields h a := by
  have lifted : (liftM p : Fallible ε α).run = p >>= fun a => .done (.ok a) := rfl
  rw [lifted, Program.yields_bind]
  constructor
  · rintro ⟨h₁, h₂, a, rfl, run, last⟩
    obtain ⟨rfl, rfl⟩ := Program.yields_done.1 last
    exact ⟨a, rfl, by simpa using run⟩
  · rintro ⟨a, rfl, run⟩
    exact ⟨h, [], a, by simp, run, .done _⟩

/-! The first step of work, and the rest of it. -/

section First

variable {r : Except ε β}

theorem yields_ofExcept_bind {y : Except ε α} : (Fallible.ofExcept y >>= f).run.Yields h r ↔
    (∃ cause, y = .error cause ∧ h = [] ∧ r = .error cause) ∨
      ∃ a, y = .ok a ∧ (f a).run.Yields h r := by
  cases y with
  | error cause =>
    have failed : (Fallible.ofExcept (.error cause) >>= f).run = .done (.error cause) := rfl
    simp [failed]
  | ok a =>
    have goes : (Fallible.ofExcept (.ok a) >>= f).run = (f a).run := rfl
    simp [goes]

theorem yields_request_bind {wrap : StoreError → ε} {request : StoreRequest}
    {f : request.Reply → Fallible ε β} :
    (Fallible.request wrap request >>= f).run.Yields h r ↔
      (∃ cause, h = [.answered request (.error cause)] ∧ r = .error (wrap cause)) ∨
        ∃ reply rest, h = .answered request (.ok reply) :: rest ∧ (f reply).run.Yields rest r := by
  refine Program.yields_ask.trans ⟨?_, ?_⟩
  · rintro ⟨result, rest, rfl, run⟩
    cases result with
    | error cause =>
      obtain ⟨rfl, rfl⟩ := Program.yields_done.1 run
      exact .inl ⟨cause, rfl, rfl⟩
    | ok reply => exact .inr ⟨reply, rest, rfl, run⟩
  · rintro (⟨cause, rfl, rfl⟩ | ⟨reply, rest, rfl, run⟩)
    · exact ⟨.error cause, [], rfl, .done _⟩
    · exact ⟨.ok reply, rest, rfl, run⟩

theorem yields_lift_bind {p : Program α} : ((liftM p : Fallible ε α) >>= f).run.Yields h r ↔
    ∃ h₁ h₂ a, h = h₁ ++ h₂ ∧ p.Yields h₁ a ∧ (f a).run.Yields h₂ r := by
  simp only [yields_bind, yields_lift]
  constructor
  · rintro (⟨cause, rfl, a, ⟨⟩, run⟩ | ⟨h₁, h₂, a, rfl, ⟨_, ⟨⟩, first⟩, rest⟩)
    exact ⟨h₁, h₂, a, rfl, first, rest⟩
  · rintro ⟨h₁, h₂, a, rfl, first, rest⟩
    exact .inr ⟨h₁, h₂, a, rfl, ⟨a, rfl, first⟩, rest⟩

end First

/-- No request failed. -/
def Served (h : List Event) : Prop := ∀ request cause, .answered request (.error cause) ∉ h

theorem Served.append {h₁ h₂ : List Event} (first : Served h₁) (second : Served h₂) :
    Served (h₁ ++ h₂) := by
  intro request cause mem
  exact (List.mem_append.1 mem).elim (first request cause) (second request cause)

/-- What work that can fail comes to. It fails as the store does once a request fails, or else comes
to a good result or fails for a reason of its own. -/
inductive Outcome (wrap : StoreError → ε) (asks : StoreRequest → Prop)
    (good : List Event → α → Prop) (bad : List Event → ε → Prop) :
    List Event → Except ε α → Prop where
  | failed {h : List Event} {request : StoreRequest} (asked : asks request) (cause : StoreError)
      (served : Served h) :
      Outcome wrap asks good bad (h ++ [.answered request (.error cause)]) (.error (wrap cause))
  | refused {h : List Event} {cause : ε} (served : Served h) (reason : bad h cause) :
      Outcome wrap asks good bad h (.error cause)
  | fine {h : List Event} {a : α} (served : Served h) (result : good h a) :
      Outcome wrap asks good bad h (.ok a)

/-- Whatever is answered to it, work passes failures of the store on, and has its own failures and
its results as described. -/
def Meets (wrap : StoreError → ε) (asks : StoreRequest → Prop) (x : Fallible ε α)
    (good : List Event → α → Prop) (bad : List Event → ε → Prop) : Prop :=
  ∀ h r, x.run.Yields h r → Outcome wrap asks good bad h r

variable {wrap : StoreError → ε} {asks : StoreRequest → Prop} {good : List Event → α → Prop}
  {bad : List Event → ε → Prop}

theorem Meets.ofExcept (y : Except ε α) :
    Meets wrap asks (Fallible.ofExcept y) (fun h a => h = [] ∧ y = .ok a)
      (fun h cause => h = [] ∧ y = .error cause) := by
  intro h r run
  obtain ⟨rfl, rfl⟩ := yields_ofExcept.1 run
  have served : Served [] := fun _ _ => List.not_mem_nil
  cases r with
  | error cause => exact .refused served ⟨rfl, rfl⟩
  | ok a => exact .fine served ⟨rfl, rfl⟩

theorem Meets.request {request : StoreRequest} (asked : asks request) :
    Meets wrap asks (Fallible.request wrap request)
      (fun h reply => h = [.answered request (.ok reply)]) (fun _ _ => False) := by
  intro h r run
  obtain ⟨result, rfl, rfl⟩ := yields_request.1 run
  cases result with
  | error cause => exact .failed (h := []) asked cause fun _ _ => List.not_mem_nil
  | ok reply =>
    refine .fine ?_ rfl
    intro request' cause mem
    cases List.mem_singleton.1 mem

theorem Meets.bind {good' : α → List Event → β → Prop} {bad' : α → List Event → ε → Prop}
    (first : Meets wrap asks x good bad) (second : ∀ a, Meets wrap asks (f a) (good' a) (bad' a)) :
    Meets wrap asks (x >>= f)
      (fun h b => ∃ h₁ h₂ a, h = h₁ ++ h₂ ∧ good h₁ a ∧ good' a h₂ b)
      (fun h cause => bad h cause ∨ ∃ h₁ h₂ a, h = h₁ ++ h₂ ∧ good h₁ a ∧ bad' a h₂ cause) := by
  intro h r run
  rcases yields_bind.1 run with ⟨cause, rfl, failing⟩ | ⟨h₁, h₂, a, rfl, front, rest⟩
  · cases first _ _ failing with
    | failed asked cause served => exact .failed asked cause served
    | refused served reason => exact .refused served (.inl reason)
  · obtain _ | _ | ⟨served, result⟩ := first _ _ front
    cases second a _ _ rest with
    | failed asked cause served' =>
      rw [← List.append_assoc]
      exact .failed asked cause (served.append served')
    | refused served' reason =>
      exact .refused (served.append served') (.inr ⟨h₁, h₂, a, rfl, result, reason⟩)
    | fine served' result' => exact .fine (served.append served') ⟨h₁, h₂, a, rfl, result, result'⟩

theorem Meets.mono {good' : List Event → α → Prop} {bad' : List Event → ε → Prop}
    (spec : Meets wrap asks x good bad) (results : ∀ h a, good h a → good' h a)
    (reasons : ∀ h cause, bad h cause → bad' h cause) : Meets wrap asks x good' bad' := by
  intro h r run
  cases spec h r run with
  | failed asked cause served => exact .failed asked cause served
  | refused served reason => exact .refused served (reasons _ _ reason)
  | fine served result => exact .fine served (results _ _ result)

section Meets

variable {r : Except ε α} (spec : Meets wrap asks x good bad)

include spec

/-- A request that failed is why the work failed. -/
theorem Meets.of_failed {request : StoreRequest} {cause : StoreError} (run : x.run.Yields h r)
    (he : .answered request (.error cause) ∈ h) : asks request ∧ r = .error (wrap cause) := by
  cases spec h r run with
  | failed asked _ served =>
    rcases List.mem_append.1 he with early | last
    · exact absurd early (served request cause)
    · cases List.mem_singleton.1 last
      exact ⟨asked, rfl⟩
  | refused served reason => exact absurd he (served request cause)
  | fine served result => exact absurd he (served request cause)

theorem Meets.of_error {cause : ε} (run : x.run.Yields h (.error cause)) :
    (∃ request fault, asks request ∧ .answered request (.error fault) ∈ h ∧ cause = wrap fault) ∨
      Served h ∧ bad h cause := by
  cases spec h _ run with
  | failed asked fault served => exact .inl ⟨_, fault, asked, by simp, rfl⟩
  | refused served reason => exact .inr ⟨served, reason⟩

theorem Meets.of_ok {a : α} (run : x.run.Yields h (.ok a)) : Served h ∧ good h a := by
  cases spec h _ run with
  | fine served result => exact ⟨served, result⟩

end Meets

end Fallible
end ZoneCatalog
