/-! When a computation that can fail succeeds, which takes that every part of it does, and when it
fails, which takes that one of them does. -/
namespace Except

variable {ε ε' α β : Type} {x : Except ε α} {b : β}

@[simp]
theorem ok_bind (a : α) (f : α → Except ε β) : ok a >>= f = f a := rfl

@[simp]
theorem fmap_ok (a : α) (f : α → β) : f <$> (ok a : Except ε α) = ok (f a) := rfl

theorem bind_eq_ok {f : α → Except ε β} : x >>= f = .ok b ↔ ∃ a, x = .ok a ∧ f a = .ok b := by
  cases x <;> simp [bind, Except.bind]

theorem bind_eq_error {f : α → Except ε β} {e : ε} :
    x >>= f = .error e ↔ x = .error e ∨ ∃ a, x = .ok a ∧ f a = .error e := by
  cases x <;> simp [bind, Except.bind]

theorem map_eq_ok {f : α → β} : x.map f = .ok b ↔ ∃ a, x = .ok a ∧ f a = b := by
  cases x <;> simp [Except.map]

theorem mapError_eq_ok {f : ε → ε'} {a : α} : x.mapError f = .ok a ↔ x = .ok a := by
  cases x with
  | error cause => exact iff_of_false nofun nofun
  | ok b => exact ⟨fun h => congrArg ok (ok.inj h), fun h => congrArg ok (ok.inj h)⟩

theorem mapError_eq_error {f : ε → ε'} {e : ε'} :
    x.mapError f = .error e ↔ ∃ cause, x = .error cause ∧ f cause = e := by
  constructor
  · intro h
    cases x with
    | error cause => exact ⟨cause, rfl, error.inj h⟩
    | ok b => cases h
  · rintro ⟨cause, rfl, rfl⟩
    rfl

end Except
