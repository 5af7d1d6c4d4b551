import Mathlib.Data.List.Induction

/-! Steps of a system one after the other, with what is seen of each. -/
namespace ZoneCatalog

variable {σ ε : Type}

/-- Steps one after the other, with what is seen of them in order. -/
inductive Steps (step : σ → ε → σ → Prop) (s : σ) : List ε → σ → Prop where
  | refl : Steps step s [] s
  | snoc {h : List ε} {s₁ s₂ : σ} {e : ε} (before : Steps step s h s₁) (last : step s₁ e s₂) :
      Steps step s (h ++ [e]) s₂

namespace Steps

variable {step : σ → ε → σ → Prop} {s s₁ s₂ : σ} {h h₁ h₂ : List ε}

theorem single {e : ε} (one : step s e s₁) : Steps step s [e] s₁ := .snoc .refl one

theorem trans (first : Steps step s h₁ s₁) (second : Steps step s₁ h₂ s₂) :
    Steps step s (h₁ ++ h₂) s₂ := by
  induction second with
  | refl => simpa using first
  | snoc _ last ih => simpa [List.append_assoc] using ih.snoc last

theorem nil_inv (steps : Steps step s [] s₁) : s₁ = s := by
  generalize hk : ([] : List ε) = k at steps
  cases steps with
  | refl => rfl
  | snoc => simp at hk

theorem snoc_inv {e : ε} (steps : Steps step s (h ++ [e]) s₂) :
    ∃ s₁, Steps step s h s₁ ∧ step s₁ e s₂ := by
  generalize hk : h ++ [e] = k at steps
  cases steps with
  | refl => simp at hk
  | snoc before last =>
    obtain ⟨rfl, he⟩ := List.append_inj' hk rfl
    obtain rfl := List.singleton_inj.1 he
    exact ⟨_, before, last⟩

/-- Steps can be cut in two at any point of what was seen. -/
theorem split (h₂ : List ε) (steps : Steps step s (h₁ ++ h₂) s₂) :
    ∃ s₁, Steps step s h₁ s₁ ∧ Steps step s₁ h₂ s₂ := by
  induction h₂ using List.reverseRecOn generalizing s₂ with
  | nil => exact ⟨s₂, by simpa using steps, .refl⟩
  | append_singleton rest e ih =>
    rw [← List.append_assoc] at steps
    obtain ⟨s', before, last⟩ := steps.snoc_inv
    obtain ⟨s₁, first, second⟩ := ih before
    exact ⟨s₁, first, second.snoc last⟩

theorem cons_inv {e : ε} (steps : Steps step s (e :: h) s₂) :
    ∃ s₁, step s e s₁ ∧ Steps step s₁ h s₂ := by
  obtain ⟨s₁, first, rest⟩ : ∃ s₁, Steps step s ([] ++ [e]) s₁ ∧ Steps step s₁ h s₂ :=
    steps.split h
  obtain ⟨s₀, start, last⟩ := first.snoc_inv
  obtain rfl := start.nil_inv
  exact ⟨s₁, last, rest⟩

/-- Whatever was seen was seen of a step. -/
theorem mem_inv {e : ε} (steps : Steps step s h s₂) (he : e ∈ h) : ∃ h₁ h₂ s₀ s₁,
    h = h₁ ++ e :: h₂ ∧ Steps step s h₁ s₀ ∧ step s₀ e s₁ ∧ Steps step s₁ h₂ s₂ := by
  obtain ⟨h₁, h₂, rfl⟩ := List.append_of_mem he
  obtain ⟨s₀, before, rest⟩ := steps.split
  obtain ⟨s₁, here, after⟩ := rest.cons_inv
  exact ⟨h₁, h₂, s₀, s₁, rfl, before, here, after⟩

/-- What every step preserves along with what has been seen holds at the end. -/
theorem preserves {P : List ε → σ → Prop} (start : P h s)
    (each : ∀ h₀ s₀ e s₁, P h₀ s₀ → step s₀ e s₁ → P (h₀ ++ [e]) s₁)
    (steps : Steps step s h₁ s₁) : P (h ++ h₁) s₁ := by
  induction steps with
  | refl => simpa using start
  | snoc before last ih =>
    rw [← List.append_assoc]
    exact each _ _ _ _ ih last

end Steps
end ZoneCatalog
