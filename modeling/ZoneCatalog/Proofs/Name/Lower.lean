import ZoneCatalog.Name.Lower
import ZoneCatalog.Proofs.Name.Caseless

/-! Names in small letters. Lowering a second time changes nothing, names that differ in case alone
have one lowered form, and the count of labels that signatures hold is the same for all of them. -/
namespace ZoneCatalog

namespace Label

private theorem toLower_eq_star {c : Char} (h : c.toNat < 128) : c.toLower = '*' ↔ c = '*' := by
  have all : ∀ n : Fin 128, (Char.ofNat n).toLower = '*' ↔ Char.ofNat n = '*' := by decide
  rw [← Char.ofNat_toNat c]
  exact all ⟨c.toNat, h⟩

theorem lower_eq_lower_iff {l k : Label} : l.lower = k.lower ↔ l.folded = k.folded :=
  ⟨congrArg Label.chars, fun h => chars_injective h⟩

@[simp] theorem lower_lower (l : Label) : l.lower.lower = l.lower := by
  rw [lower_eq_lower_iff]
  simp only [folded, lower, Text.fold, List.map_map]
  exact List.map_congr_left fun c _ => Text.toLower_toLower c

@[simp] theorem isWildcard_lower (l : Label) : l.lower.isWildcard = l.isWildcard := by
  rw [Bool.eq_iff_iff]
  simp only [isWildcard, lower, folded, Text.fold, beq_iff_eq]
  constructor
  · intro h
    obtain ⟨c, hc⟩ : ∃ c, l.chars = [c] :=
      List.length_eq_one_iff.1 (by simpa using congrArg List.length h)
    have star : c.toLower = '*' := by simpa [hc] using h
    rw [hc, (toLower_eq_star (l.ascii c (by simp [hc]))).1 star]
  · intro h
    rw [h]
    rfl

end Label

namespace DomainName

theorem lower_labels (name : DomainName) : name.lower.labels = name.labels.map Label.lower := rfl

@[simp] theorem lower_lower (name : DomainName) : name.lower.lower = name.lower := by
  simp [lower]

/-- Names are the same if and only if their lowered labels are. -/
theorem same_iff {a b : DomainName} : a.same b ↔ a.lower.labels = b.lower.labels := by
  have chars : ∀ ls : List Label, (ls.map Label.lower).map Label.chars = ls.map Label.folded :=
    fun ls => List.map_map
  rw [same, beq_iff_eq, folded, folded, ← chars, ← chars, lower_labels, lower_labels]
  exact (List.map_injective_iff.2 Label.chars_injective).eq_iff

@[simp] theorem same_lower {a b : DomainName} : a.same b.lower = a.same b := by
  rw [Bool.eq_iff_iff, same_iff, same_iff, lower_lower]

@[simp] theorem countedLabels_lower (name : DomainName) :
    name.lower.countedLabels = name.countedLabels := by
  simp only [countedLabels, lower_labels]
  cases name.labels <;> simp

private theorem length_le_labelRoom (labels : List Label) : labels.length ≤ labelRoom labels := by
  induction labels with
  | nil => exact Nat.zero_le _
  | cons l ls ih =>
    have room : labelRoom (l :: ls) = l.size + 1 + labelRoom ls := rfl
    simp only [List.length_cons]
    omega

/-- The number of labels fits the byte in which signatures hold it. -/
theorem countedLabels_lt (name : DomainName) : name.countedLabels < 256 := by
  have room := length_le_labelRoom name.labels
  have fits := name.fits
  rw [countedLabels]
  cases hl : name.labels with
  | nil => simp
  | cons l ls =>
    rw [hl, List.length_cons] at room
    rw [hl] at fits
    dsimp only
    split <;> omega

end DomainName
end ZoneCatalog
