import ZoneCatalog.Name.Basic

/-! Names in small letters, the form that signatures cover. A label stays a label, and a name keeps
its length, so lowering never fails. -/
namespace ZoneCatalog

private theorem isLower_toLower {c : Char} (h : c.isUpper = true) : c.toLower.isLower = true := by
  have hA : 'A'.val.toNat = 65 := rfl
  have hZ : 'Z'.val.toNat = 90 := rfl
  have ha : 'a'.val.toNat = 97 := rfl
  have hz : 'z'.val.toNat = 122 := rfl
  have hd : ('a'.val - 'A'.val).toNat = 32 := rfl
  have hu : c.val ≥ 'A'.val ∧ c.val ≤ 'Z'.val := of_decide_eq_true h
  have lowered : c.toLower.val = c.val + ('a'.val - 'A'.val) := by
    unfold Char.toLower
    rw [dif_pos hu]
  have bounds : c.toLower.val ≥ 'a'.val ∧ c.toLower.val ≤ 'z'.val := by
    rw [lowered]
    simp only [ge_iff_le, UInt32.le_iff_toNat_le, UInt32.toNat_add] at hu ⊢
    omega
  exact Bool.and_eq_true_iff.2 ⟨decide_eq_true bounds.1, decide_eq_true bounds.2⟩

private theorem toLower_eq_self {c : Char} (h : ¬ c.isUpper = true) : c.toLower = c := by
  unfold Char.toLower
  rw [dif_neg]
  exact fun hu => h (decide_eq_true hu)

private theorem isPlain_toLower {c : Char} (h : Label.isPlain c = true) :
    Label.isPlain c.toLower = true := by
  by_cases hu : c.isUpper = true
  · have alpha : c.toLower.isAlpha = true := Bool.or_eq_true_iff.2 (.inr (isLower_toLower hu))
    simp [Label.isPlain, Char.isAlphanum, alpha]
  · rwa [toLower_eq_self hu]

private theorem toLower_of_mark {c d : Char} (hd : ¬ d.isUpper = true) (h : c = d) :
    c.toLower = d := by
  subst h
  exact toLower_eq_self hd

namespace Label

private theorem isValid_fold {cs : List Char} (h : isValid cs = true) :
    isValid (Text.fold cs) = true := by
  cases cs with
  | nil => exact h
  | cons c cs =>
    simp only [isValid, Bool.and_eq_true, Bool.or_eq_true, decide_eq_true_eq, List.all_eq_true,
      Text.fold, List.map_cons, List.length_map, List.mem_map] at h ⊢
    obtain ⟨⟨first, others⟩, short⟩ := h
    refine ⟨⟨?_, ?_⟩, short⟩
    · exact first.imp isPlain_toLower (toLower_of_mark (by decide))
    · rintro _ ⟨d, hd, rfl⟩
      exact (others d hd).imp isPlain_toLower (toLower_of_mark (by decide))

def lower (l : Label) : Label := ⟨l.folded, isValid_fold l.valid⟩

@[simp] theorem size_lower (l : Label) : l.lower.size = l.size := by
  simp [lower, size, folded, Text.fold]

end Label

namespace DomainName

private theorem labelRoom_lower (labels : List Label) :
    labelRoom (labels.map Label.lower) = labelRoom labels := by
  simp [labelRoom, List.foldr_map]

def lower (name : DomainName) : DomainName :=
  ⟨name.labels.map Label.lower, name.absolute, by rw [labelRoom_lower]; exact name.fits⟩

end DomainName
end ZoneCatalog
