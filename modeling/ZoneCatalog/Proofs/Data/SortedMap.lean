import Mathlib.Data.List.Nodup
import ZoneCatalog.Data.SortedMap

/-! Maps by their entries. The entries of a map are what it reads as, each of them once, so a map is
known by what it reads as. -/
namespace ZoneCatalog.SortedMap

variable {κ ν : Type} [LT κ] [LE κ] [Std.LawfulOrderLT κ] {m m' : SortedMap κ ν} {k : κ} {v : ν}

theorem nodup_keys (m : SortedMap κ ν) : m.keys.Nodup := by
  rw [keys, List.Nodup, List.pairwise_map]
  apply m.ascending.imp
  intro a b below same
  rw [same] at below
  exact Std.lt_irrefl below

variable [DecidableEq κ]

theorem mem_entries_iff : (k, v) ∈ m.entries ↔ m.get? k = some v := by
  rw [get?, List.lookup_eq_some_iff]
  constructor
  · intro mem
    obtain ⟨before, after, cut⟩ := List.append_of_mem mem
    refine ⟨before, after, cut, fun e he => ?_⟩
    have ascending := m.ascending
    rw [cut, List.pairwise_append] at ascending
    have below : e.1 < k := ascending.2.2 e he (k, v) List.mem_cons_self
    rw [bne_iff_ne]
    rintro rfl
    exact Std.lt_irrefl below
  · rintro ⟨before, after, cut, -⟩
    simp [cut]

variable [Std.IsLinearOrder κ]

/-- Maps that read the same everywhere are the same. -/
theorem ext_get? (h : ∀ k, m.get? k = m'.get? k) : m = m' := by
  have perm : m.entries.Perm m'.entries := by
    apply (List.perm_ext_iff_of_nodup m.nodup_keys.of_map m'.nodup_keys.of_map).2
    rintro ⟨k, v⟩
    rw [mem_entries_iff, mem_entries_iff, h]
  have same : m.entries = m'.entries := by
    apply perm.eq_of_pairwise _ m.ascending m'.ascending
    intro a b _ _ below above
    exact absurd (Std.lt_trans below above) Std.lt_irrefl
  cases m
  cases m'
  cases same
  rfl

end ZoneCatalog.SortedMap
