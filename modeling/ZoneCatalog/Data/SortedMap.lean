/-! Finite maps held as lists in ascending order of their keys. Two maps with the same entries are
equal, and listing a map needs no sorting. -/
namespace ZoneCatalog

/-- A finite map from `κ` to `ν`. -/
structure SortedMap (κ ν : Type) [LT κ] where
  entries : List (κ × ν)
  ascending : entries.Pairwise (fun a b => a.1 < b.1)

namespace SortedMap

variable {κ ν : Type} [LT κ]

def empty : SortedMap κ ν := ⟨[], .nil⟩

instance : EmptyCollection (SortedMap κ ν) := ⟨empty⟩

instance : Inhabited (SortedMap κ ν) := ⟨empty⟩

def keys (m : SortedMap κ ν) : List κ := m.entries.map (·.1)

def values (m : SortedMap κ ν) : List ν := m.entries.map (·.2)

def size (m : SortedMap κ ν) : Nat := m.entries.length

def isEmpty (m : SortedMap κ ν) : Bool := m.entries.isEmpty

def mapValues (m : SortedMap κ ν) (f : κ → ν → ν) : SortedMap κ ν :=
  ⟨m.entries.map fun e => (e.1, f e.1 e.2), by
    simpa [List.pairwise_map] using m.ascending⟩

variable [DecidableEq κ]

def get? (m : SortedMap κ ν) (k : κ) : Option ν := m.entries.lookup k

def contains (m : SortedMap κ ν) (k : κ) : Bool := (m.get? k).isSome

@[simp] theorem get?_empty (k : κ) : (empty : SortedMap κ ν).get? k = none := rfl

def erase (m : SortedMap κ ν) (k : κ) : SortedMap κ ν :=
  ⟨m.entries.filter (fun e => e.1 ≠ k), m.ascending.filter _⟩

omit [LT κ] in
private theorem lookup_cons_eq (l : κ) (d : κ × ν) (rest : List (κ × ν)) :
    (d :: rest).lookup l = if l = d.1 then some d.2 else rest.lookup l := by
  rw [List.lookup_cons]
  by_cases h : l = d.1
  · simp [h]
  · simp [h, beq_eq_false_iff_ne.2 h]

omit [LT κ] in
private theorem lookup_map (f : κ → ν → ν) (l : κ) (entries : List (κ × ν)) :
    (entries.map fun e => (e.1, f e.1 e.2)).lookup l = (entries.lookup l).map (f l) := by
  induction entries with
  | nil => rfl
  | cons d rest ih =>
    rw [List.map_cons, lookup_cons_eq, lookup_cons_eq, ih]
    by_cases h : l = d.1
    · simp [h]
    · simp [h]

omit [LT κ] in
private theorem lookup_filter_ne (k l : κ) (entries : List (κ × ν)) :
    (entries.filter (fun e => e.1 ≠ k)).lookup l =
      if l = k then none else entries.lookup l := by
  induction entries with
  | nil => simp
  | cons d rest ih =>
    by_cases hd : d.1 = k
    · rw [List.filter_cons_of_neg (by simpa using hd), ih, lookup_cons_eq]
      by_cases hl : l = k
      · simp [hl]
      · simp [hl, hd]
    · rw [List.filter_cons_of_pos (by simpa using hd), lookup_cons_eq, lookup_cons_eq, ih]
      by_cases hl : l = k
      · simp [hl, Ne.symm hd]
      · simp [hl]

/-- Replacing every value replaces the one that is read. -/
@[simp] theorem get?_mapValues (m : SortedMap κ ν) (f : κ → ν → ν) (k : κ) :
    (m.mapValues f).get? k = (m.get? k).map (f k) :=
  lookup_map f k m.entries

/-- A key that was removed reads as absent, and every other key as before. -/
theorem get?_erase (m : SortedMap κ ν) (k l : κ) :
    (m.erase k).get? l = if l = k then none else m.get? l :=
  lookup_filter_ne k l m.entries

variable [DecidableLT κ]

/-- Puts an entry where it belongs in an ascending list, in place of one with an equal key. -/
def place (k : κ) (v : ν) : List (κ × ν) → List (κ × ν)
  | [] => [(k, v)]
  | e :: rest =>
    if k < e.1 then (k, v) :: e :: rest
    else if k = e.1 then (k, v) :: rest
    else e :: place k v rest

private theorem mem_place {k : κ} {v : ν} {entries : List (κ × ν)} {e : κ × ν}
    (h : e ∈ place k v entries) : e = (k, v) ∨ e ∈ entries := by
  induction entries with
  | nil => simpa [place] using h
  | cons d rest ih =>
    unfold place at h
    split at h
    · simpa using h
    · split at h
      · rcases List.mem_cons.1 h with h | h
        · exact .inl h
        · exact .inr (List.mem_cons_of_mem _ h)
      · rcases List.mem_cons.1 h with h | h
        · exact .inr (h ▸ List.mem_cons_self)
        · exact (ih h).imp id (List.mem_cons_of_mem _)

variable [LE κ] [Std.IsLinearOrder κ] [Std.LawfulOrderLT κ]

private theorem ascending_place {k : κ} {v : ν} {entries : List (κ × ν)}
    (h : entries.Pairwise (fun a b => a.1 < b.1)) :
    (place k v entries).Pairwise (fun a b => a.1 < b.1) := by
  induction entries with
  | nil => simp [place]
  | cons d rest ih =>
    have hd := (List.pairwise_cons.1 h).1
    unfold place
    split
    · rename_i below
      refine List.pairwise_cons.2 ⟨fun e he => ?_, h⟩
      rcases List.mem_cons.1 he with he | he
      · exact he ▸ below
      · exact Std.lt_trans below (hd e he)
    · rename_i above
      split
      · rename_i equal
        subst equal
        exact List.pairwise_cons.2 ⟨fun e he => hd e he, h.of_cons⟩
      · rename_i distinct
        refine List.pairwise_cons.2 ⟨fun e he => ?_, ih h.of_cons⟩
        rcases mem_place he with he | he
        · subst he
          exact Std.lt_of_le_of_ne (Std.not_lt.1 above) (Ne.symm distinct)
        · exact hd e he

def insert (m : SortedMap κ ν) (k : κ) (v : ν) : SortedMap κ ν :=
  ⟨place k v m.entries, ascending_place m.ascending⟩

omit [LE κ] [Std.IsLinearOrder κ] [Std.LawfulOrderLT κ] in
private theorem lookup_place (k l : κ) (v : ν) (entries : List (κ × ν)) :
    (place k v entries).lookup l = if l = k then some v else entries.lookup l := by
  induction entries with
  | nil => exact lookup_cons_eq l (k, v) []
  | cons d rest ih =>
    unfold place
    split
    · exact lookup_cons_eq l (k, v) (d :: rest)
    · split
      · rename_i equal
        subst equal
        rw [lookup_cons_eq, lookup_cons_eq]
        split <;> rfl
      · rename_i distinct
        rw [lookup_cons_eq, lookup_cons_eq, ih]
        by_cases h : l = d.1
        · have : ¬ l = k := fun hk => distinct (hk.symm.trans h)
          simp [h, Ne.symm distinct]
        · simp [h]

/-- A map read at a key just written gives the value written, and the same as before elsewhere. -/
theorem get?_insert (m : SortedMap κ ν) (k l : κ) (v : ν) :
    (m.insert k v).get? l = if l = k then some v else m.get? l :=
  lookup_place k l v m.entries

private theorem place_eq_self {k : κ} {v : ν} {entries : List (κ × ν)}
    (asc : entries.Pairwise (fun a b => a.1 < b.1)) (h : entries.lookup k = some v) :
    place k v entries = entries := by
  induction entries with
  | nil => simp at h
  | cons d rest ih =>
    rw [lookup_cons_eq] at h
    obtain ⟨hd, hrest⟩ := List.pairwise_cons.1 asc
    by_cases equal : k = d.1
    · obtain rfl : d.2 = v := by simpa [equal] using h
      subst equal
      simp [place, Std.lt_irrefl]
    · rw [if_neg equal] at h
      obtain ⟨before, after, rfl, _⟩ := List.lookup_eq_some_iff.1 h
      have below : d.1 < k := hd (k, v) (by simp)
      have not_above : ¬ k < d.1 := fun above => Std.lt_irrefl (Std.lt_trans below above)
      rw [place, if_neg not_above, if_neg equal, ih hrest h]

/-- Writing what is there changes nothing. -/
theorem insert_eq_self {m : SortedMap κ ν} {k : κ} {v : ν} (h : m.get? k = some v) :
    m.insert k v = m := by
  obtain ⟨entries, asc⟩ := m
  simp only [insert, mk.injEq]
  exact place_eq_self asc h

/-- Inserts the entries of a list one after the other, so a later one wins. -/
def ofList (entries : List (κ × ν)) : SortedMap κ ν :=
  entries.foldl (fun m e => m.insert e.1 e.2) empty

end SortedMap

end ZoneCatalog
