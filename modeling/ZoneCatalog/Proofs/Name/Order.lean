import ZoneCatalog.Proofs.Name.Agreement

/-! The order of names: label by label from the root down, each byte by byte without the case of
ASCII letters. A name comes before all names below it. -/
namespace ZoneCatalog

/-- Of two lists the one comes first that comes first after a change of all their elements, if the
change keeps their order. -/
private theorem map_lt_map_iff {α β : Type} [LT α] [LT β] {f : α → β} {xs ys : List α}
    (below : ∀ a ∈ xs, ∀ b ∈ ys, f a < f b ↔ a < b)
    (same : ∀ a ∈ xs, ∀ b ∈ ys, f a = f b ↔ a = b) : xs.map f < ys.map f ↔ xs < ys := by
  induction xs generalizing ys with
  | nil => cases ys <;> simp
  | cons a xs ih =>
    cases ys with
    | nil => simp
    | cons b ys =>
      simp only [List.forall_mem_cons] at below same
      have rest := ih (fun c hc => (below.2 c hc).2) (fun c hc => (same.2 c hc).2)
      rw [List.map_cons, List.map_cons, List.cons_lt_cons_iff, List.cons_lt_cons_iff, below.1.1,
        same.1.1, rest]

namespace Label

/-- The byte of an ASCII character. -/
def byte (c : Char) : UInt8 := UInt8.ofNat c.toNat

private theorem byte_lt_byte_iff {c d : Char} (hc : c.toNat < 128) (hd : d.toNat < 128) :
    byte c < byte d ↔ c < d := by
  rw [byte, byte, UInt8.lt_iff_toNat_lt, UInt8.toNat_ofNat', UInt8.toNat_ofNat',
    Nat.mod_eq_of_lt (by omega), Nat.mod_eq_of_lt (by omega), Char.lt_def, UInt32.lt_iff_toNat_lt]
  rfl

private theorem byte_eq_byte_iff {c d : Char} (hc : c.toNat < 128) (hd : d.toNat < 128) :
    byte c = byte d ↔ c = d :=
  ⟨ofNat_injOn hc hd, congrArg byte⟩

end Label

namespace DomainName

variable {a b : DomainName}

/-- The labels of a name as bytes in small letters, the one nearest the root first. -/
def key (name : DomainName) : List Bytes :=
  (name.labels.map fun l => l.bytes.map Bytes.caseless).reverse

theorem key_eq (name : DomainName) : name.key = name.path.map (List.map Label.byte) := by
  rw [key, path, folded, List.map_reverse, List.map_map]
  congr 1
  apply List.map_congr_left
  intro l _
  exact Label.map_caseless_bytes l

private theorem path_ascii (name : DomainName) : ∀ l ∈ name.path, ∀ c ∈ l, c.toNat < 128 := by
  intro l hl
  rw [path, folded, List.mem_reverse, List.mem_map] at hl
  obtain ⟨label, -, rfl⟩ := hl
  exact label.folded_ascii

/-- Names come in the order of the paths by which zones are kept. -/
theorem key_lt_key_iff : a.key < b.key ↔ a.path < b.path := by
  rw [key_eq, key_eq]
  apply map_lt_map_iff
  · intro l hl k hk
    apply map_lt_map_iff
    · intro c hc d hd
      exact Label.byte_lt_byte_iff (a.path_ascii l hl c hc) (b.path_ascii k hk d hd)
    · intro c hc d hd
      exact Label.byte_eq_byte_iff (a.path_ascii l hl c hc) (b.path_ascii k hk d hd)
  · intro l hl k hk
    refine ⟨fun same => ?_, fun same => by rw [same]⟩
    exact Label.map_byte_inj (a.path_ascii l hl) (b.path_ascii k hk) same

/-- Names agree if they have one place in the order. -/
theorem agrees_iff_key : a.Agrees b ↔ a.key = b.key := by
  have labelwise : Label.Agrees =
      fun l k => l.bytes.map Bytes.caseless = k.bytes.map Bytes.caseless := by
    funext l k
    exact propext (forall₂_eq_iff _)
  rw [Agrees, labelwise, forall₂_eq_iff, key, key, List.reverse_inj]

/-- A name comes before all names below it. -/
theorem Contains.path_lt (contains : a.Contains b) (below : ¬ a.Agrees b) : a.path < b.path := by
  obtain ⟨rest, whole⟩ := contains_iff.1 contains
  cases rest with
  | nil =>
    rw [List.append_nil] at whole
    exact absurd (agrees_iff.2 whole) below
  | cons l rest =>
    have longer : a.path ++ [] < a.path ++ l :: rest :=
      List.append_left_lt (List.nil_lt_cons l rest)
    rwa [List.append_nil, whole] at longer

theorem not_contains_of_path_lt (before : a.path < b.path) : ¬ b.Contains a := by
  intro contains
  by_cases agrees : b.Agrees a
  · rw [agrees_iff.1 agrees] at before
    exact Std.lt_irrefl before
  · exact Std.lt_irrefl (Std.lt_trans before (contains.path_lt agrees))

end DomainName
end ZoneCatalog
