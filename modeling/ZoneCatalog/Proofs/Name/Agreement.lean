import Mathlib.Data.List.Forall2
import ZoneCatalog.Name.Wire
import ZoneCatalog.Zone.Index

/-! When names agree. Every character of a label is one byte of a message, and labels agree if their
bytes do, one by one and without regard to the case of ASCII letters. The paths by which zones are
kept say the same: a zone contains exactly the names whose paths start with its own. -/
namespace ZoneCatalog

theorem forall₂_eq_iff {α β : Type} (f : α → β) {xs ys : List α} :
    List.Forall₂ (fun x y => f x = f y) xs ys ↔ xs.map f = ys.map f := by
  rw [← List.forall₂_eq_eq_eq, List.forall₂_map_left_iff, List.forall₂_map_right_iff]

/-- A byte, with the case of an ASCII letter dropped. -/
def Bytes.caseless (b : UInt8) : UInt8 := if 65 ≤ b ∧ b ≤ 90 then b + 32 else b

namespace Label

theorem chars_injective : Function.Injective chars := by
  rintro ⟨cs, hc⟩ ⟨ds, hd⟩ h
  simpa using h

private theorem toNat_lt_of_isPlain {c : Char} (h : isPlain c = true) : c.toNat < 128 := by
  simp only [isPlain, Bool.or_eq_true, decide_eq_true_eq] at h
  rcases h with (alphanumeric | rfl) | rfl
  · have spelled : ((decide ('A'.val ≤ c.val ∧ c.val ≤ 'Z'.val) ||
        (decide ('a'.val ≤ c.val) && decide (c.val ≤ 'z'.val))) ||
        (decide ('0'.val ≤ c.val) && decide (c.val ≤ '9'.val))) = true := alphanumeric
    simp only [Bool.or_eq_true, Bool.and_eq_true, decide_eq_true_eq, UInt32.le_iff_toNat_le]
      at spelled
    change (65 ≤ c.toNat ∧ c.toNat ≤ 90 ∨ 97 ≤ c.toNat ∧ c.toNat ≤ 122) ∨
      48 ≤ c.toNat ∧ c.toNat ≤ 57 at spelled
    omega
  · decide
  · decide

theorem ascii (l : Label) : ∀ c ∈ l.chars, c.toNat < 128 := by
  obtain ⟨chars, valid⟩ := l
  cases chars with
  | nil => simp
  | cons first rest =>
    simp only [isValid, Bool.and_eq_true, Bool.or_eq_true, decide_eq_true_eq, List.all_eq_true]
      at valid
    obtain ⟨⟨front, others⟩, _⟩ := valid
    intro c hc
    rcases List.mem_cons.1 hc with rfl | hc
    · rcases front with plain | rfl
      · exact toNat_lt_of_isPlain plain
      · decide
    · rcases others c hc with plain | rfl
      · exact toNat_lt_of_isPlain plain
      · decide

theorem size_bounds (l : Label) : 0 < l.size ∧ l.size < 64 := by
  obtain ⟨chars, valid⟩ := l
  cases chars with
  | nil => cases valid
  | cons first rest =>
    simp only [isValid, Bool.and_eq_true, decide_eq_true_eq] at valid
    simp only [size, List.length_cons]
    omega

@[simp] theorem length_bytes (l : Label) : l.bytes.length = l.size := List.length_map _

theorem ofNat_injOn {c d : Char} (hc : c.toNat < 128) (hd : d.toNat < 128)
    (h : UInt8.ofNat c.toNat = UInt8.ofNat d.toNat) : c = d := by
  have same := congrArg UInt8.toNat h
  simp only [UInt8.toNat_ofNat'] at same
  exact Char.toNat_inj.1 (by omega)

theorem map_byte_inj {cs ds : List Char} (hc : ∀ c ∈ cs, c.toNat < 128)
    (hd : ∀ d ∈ ds, d.toNat < 128)
    (h : (cs.map fun c => UInt8.ofNat c.toNat) = ds.map fun d => UInt8.ofNat d.toNat) :
    cs = ds := by
  induction cs generalizing ds with
  | nil => simpa using h.symm
  | cons c cs ih =>
    cases ds with
    | nil => simp at h
    | cons d ds =>
      simp only [List.map_cons, List.cons.injEq, List.forall_mem_cons] at h hc hd
      rw [ofNat_injOn hc.1 hd.1 h.1, ih hc.2 hd.2 h.2]

/-- A label can be told from its bytes. -/
theorem bytes_injective {l k : Label} (h : l.bytes = k.bytes) : l = k :=
  chars_injective (map_byte_inj l.ascii k.ascii h)

/-- Two labels have the same bytes, up to the case of ASCII letters. -/
def Agrees (l k : Label) : Prop :=
  List.Forall₂ (fun a b => Bytes.caseless a = Bytes.caseless b) l.bytes k.bytes

/-- Of ASCII characters, lowering and taking the byte come to the same in either order. -/
private theorem caseless_ofNat {c : Char} (h : c.toNat < 128) :
    Bytes.caseless (UInt8.ofNat c.toNat) = UInt8.ofNat c.toLower.toNat := by
  have all : ∀ n : Fin 128, Bytes.caseless (UInt8.ofNat n) =
      UInt8.ofNat (Char.ofNat n).toLower.toNat := by decide
  simpa using all ⟨c.toNat, h⟩

private theorem toLower_lt {c : Char} (h : c.toNat < 128) : c.toLower.toNat < 128 := by
  have all : ∀ n : Fin 128, (Char.ofNat n).toLower.toNat < 128 := by decide
  simpa using all ⟨c.toNat, h⟩

theorem map_caseless_bytes (l : Label) :
    l.bytes.map Bytes.caseless = l.folded.map fun c => UInt8.ofNat c.toNat := by
  simp only [bytes, folded, Text.fold, List.map_map]
  exact List.map_congr_left fun c hc => caseless_ofNat (l.ascii c hc)

theorem folded_ascii (l : Label) : ∀ c ∈ l.folded, c.toNat < 128 := by
  simp only [folded, Text.fold, List.mem_map]
  rintro _ ⟨c, hc, rfl⟩
  exact toLower_lt (l.ascii c hc)

theorem agrees_iff {l k : Label} : l.Agrees k ↔ l.folded = k.folded := by
  rw [Agrees, forall₂_eq_iff, map_caseless_bytes, map_caseless_bytes]
  exact ⟨map_byte_inj l.folded_ascii k.folded_ascii, fun h => by rw [h]⟩

end Label

namespace DomainName

private theorem forall₂_agrees_iff {ls ks : List Label} :
    List.Forall₂ Label.Agrees ls ks ↔ ls.map Label.folded = ks.map Label.folded := by
  have labelwise : Label.Agrees = fun l k => l.folded = k.folded :=
    funext fun l => funext fun k => propext Label.agrees_iff
  rw [labelwise, forall₂_eq_iff]

/-- Two texts of names are about one name: their labels agree, one by one. -/
def Agrees (a b : DomainName) : Prop := List.Forall₂ Label.Agrees a.labels b.labels

/-- The labels of a zone agree with the last labels of a name. -/
def Contains (zone name : DomainName) : Prop :=
  ∃ front rest, name.labels = front ++ rest ∧ List.Forall₂ Label.Agrees zone.labels rest

@[simp] theorem length_path (name : DomainName) : name.path.length = name.labels.length := by
  simp [path, folded]

theorem agrees_iff {a b : DomainName} : a.Agrees b ↔ a.path = b.path := by
  rw [Agrees, forall₂_agrees_iff, path, path, List.reverse_inj]
  rfl

theorem contains_iff {zone name : DomainName} : zone.Contains name ↔ zone.path <+: name.path := by
  rw [path, path, List.reverse_prefix, folded, folded]
  constructor
  · rintro ⟨front, rest, labels, agree⟩
    rw [labels, List.map_append, forall₂_agrees_iff.1 agree]
    exact List.suffix_append _ _
  · rintro ⟨front, same⟩
    obtain ⟨front', rest, labels, -, agree⟩ := List.map_eq_append_iff.1 same.symm
    exact ⟨front', rest, labels, forall₂_agrees_iff.2 agree.symm⟩

end DomainName
end ZoneCatalog
