import Mathlib.Algebra.Group.Nat.Defs
import ZoneCatalog.Bytes.Basic

/-! Byte strings as numbers and in order. A number can be told from its bytes as far as they reach,
and the order of byte strings is the lexicographic one, which is linear. -/
namespace ZoneCatalog.Bytes

@[simp] theorem length_ofNatLE (count n : Nat) : (ofNatLE count n).length = count := by
  induction count generalizing n with
  | zero => rfl
  | succ count ih => simp [ofNatLE, ih]

theorem toNatLE_ofNatLE (count n : Nat) : toNatLE (ofNatLE count n) = n % 256 ^ count := by
  induction count generalizing n with
  | zero => simp [ofNatLE, toNatLE, Nat.mod_one]
  | succ count ih =>
    have rest : toNatLE (ofNatLE (count + 1) n) =
        toNatLE (ofNatLE count (n / 256)) * 256 + (UInt8.ofNat n).toNat := rfl
    rw [rest, ih, Nat.pow_succ', Nat.mod_mul, UInt8.toNat_ofNat']
    omega

@[simp] theorem length_ofNatBE (count n : Nat) : (ofNatBE count n).length = count := by
  simp [ofNatBE]

theorem ofNatBE_inj {count m n : Nat} (hm : m < 256 ^ count) (hn : n < 256 ^ count)
    (h : ofNatBE count m = ofNatBE count n) : m = n := by
  have same := congrArg toNatLE (List.reverse_inj.1 h)
  rwa [toNatLE_ofNatLE, toNatLE_ofNatLE, Nat.mod_eq_of_lt hm, Nat.mod_eq_of_lt hn] at same

@[simp] theorem length_ofUInt16 (n : UInt16) : (ofUInt16 n).length = 2 := length_ofNatBE ..

@[simp] theorem length_ofUInt32 (n : UInt32) : (ofUInt32 n).length = 4 := length_ofNatBE ..

theorem ofUInt16_inj {m n : UInt16} (h : ofUInt16 m = ofUInt16 n) : m = n :=
  UInt16.toNat_inj.1 (ofNatBE_inj m.toNat_lt n.toNat_lt h)

theorem ofUInt32_inj {m n : UInt32} (h : ofUInt32 m = ofUInt32 n) : m = n :=
  UInt32.toNat_inj.1 (ofNatBE_inj m.toNat_lt n.toNat_lt h)

theorem ofUInt16_append_inj {m n : UInt16} {s t : Bytes} (h : ofUInt16 m ++ s = ofUInt16 n ++ t) :
    m = n ∧ s = t := by
  obtain ⟨front, rest⟩ := List.append_inj h (by simp)
  exact ⟨ofUInt16_inj front, rest⟩

theorem ofUInt32_append_inj {m n : UInt32} {s t : Bytes} (h : ofUInt32 m ++ s = ofUInt32 n ++ t) :
    m = n ∧ s = t := by
  obtain ⟨front, rest⟩ := List.append_inj h (by simp)
  exact ⟨ofUInt32_inj front, rest⟩

theorem isBelow_iff {xs ys : Bytes} : isBelow xs ys ↔ xs < ys := by
  induction xs generalizing ys with
  | nil => cases ys <;> simp [isBelow]
  | cons x xs ih =>
    cases ys with
    | nil => simp [isBelow]
    | cons y ys => simp [isBelow, List.cons_lt_cons_iff, ih]

theorem isAtMost_iff {xs ys : Bytes} : isAtMost xs ys ↔ xs ≤ ys := by
  rw [isAtMost, Bool.not_eq_true', ← Bool.not_eq_true, isBelow_iff, List.not_lt]

end ZoneCatalog.Bytes
