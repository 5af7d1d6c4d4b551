import Mathlib.Algebra.GroupWithZero.Nat
import Mathlib.Data.List.Induction
import ZoneCatalog.Dnssec.Dnskey
import ZoneCatalog.Proofs.Bytes.Basic

/-! The key tag as a number. Record data has at most 65535 bytes, and no byte counts more than 65280,
so the sum of them all is far enough below the width of the word that adds them up: it is exact
after every byte, and its upper half can be added to it without a carry out of the word. -/
namespace ZoneCatalog.Dnskey

/-- What a byte counts in the sum behind a key tag, as a word. -/
def tagTerm (even : Bool) (b : UInt8) : UInt32 := if even then b.toUInt32 <<< 8 else b.toUInt32

/-- The sum behind a key tag as a number: the bytes at even positions count 256 times, those at odd
positions once. -/
def exactSum (bytes : Bytes) : Nat :=
  (bytes.mapIdx fun i b => if i % 2 = 0 then 256 * b.toNat else b.toNat).sum

@[simp] theorem length_rdata (k : Dnskey) : k.rdata.length = k.publicKey.length + 4 := by
  simp [rdata]
  omega

theorem toNat_tagTerm (even : Bool) (b : UInt8) :
    (tagTerm even b).toNat = if even then 256 * b.toNat else b.toNat := by
  have below := b.toNat_lt
  cases even with
  | true =>
    simp [tagTerm, Nat.shiftLeft_eq]
    omega
  | false => simp [tagTerm]

/-- A sum can be interrupted after any byte and taken up again. -/
theorem tagSum_append (even : Bool) (sum : UInt32) (xs ys : Bytes) :
    tagSum even sum (xs ++ ys) =
      tagSum (even == (xs.length % 2 == 0)) (tagSum even sum xs) ys := by
  induction xs generalizing even sum with
  | nil => simp [tagSum]
  | cons x xs ih =>
    rw [List.cons_append, tagSum, ih, tagSum]
    congr 1
    rcases Nat.mod_two_eq_zero_or_one xs.length with h | h <;> cases even <;>
      simp [h, Nat.add_mod]

theorem exactSum_concat (xs : Bytes) (b : UInt8) :
    exactSum (xs ++ [b]) = exactSum xs + (tagTerm (xs.length % 2 == 0) b).toNat := by
  simp [exactSum, List.mapIdx_concat, toNat_tagTerm]

theorem exactSum_le (xs : Bytes) : exactSum xs ≤ 65280 * xs.length := by
  induction xs using List.reverseRecOn with
  | nil => simp [exactSum]
  | append_singleton xs b ih =>
    have below := b.toNat_lt
    rw [exactSum_concat, toNat_tagTerm, List.length_append, List.length_singleton]
    split <;> omega

/-- The word never overflows on the way: it holds the exact sum of the bytes added so far. -/
theorem toNat_tagSum {xs : Bytes} (fits : xs.length ≤ 65535) :
    (tagSum true 0 xs).toNat = exactSum xs := by
  induction xs using List.reverseRecOn with
  | nil => rfl
  | append_singleton xs b ih =>
    have room := exactSum_le (xs ++ [b])
    rw [List.length_append, List.length_singleton] at fits room
    rw [exactSum_concat] at room ⊢
    have step : tagSum true 0 (xs ++ [b]) = tagSum true 0 xs + tagTerm (xs.length % 2 == 0) b := by
      rw [tagSum_append, Bool.true_beq]
      rfl
    rw [step, UInt32.toNat_add, ih (by omega)]
    exact Nat.mod_eq_of_lt (by omega)

/-- The last addition does not overflow either; what is above 16 bits is then cut off. -/
theorem toNat_fold {sum : UInt32} (room : sum.toNat + sum.toNat / 65536 < UInt32.size) :
    (sum + (sum >>> 16 &&& 0xFFFF)).toNat = sum.toNat + sum.toNat / 65536 := by
  have upper : (sum >>> 16 &&& 0xFFFF).toNat = sum.toNat / 65536 := by
    have below := sum.toNat_lt
    rw [UInt32.toNat_and, UInt32.toNat_shiftRight, Nat.shiftRight_eq_div_pow]
    exact (Nat.and_two_pow_sub_one_eq_mod _ 16).trans (Nat.mod_eq_of_lt (by simp; omega))
  rw [UInt32.toNat_add, upper]
  exact Nat.mod_eq_of_lt room

/-- The tag of any key whose record data is no longer than record data can be, at an even as well as
at an odd length. After every byte the word holds the exact sum so far, so no addition overflows,
nor does the last one; and the tag is the exact sum with its upper part added to it, in 16 bits. -/
theorem keyTag_exact (k : Dnskey) (fits : k.rdata.length ≤ 65535) :
    (∀ i ≤ k.rdata.length,
      tagSum true 0 k.rdata =
        tagSum (i % 2 == 0) (tagSum true 0 (k.rdata.take i)) (k.rdata.drop i) ∧
      (tagSum true 0 (k.rdata.take i)).toNat = exactSum (k.rdata.take i)) ∧
    exactSum k.rdata + exactSum k.rdata / 65536 < UInt32.size ∧
    k.keyTag.toNat = (exactSum k.rdata + exactSum k.rdata / 65536) % 65536 := by
  have whole := toNat_tagSum fits
  have room : exactSum k.rdata + exactSum k.rdata / 65536 < UInt32.size := by
    have bound := exactSum_le k.rdata
    simp only [UInt32.size]
    omega
  refine ⟨fun i within => ⟨?_, ?_⟩, room, ?_⟩
  · conv_lhs => rw [← List.take_append_drop i k.rdata, tagSum_append]
    rw [List.length_take_of_le within, Bool.true_beq]
  · apply toNat_tagSum
    rw [List.length_take_of_le within]
    exact Nat.le_trans within fits
  · rw [keyTag, UInt32.toNat_toUInt16, toNat_fold (by rwa [whole]), whole]

/-- The key of the test vector in RFC 8080, section 6.1. -/
def published : Dnskey where
  owner := .root
  ttl := 3600
  flags := 257
  algorithm := .ed25519
  publicKey := (Base64.decode "l02Woi0iS8Aa25FQkUd9RMzZHJpBoRQwAQEX1SxZJA4=".toList).getD []

/-- Its tag is the published one. -/
theorem keyTag_exact_published : published.rdata.length ≤ 65535 ∧
    exactSum published.rdata = 331288 ∧ published.keyTag.toNat = 3613 := by
  have fits : published.rdata.length ≤ 65535 := by
    rw [length_rdata]
    decide +kernel
  have sum : exactSum published.rdata = 331288 := by decide +kernel
  obtain ⟨-, -, tag⟩ := keyTag_exact published fits
  exact ⟨fits, sum, by rw [tag, sum]⟩

end ZoneCatalog.Dnskey
