import Mathlib.Algebra.Group.Int.Defs
import ZoneCatalog.Proofs.Dnssec.SignedLimits

/-! The window in which a signature is valid, as far as its 32 bits show it. The window is much
shorter than half of the numbers that there are, so whoever compares them as serial numbers finds
the time of the load in it, wherever the numbers start anew. -/
namespace ZoneCatalog

namespace Serial

/-- The order of serial numbers, RFC 1982: the one is before the other if it is less by less than
half of all numbers, or greater by more than that. -/
def Before (a b : UInt32) : Prop :=
  a < b ∧ b.toNat - a.toNat < 2 ^ 31 ∨ b < a ∧ 2 ^ 31 < a.toNat - b.toNat

/-- A serial number is neither before the first one of a window nor after the last one. -/
def Within (t first last : UInt32) : Prop :=
  (first = t ∨ Before first t) ∧ (t = last ∨ Before t last)

/-- How far it is from one number up to another as serial numbers, on from the greatest one to zero
where it has to be. -/
def ahead (a b : Nat) : Int := ((b : Int) - a) % 2 ^ 32

variable {s t : Seconds}

theorem ahead_serial (a : Nat) (t : Seconds) : ahead a t.serial.toNat = ahead a t.toNat := by
  rw [ahead, ahead, Seconds.toNat_serial, UInt32.size]
  omega

/-- Times that are not too far apart are as far apart as their serial numbers. -/
theorem ahead_of_le (onward : s ≤ t) (near : t.toNat - s.toNat < 2 ^ 32) :
    ahead s.serial.toNat t.toNat = (t.toNat : Int) - s.toNat := by
  rw [UInt64.le_iff_toNat_le] at onward
  rw [ahead, Seconds.toNat_serial, UInt32.size]
  omega

theorem before_of_ahead {a b : UInt32} (short : ahead a.toNat b.toNat < 2 ^ 31) :
    a = b ∨ Before a b := by
  have ha := a.toNat_lt
  have hb := b.toNat_lt
  by_cases same : a.toNat = b.toNat
  · exact .inl (UInt32.toNat_inj.1 same)
  · right
    rw [Before, UInt32.lt_iff_toNat_lt, UInt32.lt_iff_toNat_lt]
    rw [ahead] at short
    omega

theorem before_of_le (onward : s ≤ t) (near : t.toNat - s.toNat < 2 ^ 31) :
    s.serial = t.serial ∨ Before s.serial t.serial := by
  refine before_of_ahead ?_
  rw [ahead_serial, ahead_of_le onward (by omega)]
  omega

end Serial

namespace ZoneKey

variable (dnskey : Dnskey) (signer : SigningKey) (now : Seconds)

/-- The window of a key is open when its zone is loaded. It is eight days and three hours long,
unless time itself is cut off at one of its ends. -/
theorem window_loadedAt : (loadedAt dnskey signer now).inception ≤ now ∧
    now ≤ (loadedAt dnskey signer now).expiration ∧
      (loadedAt dnskey signer now).expiration.toNat - (loadedAt dnskey signer now).inception.toNat ≤
        702000 := by
  dsimp only [loadedAt]
  refine ⟨now.earlier_le _, now.le_later _, ?_⟩
  have offsets : inceptionOffset.toNat = 10800 ∧ expirationOffset.toNat = 691200 := by decide
  rw [Seconds.toNat_later, Seconds.toNat_earlier]
  omega

variable {dnskey signer now} {owner : DomainName} {type : RecordType} {ttl : UInt32}
  {rdatas : List Bytes} {r : Rrsig}

/-- In 32 bits a signature shows the very length of its window, and the time of the load, whenever
it was, is no further from the beginning of the window than the end is. As serial numbers, the time
of the load is in the window. -/
theorem signSet_window
    (signed : (loadedAt dnskey signer now).signSet owner type ttl rdatas = .ok r) :
    Serial.ahead r.inception.toNat r.expiration.toNat =
        ((loadedAt dnskey signer now).expiration.toNat : Int) -
          (loadedAt dnskey signer now).inception.toNat ∧
      Serial.ahead r.inception.toNat r.expiration.toNat ≤ 702000 ∧
      Serial.ahead r.inception.toNat now.toNat ≤
        Serial.ahead r.inception.toNat r.expiration.toNat ∧
      Serial.Within now.serial r.inception r.expiration := by
  obtain ⟨fields, -, -⟩ := Rrsig.sign_fields signed
  have inception : r.inception = (loadedAt dnskey signer now).inception.serial := fields.inception
  have expiration : r.expiration = (loadedAt dnskey signer now).expiration.serial :=
    fields.expiration
  obtain ⟨opened, open_, short⟩ := window_loadedAt dnskey signer now
  generalize (loadedAt dnskey signer now).inception = first at *
  generalize (loadedAt dnskey signer now).expiration = last at *
  rw [inception, expiration]
  have before := UInt64.le_iff_toNat_le.1 opened
  have after := UInt64.le_iff_toNat_le.1 open_
  have whole := Serial.ahead_of_le (UInt64.le_trans opened open_) (by omega)
  rw [Serial.ahead_serial, whole, Serial.ahead_of_le opened (by omega)]
  refine ⟨rfl, by omega, by omega, ?_, ?_⟩
  · exact Serial.before_of_le opened (by omega)
  · exact Serial.before_of_le open_ (by omega)

/-- A key at the root, loaded an hour after the serial numbers started anew. -/
def loadedAnew : ZoneKey :=
  loadedAt ⟨.root, 60, 256, .ed25519, []⟩ (.ed25519 (List.replicate 32 7)) 4294970896

/-- The window of a signature that begins before the numbers start anew and ends after it. -/
theorem signSet_window_anew : ∃ r, loadedAnew.signSet .root ⟨16⟩ 300 [[1]] = .ok r ∧
    r.expiration < r.inception ∧ Serial.ahead r.inception.toNat r.expiration.toNat = 702000 ∧
      Serial.Within (Seconds.serial 4294970896) r.inception r.expiration := by
  obtain ⟨message, covered⟩ : ∃ m, (Rrsig.draft loadedAnew.signer loadedAnew.dnskey.keyTag .root
      .root ⟨16⟩ 300 loadedAnew.inception loadedAnew.expiration).signedData [[1]] = .ok m := by
    have single : Rrsig.canonicalSet [[1]] = [[1]] :=
      Rrsig.canonicalSet_eq (by decide) fun _ => .rfl
    rw [Rrsig.signedData_ok_iff, single]
    decide
  have signed : loadedAnew.signSet .root ⟨16⟩ 300 [[1]] = .ok _ :=
    Rrsig.sign_eq_ok.2 ⟨message, _, covered, rfl, rfl⟩
  obtain ⟨whole, -, -, within⟩ := signSet_window signed
  have straddles : loadedAnew.expiration.serial < loadedAnew.inception.serial := by decide
  have length : (loadedAnew.expiration.toNat : Int) - loadedAnew.inception.toNat = 702000 := by
    decide
  exact ⟨_, signed, straddles, whole.trans length, within⟩

end ZoneKey
end ZoneCatalog
