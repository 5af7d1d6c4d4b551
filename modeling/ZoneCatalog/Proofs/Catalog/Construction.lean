import ZoneCatalog.Catalog.Basic
import ZoneCatalog.Proofs.Data.Except

/-! Which settings a catalog is built from. Settings are validated first and used after that, so
there are as many ways to fail as there are in both; a cache has one that validation does not look
for. -/
namespace ZoneCatalog

/-! Checks that are made one after the other. -/

private theorem check_eq_ok {ε α : Type} {c : Prop} [Decidable c] {e : ε} {f : PUnit → Except ε α}
    {a : α} : (if c then (throw e : Except ε PUnit) >>= f else f ()) = .ok a ↔
      ¬ c ∧ f () = .ok a := by
  by_cases h : c
  · rw [if_pos h]
    exact iff_of_false nofun fun passed => passed.1 h
  · rw [if_neg h]
    exact (and_iff_right h).symm

private theorem last_check_eq_ok {ε : Type} {c : Prop} [Decidable c] {e : ε} :
    (if c then throw e else pure () : Except ε Unit) = .ok () ↔ ¬ c := by
  by_cases h : c
  · rw [if_pos h]
    exact iff_of_false nofun fun passed => passed h
  · rw [if_neg h]
    exact iff_of_true rfl h

/-- Settings with which a catalog can run: its caches hold something, it reloads now and then, and
no address is up and down at once. -/
structure Settings.Usable (s : Settings) : Prop where
  zoneCapacity : 0 < s.zoneCapacity
  recordCapacity : 0 < s.recordCapacity
  zoneIdle : 0 < s.zoneIdle
  reloadSeconds : 0 < s.reloadSeconds
  bounds : s.healthCheck.down < s.healthCheck.up

theorem Settings.validate_eq_ok_iff {s : Settings} : s.validate = .ok () ↔ s.Usable := by
  simp only [validate, check_eq_ok, last_check_eq_ok, Int32.not_le, ← ne_eq,
    ← UInt64.pos_iff_ne_zero]
  constructor
  · rintro ⟨zones, records, idle, reload, bounds⟩
    exact ⟨zones, records, idle, reload, bounds⟩
  · rintro ⟨zones, records, idle, reload, bounds⟩
    exact ⟨zones, records, idle, reload, bounds⟩

namespace Catalog

variable {s : Settings} {c : Catalog}

theorem ofSettings_eq_ok : ofSettings s = .ok c ↔
    s.validate = .ok () ∧ s.zoneIdle.toNat ≤ longestIdle ∧ c = {
      keys := s.store.keys
      reloadEvery := s.reloadSeconds.toNat * 1000
      zones := { lifetime := s.lifetime }
      locations := { lifetime := s.lifetime } } := by
  constructor
  · intro built
    obtain ⟨_, valid, built⟩ := Except.bind_eq_ok.1 built
    obtain ⟨idle, built⟩ := check_eq_ok.1 built
    exact ⟨Except.mapError_eq_ok.1 valid, Nat.not_lt.1 idle, (Except.ok.inj built).symm⟩
  · rintro ⟨valid, idle, rfl⟩
    apply Except.bind_eq_ok.2
    exact ⟨(), Except.mapError_eq_ok.2 valid, check_eq_ok.2 ⟨Nat.not_lt.2 idle, rfl⟩⟩

/-- Whatever validation reports is reported when a catalog is to be built. -/
theorem ofSettings_eq_settings {cause : SettingsError} :
    ofSettings s = .error (.settings cause) ↔ s.validate = .error cause := by
  constructor
  · intro failed
    rcases Except.bind_eq_error.1 failed with invalid | ⟨_, _, failed⟩
    · obtain ⟨_, invalid, ⟨⟩⟩ := Except.mapError_eq_error.1 invalid
      exact invalid
    · split at failed <;> cases failed
  · intro invalid
    exact Except.bind_eq_error.2 (.inl (Except.mapError_eq_error.2 ⟨cause, invalid, rfl⟩))

theorem ofSettings_eq_idleTooLong : ofSettings s = .error .idleTooLong ↔
    s.validate = .ok () ∧ longestIdle < s.zoneIdle.toNat := by
  constructor
  · intro failed
    rcases Except.bind_eq_error.1 failed with invalid | ⟨_, valid, failed⟩
    · obtain ⟨_, _, ⟨⟩⟩ := Except.mapError_eq_error.1 invalid
    · split at failed
      · rename_i idle
        exact ⟨Except.mapError_eq_ok.1 valid, idle⟩
      · cases failed
  · rintro ⟨valid, idle⟩
    apply Except.bind_eq_error.2
    exact .inr ⟨(), Except.mapError_eq_ok.2 valid, if_pos idle⟩

/-- Validation accepts exactly the settings that are usable. A catalog is built exactly from those
of them that keep no zone for longer than a cache can: from other usable settings building it fails
for this reason, and from settings that are not usable it fails as validation does. -/
theorem built_iff_usable (s : Settings) :
    (s.validate = .ok () ↔ s.Usable) ∧
    ((∃ c, ofSettings s = .ok c) ↔ s.Usable ∧ s.zoneIdle.toNat ≤ longestIdle) ∧
    (∀ cause, ofSettings s = .error (.settings cause) ↔ s.validate = .error cause) ∧
    (ofSettings s = .error .idleTooLong ↔ s.Usable ∧ longestIdle < s.zoneIdle.toNat) := by
  rw [ofSettings_eq_idleTooLong, Settings.validate_eq_ok_iff]
  refine ⟨Iff.rfl, ?_, fun cause => ofSettings_eq_settings, Iff.rfl⟩
  constructor
  · rintro ⟨c, built⟩
    obtain ⟨valid, idle, -⟩ := ofSettings_eq_ok.1 built
    exact ⟨Settings.validate_eq_ok_iff.1 valid, idle⟩
  · rintro ⟨usable, idle⟩
    exact ⟨_, ofSettings_eq_ok.2 ⟨Settings.validate_eq_ok_iff.2 usable, idle, rfl⟩⟩

/-- Zones are to be kept for a second more than a thousand years, which validation lets pass. -/
theorem valid_not_built : ∃ s : Settings, s.validate = .ok () ∧ ¬ ∃ c, ofSettings s = .ok c := by
  refine ⟨{ zoneCache := { timeout := some 31536000001 } }, rfl, ?_⟩
  rintro ⟨c, built⟩
  obtain ⟨-, idle, -⟩ := ofSettings_eq_ok.1 built
  exact absurd idle (by decide)

end Catalog
end ZoneCatalog
