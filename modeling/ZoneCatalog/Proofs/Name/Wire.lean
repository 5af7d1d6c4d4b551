import ZoneCatalog.Proofs.Name.Agreement

/-! The wire form of a name says where it ends. Every label comes after its length, which is never
zero, so the labels of a name can be read back from any bytes that start with its wire form. -/
namespace ZoneCatalog.DomainName

private theorem ofNat_size_inj {l k : Label} (h : UInt8.ofNat l.size = UInt8.ofNat k.size) :
    l.size = k.size := by
  have same := congrArg UInt8.toNat h
  have hl := l.size_bounds
  have hk := k.size_bounds
  simp only [UInt8.toNat_ofNat'] at same
  omega

private theorem ofNat_size_ne_zero (l : Label) : UInt8.ofNat l.size ≠ 0 := by
  intro h
  have same := congrArg UInt8.toNat h
  have hl := l.size_bounds
  simp only [UInt8.toNat_ofNat', UInt8.toNat_zero] at same
  omega

theorem labelBytes_cons (l : Label) (ls : List Label) :
    labelBytes (l :: ls) = UInt8.ofNat l.size :: (l.bytes ++ labelBytes ls) := rfl

private theorem labelBytes_append_inj {ls ks : List Label} {s t : Bytes}
    (h : labelBytes ls ++ 0 :: s = labelBytes ks ++ 0 :: t) : ls = ks ∧ s = t := by
  induction ls generalizing ks with
  | nil =>
    cases ks with
    | nil => exact ⟨rfl, (List.cons.inj h).2⟩
    | cons k ks => exact absurd (List.cons.inj h).1.symm (ofNat_size_ne_zero k)
  | cons l ls ih =>
    cases ks with
    | nil => exact absurd (List.cons.inj h).1 (ofNat_size_ne_zero l)
    | cons k ks =>
      simp only [labelBytes_cons, List.cons_append, List.append_assoc] at h
      obtain ⟨sizes, rest⟩ := List.cons.inj h
      obtain ⟨bytes, rest⟩ := List.append_inj rest (by simp [ofNat_size_inj sizes])
      obtain ⟨rfl, tails⟩ := ih rest
      exact ⟨by rw [Label.bytes_injective bytes], tails⟩

/-- Of bytes that start with the wire form of a name, the labels of this name can be told. -/
theorem wire_append_inj {a b : DomainName} {s t : Bytes} (h : a.wire ++ s = b.wire ++ t) :
    a.labels = b.labels ∧ s = t :=
  labelBytes_append_inj (by simpa [wire] using h)

theorem wire?_eq_ok {name : DomainName} {bytes : Bytes} (h : name.wire? = .ok bytes) :
    bytes = name.wire := by
  rw [wire?] at h
  split at h
  · cases h
  · exact (Except.ok.inj h).symm

end ZoneCatalog.DomainName
