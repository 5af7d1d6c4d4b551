import Mathlib.Data.List.Sort
import ZoneCatalog.Dnssec.Rrsig
import ZoneCatalog.Proofs.Bytes.Basic
import ZoneCatalog.Proofs.Data.Except
import ZoneCatalog.Proofs.Name.Wire

/-! What a signature covers. The signed bytes depend on the set of the records alone, in whatever
order and however often they are given; and all that is signed can be read back from the bytes, so
different records are never signed by the same bytes. -/
namespace ZoneCatalog.Rrsig

section CanonicalSet

variable {x : Bytes} {xs ys : List Bytes}

@[simp] theorem mem_dropRepeats : x ∈ dropRepeats xs ↔ x ∈ xs := by
  induction xs using dropRepeats.induct with
  | case1 => rfl
  | case2 => rfl
  | case3 y rest ih => simp [dropRepeats, ih]
  | case4 y z rest distinct ih => simp [dropRepeats, distinct, ih]

/-- Without its repetitions an ascending list ascends strictly. -/
theorem ascending_dropRepeats (h : xs.Pairwise (· ≤ ·)) :
    (dropRepeats xs).Pairwise (· < ·) := by
  induction xs using dropRepeats.induct with
  | case1 => exact .nil
  | case2 => exact List.pairwise_singleton _ _
  | case3 y rest ih =>
    rw [dropRepeats, if_pos rfl]
    exact ih h.of_cons
  | case4 y z rest distinct ih =>
    rw [dropRepeats, if_neg distinct]
    refine List.pairwise_cons.2 ⟨fun w hw => ?_, ih h.of_cons⟩
    have least : ∀ w ∈ z :: rest, z ≤ w := by
      intro w hw
      rcases List.mem_cons.1 hw with rfl | hw
      · exact Std.le_refl _
      · exact (List.pairwise_cons.1 h.of_cons).1 w hw
    have below : y < z :=
      Std.lt_of_le_of_ne ((List.pairwise_cons.1 h).1 z (by simp)) distinct
    exact Std.lt_of_lt_of_le below (least w (mem_dropRepeats.1 hw))

@[simp] theorem mem_canonicalSet : x ∈ canonicalSet xs ↔ x ∈ xs := by
  simp [canonicalSet]

theorem ascending_canonicalSet (xs : List Bytes) : (canonicalSet xs).Pairwise (· < ·) := by
  refine ascending_dropRepeats ((List.pairwise_mergeSort ?_ ?_ xs).imp Bytes.isAtMost_iff.1)
  · intro a b c hab hbc
    exact Bytes.isAtMost_iff.2 (Std.le_trans (Bytes.isAtMost_iff.1 hab) (Bytes.isAtMost_iff.1 hbc))
  · intro a b
    simpa [Bytes.isAtMost_iff] using Std.le_total (a := a) (b := b)

/-- An ascending list is the canonical form of every list with the same elements. -/
theorem canonicalSet_eq (ascending : ys.Pairwise (· < ·)) (same : ∀ x, x ∈ xs ↔ x ∈ ys) :
    canonicalSet xs = ys := by
  have distinct : ∀ {zs : List Bytes}, zs.Pairwise (· < ·) → zs.Nodup :=
    fun h => h.imp fun below => Std.ne_of_lt below
  have perm : (canonicalSet xs).Perm ys :=
    (List.perm_ext_iff_of_nodup (distinct (ascending_canonicalSet xs)) (distinct ascending)).2
      (by simpa using same)
  refine perm.eq_of_pairwise (fun a b _ _ hab hba => ?_) (ascending_canonicalSet xs) ascending
  exact absurd (Std.lt_trans hab hba) Std.lt_irrefl

/-- The canonical form of a list of records is one of their set. -/
theorem canonicalSet_eq_iff : canonicalSet xs = canonicalSet ys ↔ ∀ x, x ∈ xs ↔ x ∈ ys := by
  constructor
  · intro same x
    rw [← mem_canonicalSet, same, mem_canonicalSet]
  · intro same
    exact canonicalSet_eq (ascending_canonicalSet ys) (by simpa using same)

theorem canonicalSet_ne_nil (h : xs ≠ []) : canonicalSet xs ≠ [] := by
  obtain ⟨x, hx⟩ := List.exists_mem_of_ne_nil xs h
  exact List.ne_nil_of_mem (mem_canonicalSet.2 hx)

end CanonicalSet

variable {r r' : Rrsig} {front s t m : Bytes} {xs ys : List Bytes}

/-- What is signed depends on the set of the records alone. -/
theorem signedData_congr (r : Rrsig) (same : ∀ x, x ∈ xs ↔ x ∈ ys) :
    r.signedData xs = r.signedData ys := by
  rw [signedData, signedData, canonicalSet_eq_iff.2 same]

/-! The signed bytes, written out. -/

def recordBytes (front rdata : Bytes) : Bytes :=
  front ++ Bytes.ofUInt16 (UInt16.ofNat rdata.length) ++ rdata

/-- The bytes that are signed where the names and the records are not too long. -/
def message (r : Rrsig) (rdatas : List Bytes) : Bytes :=
  r.header ++ (r.signerName.wire ++
    (canonicalSet rdatas).flatMap (recordBytes (r.recordFront r.owner.wire)))

theorem records_eq_ok {used : Nat} (h : records front used xs = .ok m) :
    m = xs.flatMap (recordBytes front) ∧ ∀ x ∈ xs, x.length < UInt16.size := by
  induction xs generalizing used m with
  | nil => exact ⟨(Except.ok.inj h).symm, by simp⟩
  | cons x xs ih =>
    simp only [records] at h
    split at h
    · cases h
    · split at h
      · cases h
      · rename_i short
        split at h
        · cases h
        · obtain ⟨others, written, last⟩ := Except.bind_eq_ok.1 h
          obtain ⟨rfl, shorter⟩ := ih written
          refine ⟨by simpa [recordBytes] using (Except.ok.inj last).symm, ?_⟩
          refine List.forall_mem_cons.2 ⟨?_, shorter⟩
          simp only [UInt16.size]
          omega

theorem unsignedRdata_eq_ok (h : r.unsignedRdata = .ok m) : m = r.header ++ r.signerName.wire := by
  obtain ⟨signer, written, rfl⟩ := Except.map_eq_ok.1 h
  rw [DomainName.wire?_eq_ok (Except.mapError_eq_ok.1 written)]

theorem signedData_eq_ok (h : r.signedData xs = .ok m) :
    m = r.message xs ∧ ∀ x ∈ xs, x.length < UInt16.size := by
  obtain ⟨head, opened, h⟩ := Except.bind_eq_ok.1 h
  obtain rfl := unsignedRdata_eq_ok opened
  cases hset : canonicalSet xs with
  | nil =>
    rw [hset] at h
    have empty : xs = [] := List.eq_nil_iff_forall_not_mem.2 fun x hx => by
      simpa [hset] using mem_canonicalSet.2 hx
    exact ⟨by simpa [message, hset] using (Except.ok.inj h).symm, by simp [empty]⟩
  | cons x set =>
    rw [hset] at h
    obtain ⟨owner, owned, h⟩ := Except.bind_eq_ok.1 h
    obtain rfl := DomainName.wire?_eq_ok (Except.mapError_eq_ok.1 owned)
    obtain ⟨body, written, last⟩ := Except.bind_eq_ok.1 h
    obtain ⟨rfl, short⟩ := records_eq_ok written
    refine ⟨by simpa [message, hset] using (Except.ok.inj last).symm, fun y hy => short y ?_⟩
    rwa [← hset, mem_canonicalSet]

/-! Reading the signed bytes back. -/

theorem number_inj {a b : Algorithm} (h : a.number = b.number) : a = b := by
  cases a <;> cases b <;> first | rfl | cases h

/-- The fields up to the signer, all of them of a fixed length. -/
structure SameHeader (r r' : Rrsig) : Prop where
  typeCovered : r.typeCovered = r'.typeCovered
  algorithm : r.algorithm = r'.algorithm
  labels : r.labels = r'.labels
  originalTtl : r.originalTtl = r'.originalTtl
  expiration : r.expiration = r'.expiration
  inception : r.inception = r'.inception
  keyTag : r.keyTag = r'.keyTag

theorem header_append_inj (h : r.header ++ s = r'.header ++ t) : r.SameHeader r' ∧ s = t := by
  simp only [header, List.append_assoc] at h
  obtain ⟨type, h⟩ := Bytes.ofUInt16_append_inj h
  obtain ⟨numbers, h⟩ := List.append_inj h rfl
  obtain ⟨number, labels⟩ : _ = _ ∧ r.labels = r'.labels := by simpa using numbers
  obtain ⟨ttl, h⟩ := Bytes.ofUInt32_append_inj h
  obtain ⟨expiration, h⟩ := Bytes.ofUInt32_append_inj h
  obtain ⟨inception, h⟩ := Bytes.ofUInt32_append_inj h
  obtain ⟨tag, h⟩ := Bytes.ofUInt16_append_inj h
  exact
    ⟨⟨congrArg RecordType.mk type, number_inj number, labels, ttl, expiration, inception, tag⟩, h⟩

/-- A record says where it ends. -/
theorem recordBytes_append_inj {x y : Bytes} (hx : x.length < UInt16.size)
    (hy : y.length < UInt16.size) (h : recordBytes front x ++ s = recordBytes front y ++ t) :
    x = y ∧ s = t := by
  simp only [recordBytes, List.append_assoc] at h
  obtain ⟨size, h⟩ := Bytes.ofUInt16_append_inj (List.append_cancel_left h)
  have same : x.length = y.length := by
    have := congrArg UInt16.toNat size
    rwa [UInt16.toNat_ofNat_of_lt' hx, UInt16.toNat_ofNat_of_lt' hy] at this
  exact List.append_inj h same

theorem recordBytes_ne_nil (front rdata : Bytes) : recordBytes front rdata ≠ [] := by
  intro h
  have := congrArg List.length h
  simp [recordBytes] at this

/-- Records one after the other can be told apart, though their number is not written down. -/
theorem records_inj (hx : ∀ x ∈ xs, x.length < UInt16.size) (hy : ∀ y ∈ ys, y.length < UInt16.size)
    (h : xs.flatMap (recordBytes front) = ys.flatMap (recordBytes front)) : xs = ys := by
  induction xs generalizing ys with
  | nil =>
    cases ys with
    | nil => rfl
    | cons y ys => exact absurd (List.append_eq_nil_iff.1 h.symm).1 (recordBytes_ne_nil front y)
  | cons x xs ih =>
    cases ys with
    | nil => exact absurd (List.append_eq_nil_iff.1 h).1 (recordBytes_ne_nil front x)
    | cons y ys =>
      rw [List.forall_mem_cons] at hx hy
      obtain ⟨rfl, rest⟩ := recordBytes_append_inj hx.1 hy.1 h
      rw [ih hx.2 hy.2 rest]

/-- The records name their owner. -/
theorem owner_of_records (hx : xs ≠ []) (hy : ys ≠ [])
    (h : xs.flatMap (recordBytes (r.recordFront r.owner.wire)) =
      ys.flatMap (recordBytes (r'.recordFront r'.owner.wire))) :
    r.owner.labels = r'.owner.labels := by
  obtain ⟨x, xs, rfl⟩ := List.exists_cons_of_ne_nil hx
  obtain ⟨y, ys, rfl⟩ := List.exists_cons_of_ne_nil hy
  simp only [List.flatMap_cons, recordBytes, recordFront, List.append_assoc] at h
  exact (DomainName.wire_append_inj h).1

/-- Whatever is signed is told by the bytes that are signed: all fields but the signature, the
labels of signer and owner, and the set of the records. So no two signatures with different fields
and no two sets of records are covered by the same bytes. -/
theorem signedData_inj (r r' : Rrsig) {xs ys : List Bytes} {m : Bytes} (hx : xs ≠ []) (hy : ys ≠ [])
    (h : r.signedData xs = .ok m) (h' : r'.signedData ys = .ok m) :
    r.SameHeader r' ∧ r.signerName.labels = r'.signerName.labels ∧
      r.owner.labels = r'.owner.labels ∧ ∀ x, x ∈ xs ↔ x ∈ ys := by
  obtain ⟨rfl, shortX⟩ := signedData_eq_ok h
  obtain ⟨same, shortY⟩ := signedData_eq_ok h'
  obtain ⟨header, same⟩ := header_append_inj same
  obtain ⟨signer, records⟩ := DomainName.wire_append_inj same
  have owner : r.owner.labels = r'.owner.labels :=
    owner_of_records (canonicalSet_ne_nil hx) (canonicalSet_ne_nil hy) records
  have front : r.recordFront r.owner.wire = r'.recordFront r'.owner.wire := by
    simp only [recordFront, DomainName.wire, owner, header.typeCovered, header.originalTtl]
  rw [front] at records
  have sets : canonicalSet xs = canonicalSet ys :=
    records_inj (by simpa using shortX) (by simpa using shortY) records
  exact ⟨header, signer, owner, canonicalSet_eq_iff.1 sets⟩

/-- A signature over texts at the name `a`, its owner written with or without a dot at the end. -/
def overTexts (absolute : Bool) (signature : Bytes) : Rrsig where
  owner := ⟨[⟨['a'], rfl⟩], absolute, by decide⟩
  typeCovered := ⟨16⟩
  algorithm := .ed25519
  labels := 1
  originalTtl := 300
  expiration := 9
  inception := 5
  keyTag := 7
  signerName := .root
  signature

theorem signedData_inj_overTexts :
    ∃ m, (overTexts true []).signedData [[2], [1]] = .ok m ∧
      (overTexts false [3]).signedData [[1], [2], [2]] = .ok m ∧
      (overTexts true []).owner.labels = (overTexts false [3]).owner.labels ∧
      ∀ x, x ∈ ([[2], [1]] : List Bytes) ↔ x ∈ ([[1], [2], [2]] : List Bytes) := by
  have ascending : ([[1], [2]] : List Bytes).Pairwise (· < ·) := by decide
  have first : (overTexts true []).signedData [[2], [1]] =
      .ok ((overTexts true []).message [[1], [2]]) := by
    rw [signedData, message, canonicalSet_eq ascending (by simp [or_comm]),
      canonicalSet_eq ascending fun _ => .rfl]
    rfl
  have second : (overTexts false [3]).signedData [[1], [2], [2]] =
      .ok ((overTexts true []).message [[1], [2]]) := by
    rw [signedData, message, canonicalSet_eq ascending (by simp),
      canonicalSet_eq ascending fun _ => .rfl]
    rfl
  exact ⟨_, first, second, (signedData_inj _ _ (by decide) (by decide) first second).2.2⟩

end ZoneCatalog.Rrsig
