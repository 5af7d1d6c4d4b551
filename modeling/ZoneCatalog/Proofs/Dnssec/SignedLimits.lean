import Mathlib.Algebra.GroupWithZero.Nat
import ZoneCatalog.Proofs.Dnssec.Pairs
import ZoneCatalog.Proofs.Dnssec.SignedData

/-! When there are bytes to sign. Two limits are on the names, one is on the whole message, and
there is no other: a record that is too long for its length field is too long for the message. The
bytes are laid out in RFC 4034's canonical form. -/
namespace ZoneCatalog

namespace DomainName

theorem length_labelBytes (labels : List Label) :
    (labelBytes labels).length = labelRoom labels := by
  induction labels with
  | nil => rfl
  | cons l ls ih =>
    have room : labelRoom (l :: ls) = l.size + 1 + labelRoom ls := rfl
    rw [labelBytes_cons, List.length_cons, List.length_append, Label.length_bytes, ih, room]
    omega

/-- The case of the letters makes no difference to the length. -/
@[simp] theorem length_wire_lower (name : DomainName) :
    name.lower.wire.length = name.wire.length := by
  have sizes : labelRoom (name.labels.map Label.lower) = labelRoom name.labels := by
    simp [labelRoom, List.foldr_map]
  simp only [wire, List.length_append, length_labelBytes, lower, sizes]

theorem wire?_of_length {name : DomainName} (h : name.wire.length ≤ 255) :
    name.wire? = .ok name.wire := by
  rw [wire?, if_neg (by omega)]

theorem wire?_eq_ok_iff {name : DomainName} {bytes : Bytes} :
    name.wire? = .ok bytes ↔ name.wire.length ≤ 255 ∧ bytes = name.wire := by
  constructor
  · intro h
    refine ⟨?_, wire?_eq_ok h⟩
    by_contra long
    rw [wire?, if_pos (by omega)] at h
    cases h
  · rintro ⟨short, same⟩
    rw [same, wire?_of_length short]

end DomainName

namespace Rrsig

variable {r : Rrsig} {front m : Bytes} {used : Nat} {xs rdatas : List Bytes}

/-! The limit on a message. -/

/-- The number of bytes that records take, each after `front` and its length. -/
def recordRoom (front : Nat) (xs : List Bytes) : Nat := (xs.map fun x => front + 2 + x.length).sum

@[simp] theorem recordRoom_cons (front : Nat) (x : Bytes) (xs : List Bytes) :
    recordRoom front (x :: xs) = front + 2 + x.length + recordRoom front xs := rfl

/-- A record is written if and only if there is room for all of it: what is checked before it is
checked again with the whole of it. -/
theorem records_cons_eq_ok {x : Bytes} : records front used (x :: xs) = .ok m ↔
    used + (front.length + 2 + x.length) ≤ bufferLimit ∧
      ∃ others, records front (used + (front.length + 2 + x.length)) xs = .ok others ∧
        m = recordBytes front x ++ others := by
  have limit : bufferLimit = 65535 := rfl
  simp only [records]
  constructor
  · intro h
    split at h
    · cases h
    · split at h
      · cases h
      · split at h
        · cases h
        · obtain ⟨others, written, last⟩ := Except.bind_eq_ok.1 h
          exact ⟨by omega, others, written, (Except.ok.inj last).symm⟩
  · rintro ⟨room, others, written, same⟩
    rw [if_neg (by omega), if_neg (by omega), if_neg (by omega), written, same]
    rfl

/-- Records are written if and only if there is room for all of them. -/
theorem records_ok_iff : (∃ m, records front used xs = .ok m) ↔
    xs = [] ∨ used + recordRoom front.length xs ≤ bufferLimit := by
  induction xs generalizing used with
  | nil => exact iff_of_true ⟨[], rfl⟩ (.inl rfl)
  | cons x xs ih =>
    simp only [records_cons_eq_ok, recordRoom_cons, reduceCtorEq, false_or]
    constructor
    · intro ⟨m, room, others, written, _⟩
      rcases ih.1 ⟨others, written⟩ with rfl | rest
      · simpa [recordRoom] using room
      · omega
    · intro room
      obtain ⟨others, written⟩ :
          ∃ m, records front (used + (front.length + 2 + x.length)) xs = .ok m :=
        ih.2 (.inr (by omega))
      exact ⟨_, by omega, others, written, rfl⟩

@[simp] theorem length_header (r : Rrsig) : r.header.length = 18 := by simp [header]

@[simp] theorem length_recordFront (r : Rrsig) (owner : Bytes) :
    (r.recordFront owner).length = owner.length + 8 := by
  simp [recordFront, classField]

theorem unsignedRdata_ok_iff : r.unsignedRdata = .ok m ↔
    r.signerName.wire.length ≤ 255 ∧ m = r.header ++ r.signerName.wire := by
  simp only [unsignedRdata, Except.map_eq_ok, Except.mapError_eq_ok, DomainName.wire?_eq_ok_iff]
  constructor
  · rintro ⟨signer, ⟨short, rfl⟩, rfl⟩
    exact ⟨short, rfl⟩
  · rintro ⟨short, rfl⟩
    exact ⟨_, ⟨short, rfl⟩, rfl⟩

theorem canonicalSet_eq_nil_iff : canonicalSet rdatas = [] ↔ rdatas = [] := by
  constructor
  · intro h
    by_contra nonempty
    exact canonicalSet_ne_nil nonempty h
  · intro h
    rw [h]
    exact canonicalSet_eq .nil fun _ => .rfl

/-- There are bytes to sign if and only if the signer has a wire form, the owner has one or there
is no record to own, and all of it fits a message. -/
theorem signedData_ok_iff : (∃ m, r.signedData rdatas = .ok m) ↔
    r.signerName.wire.length ≤ 255 ∧ (rdatas ≠ [] → r.owner.wire.length ≤ 255) ∧
      18 + r.signerName.wire.length + recordRoom (r.owner.wire.length + 8) (canonicalSet rdatas) ≤
        bufferLimit := by
  have empty : canonicalSet rdatas = [] ↔ rdatas = [] := canonicalSet_eq_nil_iff
  simp only [signedData, Except.bind_eq_ok, unsignedRdata_ok_iff]
  cases hset : canonicalSet rdatas with
  | nil =>
    have nothing : rdatas = [] := empty.1 hset
    constructor
    · rintro ⟨m, head, ⟨short, _⟩, _⟩
      refine ⟨short, absurd nothing, ?_⟩
      simp only [recordRoom, List.map_nil, List.sum_nil, bufferLimit]
      omega
    · rintro ⟨short, _, _⟩
      exact ⟨_, _, ⟨short, rfl⟩, rfl⟩
  | cons x set =>
    have nonempty : rdatas ≠ [] := fun h => List.cons_ne_nil x set (hset ▸ empty.2 h)
    have written : (∃ m, records (r.recordFront r.owner.wire) (18 + r.signerName.wire.length)
          (x :: set) = .ok m) ↔
        18 + r.signerName.wire.length + recordRoom (r.owner.wire.length + 8) (x :: set) ≤
          bufferLimit := by
      rw [records_ok_iff, length_recordFront]
      simp only [reduceCtorEq, false_or]
    simp only [Except.bind_eq_ok, Except.mapError_eq_ok, DomainName.wire?_eq_ok_iff]
    constructor
    · rintro ⟨m, head, ⟨short, rfl⟩, owner, ⟨owned, rfl⟩, body, recorded, _⟩
      rw [List.length_append, length_header] at recorded
      exact ⟨short, fun _ => owned, written.1 ⟨body, recorded⟩⟩
    · rintro ⟨short, owned, room⟩
      obtain ⟨body, recorded⟩ := written.2 room
      refine ⟨_, _, ⟨short, rfl⟩, _, ⟨owned nonempty, rfl⟩, body, ?_, rfl⟩
      rwa [List.length_append, length_header]

variable {key : SigningKey} {tag : UInt16} {signer site : DomainName} {type : RecordType}
  {ttl : UInt32} {signed : List Bytes} {first last : Seconds}

/-- The signature that is made differs from its draft in nothing that is signed. -/
theorem sign_fields (made : sign key tag signer site type ttl signed first last = .ok r) :
    r.SameHeader (draft key tag signer site type ttl first last) ∧ r.signerName = signer.lower ∧
      r.owner = site.lower := by
  obtain ⟨message, signature, -, -, rfl⟩ := sign_eq_ok.1 made
  exact ⟨⟨rfl, rfl, rfl, rfl, rfl, rfl, rfl⟩, rfl, rfl⟩

/-- What a made signature covers. There are bytes to sign if and only if the names and the whole
are not too long, where every record of the set counts once; they are the fields of the signature,
the lowered signer, and the records in strictly ascending order, each under the lowered owner. So
neither the bytes nor their absence depends on the order of the records or on repeated ones. -/
theorem signedData_of_sign
    (made : sign key tag signer site type ttl signed first last = .ok r) (rdatas : List Bytes) :
    ∃ set : List Bytes, set.Pairwise (· < ·) ∧ (∀ x, x ∈ set ↔ x ∈ rdatas) ∧
      ((∃ m, r.signedData rdatas = .ok m) ↔
        signer.wire.length ≤ 255 ∧ (rdatas ≠ [] → site.wire.length ≤ 255) ∧
          18 + signer.wire.length + (set.map fun x => site.wire.length + 10 + x.length).sum ≤
            65535) ∧
      (∀ m, r.signedData rdatas = .ok m → m =
        Bytes.ofUInt16 type.code ++ [key.algorithm.number, UInt8.ofNat site.countedLabels] ++
          Bytes.ofUInt32 ttl ++ Bytes.ofUInt32 last.serial ++ Bytes.ofUInt32 first.serial ++
          Bytes.ofUInt16 tag ++ signer.lower.wire ++
          set.flatMap fun x => site.lower.wire ++ Bytes.ofUInt16 type.code ++ [0, 1] ++
            Bytes.ofUInt32 ttl ++ Bytes.ofUInt16 (UInt16.ofNat x.length) ++ x) ∧
      ∀ others : List Bytes, (∀ x, x ∈ others ↔ x ∈ rdatas) →
        r.signedData others = r.signedData rdatas := by
  obtain ⟨fields, signerName, owner⟩ := sign_fields made
  refine ⟨canonicalSet rdatas, ascending_canonicalSet rdatas, fun x => mem_canonicalSet,
    ?limits, ?layout, fun others same => signedData_congr r same⟩
  case limits =>
    have room : recordRoom (site.wire.length + 8) (canonicalSet rdatas) =
        ((canonicalSet rdatas).map fun x => site.wire.length + 10 + x.length).sum := rfl
    rw [signedData_ok_iff, signerName, owner, DomainName.length_wire_lower,
      DomainName.length_wire_lower, room]
    rfl
  case layout =>
    intro m covered
    obtain ⟨rfl, -⟩ := signedData_eq_ok covered
    have each : recordBytes (r.recordFront r.owner.wire) = fun x =>
        site.lower.wire ++ Bytes.ofUInt16 type.code ++ [0, 1] ++ Bytes.ofUInt32 ttl ++
          Bytes.ofUInt16 (UInt16.ofNat x.length) ++ x := by
      funext x
      rw [recordBytes, recordFront, owner, fields.typeCovered, fields.originalTtl]
      rfl
    rw [message, each, header, signerName, fields.typeCovered, fields.algorithm, fields.labels,
      fields.originalTtl, fields.expiration, fields.inception, fields.keyTag]
    simp only [draft, List.append_assoc]

/-- Two texts at the root, signed in ascending order and then given again out of order. -/
theorem signedData_of_sign_unordered :
    ∃ r, sign (.ed25519 (List.replicate 32 7)) 7 .root .root ⟨16⟩ 300 [[1], [2]] 5 9 = .ok r ∧
      (∃ m, r.signedData [[2], [1], [2]] = .ok m) ∧
      r.signedData [[2], [1], [2]] = r.signedData [[1], [2]] := by
  have sorted : canonicalSet [[1], [2]] = [[1], [2]] :=
    canonicalSet_eq (by decide) fun _ => .rfl
  obtain ⟨covered, made⟩ : ∃ m, (draft (.ed25519 (List.replicate 32 7)) 7 .root .root ⟨16⟩ 300
      5 9).signedData [[1], [2]] = .ok m := by
    rw [signedData_ok_iff, sorted]
    decide
  have signed := sign_eq_ok.2 ⟨covered, _, made, rfl, rfl⟩
  obtain ⟨set, ascending, members, limits, -, alike⟩ := signedData_of_sign signed [[2], [1], [2]]
  have given : set = [[1], [2]] := by
    rw [← canonicalSet_eq ascending fun x => (members x).symm]
    exact canonicalSet_eq (by decide) (by simp)
  refine ⟨_, signed, limits.2 ?_, (alike _ (by simp)).symm⟩
  rw [given]
  decide

end Rrsig
end ZoneCatalog
