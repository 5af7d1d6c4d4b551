import ZoneCatalog.Data.Decode
import ZoneCatalog.Proofs.Data.Except

/-! Ways of writing a value as plain data that lose nothing of it. -/
namespace ZoneCatalog

/-- A tree that can be written and read back: its numbers are integers, and its texts denote
themselves. -/
inductive Datum.Plain : Datum → Prop where
  | null : Plain .null
  | bool (b : Bool) : Plain (.bool b)
  | int (n : Int) : Plain (.int n)
  | str (s : String) : Plain (.str s)
  | list {items : List Datum} (h : ∀ d ∈ items, Plain d) : Plain (.list items)
  | object {members : List (String × Datum)} (h : ∀ m ∈ members, Plain m.2) :
    Plain (.object members)

namespace Datum

attribute [simp] Plain.bool Plain.int Plain.str

@[simp]
theorem plain_nat (n : Nat) : (Datum.nat n).Plain := .int n

/-! Single values. -/

@[simp]
theorem decodeText_str (s : String) : decodeText (.str s) = .ok s := rfl

@[simp]
theorem decodeBool_bool (b : Bool) : decodeBool (.bool b) = .ok b := rfl

theorem decodeNat_nat {bound n : Nat} (h : n < bound) : decodeNat bound (.nat n) = .ok n := by
  have inRange : (0 : Int) ≤ n ∧ (n : Int) ≤ bound - 1 := by omega
  simp [decodeNat, decodeInt, nat, inRange, Except.map]

@[simp]
theorem decodeUInt8_nat (x : UInt8) : decodeUInt8 (.nat x.toNat) = .ok x := by
  simp [decodeUInt8, decodeNat_nat x.toNat_lt_size, Except.map]

@[simp]
theorem decodeUInt16_nat (x : UInt16) : decodeUInt16 (.nat x.toNat) = .ok x := by
  simp [decodeUInt16, decodeNat_nat x.toNat_lt_size, Except.map]

@[simp]
theorem decodeUInt32_nat (x : UInt32) : decodeUInt32 (.nat x.toNat) = .ok x := by
  simp [decodeUInt32, decodeNat_nat x.toNat_lt_size, Except.map]

@[simp]
theorem decodeInt32_int (x : Int32) : decodeInt32 (.int x.toInt) = .ok x := by
  have inRange := And.intro x.minValue_le_toInt x.toInt_le
  rw [decodeInt32, decodeInt, if_pos inRange]
  exact congrArg Except.ok (Int32.ofInt_toInt x)

/-! Lists and records. -/

variable {α : Type} {encode : α → Datum} {decode : Datum → Decoded α}

@[simp]
theorem plain_list_map (h : ∀ x, (encode x).Plain) (xs : List α) :
    (Datum.list (xs.map encode)).Plain := by
  refine .list fun d hd => ?_
  obtain ⟨x, -, rfl⟩ := List.mem_map.1 hd
  exact h x

@[simp]
theorem decodeList_map (h : ∀ x, decode (encode x) = .ok x) (xs : List α) :
    decodeList decode (.list (xs.map encode)) = .ok xs := by
  induction xs with
  | nil => rfl
  | cons x xs ih =>
    rw [decodeList] at ih ⊢
    rw [List.map_cons, List.mapM_cons, h, ih]
    rfl

/-- The fields of a record are those that are written, if it has them and none is written twice. -/
theorem fields_object {names : List String} {members : List (String × Datum)} (surplus : Surplus)
    (known : ∀ m ∈ members, m.1 ∈ names) (distinct : (members.map Prod.fst).Nodup) :
    fields names surplus (.object members) = .ok ⟨false, members⟩ := by
  have all : knownMembers names (members.map fun m => (some m.1, m.2)) = .ok members := by
    induction members with
    | nil => rfl
    | cons m members ih =>
      obtain ⟨first, rest⟩ := List.forall_mem_cons.1 known
      obtain ⟨new, distinct⟩ := List.nodup_cons.1 distinct
      have absent : members.lookup m.1 = none := by
        refine List.lookup_eq_none_iff.2 fun m' hm => ?_
        have other : m.1 ≠ m'.1 := fun same => new (same ▸ List.mem_map_of_mem hm)
        simpa using other
      rw [List.map_cons, knownMembers, ih rest distinct, Except.ok_bind]
      simp [first, absent, pure, Except.pure]
  change (knownMembers names (members.map fun m => (some m.1, m.2))).map _ = _
  rw [all]
  rfl

namespace Fields

variable {positional : Bool} {name other : String} {d : Datum} {stated : List (String × Datum)}

@[simp]
theorem require_cons : (⟨positional, (other, d) :: stated⟩ : Fields).require name decode =
    if name = other then decode d else (⟨positional, stated⟩ : Fields).require name decode := by
  by_cases h : name = other
  · simp [require, h]
  · simp [require, List.lookup_cons, h, beq_eq_false_iff_ne.2 h]

@[simp]
theorem getD_cons (default : α) :
    (⟨positional, (other, d) :: stated⟩ : Fields).getD name decode default =
      if name = other then decode d
      else (⟨positional, stated⟩ : Fields).getD name decode default := by
  by_cases h : name = other
  · simp [getD, h]
  · simp [getD, List.lookup_cons, h, beq_eq_false_iff_ne.2 h]

@[simp]
theorem getD_nil (default : α) : (⟨positional, []⟩ : Fields).getD name decode default =
    .ok default :=
  rfl

end Fields

/-- What is written is plain, and the value is read back off it. -/
structure Faithful (encode : α → Datum) (decode : Datum → Decoded α) : Prop where
  plain : ∀ x, (encode x).Plain
  decode_encode : ∀ x, decode (encode x) = .ok x

/-- A value that is there, where it might be absent. -/
theorem Faithful.decodeOption (faithful : Faithful encode decode) {x : α}
    (notNull : encode x ≠ .null) : decodeOption decode (encode x) = .ok (some x) := by
  rw [Datum.decodeOption.eq_def]
  split
  · exact absurd ‹_› notNull
  · rw [faithful.decode_encode]
    rfl

/-- A record written by its fields, in their order, and read off them. -/
theorem Faithful.record {names : List String} {surplus : Surplus}
    {members : α → List (String × Datum)} {read : Fields → Decoded α} (distinct : names.Nodup)
    (ordered : ∀ x, ((members x).map Prod.fst).Sublist names)
    (plain : ∀ x, ∀ m ∈ members x, m.2.Plain)
    (read_members : ∀ x, read ⟨false, members x⟩ = .ok x) :
    Faithful (fun x => .object (members x)) fun d => d.fields names surplus >>= read where
  plain x := .object (plain x)
  decode_encode x := by
    have known : ∀ m ∈ members x, m.1 ∈ names :=
      fun m hm => (ordered x).subset (List.mem_map_of_mem hm)
    rw [fields_object surplus known (distinct.sublist (ordered x)), Except.ok_bind]
    exact read_members x

end Datum
end ZoneCatalog
