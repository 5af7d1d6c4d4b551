import Mathlib.Data.List.Forall2
import ZoneCatalog.Proofs.Data.Decode

/-! Trees written short: members of a record are left out where they say what its reader takes for
granted. The short tree is read as the whole one. -/
namespace ZoneCatalog.Datum

theorem object_injective : Function.Injective Datum.object := by
  intro members members' same
  have named : Function.Injective fun m : String × Datum => (some m.1, m.2) := by
    rintro ⟨name, d⟩ ⟨name', d'⟩ h
    simpa using h
  exact List.map_injective_iff.2 named (table.inj same)

theorem Plain.of_list {items : List Datum} (plain : (Datum.list items).Plain) :
    ∀ d ∈ items, d.Plain := by
  cases plain with
  | list h => exact h

theorem Plain.of_object {members : List (String × Datum)} (plain : (Datum.object members).Plain) :
    ∀ m ∈ members, m.2.Plain := by
  generalize written : Datum.object members = d at plain
  cases plain with
  | object h => exact object_injective written ▸ h
  | null | bool | int | str | list => cases written

/-- A way of writing trees short, which leaves what can be written and read back so. -/
structure Omission where
  Shortens : Datum → Datum → Prop
  plain {d d' : Datum} : Shortens d d' → d.Plain → d'.Plain

/-- Nothing is left out. -/
def Omission.none : Omission := ⟨Eq, fun same plain => same ▸ plain⟩

/-- What may become of a field of a record that is written short. -/
structure Part where
  /-- The value with which the field may be left out; a field that has none stays. -/
  default : Option Datum
  /-- How the value of a field that stays may be shortened. -/
  inner : Omission

def Part.stays (inner : Omission := .none) : Part := ⟨none, inner⟩

def Part.optional (default : Datum) (inner : Omission := .none) : Part := ⟨some default, inner⟩

/-- The items of a list, each of them shortened. -/
inductive ShortList (item : Omission) : Datum → Datum → Prop where
  | items {items short : List Datum} (each : List.Forall₂ item.Shortens items short) :
    ShortList item (.list items) (.list short)

/-- The members of a record, and what remains of them. Every member is kept or left out for
itself. -/
inductive ShortMembers (parts : List (String × Part)) :
    List (String × Datum) → List (String × Datum) → Prop where
  | nil : ShortMembers parts [] []
  | kept {name : String} {p : Part} {d d' : Datum} {members short : List (String × Datum)}
    (known : parts.lookup name = some p) (inner : p.inner.Shortens d d')
    (rest : ShortMembers parts members short) :
    ShortMembers parts ((name, d) :: members) ((name, d') :: short)
  | omitted {name : String} {p : Part} {d : Datum} {members short : List (String × Datum)}
    (known : parts.lookup name = some p) (isDefault : p.default = some d)
    (rest : ShortMembers parts members short) : ShortMembers parts ((name, d) :: members) short

inductive ShortRecord (parts : List (String × Part)) : Datum → Datum → Prop where
  | members {members short : List (String × Datum)} (each : ShortMembers parts members short) :
    ShortRecord parts (.object members) (.object short)

namespace ShortMembers

variable {parts : List (String × Part)} {members short : List (String × Datum)} {name : String}
  {p : Part}

theorem plain (h : ShortMembers parts members short) (plain : ∀ m ∈ members, m.2.Plain) :
    ∀ m ∈ short, m.2.Plain := by
  induction h with
  | nil => exact plain
  | @kept name p d d' members short known inner rest ih =>
    obtain ⟨first, others⟩ := List.forall_mem_cons.1 plain
    exact List.forall_mem_cons.2 ⟨p.inner.plain inner first, ih others⟩
  | omitted known isDefault rest ih => exact ih (List.forall_mem_cons.1 plain).2

theorem names_sublist (h : ShortMembers parts members short) :
    (short.map Prod.fst).Sublist (members.map Prod.fst) := by
  induction h with
  | nil => exact .refl _
  | kept _ _ _ ih => exact ih.cons_cons _
  | omitted _ _ _ ih => exact ih.cons _

theorem known (h : ShortMembers parts members short) :
    ∀ m ∈ members, m.1 ∈ parts.map Prod.fst := by
  have listed : ∀ {name : String} {p : Part}, parts.lookup name = some p →
      name ∈ parts.map Prod.fst := by
    intro name p known
    obtain ⟨before, after, rfl, -⟩ := List.lookup_eq_some_iff.1 known
    simp
  induction h with
  | nil => exact fun m hm => nomatch hm
  | kept known _ _ ih => exact List.forall_mem_cons.2 ⟨listed known, ih⟩
  | omitted known _ _ ih => exact List.forall_mem_cons.2 ⟨listed known, ih⟩

/-- What the lookup of a field comes to in a record and in its short form. -/
inductive Found (p : Part) : Option Datum → Option Datum → Prop where
  | absent : Found p none none
  | kept {d d' : Datum} (inner : p.inner.Shortens d d') : Found p (some d) (some d')
  | omitted {d : Datum} (isDefault : p.default = some d) : Found p (some d) none

theorem found (h : ShortMembers parts members short) (distinct : (members.map Prod.fst).Nodup)
    (part : parts.lookup name = some p) : Found p (members.lookup name) (short.lookup name) := by
  induction h with
  | nil => exact .absent
  | @kept other q d d' members short known inner rest ih =>
    obtain ⟨new, distinct⟩ := List.nodup_cons.1 distinct
    by_cases same : name = other
    · subst same
      obtain rfl := Option.some.inj (known.symm.trans part)
      simpa using Found.kept inner
    · simpa [List.lookup_cons, beq_eq_false_iff_ne.2 same] using ih distinct
  | @omitted other q d members short known isDefault rest ih =>
    obtain ⟨new, distinct⟩ := List.nodup_cons.1 distinct
    by_cases same : name = other
    · subst same
      obtain rfl := Option.some.inj (known.symm.trans part)
      have gone : short.lookup name = none := by
        refine List.lookup_eq_none_iff.2 fun m hm => bne_iff_ne.2 ?_
        rintro rfl
        have stated : m.1 ∈ short.map Prod.fst := List.mem_map_of_mem hm
        exact new (rest.names_sublist.subset stated)
      simpa [gone] using Found.omitted isDefault
    · simpa [List.lookup_cons, beq_eq_false_iff_ne.2 same] using ih distinct

end ShortMembers

namespace Omission

def list (item : Omission) : Omission where
  Shortens := ShortList item
  plain := by
    rintro _ _ ⟨each⟩ plain
    refine .list ?_
    have all := plain.of_list
    clear plain
    induction each with
    | nil => exact all
    | cons first _ ih =>
      obtain ⟨plainFirst, plainRest⟩ := List.forall_mem_cons.1 all
      exact List.forall_mem_cons.2 ⟨item.plain first plainFirst, ih plainRest⟩

def record (parts : List (String × Part)) : Omission where
  Shortens := ShortRecord parts
  plain := by
    rintro _ _ ⟨each⟩ plain
    exact .object (each.plain plain.of_object)

end Omission

/-! Reading a tree that is written short. -/

/-- Whatever is read in the first way is read in the second too. -/
def Preserves {α : Type} (x y : Decoded α) : Prop := ∀ a, x = .ok a → y = .ok a

namespace Preserves

variable {α β : Type}

theorem refl (x : Decoded α) : Preserves x x := fun _ read => read

theorem bind {x y : Decoded α} {f g : α → Decoded β} (first : Preserves x y)
    (rest : ∀ a, Preserves (f a) (g a)) : Preserves (x >>= f) (y >>= g) := by
  intro b read
  obtain ⟨a, readFirst, readRest⟩ := Except.bind_eq_ok.1 read
  rw [first a readFirst, Except.ok_bind]
  exact rest a b readRest

end Preserves

variable {α : Type} {decode : Datum → Decoded α} {default : α}

/-- What is left out is not missed. -/
def Omission.Harmless (omission : Omission) (decode : Datum → Decoded α) : Prop :=
  ∀ ⦃d d' : Datum⦄, omission.Shortens d d' → Preserves (decode d) (decode d')

/-- A field that is read off its value, and off the lack of it as the value with which it may be
left out. -/
structure Part.Suits (p : Part) (decode : Datum → Decoded α) (default : α) : Prop where
  inner : p.inner.Harmless decode
  decode_default {d : Datum} : p.default = some d → decode d = .ok default

namespace Part.Suits

variable {d : Datum} {inner : Omission}

theorem stays (harmless : inner.Harmless decode) : Suits (.stays inner) decode default :=
  ⟨harmless, nofun⟩

theorem optional (harmless : inner.Harmless decode) (standard : decode d = .ok default) :
    Suits (.optional d inner) decode default where
  inner := harmless
  decode_default same := Option.some.inj same ▸ standard

end Part.Suits

namespace ShortMembers

variable {parts : List (String × Part)} {members short : List (String × Datum)} {name : String}
  {p : Part} {positional : Bool}

theorem getD (h : ShortMembers parts members short) (distinct : (members.map Prod.fst).Nodup)
    (part : parts.lookup name = some p) (suits : p.Suits decode default) :
    Preserves ((⟨positional, members⟩ : Fields).getD name decode default)
      ((⟨positional, short⟩ : Fields).getD name decode default) := by
  have found := h.found distinct part
  unfold Fields.getD
  generalize members.lookup name = whole, short.lookup name = left at found
  cases found with
  | absent => exact .refl _
  | kept inner => exact suits.inner inner
  | omitted isDefault =>
    dsimp only
    rw [suits.decode_default isDefault]
    exact .refl _

theorem require (h : ShortMembers parts members short) (distinct : (members.map Prod.fst).Nodup)
    {inner : Omission} (part : parts.lookup name = some (.stays inner))
    (harmless : inner.Harmless decode) :
    Preserves ((⟨positional, members⟩ : Fields).require name decode)
      ((⟨positional, short⟩ : Fields).require name decode) := by
  have found := h.found distinct part
  unfold Fields.require
  generalize members.lookup name = whole, short.lookup name = left at found
  cases found with
  | absent => exact .refl _
  | kept inner => exact harmless inner
  | omitted isDefault => cases isDefault

end ShortMembers

/-- A table of known members is read as a record only if no member is stated twice. -/
theorem nodup_of_fields_object {names : List String} {surplus : Surplus} {fs : Fields}
    {members : List (String × Datum)} (known : ∀ m ∈ members, m.1 ∈ names)
    (read : fields names surplus (.object members) = .ok fs) : (members.map Prod.fst).Nodup := by
  obtain ⟨stated, all, -⟩ := Except.map_eq_ok.1 read
  clear read
  suffices (members.map Prod.fst).Nodup ∧ stated = members from this.1
  induction members generalizing stated with
  | nil => exact ⟨.nil, (Except.ok.inj all).symm⟩
  | cons m members ih =>
    obtain ⟨first, rest⟩ := List.forall_mem_cons.1 known
    rw [List.map_cons, knownMembers, Except.bind_eq_ok] at all
    obtain ⟨later, readRest, all⟩ := all
    obtain ⟨distinct, rfl⟩ := ih rest later readRest
    rw [if_neg (not_not_intro first)] at all
    split at all
    · cases all
    case isFalse absent =>
      refine ⟨List.nodup_cons.2 ⟨fun stated => ?_, distinct⟩, (Except.ok.inj all).symm⟩
      obtain ⟨m', hm', same⟩ := List.mem_map.1 stated
      have absent := List.lookup_eq_none_iff.1 (Option.not_isSome_iff_eq_none.1 absent) m' hm'
      exact bne_iff_ne.1 absent same.symm

namespace Omission

theorem Harmless.none : Harmless .none decode := fun _ _ same => same ▸ .refl _

theorem Harmless.list {item : Omission} (harmless : item.Harmless decode) :
    Harmless (.list item) (decodeList decode) := by
  rintro _ _ ⟨each⟩
  simp only [decodeList]
  induction each with
  | nil => exact .refl _
  | cons first _ ih =>
    simp only [List.mapM_cons]
    exact .bind (harmless first) fun x => .bind ih fun xs => .refl _

variable {parts : List (String × Part)}

/-- A record that may be absent, where it is not. -/
theorem Harmless.option (harmless : (record parts).Harmless decode) :
    (record parts).Harmless (decodeOption decode) := by
  rintro _ _ ⟨each⟩ x read
  obtain ⟨a, readRecord, rfl⟩ := Except.map_eq_ok.1 read
  exact Except.map_eq_ok.2 ⟨a, harmless ⟨each⟩ a readRecord, rfl⟩

/-- A record that is written short is read as the whole one, if its fields are. -/
theorem Harmless.record {surplus : Surplus} {read : Fields → Decoded α}
    (read_fields : ∀ {members short}, ShortMembers parts members short →
      (members.map Prod.fst).Nodup → Preserves (read ⟨false, members⟩) (read ⟨false, short⟩)) :
    (record parts).Harmless fun d => d.fields (parts.map Prod.fst) surplus >>= read := by
  rintro _ _ @⟨members, short, each⟩ x whole
  obtain ⟨fs, stated, -⟩ := Except.bind_eq_ok.1 whole
  have distinct := nodup_of_fields_object each.known stated
  have knownShort : ∀ m ∈ short, m.1 ∈ parts.map Prod.fst := by
    intro m hm
    have stated := each.names_sublist.subset (List.mem_map_of_mem hm)
    obtain ⟨m', hm', same⟩ := List.mem_map.1 stated
    exact same ▸ each.known m' hm'
  dsimp only at whole ⊢
  rw [fields_object surplus each.known distinct, Except.ok_bind] at whole
  rw [fields_object surplus knownShort (distinct.sublist each.names_sublist), Except.ok_bind]
  exact read_fields each distinct x whole

end Omission
end ZoneCatalog.Datum
