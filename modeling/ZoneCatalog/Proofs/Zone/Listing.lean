import Mathlib.Data.Set.Card
import ZoneCatalog.Proofs.Data.SortedMap
import ZoneCatalog.Proofs.Name.Order
import ZoneCatalog.Proofs.Zone.Index

/-! What an index lists. Every name that is denoted by a text of a list is listed once, in the last
text that was given for it, and the names come in their order. So an index is known by its
listing. -/
namespace ZoneCatalog.ZoneIndex

variable {zones relisted : List String} {z : String} {name : DomainName} {path : ZonePath}

/-- A text of a list denotes a name, and no text after it one that agrees with it. -/
def LastListed (zones : List String) (z : String) : Prop :=
  ∃ before after zone, zones = before ++ z :: after ∧ Denotes z zone ∧
    ∀ text ∈ after, ∀ other, Denotes text other → ¬ other.Agrees zone

theorem lastListed_iff : LastListed zones z ↔ ∃ path, LastUnder path zones z := by
  constructor
  · rintro ⟨before, after, zone, cut, denotes, last⟩
    refine ⟨zone.path, before, after, zone, cut, denotes, rfl, fun text ht other ho same => ?_⟩
    exact last text ht other ho (DomainName.agrees_iff.2 same)
  · rintro ⟨_, before, after, zone, cut, denotes, rfl, last⟩
    refine ⟨before, after, zone, cut, denotes, fun text ht other ho agrees => ?_⟩
    exact last text ht other ho (DomainName.agrees_iff.1 agrees)

/-! Entries. -/

theorem mem_entries_ofList :
    (path, z) ∈ (ofList zones).zones.entries ↔ LastUnder path zones z := by
  rw [SortedMap.mem_entries_iff, get?_ofList]

/-- A text is kept under the path of the name that it denotes. -/
theorem denotes_of_mem_entries {entry : ZonePath × String}
    (h : entry ∈ (ofList zones).zones.entries) :
    ∃ name, Denotes entry.2 name ∧ name.path = entry.1 := by
  obtain ⟨_, _, zone, _, denotes, under, _⟩ := mem_entries_ofList.1 h
  exact ⟨zone, denotes, under⟩

theorem mem_toList_iff : z ∈ (ofList zones).toList ↔ LastListed zones z := by
  rw [lastListed_iff, toList, SortedMap.values, List.mem_map]
  constructor
  · rintro ⟨⟨path, z⟩, mem, rfl⟩
    exact ⟨path, mem_entries_ofList.1 mem⟩
  · rintro ⟨path, last⟩
    exact ⟨(path, z), mem_entries_ofList.2 last, rfl⟩

/-- What an index has under a path can be told from its listing. -/
theorem get?_iff_mem_toList : (ofList zones).zones.get? path = some z ↔
    z ∈ (ofList zones).toList ∧ ∃ name, Denotes z name ∧ name.path = path := by
  rw [← SortedMap.mem_entries_iff, toList, SortedMap.values, List.mem_map]
  constructor
  · intro mem
    exact ⟨⟨_, mem, rfl⟩, denotes_of_mem_entries mem⟩
  · rintro ⟨⟨entry, mem, rfl⟩, name, denotes, rfl⟩
    obtain ⟨other, denotes', under⟩ := denotes_of_mem_entries mem
    rw [denotes.unique denotes', under]
    exact mem

/-- Of the texts that are listed, one denotes a name that agrees with a given one, if any text of
the list does. -/
theorem existsUnique_listed {text : String} (h : text ∈ zones) (denotes : Denotes text name) :
    ∃! z, z ∈ (ofList zones).toList ∧ ∃ other, Denotes z other ∧ other.Agrees name := by
  simp only [DomainName.agrees_iff, ← get?_iff_mem_toList]
  obtain ⟨z, last⟩ := exists_lastUnder zones h denotes
  have held := get?_ofList.2 last
  refine ⟨z, held, fun z' held' => ?_⟩
  exact Option.some.inj (held'.symm.trans held)

/-! The order of a listing. -/

theorem toList_ascending : (ofList zones).toList.Pairwise fun a b =>
    ∃ x y, Denotes a x ∧ Denotes b y ∧ x.path < y.path := by
  rw [toList, SortedMap.values, List.pairwise_map]
  apply (ofList zones).zones.ascending.imp_of_mem
  intro a b ha hb below
  obtain ⟨x, hx, px⟩ := denotes_of_mem_entries ha
  obtain ⟨y, hy, py⟩ := denotes_of_mem_entries hb
  rw [← px, ← py] at below
  exact ⟨x, y, hx, hy, below⟩

/-! The number of names. -/

/-- The names that the texts of a list denote, those that agree taken as one. -/
def keysOf (zones : List String) : Set (List Bytes) :=
  {key | ∃ text ∈ zones, ∃ name, Denotes text name ∧ name.key = key}

theorem mem_keys_iff : path ∈ (ofList zones).zones.keys ↔
    ∃ text ∈ zones, ∃ name, Denotes text name ∧ name.path = path := by
  rw [SortedMap.keys, List.mem_map]
  constructor
  · rintro ⟨⟨path, z⟩, mem, rfl⟩
    obtain ⟨before, after, zone, cut, denotes, under, _⟩ := mem_entries_ofList.1 mem
    exact ⟨z, by simp [cut], zone, denotes, under⟩
  · rintro ⟨text, ht, name, denotes, rfl⟩
    obtain ⟨z, last⟩ := exists_lastUnder zones ht denotes
    exact ⟨(name.path, z), mem_entries_ofList.2 last, rfl⟩

/-- The bytes of the letters in a path. -/
def pathKey (path : ZonePath) : List Bytes := path.map (List.map Label.byte)

theorem keysOf_eq_image (zones : List String) :
    keysOf zones = pathKey '' ((ofList zones).zones.keys.toFinset : Set ZonePath) := by
  ext key
  simp only [keysOf, Set.mem_ofPred_eq, Set.mem_image, List.coe_toFinset, mem_keys_iff]
  constructor
  · rintro ⟨text, ht, name, denotes, rfl⟩
    exact ⟨name.path, ⟨text, ht, name, denotes, rfl⟩, name.key_eq.symm⟩
  · rintro ⟨_, ⟨text, ht, name, denotes, rfl⟩, rfl⟩
    exact ⟨text, ht, name, denotes, name.key_eq⟩

/-- Paths that are kept are told apart by their bytes, since they are paths of names. -/
theorem injOn_pathKey (zones : List String) :
    Set.InjOn pathKey ((ofList zones).zones.keys.toFinset : Set ZonePath) := by
  intro p hp q hq same
  simp only [List.coe_toFinset, Set.mem_ofPred_eq, mem_keys_iff] at hp hq
  obtain ⟨-, -, a, -, rfl⟩ := hp
  obtain ⟨-, -, b, -, rfl⟩ := hq
  apply DomainName.agrees_iff.1
  rw [DomainName.agrees_iff_key, a.key_eq, b.key_eq]
  exact same

theorem size_eq_ncard (zones : List String) : (ofList zones).size = (keysOf zones).ncard := by
  have distinct := (ofList zones).zones.nodup_keys
  rw [keysOf_eq_image, (injOn_pathKey zones).ncard_image, Set.ncard_coe_finset,
    List.toFinset_card_of_nodup distinct, SortedMap.keys, List.length_map]
  rfl

/-! The index of a listing. -/

/-- Where no two texts denote names that agree, each of them is the last under its path. -/
theorem lastUnder_iff_of_apart (apart : relisted.Pairwise fun a b =>
      ∀ x y, Denotes a x → Denotes b y → x.path ≠ y.path) :
    LastUnder path relisted z ↔ z ∈ relisted ∧ ∃ name, Denotes z name ∧ name.path = path := by
  constructor
  · rintro ⟨before, after, zone, cut, denotes, under, -⟩
    exact ⟨by simp [cut], zone, denotes, under⟩
  · rintro ⟨mem, zone, denotes, rfl⟩
    obtain ⟨before, after, rfl⟩ := List.append_of_mem mem
    refine ⟨before, after, zone, rfl, denotes, rfl, fun text ht other ho same => ?_⟩
    have rest := (List.pairwise_append.1 apart).2.1
    exact (List.pairwise_cons.1 rest).1 text ht zone other denotes ho same.symm

/-- The texts that an index lists make the same index again, in whatever order they are given. -/
theorem ofList_relisted (perm : relisted.Perm (ofList zones).toList) :
    ofList relisted = ofList zones := by
  have apart : relisted.Pairwise fun a b =>
      ∀ x y, Denotes a x → Denotes b y → x.path ≠ y.path := by
    have listed : (ofList zones).toList.Pairwise fun a b =>
        ∀ x y, Denotes a x → Denotes b y → x.path ≠ y.path := by
      apply toList_ascending.imp
      rintro a b ⟨x, y, hx, hy, below⟩ x' y' hx' hy' same
      rw [hx.unique hx', hy.unique hy', same] at below
      exact Std.lt_irrefl below
    apply (perm.pairwise_iff _).2 listed
    intro a b distinct x y hx hy same
    exact distinct y x hy hx same.symm
  have maps : (ofList relisted).zones = (ofList zones).zones := by
    apply SortedMap.ext_get?
    intro path
    apply Option.ext
    intro z
    rw [get?_ofList, lastUnder_iff_of_apart apart, get?_iff_mem_toList, perm.mem_iff]
  exact congrArg ZoneIndex.mk maps

/-- An index of any texts lists, of the texts that denote names, the last one for each name: one
text for every name, and the names in their order, so that no zone is listed after one below it.
Its size is the number of these names, and what it lists makes the same index again in any order. -/
theorem lists_each_name_once (zones : List String) :
    (∀ z, z ∈ (ofList zones).toList ↔ LastListed zones z) ∧
    (∀ text ∈ zones, ∀ name, Denotes text name →
      ∃! z, z ∈ (ofList zones).toList ∧ ∃ other, Denotes z other ∧ other.Agrees name) ∧
    ((ofList zones).toList.Pairwise fun a b =>
      ∃ x y, Denotes a x ∧ Denotes b y ∧ x.key < y.key ∧ ¬ y.Contains x) ∧
    (ofList zones).size = (keysOf zones).ncard ∧
    ∀ relisted : List String, relisted.Perm (ofList zones).toList →
      ofList relisted = ofList zones := by
  refine ⟨fun z => mem_toList_iff, fun text ht name => existsUnique_listed ht, ?_,
    size_eq_ncard zones, fun relisted => ofList_relisted⟩
  apply toList_ascending.imp
  rintro a b ⟨x, y, hx, hy, below⟩
  exact ⟨x, y, hx, hy, DomainName.key_lt_key_iff.2 below, DomainName.not_contains_of_path_lt below⟩

/-- One of these texts is no name, and two differ in the case of letters and a dot. -/
def assorted : List String :=
  ["com.", "WWW.Example.com.", "no name.com.", "www.example.COM", "a\\.b.com.", "example.com."]

theorem lists_each_name_once_assorted :
    (ofList assorted).toList = ["com.", "a\\.b.com.", "example.com.", "www.example.COM"] ∧
    "WWW.Example.com." ∈ assorted ∧ (∃ name, Denotes "WWW.Example.com." name ∧
      ∃! z, z ∈ (ofList assorted).toList ∧ ∃ other, Denotes z other ∧ other.Agrees name) ∧
    (ofList assorted).toList.reverse.Perm (ofList assorted).toList ∧
    ofList (ofList assorted).toList.reverse = ofList assorted := by
  obtain ⟨-, listed, -, -, again⟩ := lists_each_name_once assorted
  have mem : "WWW.Example.com." ∈ assorted := by decide
  have denotes : Denotes "WWW.Example.com." ⟨[⟨"WWW".toList, by decide⟩,
      ⟨"Example".toList, by decide⟩, ⟨"com".toList, by decide⟩], true, by decide⟩ := by
    rw [Denotes]
    decide +kernel
  have perm := List.reverse_perm (ofList assorted).toList
  refine ⟨?_, mem, ⟨_, denotes, listed _ mem _ denotes⟩, perm, again _ perm⟩
  decide +kernel

end ZoneCatalog.ZoneIndex
