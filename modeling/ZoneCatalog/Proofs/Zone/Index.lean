import Mathlib.Data.List.Induction
import ZoneCatalog.Proofs.Name.Agreement

/-! What an index finds. Of the listed zones that contain a name it is the one with the most labels,
in the last text that was listed for it. -/
namespace ZoneCatalog

/-- A text denotes a name. -/
def Denotes (text : String) (name : DomainName) : Prop := DomainName.parse text.toList = .ok name

theorem Denotes.unique {text : String} {a b : DomainName} (ha : Denotes text a)
    (hb : Denotes text b) : a = b := Except.ok.inj (Eq.trans (Eq.symm ha) hb)

namespace ZoneIndex

variable {index : ZoneIndex} {zones : List String} {text qname z : String} {name : DomainName}
  {path : ZonePath}

theorem get?_ofList_concat (zones : List String) (h : Denotes text name) :
    (ofList (zones ++ [text])).zones.get? name.path = some text ∧
      ∀ path, path ≠ name.path →
        (ofList (zones ++ [text])).zones.get? path = (ofList zones).zones.get? path := by
  have inserted : ofList (zones ++ [text]) = ⟨(ofList zones).zones.insert name.path text⟩ := by
    rw [Denotes] at h
    simp only [ofList, build, List.foldl_append, List.foldl_cons, List.foldl_nil, add, h]
    rfl
  rw [inserted]
  constructor
  · rw [SortedMap.get?_insert, if_pos rfl]
  · intro path other
    rw [SortedMap.get?_insert, if_neg other]

theorem ofList_concat_of_not_denotes (h : ∀ name, ¬ Denotes text name) :
    ofList (zones ++ [text]) = ofList zones := by
  cases hp : DomainName.parse text.toList with
  | ok name => exact absurd hp (h name)
  | error cause =>
    simp only [ofList, build, List.foldl_append, List.foldl_cons, List.foldl_nil, add, hp]
    rfl

/-- A text of a list denotes a name with the path, and no text after it does. -/
def LastUnder (path : ZonePath) (zones : List String) (z : String) : Prop :=
  ∃ before after zone, zones = before ++ z :: after ∧ Denotes z zone ∧ zone.path = path ∧
    ∀ text ∈ after, ∀ other, Denotes text other → other.path ≠ path

theorem lastUnder_nil : ¬ LastUnder path [] z := by
  rintro ⟨before, after, zone, cut, _⟩
  simp at cut

/-- The last text of a list decides if it denotes a name with the path, and is of no account
otherwise. -/
theorem lastUnder_concat : LastUnder path (zones ++ [text]) z ↔
    (z = text ∧ ∃ name, Denotes text name ∧ name.path = path) ∨
      (∀ name, Denotes text name → name.path ≠ path) ∧ LastUnder path zones z := by
  constructor
  · rintro ⟨before, after, zone, cut, denotes, under, last⟩
    rcases List.eq_nil_or_concat' after with rfl | ⟨after, t, rfl⟩
    · obtain ⟨rfl, same⟩ := List.append_inj' cut rfl
      obtain rfl := List.singleton_inj.1 same
      exact .inl ⟨rfl, zone, denotes, under⟩
    · rw [← List.cons_append, ← List.append_assoc] at cut
      obtain ⟨rfl, same⟩ := List.append_inj' cut rfl
      obtain rfl := List.singleton_inj.1 same
      exact .inr ⟨last text (by simp), before, after, zone, rfl, denotes, under,
        fun t ht => last t (by simp [ht])⟩
  · rintro (⟨rfl, zone, denotes, under⟩ | ⟨other, before, after, zone, rfl, denotes, under, last⟩)
    · exact ⟨zones, [], zone, rfl, denotes, under, by simp⟩
    · refine ⟨before, after ++ [text], zone, by simp, denotes, under, fun t ht => ?_⟩
      rcases List.mem_append.1 ht with ht | ht
      · exact last t ht
      · exact List.mem_singleton.1 ht ▸ other

/-- If any text of a list denotes a name with the path, one of them is the last. -/
theorem exists_lastUnder (zones : List String) (h : text ∈ zones) (denotes : Denotes text name) :
    ∃ z, LastUnder name.path zones z := by
  induction zones using List.reverseRecOn with
  | nil => cases h
  | append_singleton zones last ih =>
    simp only [lastUnder_concat]
    by_cases here : ∃ other, Denotes last other ∧ other.path = name.path
    · exact ⟨last, .inl ⟨rfl, here⟩⟩
    · rcases List.mem_append.1 h with before | same
      · obtain ⟨z, found⟩ := ih before
        exact ⟨z, .inr ⟨fun other ho hp => here ⟨other, ho, hp⟩, found⟩⟩
      · exact absurd ⟨name, List.mem_singleton.1 same ▸ denotes, rfl⟩ here

/-- Under each path the index has the last text that denotes a name there. -/
theorem get?_ofList : (ofList zones).zones.get? path = some z ↔ LastUnder path zones z := by
  induction zones using List.reverseRecOn with
  | nil => exact iff_of_false (by simp [ofList, build, empty]) lastUnder_nil
  | append_singleton zones text ih =>
    rw [lastUnder_concat, ← ih]
    by_cases denotes : ∃ name, Denotes text name
    · obtain ⟨name, denotes⟩ := denotes
      have only : ∀ other, Denotes text other → other = name := fun _ h => h.unique denotes
      obtain ⟨placed, others⟩ := get?_ofList_concat zones denotes
      by_cases here : path = name.path
      · rw [here, placed]
        constructor
        · rintro ⟨⟩
          exact .inl ⟨rfl, name, denotes, rfl⟩
        · rintro (⟨rfl, _⟩ | ⟨elsewhere, _⟩)
          · rfl
          · exact absurd rfl (elsewhere name denotes)
      · rw [others path here]
        constructor
        · exact fun old => .inr ⟨fun other h => only other h ▸ Ne.symm here, old⟩
        · rintro (⟨_, other, h, there⟩ | ⟨_, old⟩)
          · exact absurd (only other h ▸ there).symm here
          · exact old
    · have none_of_them : ∀ name, ¬ Denotes text name := not_exists.1 denotes
      rw [ofList_concat_of_not_denotes none_of_them]
      constructor
      · exact fun old => .inr ⟨fun other h => absurd h (none_of_them other), old⟩
      · rintro (⟨_, name, h, _⟩ | ⟨_, old⟩)
        · exact absurd h (none_of_them name)
        · exact old

/-- What is found is the entry of the longest initial part that has one. -/
theorem longest_eq_some_iff {length : Nat} : index.longest path length = some z ↔
    ∃ n ≤ length, index.zones.get? (path.take n) = some z ∧
      ∀ m ≤ length, n < m → index.zones.get? (path.take m) = none := by
  induction length with
  | zero =>
    simp only [longest, Nat.le_zero_eq, exists_eq_left, List.take_zero]
    constructor
    · exact fun found => ⟨found, fun m hm below => by omega⟩
    · exact fun found => found.1
  | succ length ih =>
    rw [longest]
    cases here : index.zones.get? (path.take (length + 1)) with
    | some z' =>
      constructor
      · rintro ⟨⟩
        exact ⟨length + 1, Nat.le_refl _, here, fun m hm below => by omega⟩
      · rintro ⟨n, hn, found, longer⟩
        rcases Nat.lt_or_eq_of_le hn with below | rfl
        · simp [longer (length + 1) (Nat.le_refl _) below] at here
        · exact here.symm.trans found
    | none =>
      dsimp only
      rw [ih]
      constructor
      · rintro ⟨n, hn, found, longer⟩
        refine ⟨n, Nat.le_succ_of_le hn, found, fun m hm below => ?_⟩
        rcases Nat.lt_or_eq_of_le hm with hm | rfl
        · exact longer m (Nat.le_of_lt_succ hm) below
        · exact here
      · rintro ⟨n, hn, found, longer⟩
        rcases Nat.lt_or_eq_of_le hn with hn | rfl
        · exact ⟨n, Nat.le_of_lt_succ hn, found, fun m hm => longer m (Nat.le_succ_of_le hm)⟩
        · simp [here] at found

theorem longest_eq_none {length : Nat} (h : index.longest path length = none) :
    ∀ n ≤ length, index.zones.get? (path.take n) = none := by
  induction length with
  | zero => simpa [longest] using h
  | succ length ih =>
    rw [longest] at h
    split at h
    · cases h
    · rename_i here
      intro n hn
      rcases Nat.lt_or_eq_of_le hn with hn | rfl
      · exact ih h n (Nat.le_of_lt_succ hn)
      · exact here

/-- Of the listed texts whose zones contain a name: one of a zone with the most labels, and the last
that is listed for this zone. -/
def MostSpecific (zones : List String) (name : DomainName) (z : String) : Prop :=
  ∃ before after zone, zones = before ++ z :: after ∧ Denotes z zone ∧ zone.Contains name ∧
    (∀ text ∈ zones, ∀ other, Denotes text other → other.Contains name →
      other.labels.length ≤ zone.labels.length) ∧
    ∀ text ∈ after, ∀ other, Denotes text other → ¬ other.Agrees zone

/-- A zone that contains a name has the part of the name's path that is as long as its own. -/
private theorem path_eq_take {zone : DomainName} (h : zone.Contains name) :
    zone.path = name.path.take zone.labels.length := by
  rw [← zone.length_path]
  exact List.prefix_iff_eq_take.1 (DomainName.contains_iff.1 h)

private theorem labels_le {zone : DomainName} (h : zone.Contains name) :
    zone.labels.length ≤ name.path.length := by
  rw [← zone.length_path]
  exact (DomainName.contains_iff.1 h).length_le

theorem findName_eq_some_iff :
    (ofList zones).findName name = some z ↔ MostSpecific zones name z := by
  rw [findName, longest_eq_some_iff]
  constructor
  · rintro ⟨n, hn, found, longer⟩
    obtain ⟨before, after, zone, rfl, denotes, under, last⟩ := get?_ofList.1 found
    have size : zone.labels.length = n := by
      rw [← zone.length_path, under, List.length_take_of_le hn]
    have contains : zone.Contains name := DomainName.contains_iff.2 (under ▸ List.take_prefix _ _)
    refine ⟨before, after, zone, rfl, denotes, contains, fun text ht other ho within => ?_, ?_⟩
    · by_contra more
      obtain ⟨z', found'⟩ := exists_lastUnder _ ht ho
      rw [path_eq_take within] at found'
      have absent := longer _ (labels_le within) (by omega)
      simp [get?_ofList.2 found'] at absent
    · intro text ht other ho agrees
      exact last text ht other ho ((DomainName.agrees_iff.1 agrees).trans under)
  · rintro ⟨before, after, zone, rfl, denotes, contains, most, last⟩
    refine ⟨zone.labels.length, labels_le contains, ?_, fun m hm more => ?_⟩
    · rw [← path_eq_take contains, get?_ofList]
      refine ⟨before, after, zone, rfl, denotes, rfl, fun text ht other ho same => ?_⟩
      exact last text ht other ho (DomainName.agrees_iff.2 same)
    · by_contra present
      obtain ⟨z', found⟩ := Option.ne_none_iff_exists'.1 present
      obtain ⟨before', after', other, cut, ho, under, -⟩ := get?_ofList.1 found
      have within : other.Contains name := DomainName.contains_iff.2 (under ▸ List.take_prefix _ _)
      have size : other.labels.length = m := by
        rw [← other.length_path, under, List.length_take_of_le hm]
      have := most z' (cut ▸ by simp) other ho within
      omega

theorem findName_eq_none_iff : (ofList zones).findName name = none ↔
    ∀ text ∈ zones, ∀ zone, Denotes text zone → ¬ zone.Contains name := by
  constructor
  · intro absent text ht zone denotes contains
    obtain ⟨z, found⟩ := exists_lastUnder _ ht denotes
    rw [path_eq_take contains, ← get?_ofList,
      longest_eq_none absent _ (labels_le contains)] at found
    cases found
  · intro outside
    by_contra present
    obtain ⟨z, found⟩ := Option.ne_none_iff_exists'.1 present
    obtain ⟨before, after, zone, rfl, denotes, contains, _⟩ := findName_eq_some_iff.1 found
    exact outside z (by simp) zone denotes contains

/-- An index of any texts finds a zone for a text exactly if this text is a name that one of the
listed zones contains. What it finds is then a listed text of a zone that contains the name, of the
most labels among all of these, and the last text listed for this zone. -/
theorem find_most_specific (zones : List String) (qname : String) :
    ((∃ z, (ofList zones).find qname = some z) ↔ ∃ name, Denotes qname name ∧
      ∃ text ∈ zones, ∃ zone, Denotes text zone ∧ zone.Contains name) ∧
    ∀ z, (ofList zones).find qname = some z ↔
      ∃ name, Denotes qname name ∧ MostSpecific zones name z := by
  cases hq : DomainName.parse qname.toList with
  | error cause =>
    have nameless : ∀ name, ¬ Denotes qname name := fun name h => by
      rw [Denotes, hq] at h
      cases h
    simp [find, hq, nameless]
  | ok name =>
    have only : ∀ other, Denotes qname other ↔ other = name :=
      fun other => ⟨fun h => h.unique hq, fun h => h ▸ hq⟩
    have found : (ofList zones).find qname = (ofList zones).findName name := by simp [find, hq]
    simp only [found, only, exists_eq_left]
    refine ⟨?_, fun z => findName_eq_some_iff⟩
    rw [← Option.ne_none_iff_exists', ne_eq, findName_eq_none_iff]
    simp only [not_forall, not_not, exists_prop]

/-- An escaped dot does not end a label, whichever way it is escaped. -/
example : (ofList ["b.a.com.", "a\\.b.com."]).find "www.A\\056b.com" = some "a\\.b.com." := by
  decide +kernel

/-- Everything is in the root, and a text that is no name is passed over. -/
example : (ofList [".", "Example.COM.", "no name.com.", "example.com"]).find "WWW.example.com." =
    some "example.com" := by
  decide +kernel

end ZoneIndex
end ZoneCatalog
