import Mathlib.Data.List.TakeWhile
import ZoneCatalog.Proofs.Name.Printer
import ZoneCatalog.Proofs.Zone.Index
import ZoneCatalog.Store.Keys

/-! What is stored in a deployment, and the key of each. No text of a name has a colon in it, so a
key tells the zone by what stands before its first colon and the part of the zone by the rest. Only
the set of all zones has no zone in its key: it stands where the locations of `zones` would. -/
namespace ZoneCatalog

theorem Denotes.no_colon {text : String} {name : DomainName} (h : Denotes text name) :
    ':' ∉ text.toList := by
  intro colon
  rcases DomainName.noted_of_parse h colon with dot | escape | numeric | ⟨l, -, within⟩
  · cases dot
  · cases escape
  · exact absurd numeric (by decide)
  · rcases Label.spelled within with plain | star | hyphen
    · exact absurd plain (by decide)
    · cases star
    · cases hyphen

/-- What is stored of a zone under a key of its own. -/
inductive ZonePart where
  | locations
  | config
  | keyHalf (role : KeyRole) (half : KeyHalf)
deriving DecidableEq

namespace ZonePart

/-- What a key has behind the zone. -/
def mark : ZonePart → String
  | .locations => ""
  | .config => ":config"
  | .keyHalf role half => ":" ++ role.tag ++ ":" ++ half.tag

def all : List ZonePart :=
  [.locations, .config, .keyHalf .zsk .published, .keyHalf .zsk .secret, .keyHalf .ksk .published,
    .keyHalf .ksk .secret]

theorem mem_all (p : ZonePart) : p ∈ all := by
  cases p with
  | locations => decide
  | config => decide
  | keyHalf role half => cases role <;> cases half <;> decide

theorem mark_injective : Function.Injective mark := by
  have apart : ∀ p ∈ all, ∀ q ∈ all, p.mark = q.mark → p = q := by decide
  exact fun p q => apart p p.mem_all q q.mem_all

/-- What is behind the zone starts with a colon, if there is anything. -/
theorem takeWhile_mark (p : ZonePart) : p.mark.toList.takeWhile (· ≠ ':') = [] := by
  have each : ∀ p ∈ all, p.mark.toList.takeWhile (· ≠ ':') = [] := by decide
  exact each p p.mem_all

/-- Behind texts without a colon, both the text and the part can be told. -/
theorem append_mark_inj {s t : String} {p q : ZonePart} (hs : ':' ∉ s.toList)
    (ht : ':' ∉ t.toList) (h : s ++ p.mark = t ++ q.mark) : s = t ∧ p = q := by
  have before : ∀ {u : String} (r : ZonePart), ':' ∉ u.toList →
      (u ++ r.mark).toList.takeWhile (· ≠ ':') = u.toList := by
    intro u r bare
    have whole : ∀ c ∈ u.toList, decide (c ≠ ':') = true :=
      fun c hc => decide_eq_true fun colon => bare (colon ▸ hc)
    rw [String.toList_append, List.takeWhile_append_of_pos whole, takeWhile_mark, List.append_nil]
  have same : s = t := by
    rw [← String.toList_inj, ← before p hs, h, before q ht]
  subst same
  exact ⟨rfl, mark_injective (String.append_right_inj s |>.1 h)⟩

end ZonePart

/-- What is stored under a key of its own. -/
inductive StoredItem where
  | zoneSet
  | ofZone (zone : String) (part : ZonePart)
deriving DecidableEq

namespace StoredItem

/-- The zone of an item is the text of a name. -/
def Named : StoredItem → Prop
  | .zoneSet => True
  | .ofZone zone _ => ∃ name, Denotes zone name

theorem named_zoneSet : Named .zoneSet := trivial

/-- What tells the key of an item: the text in place of a zone, and the part. -/
def place : StoredItem → String × ZonePart
  | .zoneSet => ("zones", .locations)
  | .ofZone zone part => (zone, part)

theorem Named.no_colon {i : StoredItem} (h : i.Named) : ':' ∉ i.place.1.toList := by
  cases i with
  | zoneSet => decide
  | ofZone zone part =>
    obtain ⟨name, denotes⟩ := h
    exact denotes.no_colon

/-- Items share a place only if one of them is the set of the zones. -/
theorem place_eq_iff {i j : StoredItem} : i.place = j.place ↔
    i = j ∨ i = .zoneSet ∧ j = .ofZone "zones" .locations ∨
      i = .ofZone "zones" .locations ∧ j = .zoneSet := by
  cases i with
  | zoneSet =>
    cases j with
    | zoneSet => simp
    | ofZone zone part => simp [place, eq_comm]
  | ofZone zone part =>
    cases j with
    | zoneSet => simp [place]
    | ofZone zone' part' => simp [place]

end StoredItem

namespace StoreKeys

def keyOf (keys : StoreKeys) : StoredItem → String
  | .zoneSet => keys.zoneSet
  | .ofZone zone .locations => keys.zone zone
  | .ofZone zone .config => keys.zoneConfig zone
  | .ofZone zone (.keyHalf role half) => keys.zoneKey zone role half

variable {keys : StoreKeys}

theorem keyOf_eq (keys : StoreKeys) (i : StoredItem) :
    keys.keyOf i = keys.wrap (i.place.1 ++ i.place.2.mark) := by
  cases i with
  | zoneSet => rfl
  | ofZone zone part =>
    cases part with
    | locations => simp [keyOf, StoreKeys.zone, StoredItem.place, ZonePart.mark]
    | config => rfl
    | keyHalf role half =>
      simp [keyOf, zoneKey, StoredItem.place, ZonePart.mark, String.append_assoc]

theorem wrap_inj {s t : String} : keys.wrap s = keys.wrap t ↔ s = t := by
  simp [wrap]

/-- Parts of one zone, whatever its text, are under different keys. -/
theorem keyOf_ofZone_inj {zone : String} {p q : ZonePart}
    (h : keys.keyOf (.ofZone zone p) = keys.keyOf (.ofZone zone q)) : p = q := by
  rw [keyOf_eq, keyOf_eq, wrap_inj] at h
  exact ZonePart.mark_injective ((String.append_right_inj zone).1 h)

/-- Two items have one key only if they are the same, but for the set of the zones, which has the
key of the locations of a zone that is given as `zones`, without a dot. -/
theorem keyOf_eq_keyOf_iff (keys : StoreKeys) {i j : StoredItem} (hi : i.Named) (hj : j.Named) :
    keys.keyOf i = keys.keyOf j ↔
      i = j ∨ i = .zoneSet ∧ j = .ofZone "zones" .locations ∨
        i = .ofZone "zones" .locations ∧ j = .zoneSet := by
  rw [keyOf_eq, keyOf_eq, wrap_inj, ← StoredItem.place_eq_iff]
  constructor
  · intro same
    obtain ⟨text, part⟩ := ZonePart.append_mark_inj hi.no_colon hj.no_colon same
    exact Prod.ext text part
  · intro same
    rw [same]

/-- The zone `zones` is stored where the set of the zones is, and `zones.` is not. -/
theorem keyOf_zones :
    StoredItem.Named (.ofZone "zones" .locations) ∧ StoredItem.Named (.ofZone "zones." .locations) ∧
      keyOf {} .zoneSet = keyOf {} (.ofZone "zones" .locations) ∧
        keyOf {} .zoneSet ≠ keyOf {} (.ofZone "zones." .locations) := by
  have bare : StoredItem.Named (.ofZone "zones" .locations) :=
    ⟨⟨[⟨"zones".toList, by decide⟩], false, by decide⟩, by rw [Denotes]; decide +kernel⟩
  have dotted : StoredItem.Named (.ofZone "zones." .locations) :=
    ⟨⟨[⟨"zones".toList, by decide⟩], true, by decide⟩, by rw [Denotes]; decide +kernel⟩
  refine ⟨bare, dotted, ?_, fun same => ?_⟩
  · exact (keyOf_eq_keyOf_iff _ StoredItem.named_zoneSet bare).2 (.inr (.inl ⟨rfl, rfl⟩))
  · exact absurd ((keyOf_eq_keyOf_iff _ StoredItem.named_zoneSet dotted).1 same) (by decide)

end StoreKeys
end ZoneCatalog
