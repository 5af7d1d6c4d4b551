import Mathlib.Data.List.DropRight
import ZoneCatalog.Proofs.Catalog.Caseless
import ZoneCatalog.Proofs.Zone.Label

/-! Names that lead back to their labels. A location is answered under its whole name; who asks for
that name in the same zone asks for the label that the location is stored under. -/
namespace ZoneCatalog

variable {location zone : String}

/-! Dots at the end of a text that is put together from two. -/

theorem trimDots_eq_nil_iff {cs : List Char} : trimDots cs = [] ↔ ∀ c ∈ cs, c = '.' := by
  change cs.rdropWhile (· = '.') = [] ↔ _
  simp

theorem trimDots_append (front : List Char) {back : List Char} (something : trimDots back ≠ []) :
    trimDots (front ++ back) = front ++ trimDots back := by
  have word : back.reverse.dropWhile (fun c => decide (c = '.')) ≠ [] := by
    intro nothing
    apply something
    rw [trimDots, nothing, List.reverse_nil]
  rw [trimDots, trimDots, List.reverse_append, List.dropWhile_append, if_neg (by simpa using word),
    List.reverse_append, List.reverse_reverse]

theorem trimDots_append_of_nil (front : List Char) {back : List Char}
    (nothing : trimDots back = []) :
    trimDots (front ++ back) = trimDots front := by
  have dots : back.reverse.dropWhile (fun c => decide (c = '.')) = [] := by
    rwa [trimDots, List.reverse_eq_nil_iff] at nothing
  rw [trimDots, trimDots, List.reverse_append, List.dropWhile_append, if_pos (by simpa using dots)]

theorem trimDots_trimDots (cs : List Char) : trimDots (trimDots cs) = trimDots cs :=
  cs.rdropWhile_idempotent (· = '.')

/-! Labels. -/

/-- How many dots a location ends with makes no difference to its label. -/
theorem relativeLabel_congr {location' : String} (zone : String)
    (same : trimDots location.toList = trimDots location'.toList) :
    relativeLabel location zone = relativeLabel location' zone := by
  simp only [relativeLabel, same]

/-- The name of a zone is the name of its apex. -/
theorem relativeLabel_self (zone : String) : relativeLabel zone zone = apexLabel := by
  simp [relativeLabel, Text.sameFolded]

/-- The label of a name that ends in the name of the zone is the text before that, whatever the text
is. -/
theorem relativeLabel_of_cut {head tail : List Char}
    (cut : trimDots location.toList = head ++ '.' :: tail)
    (alike : Text.fold tail = Text.fold (trimDots zone.toList)) :
    relativeLabel location zone = String.ofList head := by
  have sizes : tail.length = (trimDots zone.toList).length := by
    simpa [Text.fold] using congrArg List.length alike
  rcases relativeLabel_cases location zone with ⟨apex, -⟩ | ⟨head', tail', cut', alike', label⟩ |
    ⟨-, -, outside, -⟩
  · -- a name that has a part before the zone is neither empty nor the apex nor the zone itself
    exfalso
    rcases apex with nothing | at_sign | whole
    · rw [nothing] at cut
      simp at cut
    · rw [at_sign] at cut
      have dot : '.' ∈ apexLabel.toList := by simp [cut]
      exact absurd dot (by decide)
    · have longer := congrArg List.length whole
      rw [cut] at longer
      simp only [Text.fold, List.length_map, List.length_append, List.length_cons] at longer
      omega
  · have sizes' : tail'.length = (trimDots zone.toList).length := by
      simpa [Text.fold] using congrArg List.length alike'
    have parts : head' ++ '.' :: tail' = head ++ '.' :: tail := cut'.symm.trans cut
    have heads : head' = head := List.append_inj_left' parts (by simp [sizes, sizes'])
    rw [label, heads]
  · apply absurd _ outside
    rw [EndsWith, cut, ← alike]
    exact ⟨'.' :: Text.fold head, by simp [Text.fold]⟩

/-- In a zone with a name every label is found again in the name of its location. -/
theorem relativeLabel_ownerName (named : trimDots zone.toList ≠ []) (label : String) :
    relativeLabel (ownerName label zone) zone = label := by
  by_cases apex : label = apexLabel
  · rw [apex, ownerName, if_pos rfl, relativeLabel_self]
  · have cut : trimDots (ownerName label zone).toList =
        label.toList ++ '.' :: trimDots zone.toList := by
      have trimmed := trimDots_append (label.toList ++ ['.']) named
      rw [ownerName_toList apex]
      simpa using trimmed
    rw [relativeLabel_of_cut cut rfl, String.ofList_toList]

/-- In a zone of nothing but dots a label is found again if it is one that locations have there. -/
theorem relativeLabel_ownerName_of_dots (nameless : trimDots zone.toList = []) :
    relativeLabel (ownerName (relativeLabel location zone) zone) zone =
      relativeLabel location zone := by
  by_cases apex : relativeLabel location zone = apexLabel
  · rw [apex, ownerName, if_pos rfl, relativeLabel_self]
  · -- the label is the location without its last dots, which those of the zone only put back
    have left_whole : relativeLabel location zone = String.ofList (trimDots location.toList) := by
      apply relativeLabel_of_trimDots_eq_nil nameless
      · intro nothing
        exact apex (by simp [relativeLabel, nothing])
      · intro at_sign
        exact apex (by simp [relativeLabel, at_sign])
    apply relativeLabel_congr
    have dots : trimDots ('.' :: zone.toList) = [] :=
      trimDots_eq_nil_iff.2 (by simpa using trimDots_eq_nil_iff.1 nameless)
    rw [ownerName_toList apex, trimDots_append_of_nil _ dots, left_whole, String.toList_ofList,
      trimDots_trimDots]

theorem relativeLabel_ownerName_relativeLabel (location zone : String) :
    relativeLabel (ownerName (relativeLabel location zone) zone) zone =
      relativeLabel location zone := by
  by_cases nameless : trimDots zone.toList = []
  · exact relativeLabel_ownerName_of_dots nameless
  · exact relativeLabel_ownerName nameless _

/-- The name of a location leads back to its label, so it is as good as the text by which the
location was asked for: in every world the one begins the lookup that the other begins, under the
same key and of the same field. In a zone whose name is more than dots this holds of all texts
there are as labels, and no two of them have one name. -/
theorem name_leads_back (location zone : String) :
    relativeLabel (ownerName (relativeLabel location zone) zone) zone =
        relativeLabel location zone ∧
    (∀ keys stored value,
      Location.ofStored keys (relativeLabel location zone) zone stored = .ok value →
        relativeLabel value.name zone = relativeLabel location zone ∧
        ∀ (w : World) (number : Nat), (w.shownZones[number]?).map (·.value.name) = some zone →
          w.begin (.getLocation value.name number) = w.begin (.getLocation location number)) ∧
    ((∃ c ∈ zone.toList, c ≠ '.') →
      (∀ label, relativeLabel (ownerName label zone) zone = label) ∧
        Function.Injective fun label => ownerName label zone) := by
  have back := relativeLabel_ownerName_relativeLabel location zone
  refine ⟨back, fun keys stored value loaded => ?_, fun word => ?_⟩
  · have again : relativeLabel value.name zone = relativeLabel location zone := by
      rw [Location.name_of_ofStored _ _ _ loaded, back]
    refine ⟨again, fun w number shown => ?_⟩
    rw [World.begin_getLocation shown, World.begin_getLocation shown, again]
  · have named : trimDots zone.toList ≠ [] := by
      intro nothing
      obtain ⟨c, hc, other⟩ := word
      exact other (trimDots_eq_nil_iff.1 nothing c hc)
    have found := relativeLabel_ownerName named
    exact ⟨found, Function.LeftInverse.injective (g := (relativeLabel · zone)) found⟩

/-- A location that is asked for with its zone in capitals is answered under a name that leads back
to it, and a label that ends in dots or repeats the zone is found again in its name. -/
theorem name_leads_back_capitals :
    Location.ofStored {} (relativeLabel "www.EXAMPLE.com." "example.com.") "example.com."
        (some "\x7b\x7d") = .ok ⟨"www.example.com.", {}⟩ ∧
    relativeLabel "www.example.com." "example.com." =
        relativeLabel "www.EXAMPLE.com." "example.com." ∧
    (∃ w : World, (w.shownZones[0]?).map (·.value.name) = some "example.com." ∧
      w.begin (.getLocation "www.example.com." 0) = w.begin (.getLocation "www.EXAMPLE.com." 0)) ∧
    (∃ c ∈ "example.com.".toList, c ≠ '.') ∧
    relativeLabel (ownerName "example.com.." "example.com.") "example.com." = "example.com.." := by
  have back := name_leads_back "www.EXAMPLE.com." "example.com."
  have loaded : Location.ofStored {} (relativeLabel "www.EXAMPLE.com." "example.com.")
      "example.com." (some "\x7b\x7d") = .ok ⟨"www.example.com.", {}⟩ := by decide +kernel
  have word : ∃ c ∈ "example.com.".toList, c ≠ '.' := ⟨'e', by decide, by decide⟩
  obtain ⟨same, begins⟩ := back.2.1 _ _ _ loaded
  exact ⟨loaded, same, ⟨Scene.stage "example.com." "example.com." "www", rfl, begins _ 0 rfl⟩, word,
    (back.2.2 word).1 "example.com.."⟩

end ZoneCatalog
