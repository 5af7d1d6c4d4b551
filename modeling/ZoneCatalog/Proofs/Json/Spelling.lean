import ZoneCatalog.Json.Reader

/-! The tokens of a tree, with a comma between its parts. Read in order they give the tree back,
whatever it stands in. -/
namespace ZoneCatalog.Json

mutual
/-- The tokens in which a tree is written. -/
def spell : Datum → List Token
  | .null => [.null]
  | .bool b => [.bool b]
  | .int n => [.int n]
  | .real literal => [.real literal]
  | .text t => [.text t]
  | .list [] => [.openList, .closeList]
  | .list (item :: items) => .openList :: (spell item ++ spellItems items)
  | .table [] => [.openTable, .closeTable]
  | .table ((name, value) :: members) =>
    .openTable :: .text name :: .colon :: (spell value ++ spellMembers members)

/-- The tokens of the items after the first, and the end of the list. -/
def spellItems : List Datum → List Token
  | [] => [.closeList]
  | item :: items => .comma :: (spell item ++ spellItems items)

def spellMembers : List (Option String × Datum) → List Token
  | [] => [.closeTable]
  | (name, value) :: members =>
    .comma :: .text name :: .colon :: (spell value ++ spellMembers members)
end

namespace Reading

/-- A tree is not mistaken for the end of the list that it is the first item of. -/
theorem spell_first (d : Datum) (around : List Frame) :
    (spell d).foldlM read ⟨.firstItem, around⟩ =
      (spell d).foldlM read ⟨.value, .list [] :: around⟩ := by
  cases d with
  | list items => cases items <;> rfl
  | table members => cases members <;> rfl
  | _ => rfl

mutual
/-- The tokens of a tree give it back. -/
theorem read_spell (around : List Frame) :
    ∀ d, (spell d).foldlM read ⟨.value, around⟩ = some ⟨.after d, around⟩
  | .null | .bool _ | .int _ | .real _ | .text _ => rfl
  | .list [] | .table [] => rfl
  | .list (item :: items) => by
    have first := read_spell (.list [] :: around) item
    have rest := read_spellItems around [] item items
    rw [spell, List.foldlM_cons]
    change (spell item ++ spellItems items).foldlM read ⟨.firstItem, around⟩ = _
    rw [List.foldlM_append, spell_first, first]
    exact rest
  | .table ((name, value) :: members) => by
    have first := read_spell (.table [] name :: around) value
    have rest := read_spellMembers around [] name value members
    rw [spell]
    change (spell value ++ spellMembers members).foldlM read ⟨.value, .table [] name :: around⟩ = _
    rw [List.foldlM_append, first]
    exact rest

theorem read_spellItems (around : List Frame) (front : List Datum) (last : Datum) :
    ∀ items, (spellItems items).foldlM read ⟨.after last, .list front :: around⟩ =
      some ⟨.after (.list (front.reverse ++ last :: items)), around⟩
  | [] => by simp [spellItems, read, afterValue]
  | item :: items => by
    have first := read_spell (.list (last :: front) :: around) item
    have rest := read_spellItems around (last :: front) item items
    rw [spellItems]
    change (spell item ++ spellItems items).foldlM read
      ⟨.value, .list (last :: front) :: around⟩ = _
    rw [List.foldlM_append, first]
    simpa using rest

theorem read_spellMembers (around : List Frame) (front : List (Option String × Datum))
    (name : Option String) (last : Datum) :
    ∀ members, (spellMembers members).foldlM read ⟨.after last, .table front name :: around⟩ =
      some ⟨.after (.table (front.reverse ++ (name, last) :: members)), around⟩
  | [] => by simp [spellMembers, read, afterValue]
  | (name', value) :: members => by
    have first := read_spell (.table ((name, last) :: front) name' :: around) value
    have rest := read_spellMembers around ((name, last) :: front) name' value members
    rw [spellMembers]
    change (spell value ++ spellMembers members).foldlM read
      ⟨.value, .table ((name, last) :: front) name' :: around⟩ = _
    rw [List.foldlM_append, first]
    simpa using rest
end

end Reading
end ZoneCatalog.Json
