/-! Trees of plain data, the common ground of the formats that stored values and settings are
written in. Members of a table keep their order, and a name may occur twice: what that means is
for the reader of the tree to say. -/
namespace ZoneCatalog

/-- A tree of plain data. A text is `none` where its written form denotes no text, as an escaped
half of a surrogate pair does; such a text is an error only for one who reads it. -/
inductive Datum where
  | null
  | bool (value : Bool)
  /-- A number written without fraction and exponent. -/
  | int (value : Int)
  /-- Any other number, as it is written. -/
  | real (literal : String)
  | text (value : Option String)
  | list (items : List Datum)
  | table (members : List (Option String × Datum))

namespace Datum

/-- A text that denotes itself. -/
abbrev str (s : String) : Datum := .text (some s)

def object (members : List (String × Datum)) : Datum :=
  .table (members.map fun (name, value) => (some name, value))

def nat (n : Nat) : Datum := .int (.ofNat n)

end Datum
end ZoneCatalog
