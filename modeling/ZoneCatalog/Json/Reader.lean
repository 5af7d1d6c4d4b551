import ZoneCatalog.Data.Datum
import ZoneCatalog.Json.Token

/-! Reading JSON. Values under way are kept on a stack of the lists and tables around them, so
nesting has no limit. -/
namespace ZoneCatalog.Json

/-- A list or table whose end has not been read; its parts are kept last first. -/
inductive Frame where
  | list (items : List Datum)
  /-- A table, with the name of the member whose value comes next. -/
  | table (members : List (Option String × Datum)) (name : Option String)

/-- What may come next. -/
inductive Expect where
  | value
  | firstItem
  | firstName (members : List (Option String × Datum))
  | name (members : List (Option String × Datum))
  | colon (members : List (Option String × Datum)) (name : Option String)
  /-- A comma or the end of what is around the value just read; at the top, nothing. -/
  | after (value : Datum)

/-- A reading of a text: what may come next, and what is around it, innermost first. -/
structure Reading where
  expect : Expect
  around : List Frame

namespace Reading

def start : Reading := ⟨.value, []⟩

def single? : Token → Option Datum
  | .null => some .null
  | .bool b => some (.bool b)
  | .int n => some (.int n)
  | .real literal => some (.real literal)
  | .text t => some (.text t)
  | _ => none

def value (r : Reading) (t : Token) : Option Reading :=
  match t with
  | .openList => some { r with expect := .firstItem }
  | .openTable => some { r with expect := .firstName [] }
  | t => (single? t).map fun d => { r with expect := .after d }

def afterValue (d : Datum) (around : List Frame) (t : Token) : Option Reading :=
  match around, t with
  | .list items :: outer, .comma => some ⟨.value, .list (d :: items) :: outer⟩
  | .list items :: outer, .closeList => some ⟨.after (.list (d :: items).reverse), outer⟩
  | .table members name :: outer, .comma => some ⟨.name ((name, d) :: members), outer⟩
  | .table members name :: outer, .closeTable =>
    some ⟨.after (.table ((name, d) :: members).reverse), outer⟩
  | _, _ => none

def read (r : Reading) (t : Token) : Option Reading :=
  match r.expect with
  | .value => r.value t
  | .firstItem =>
    if t = .closeList then some { r with expect := .after (.list []) }
    else ({ r with around := .list [] :: r.around } : Reading).value t
  | .firstName members =>
    match t with
    | .closeTable => some { r with expect := .after (.table members.reverse) }
    | .text name => some { r with expect := .colon members name }
    | _ => none
  | .name members =>
    match t with
    | .text name => some { r with expect := .colon members name }
    | _ => none
  | .colon members name =>
    if t = .colon then some ⟨.value, .table members name :: r.around⟩ else none
  | .after d => afterValue d r.around t

end Reading

/-- The value that a text is the JSON of. -/
def read? (text : List Char) : Option Datum := do
  let r ← (← tokens text).foldlM Reading.read Reading.start
  match r with
  | ⟨.after d, []⟩ => return d
  | _ => none

end ZoneCatalog.Json
