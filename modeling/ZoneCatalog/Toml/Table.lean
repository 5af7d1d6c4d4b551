import ZoneCatalog.Data.Datum

/-! The tables of a TOML document as they are built up. A table can be spoken of before it is
defined, defined once by a header, or grown member by member through dotted names; which of these
made it decides what may be added to it. -/
namespace ZoneCatalog.Toml

inductive Origin where
  | header
  /-- The header of a table below it. -/
  | implied
  | dotted
deriving DecidableEq

inductive Node where
  | value (d : Datum)
  | table (origin : Origin) (entries : List (String × Node))
  /-- Tables under one name, the last of them first. -/
  | tables (items : List (List (String × Node)))

abbrev Entries := List (String × Node)

namespace Entries

/-- The members with a new node under a name, in place of the old one if there is one. -/
def put (name : String) (node : Node) : Entries → Entries
  | [] => [(name, node)]
  | (other, old) :: rest =>
    if other = name then (name, node) :: rest else (other, old) :: put name node rest

/-- Changes the table at the end of a path, creating the tables on the way that are missing. A
dotted path may not lead into a table that has a header of its own. -/
def change {α : Type} (dotted : Bool) (action : Origin → Entries → Option (α × Entries)) :
    (path : List String) → Origin → Entries → Option (α × Entries)
  | [], origin, entries => action origin entries
  | name :: path, _, entries =>
    match entries.lookup name with
    | none => do
      let origin := if dotted then .dotted else .implied
      let (answer, below) ← change dotted action path origin []
      return (answer, entries.put name (.table origin below))
    | some (.table origin below) => do
      if dotted ∧ origin = .header then failure
      let (answer, below) ← change dotted action path origin below
      return (answer, entries.put name (.table origin below))
    | some (.tables (last :: others)) => do
      let (answer, last) ← change dotted action path .header last
      return (answer, entries.put name (.tables (last :: others)))
    | some _ => none

def addValue (path : List String) (name : String) (d : Datum) (entries : Entries) :
    Option Entries := do
  let add := fun origin (entries : Entries) =>
    if path ≠ [] ∧ origin ≠ .dotted then none
    else if (entries.lookup name).isSome then none
    else some ((), entries.put name (.value d))
  let (_, entries) ← entries.change true add path .header
  return entries

end Entries

mutual
def Node.toDatum : Node → Datum
  | .value d => d
  | .table _ entries => .table (members entries)
  | .tables items => .list (tableList items).reverse

def members : List (String × Node) → List (Option String × Datum)
  | [] => []
  | (name, node) :: rest => (some name, node.toDatum) :: members rest

def tableList : List (List (String × Node)) → List Datum
  | [] => []
  | entries :: rest => .table (members entries) :: tableList rest
end

/-- A document under construction: everything before the last header, and the table that the last
header opened with what has been put into it. -/
structure Document where
  root : Entries := []
  /-- The path of the last header, and whether it opened one of several tables. -/
  header : Option (List String × String × Bool) := none
  current : Entries := []

namespace Document

def close (doc : Document) : Option Entries :=
  match doc.header with
  | none => some doc.current
  | some (path, name, isItem) => do
    let store := fun _ (entries : Entries) =>
      if isItem then
        match entries.lookup name with
        | none => some ((), entries.put name (.tables [doc.current]))
        | some (.tables items) => some ((), entries.put name (.tables (doc.current :: items)))
        | some _ => none
      else some ((), entries.put name (.table .header doc.current))
    let (_, root) ← doc.root.change false store path .header
    return root

/-- Opens the table of a header. What a header below it implied of it stays in it. -/
def openTable (doc : Document) (path : List String) (name : String) : Option Document := do
  let root ← doc.close
  let find := fun _ (entries : Entries) =>
    match entries.lookup name with
    | none => some ([], entries)
    | some (.table .implied below) => some (below, entries)
    | some _ => none
  let (current, root) ← Entries.change false find path .header root
  return ⟨root, some (path, name, false), current⟩

/-- Opens one more of the tables under a name. -/
def openItem (doc : Document) (path : List String) (name : String) : Option Document := do
  let root ← doc.close
  let check := fun _ (entries : Entries) =>
    match entries.lookup name with
    | none => some ((), entries)
    | some (.tables _) => some ((), entries)
    | some _ => none
  let (_, root) ← Entries.change false check path .header root
  return ⟨root, some (path, name, true), []⟩

def addValue (doc : Document) (path : List String) (name : String) (d : Datum) :
    Option Document :=
  (doc.current.addValue path name d).map fun current => { doc with current }

end Document
end ZoneCatalog.Toml
