import ZoneCatalog.Data.Datum

/-! Reading typed values off trees of plain data. A record is a table of its fields, or a list of
them in the order in which the record states them. Fields that the record does not have are
ignored; a field stated twice is refused. -/
namespace ZoneCatalog.Datum

/-- Why a tree is not of the wanted type. -/
inductive Mismatch where
  | expected (kind : String)
  | outOfRange
  | missing (field : String)
  | repeated (field : String)
  | surplus
deriving DecidableEq, Repr

def Mismatch.message : Mismatch → String
  | .expected kind => "expected " ++ kind
  | .outOfRange => "number out of range"
  | .missing field => "missing field " ++ field
  | .repeated field => "duplicate field " ++ field
  | .surplus => "too many fields"

abbrev Decoded (α : Type) := Except Mismatch α

def decodeText : Datum → Decoded String
  | .text (some s) => .ok s
  | _ => .error (.expected "text")

def decodeBool : Datum → Decoded Bool
  | .bool b => .ok b
  | _ => .error (.expected "a truth value")

def decodeInt (least greatest : Int) : Datum → Decoded Int
  | .int n => if least ≤ n ∧ n ≤ greatest then .ok n else .error .outOfRange
  | _ => .error (.expected "an integer")

def decodeNat (bound : Nat) (d : Datum) : Decoded Nat :=
  (decodeInt 0 (bound - 1) d).map Int.toNat

def decodeUInt8 (d : Datum) : Decoded UInt8 := (decodeNat UInt8.size d).map UInt8.ofNat

def decodeUInt16 (d : Datum) : Decoded UInt16 := (decodeNat UInt16.size d).map UInt16.ofNat

def decodeUInt32 (d : Datum) : Decoded UInt32 := (decodeNat UInt32.size d).map UInt32.ofNat

def decodeUInt64 (d : Datum) : Decoded UInt64 := (decodeNat UInt64.size d).map UInt64.ofNat

def decodeInt32 (d : Datum) : Decoded Int32 :=
  (decodeInt Int32.minValue.toInt Int32.maxValue.toInt d).map Int32.ofInt

def decodeInt64 (d : Datum) : Decoded Int64 :=
  (decodeInt Int64.minValue.toInt Int64.maxValue.toInt d).map Int64.ofInt

/-- A value that may be absent, which a null says. -/
def decodeOption {α : Type} (decode : Datum → Decoded α) : Datum → Decoded (Option α)
  | .null => .ok none
  | d => (decode d).map some

def decodeList {α : Type} (decode : Datum → Decoded α) : Datum → Decoded (List α)
  | .list items => items.mapM decode
  | _ => .error (.expected "a list")

/-- One of several named values: its name, or a table that gives the name nothing. -/
def decodeChoice {α : Type} (choices : List (String × α)) (d : Datum) : Decoded α :=
  let name := match d with
    | .text name => name
    | .table [(name, .null)] => name
    | _ => none
  match name.bind (choices.lookup ·) with
  | some value => .ok value
  | none => .error (.expected "one of the known names")

/-- What becomes of the items of a list beyond the last field of a record. -/
inductive Surplus where
  | refused
  | ignored
deriving DecidableEq

/-- The fields of a record as far as a tree states them. -/
structure Fields where
  /-- Whether they stood in a list, where a field cannot be left out but at the end. -/
  positional : Bool
  stated : List (String × Datum)

/-- The members of a table that a record with the given fields has, none of them stated twice. -/
def knownMembers (names : List String) :
    List (Option String × Datum) → Decoded (List (String × Datum))
  | [] => .ok []
  | (none, _) :: _ => .error (.expected "a field name")
  | (some name, value) :: members => do
    let rest ← knownMembers names members
    if name ∉ names then return rest
    else if (rest.lookup name).isSome then throw (.repeated name)
    else return (name, value) :: rest

def fields (names : List String) (surplus : Surplus) : Datum → Decoded Fields
  | .table members => (knownMembers names members).map (⟨false, ·⟩)
  | .list items =>
    if surplus = .refused ∧ names.length < items.length then .error .surplus
    else .ok ⟨true, names.zip items⟩
  | _ => .error (.expected "a record")

namespace Fields

variable {α : Type}

def require (fs : Fields) (name : String) (decode : Datum → Decoded α) : Decoded α :=
  match fs.stated.lookup name with
  | some d => decode d
  | none => .error (.missing name)

def getD (fs : Fields) (name : String) (decode : Datum → Decoded α) (default : α) : Decoded α :=
  match fs.stated.lookup name with
  | some d => decode d
  | none => .ok default

/-- A field that may be absent. It may be left out of a table but not of a list. -/
def get? (fs : Fields) (name : String) (decode : Datum → Decoded α) : Decoded (Option α) :=
  match fs.stated.lookup name with
  | some d => decodeOption decode d
  | none => if fs.positional then .error (.missing name) else .ok none

end Fields
end ZoneCatalog.Datum
