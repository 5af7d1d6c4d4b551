import ZoneCatalog.Name.Basic
import ZoneCatalog.Text.Blank
import ZoneCatalog.Text.Numeric

/-! Reading domain names. Labels are separated by dots; a backslash takes the next character as it
is, or, before a numeric character, starts a character code of three octal digits. -/
namespace ZoneCatalog.DomainName

/-- How much of an escape has been read. -/
inductive Escape where
  | outside
  | opened
  | oneDigit (high : Nat)
  | twoDigits (high middle : Nat)

/-- What has been read of a name: whole labels, the characters of the label under way, the last of
them first, and the escape under way. -/
structure Reading where
  name : DomainName
  pending : List Char
  escape : Escape

def octalDigit (c : Char) : Except NameError Nat :=
  if Text.isNumeric c then
    match Text.digitValue 8 c with
    | some n => .ok n
    | none => .error (.illegal c)
  else .error (.unrecognized c)

namespace Reading

def endLabel (r : Reading) : Except NameError Reading := do
  let label ← Label.ofChars r.pending.reverse
  return { r with name := ← r.name.append label, pending := [] }

def read (r : Reading) (c : Char) : Except NameError Reading :=
  match r.escape with
  | .outside =>
    if c = '.' then r.endLabel
    else if c = '\\' then .ok { r with escape := .opened }
    else if Text.isControl c || Text.isBlank c then .error (.unrecognized c)
    else .ok { r with pending := c :: r.pending }
  | .opened =>
    if Text.isNumeric c then (octalDigit c).map fun high => { r with escape := .oneDigit high }
    else .ok { r with pending := c :: r.pending, escape := .outside }
  | .oneDigit high => (octalDigit c).map fun middle => { r with escape := .twoDigits high middle }
  | .twoDigits high middle =>
    (octalDigit c).map fun low =>
      { r with pending := Char.ofNat (high * 64 + middle * 8 + low) :: r.pending,
               escape := .outside }

end Reading

/-- Reads a name. An escape that the text cuts off is dropped, and a label under way at the end
need not be followed by a dot. The name is absolute if the text ends with a dot, escaped or not;
a lone dot is the root. -/
def parse (text : List Char) : Except NameError DomainName :=
  if text = ['.'] then .ok root
  else do
    let r ← text.foldlM Reading.read ⟨empty, [], .outside⟩
    let r ← if r.pending = [] then .ok r else r.endLabel
    return { r.name with absolute := text.getLast? = some '.' }

end ZoneCatalog.DomainName
