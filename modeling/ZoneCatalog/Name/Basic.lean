import ZoneCatalog.Bytes.Basic
import ZoneCatalog.Name.Error
import ZoneCatalog.Text.Case

/-! Domain names as lists of labels. The limits on a label and on a whole name are part of the
types, so every name has a length that fits a message; only the root byte of the wire form may
be one too many. -/
namespace ZoneCatalog

namespace Label

/-- Letters and digits, the underscore, and the dot that an escape can bring in. -/
def isPlain (c : Char) : Bool := c.isAlphanum || c = '_' || c = '.'

/-- Whether the characters form a label: at most 63 of them, a star only at the front and a
hyphen only after it. All of them are ASCII, so they count as many bytes. -/
def isValid : List Char → Bool
  | [] => false
  | c :: cs => (isPlain c || c = '*') && cs.all (fun d => isPlain d || d = '-') && cs.length < 63

end Label

structure Label where
  chars : List Char
  valid : Label.isValid chars = true
deriving DecidableEq

namespace Label

/-- The number of bytes, which for a label is the number of characters. -/
def size (l : Label) : Nat := l.chars.length

/-- The characters with their case dropped, the form in which labels are compared. -/
def folded (l : Label) : List Char := Text.fold l.chars

def isWildcard (l : Label) : Bool := l.chars == ['*']

/-- The bytes of the label in a message, without the length. -/
def bytes (l : Label) : Bytes := l.chars.map fun c => UInt8.ofNat c.toNat

def ofChars (cs : List Char) : Except NameError Label :=
  let bytes := (String.ofList cs).utf8ByteSize
  if 63 < bytes then .error (.labelTooLong bytes)
  else if h : isValid cs = true then .ok ⟨cs, h⟩
  else .error (.malformedLabel cs)

end Label

/-- The room that labels take in a name: a length byte and the characters of each. -/
def labelRoom (labels : List Label) : Nat := labels.foldr (fun l room => l.size + 1 + room) 0

/-- A domain name, the most specific label first. An absolute name ends at the root; a relative
one does not say where it ends, and no comparison of names looks at the difference. -/
structure DomainName where
  labels : List Label
  absolute : Bool
  fits : labelRoom labels ≤ 255
deriving DecidableEq

namespace DomainName

def root : DomainName := ⟨[], true, by decide⟩

def empty : DomainName := ⟨[], false, by decide⟩

/-- The name one label longer at its less specific end. -/
def append (name : DomainName) (label : Label) : Except NameError DomainName :=
  let labels := name.labels ++ [label]
  if h : labelRoom labels ≤ 255 then .ok ⟨labels, name.absolute, h⟩
  else .error (.tooLong (labelRoom labels))

def folded (name : DomainName) : List (List Char) := name.labels.map Label.folded

def same (a b : DomainName) : Bool := a.folded == b.folded

/-- The number of labels as signatures count them: a leading wildcard is left out. -/
def countedLabels (name : DomainName) : Nat :=
  match name.labels with
  | [] => 0
  | first :: rest => if first.isWildcard then rest.length else rest.length + 1

end DomainName
end ZoneCatalog
