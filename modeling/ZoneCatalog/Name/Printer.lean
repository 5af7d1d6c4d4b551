import ZoneCatalog.Name.Basic

/-! The text of a domain name. Of all characters a label can hold only the dot needs an escape. -/
namespace ZoneCatalog

def Label.text (l : Label) : List Char :=
  l.chars.flatMap fun c => if c = '.' then ['\\', '.'] else [c]

namespace DomainName

/-- The text of a name: its labels joined by dots, and a last dot if it is absolute. -/
def text (name : DomainName) : List Char :=
  let joined := (name.labels.map Label.text).intersperse ['.'] |>.flatten
  if name.absolute then joined ++ ['.'] else joined

def display (name : DomainName) : String := String.ofList name.text

end DomainName
end ZoneCatalog
