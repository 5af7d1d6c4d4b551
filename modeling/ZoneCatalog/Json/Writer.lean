import ZoneCatalog.Data.Datum
import ZoneCatalog.Text.Numeral

/-! Writing JSON without blanks. Of the characters in a text only the quotation mark, the
backslash and the controls of ASCII are escaped, those with a short escape by it. -/
namespace ZoneCatalog.Json

def escapeChar (c : Char) : List Char :=
  if c = '"' then ['\\', '"']
  else if c = '\\' then ['\\', '\\']
  else if c = '\x08' then ['\\', 'b']
  else if c = '\x0C' then ['\\', 'f']
  else if c = '\n' then ['\\', 'n']
  else if c = '\r' then ['\\', 'r']
  else if c = '\t' then ['\\', 't']
  else if c.toNat < 0x20 then
    ['\\', 'u', '0', '0', Nat.digitChar (c.toNat / 16), Nat.digitChar (c.toNat % 16)]
  else [c]

def quote (text : String) : List Char := '"' :: text.toList.flatMap escapeChar ++ ['"']

/-- A text that may be broken; a broken one has no written form and becomes the empty text. -/
def quoteText (text : Option String) : List Char := quote (text.getD "")

mutual
/-- The JSON text of a tree. -/
def write : Datum → List Char
  | .null => "null".toList
  | .bool true => "true".toList
  | .bool false => "false".toList
  | .int n => Text.signedDecimal n
  | .real literal => literal.toList
  | .text t => quoteText t
  | .list [] => ['[', ']']
  | .list (item :: items) => '[' :: (write item ++ writeItems items)
  | .table [] => ['\x7b', '\x7d']
  | .table ((name, value) :: members) =>
    '\x7b' :: (quoteText name ++ ':' :: (write value ++ writeMembers members))

/-- The items after the first, and the end of the list. -/
def writeItems : List Datum → List Char
  | [] => [']']
  | item :: items => ',' :: (write item ++ writeItems items)

def writeMembers : List (Option String × Datum) → List Char
  | [] => ['\x7d']
  | (name, value) :: members =>
    ',' :: (quoteText name ++ ':' :: (write value ++ writeMembers members))
end

def writeString (d : Datum) : String := String.ofList (write d)

end ZoneCatalog.Json
