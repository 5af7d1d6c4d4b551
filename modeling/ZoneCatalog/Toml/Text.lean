import ZoneCatalog.Text.Numeral

/-! Quoted texts of TOML: on one line or several, with escapes or without. A text is cut off at its
end first and has its escapes resolved then. -/
namespace ZoneCatalog.Toml

/-- A character that may stand in a text or a comment: no control but the tab. -/
def isTextChar (c : Char) : Bool := c = '\t' || (' ' ≤ c && c ≠ '\x7F')

def isSpace (c : Char) : Bool := c = ' ' || c = '\t'

inductive Escape where
  | outside
  | opened
  /-- A line end that does not count, or the blanks before it; those after it do not count. -/
  | joining (ended : Bool)
  /-- A character code of which `missing` digits are still to come. -/
  | code (missing value : Nat)

/-- The part of a text before a place, its characters last first. -/
structure Unescaped where
  done : List Char := []
  escape : Escape := .outside

namespace Unescaped

def shortEscape (c : Char) : Option Char :=
  if c = 'b' then some '\x08'
  else if c = 't' then some '\t'
  else if c = 'n' then some '\n'
  else if c = 'f' then some '\x0C'
  else if c = 'r' then some '\r'
  else if c = '"' then some '"'
  else if c = '\\' then some '\\'
  else none

def plain (u : Unescaped) (c : Char) : Unescaped :=
  if c = '\\' then { u with escape := .opened } else ⟨c :: u.done, .outside⟩

def read (u : Unescaped) (c : Char) : Option Unescaped :=
  match u.escape with
  | .outside => some (u.plain c)
  | .opened =>
    if c = 'u' then some { u with escape := .code 4 0 }
    else if c = 'U' then some { u with escape := .code 8 0 }
    else if isSpace c then some { u with escape := .joining false }
    else if c = '\n' then some { u with escape := .joining true }
    else (shortEscape c).map fun d => ⟨d :: u.done, .outside⟩
  | .joining ended =>
    if isSpace c then some u
    else if c = '\n' then some { u with escape := .joining true }
    else if ended then some (u.plain c)
    else none
  | .code missing value => do
    let digit ← Text.digitValue 16 c
    let value := value * 16 + digit
    if 1 < missing then return { u with escape := .code (missing - 1) value }
    else if value.isValidChar then return ⟨Char.ofNat value :: u.done, .outside⟩
    else none

/-- The text read, unless it ends inside an escape. -/
def finish (u : Unescaped) : Option (List Char) :=
  match u.escape with
  | .outside => some u.done.reverse
  | .joining true => some u.done.reverse
  | _ => none

end Unescaped

def unescape (raw : List Char) : Option (List Char) :=
  (raw.foldlM Unescaped.read {}).bind Unescaped.finish

/-- Cuts a text on one line off at its closing quotation mark; the second part of the answer, here
and below, is what follows. -/
def cutBasic (done : List Char) : List Char → Option (List Char × List Char)
  | [] => none
  | '\\' :: c :: cs => if isTextChar c then cutBasic (c :: '\\' :: done) cs else none
  | c :: cs =>
    if c = '"' then some (done.reverse, cs)
    else if isTextChar c then cutBasic (c :: done) cs
    else none

def cutLiteral (done : List Char) : List Char → Option (List Char × List Char)
  | [] => none
  | c :: cs =>
    if c = '\'' then some (done.reverse, cs)
    else if isTextChar c then cutLiteral (c :: done) cs
    else none

/-- The quotes, at most two, that stand before the closing three and belong to the text. -/
def closing (quote : Char) (done : List Char) (cs : List Char) : List Char × List Char :=
  match cs with
  | a :: b :: rest =>
    if a = quote ∧ b = quote then ((b :: a :: done).reverse, rest)
    else if a = quote then ((a :: done).reverse, b :: rest)
    else (done.reverse, cs)
  | [a] => if a = quote then ((a :: done).reverse, []) else (done.reverse, cs)
  | [] => (done.reverse, [])

/-- Cuts a text of several lines off at its closing three quotes. Line ends become line feeds. -/
def cutLines (quote : Char) (escapes : Bool) (done : List Char) :
    List Char → Option (List Char × List Char)
  | [] => none
  | '\r' :: '\n' :: cs => cutLines quote escapes ('\n' :: done) cs
  | '\\' :: '\r' :: '\n' :: cs =>
    cutLines quote escapes ('\n' :: '\\' :: done) cs
  | '\\' :: c :: cs =>
    if escapes then
      if isTextChar c || c = '\n' then cutLines quote escapes (c :: '\\' :: done) cs else none
    else cutLines quote escapes ('\\' :: done) (c :: cs)
  | a :: b :: c :: cs =>
    if a = quote ∧ b = quote ∧ c = quote then some (closing quote done cs)
    else if isTextChar a || a = '\n' then cutLines quote escapes (a :: done) (b :: c :: cs)
    else none
  | a :: cs =>
    if isTextChar a || a = '\n' then cutLines quote escapes (a :: done) cs else none

/-- The text after a line end, which the first line of a text of several lines may leave empty. -/
def afterLineEnd : List Char → List Char
  | '\n' :: cs => cs
  | '\r' :: '\n' :: cs => cs
  | cs => cs

/-- Reads a text on one line, as names of members are quoted. -/
def readLineText : List Char → Option (List Char × List Char)
  | '"' :: cs => do
    let (raw, rest) ← cutBasic [] cs
    return (← unescape raw, rest)
  | '\'' :: cs => cutLiteral [] cs
  | _ => none

def readText : List Char → Option (List Char × List Char)
  | '"' :: '"' :: '"' :: cs => do
    let (raw, rest) ← cutLines '"' true [] (afterLineEnd cs)
    return (← unescape raw, rest)
  | '\'' :: '\'' :: '\'' :: cs => cutLines '\'' false [] (afterLineEnd cs)
  | cs => readLineText cs

end ZoneCatalog.Toml
