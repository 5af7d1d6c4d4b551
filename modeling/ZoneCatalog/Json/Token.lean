import ZoneCatalog.Text.Numeral

/-! The tokens of JSON text: marks, quoted texts and bare words. A bare word is a maximal run of
letters, digits, signs and points; whether it is a number or a constant is decided at its end. -/
namespace ZoneCatalog.Json

inductive Token where
  | openList
  | closeList
  | openTable
  | closeTable
  | colon
  | comma
  | null
  | bool (value : Bool)
  | int (value : Int)
  | real (literal : String)
  /-- A quoted text, `none` if an escape in it stands for half of a surrogate pair. -/
  | text (value : Option String)
deriving DecidableEq

namespace Token

/-- Puts the code points read between quotation marks, given last first, before the characters of
`done`. Two halves of a surrogate pair next to each other are one character; a half alone denotes
nothing. -/
def joinUnits (done : List Char) : List Nat → Option (List Char)
  | [] => some done
  | u :: rest =>
    if 0xDC00 ≤ u ∧ u < 0xE000 then
      match rest with
      | hi :: rest =>
        if 0xD800 ≤ hi ∧ hi < 0xDC00 then
          joinUnits (Char.ofNat (0x10000 + (hi - 0xD800) * 0x400 + (u - 0xDC00)) :: done) rest
        else none
      | [] => none
    else if 0xD800 ≤ u ∧ u < 0xDC00 then none
    else joinUnits (Char.ofNat u :: done) rest

def digits (cs : List Char) : Option (List Char) :=
  match cs with
  | c :: rest => if c.isDigit then some (rest.dropWhile Char.isDigit) else none
  | [] => none

/-- The fraction and the exponent of a number, both of which may be missing. -/
def isNumberTail (cs : List Char) : Bool :=
  let rest := match cs with
    | '.' :: rest => digits rest
    | _ => some cs
  match rest with
  | some [] => true
  | some (e :: rest) =>
    let unsigned := match rest with
      | '+' :: rest => rest
      | '-' :: rest => rest
      | _ => rest
    (e = 'e' || e = 'E') && digits unsigned == some []
  | none => false

/-- Reads a number: an optional minus sign, a whole part without superfluous zeros, and possibly a
fraction and an exponent. A negative zero is not an integer. -/
def number? (word : List Char) : Option Token :=
  let (negative, magnitude) := match word with
    | '-' :: rest => (true, rest)
    | _ => (false, word)
  let whole := magnitude.takeWhile Char.isDigit
  let tail := magnitude.dropWhile Char.isDigit
  if whole = [] ∨ (whole.head? = some '0' ∧ whole ≠ ['0']) then none
  else if tail ≠ [] then
    if isNumberTail tail then some (.real (String.ofList word)) else none
  else
    (Text.digitsValue 10 whole).map fun n =>
      if negative then (if n = 0 then .real (String.ofList word) else .int (-n)) else .int n

def ofWord (word : List Char) : Option Token :=
  if word = ['n', 'u', 'l', 'l'] then some .null
  else if word = ['t', 'r', 'u', 'e'] then some (.bool true)
  else if word = ['f', 'a', 'l', 's', 'e'] then some (.bool false)
  else number? word

def isWordChar (c : Char) : Bool := c.isAlphanum || c = '+' || c = '-' || c = '.'

def shortEscape (c : Char) : Option Char :=
  if c = '"' then some '"'
  else if c = '\\' then some '\\'
  else if c = '/' then some '/'
  else if c = 'b' then some '\x08'
  else if c = 'f' then some '\x0C'
  else if c = 'n' then some '\n'
  else if c = 'r' then some '\r'
  else if c = 't' then some '\t'
  else none

def mark? (c : Char) : Option Token :=
  if c = '[' then some .openList
  else if c = ']' then some .closeList
  else if c = '\x7b' then some .openTable
  else if c = '\x7d' then some .closeTable
  else if c = ':' then some .colon
  else if c = ',' then some .comma
  else none

def isGap (c : Char) : Bool := c = ' ' || c = '\t' || c = '\n' || c = '\r'

/-- Where the reader of tokens stands. What has been read of a token is kept last first. -/
inductive Place where
  | between
  | inWord (read : List Char)
  | inText (read : List Nat)
  | inEscape (read : List Nat)
  /-- In a character code of which `missing` digits are still to come. -/
  | inCode (read : List Nat) (missing value : Nat)

/-- A reading of a text: the place, and the tokens before it, the last of them first. -/
structure Scan where
  place : Place
  done : List Token

namespace Scan

def atGap (done : List Token) (c : Char) : Option Scan :=
  if isGap c then some ⟨.between, done⟩
  else if c = '"' then some ⟨.inText [], done⟩
  else match mark? c with
    | some t => some ⟨.between, t :: done⟩
    | none => if isWordChar c then some ⟨.inWord [c], done⟩ else none

/-- Reads one character, `none` if it cannot stand where it does. -/
def read (s : Scan) (c : Char) : Option Scan :=
  match s.place with
  | .between => atGap s.done c
  | .inWord read =>
    if isWordChar c then some { s with place := .inWord (c :: read) }
    else (ofWord read.reverse).bind fun word => atGap (word :: s.done) c
  | .inText read =>
    if c = '"' then some ⟨.between, .text ((joinUnits [] read).map String.ofList) :: s.done⟩
    else if c = '\\' then some { s with place := .inEscape read }
    else if c.toNat < 0x20 then none
    else some { s with place := .inText (c.toNat :: read) }
  | .inEscape read =>
    if c = 'u' then some { s with place := .inCode read 4 0 }
    else (shortEscape c).map fun d => { s with place := .inText (d.toNat :: read) }
  | .inCode read missing value =>
    (Text.digitValue 16 c).map fun digit =>
      let value := value * 16 + digit
      if missing ≤ 1 then { s with place := .inText (value :: read) }
      else { s with place := .inCode read (missing - 1) value }

def finish (s : Scan) : Option (List Token) :=
  match s.place with
  | .between => some s.done.reverse
  | .inWord read => (ofWord read.reverse).map fun word => (word :: s.done).reverse
  | _ => none

end Scan
end Token

/-- The tokens of a text; `none` if some part of it is no token. -/
def tokens (text : List Char) : Option (List Token) :=
  (text.foldlM Token.Scan.read ⟨.between, []⟩).bind Token.Scan.finish

end ZoneCatalog.Json
