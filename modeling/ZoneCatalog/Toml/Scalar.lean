import ZoneCatalog.Data.Datum
import ZoneCatalog.Text.Numeral

/-! The unquoted values of TOML: truth values, integers in four bases, numbers with a fraction or an
exponent, dates and times. Each is read off the whole of a bare word. -/
namespace ZoneCatalog.Toml

/-- Digits of a base with single underscores between them, without the underscores. -/
def groupedDigits (isDigit : Char → Bool) : List Char → Option (List Char)
  | [] => none
  | [c] => if isDigit c then some [c] else none
  | c :: '_' :: cs => if isDigit c then (groupedDigits isDigit cs).map (c :: ·) else none
  | c :: cs => if isDigit c then (groupedDigits isDigit cs).map (c :: ·) else none

/-- The digits of a whole part: a zero alone, or digits that do not start with zero. -/
def wholeDigits (cs : List Char) : Option (List Char) :=
  (groupedDigits Char.isDigit cs).filter fun ds => ds = ['0'] || ds.head? ≠ some '0'

/-- Whether a sign leads and is negative, and the text after it. -/
def signed : List Char → Bool × List Char
  | '+' :: cs => (false, cs)
  | '-' :: cs => (true, cs)
  | cs => (false, cs)

def bounded (n : Int) : Option Datum :=
  if Int64.minValue.toInt ≤ n ∧ n ≤ Int64.maxValue.toInt then some (.int n) else none

/-- An integer in a base other than ten, without a sign. -/
def baseInteger? (base : Nat) (cs : List Char) : Option Datum := do
  let digits ← groupedDigits (fun c => (Text.digitValue base c).isSome) cs
  bounded (← Text.digitsValue base digits)

def integer? (word : List Char) : Option Datum :=
  match word with
  | '0' :: 'x' :: cs => baseInteger? 16 cs
  | '0' :: 'o' :: cs => baseInteger? 8 cs
  | '0' :: 'b' :: cs => baseInteger? 2 cs
  | _ => do
    let (negative, cs) := signed word
    let n ← Text.digitsValue 10 (← wholeDigits cs)
    bounded (if negative then -n else n)

/-- Whether a number with `digits` before an exponent of ten is too large for a binary number of 64
bits, which rounds to infinity from halfway past the largest finite one on. -/
def overflows (digits : List Char) (exponent : Int) : Bool :=
  match Text.digitsValue 10 (digits.dropWhile (· = '0')) with
  | none => false
  | some 0 => false
  | some n =>
    let places : Int := exponent + (digits.dropWhile (· = '0')).length
    if 310 < places then true
    else if places < 300 then false
    else
      let limit := Nat.pow 2 1024 - Nat.pow 2 970
      if 0 ≤ exponent then limit ≤ n * Nat.pow 10 exponent.toNat
      else limit * Nat.pow 10 (-exponent).toNat ≤ n

/-- A number with a fraction, an exponent or both, or one of the two special values. Of the two
infinities only the negative one can come out of digits. -/
def real? (word : List Char) : Option Datum :=
  let (negative, cs) := signed word
  if cs = ['i', 'n', 'f'] ∨ cs = ['n', 'a', 'n'] then some (.real (String.ofList word))
  else
    let isMark := fun c => c = '.' || c = 'e' || c = 'E'
    let tail := cs.dropWhile (!isMark ·)
    let fraction := match tail with
      | '.' :: rest => groupedDigits Char.isDigit (rest.takeWhile (!isMark ·))
      | _ => some []
    let exponentText := match tail with
      | '.' :: rest => rest.dropWhile (!isMark ·)
      | rest => rest
    let exponent : Option Int := match exponentText with
      | [] => some 0
      | e :: rest =>
        if e = '.' then none
        else
          let (below, digits) := signed rest
          ((groupedDigits Char.isDigit digits).bind (Text.digitsValue 10)).map fun n =>
            if below then -(n : Int) else n
    match wholeDigits (cs.takeWhile (!isMark ·)), fraction, exponent with
    | some whole, some fraction, some exponent =>
      if tail = [] ∨ (!negative && overflows (whole ++ fraction) (exponent - fraction.length)) then
        none
      else some (.real (String.ofList word))
    | _, _, _ => none

/-- The number of exactly `count` digits at the front of a text, and what follows. -/
def fixedDigits (count : Nat) (cs : List Char) : Option (Nat × List Char) := do
  let digits := cs.take count
  guard (digits.length = count)
  return (← Text.digitsValue 10 digits, cs.drop count)

def afterChar (c : Char) : List Char → Option (List Char)
  | d :: cs => if d = c then some cs else none
  | [] => none

def daysIn (year month : Nat) : Nat :=
  if month = 2 then
    if year % 4 = 0 ∧ (year % 100 ≠ 0 ∨ year % 400 = 0) then 29 else 28
  else if month = 4 ∨ month = 6 ∨ month = 9 ∨ month = 11 then 30
  else 31

def skipDate (cs : List Char) : Option (List Char) := do
  let (year, cs) ← fixedDigits 4 cs
  let (month, cs) ← fixedDigits 2 (← afterChar '-' cs)
  let (day, cs) ← fixedDigits 2 (← afterChar '-' cs)
  guard (1 ≤ month ∧ month ≤ 12 ∧ 1 ≤ day ∧ day ≤ daysIn year month)
  return cs

def skipMinutes (cs : List Char) : Option (List Char) := do
  let (hour, cs) ← fixedDigits 2 cs
  let (minute, cs) ← fixedDigits 2 (← afterChar ':' cs)
  guard (hour ≤ 23 ∧ minute ≤ 59)
  return cs

/-- Reads a time of day, which may have a leap second, and answers what follows. -/
def skipTime (cs : List Char) : Option (List Char) := do
  let (second, cs) ← fixedDigits 2 (← afterChar ':' (← skipMinutes cs))
  guard (second ≤ 60)
  match cs with
  | '.' :: rest =>
    guard (rest.head?.any Char.isDigit)
    return rest.dropWhile Char.isDigit
  | _ => return cs

def isOffset (cs : List Char) : Bool :=
  match cs with
  | [] => true
  | ['Z'] => true
  | ['z'] => true
  | '+' :: rest => skipMinutes rest == some []
  | '-' :: rest => skipMinutes rest == some []
  | _ => false

/-- Whether a text is a date, a time, or both with or without an offset. -/
def isMoment (cs : List Char) : Bool :=
  match skipDate cs with
  | some [] => true
  | some (mark :: rest) =>
    (mark = 'T' || mark = 't' || mark = ' ') && (skipTime rest).any isOffset
  | none => skipTime cs == some []

/-- What a bare word denotes. A date or a time is a table of one member, so that it never passes
for a text or a number. -/
def scalar? (word : List Char) : Option Datum :=
  if word = ['t', 'r', 'u', 'e'] then some (.bool true)
  else if word = ['f', 'a', 'l', 's', 'e'] then some (.bool false)
  else if isMoment word then some (.object [("moment", .str (String.ofList word))])
  else (real? word).or (integer? word)

end ZoneCatalog.Toml
