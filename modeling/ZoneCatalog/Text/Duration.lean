import ZoneCatalog.Text.Numeral

/-! Spans of time in words of a log line: in seconds from one second on, in milliseconds below. -/
namespace ZoneCatalog.Text

/-- The three places after the point of a fraction in thousandths, without the zeros at their
end. -/
def thousandths (n : Nat) : List Char :=
  let digits := [Nat.digitChar (n / 100), Nat.digitChar (n / 10 % 10), Nat.digitChar (n % 10)]
  (digits.reverse.dropWhile (· = '0')).reverse

def duration (millis : Nat) : String :=
  if millis = 0 then "0ns"
  else if millis < 1000 then String.ofList (decimal millis ++ ['m', 's'])
  else
    let fraction := thousandths (millis % 1000)
    let point := if fraction = [] then [] else ['.']
    String.ofList (decimal (millis / 1000) ++ point ++ fraction ++ ['s'])

end ZoneCatalog.Text
