import ZoneCatalog.Text.Blank

/-! Glob patterns in which a star stands for any text, the empty text included, and every other
character for itself. -/
namespace ZoneCatalog.Text.Glob

/-- What follows the leftmost occurrence of `part`, if it occurs. -/
def afterFirst (part : List Char) : List Char → Option (List Char)
  | [] => if part = [] then some [] else none
  | c :: cs =>
    if part.isPrefixOf (c :: cs) then some ((c :: cs).drop part.length) else afterFirst part cs

/-- Whether a text continues with the given parts in order, a star before each of them. All but
the last are taken at their leftmost occurrence; the last has to end the text. -/
def followed : List (List Char) → List Char → Bool
  | [], _ => true
  | [last], rest => last.isSuffixOf rest
  | part :: parts, rest =>
    match afterFirst part rest with
    | some rest => followed parts rest
    | none => false

/-- Whether `key` is the pattern with each star replaced by some text. -/
def isMatch (pattern key : String) : Bool :=
  match splitAtEach (· = '*') pattern.toList with
  | [] => key.toList.isEmpty
  | [whole] => whole == key.toList
  | first :: parts =>
    first.isPrefixOf key.toList && followed parts (key.toList.drop first.length)

end ZoneCatalog.Text.Glob
