import ZoneCatalog.Text.Range

/-! White space and control characters, and the ways a text is cut at them: into words, into
lines, and free of the blanks at its ends. All of Unicode White_Space counts as blank. -/
namespace ZoneCatalog.Text

/-- Code points with the property White_Space. -/
def blankRanges : List CodeRange :=
  [(0x9, 0xD), (0x20, 0x20), (0x85, 0x85), (0xA0, 0xA0), (0x1680, 0x1680), (0x2000, 0x200A),
   (0x2028, 0x2029), (0x202F, 0x202F), (0x205F, 0x205F), (0x3000, 0x3000)]

def isBlank (c : Char) : Bool := inRanges blankRanges c

/-- The control characters, those of ASCII and those of the block after it. -/
def isControl (c : Char) : Bool := inRanges [(0x0, 0x1F), (0x7F, 0x9F)] c

/-- The pieces of a text between the characters that satisfy `cut`, empty pieces included. There
is always one piece more than there are cuts. -/
def splitAtEach (cut : Char → Bool) : List Char → List (List Char)
  | [] => [[]]
  | c :: cs =>
    if cut c then [] :: splitAtEach cut cs
    else match splitAtEach cut cs with
      | [] => [[c]]
      | piece :: pieces => (c :: piece) :: pieces

/-- The maximal runs of characters that are not blank. -/
def words (cs : List Char) : List (List Char) :=
  (splitAtEach isBlank cs).filter (· ≠ [])

def trim (cs : List Char) : List Char :=
  ((cs.dropWhile isBlank).reverse.dropWhile isBlank).reverse

def dropReturn (cs : List Char) : List Char :=
  if cs.getLast? = some '\r' then cs.dropLast else cs

/-- Ends every piece but the last: a carriage return before the line feed is no part of the line,
and a text that ends with a line feed has no further, empty line. -/
def endLines : List (List Char) → List (List Char)
  | [] => []
  | [last] => if last = [] then [] else [last]
  | line :: rest => dropReturn line :: endLines rest

def lines (cs : List Char) : List (List Char) :=
  endLines (splitAtEach (· = '\n') cs)

/-- The text before the first `c`, and the text after it if there is one. -/
def cutAt (c : Char) : List Char → List Char × Option (List Char)
  | [] => ([], none)
  | d :: ds =>
    if d = c then ([], some ds)
    else
      let (before, after) := cutAt c ds
      (d :: before, after)

end ZoneCatalog.Text
