import ZoneCatalog.Toml.Scalar
import ZoneCatalog.Toml.Table
import ZoneCatalog.Toml.Text

/-! Reading TOML documents. Values nest at most 79 deep, and names have at most 79 parts. -/
namespace ZoneCatalog.Toml

/-- The number of levels that a document may not reach. -/
def levelLimit : Nat := 80

def skipSpaces (cs : List Char) : List Char := cs.dropWhile isSpace

/-- What follows the line under way, of which only blanks and a comment may be left. -/
def endOfLine (inComment : Bool) : List Char → Option (List Char)
  | [] => some []
  | '\n' :: cs => some cs
  | '\r' :: '\n' :: cs => some cs
  | c :: cs =>
    if inComment then if isTextChar c then endOfLine true cs else none
    else if isSpace c then endOfLine false cs
    else if c = '#' then endOfLine true cs
    else none

/-- What follows the blanks, line ends and comments inside a list. -/
def skipGaps (inComment : Bool) : List Char → Option (List Char)
  | [] => if inComment then none else some []
  | '\n' :: cs => skipGaps false cs
  | '\r' :: '\n' :: cs => skipGaps false cs
  | c :: cs =>
    if inComment then if isTextChar c then skipGaps true cs else none
    else if isSpace c then skipGaps false cs
    else if c = '#' then skipGaps true cs
    else some (c :: cs)

def isBareChar (c : Char) : Bool := c.isAlphanum || c = '-' || c = '_'

/-- Reads one part of a name. The second part of the answer, here and below, is what follows. -/
def readPart (cs : List Char) : Option (String × List Char) :=
  let bare := cs.takeWhile isBareChar
  if bare ≠ [] then some (String.ofList bare, cs.dropWhile isBareChar)
  else (readLineText cs).map fun (text, rest) => (String.ofList text, rest)

/-- Reads the parts of a dotted name, at most `most` of them, with the blanks around them. -/
def readParts : (most : Nat) → List Char → Option (List String × List Char)
  | 0, _ => none
  | most + 1, cs => do
    let (part, rest) ← readPart (skipSpaces cs)
    match skipSpaces rest with
    | '.' :: rest =>
      let (parts, rest) ← readParts most rest
      return (part :: parts, rest)
    | rest => return ([part], rest)

/-- Reads a dotted name, and answers the path to its last part, and that part. -/
def readName (cs : List Char) : Option ((List String × String) × List Char) := do
  let (parts, rest) ← readParts (levelLimit - 1) cs
  return ((parts.dropLast, ← parts.getLast?), rest)

def isWordChar (c : Char) : Bool :=
  isBareChar c || c = '+' || c = '.' || c = ':'

/-- Reads a bare word. After a date a blank and a digit continue it. -/
def readWord (cs : List Char) : List Char × List Char :=
  let word := cs.takeWhile isWordChar
  let rest := cs.dropWhile isWordChar
  match rest with
  | ' ' :: d :: _ =>
    if skipDate word = some [] ∧ d.isDigit then
      (word ++ ' ' :: (rest.drop 1).takeWhile isWordChar, (rest.drop 1).dropWhile isWordChar)
    else (word, rest)
  | _ => (word, rest)

mutual
/-- Reads a value inside `depth` others. The fuel bounds the number of values and of the steps
between them, for which the length of the text is room enough. -/
def readValue : (fuel depth : Nat) → List Char → Option (Datum × List Char)
  | 0, _, _ => none
  | fuel + 1, depth, cs =>
    match cs with
    | '"' :: _ => (readText cs).map fun (text, rest) => (.str (String.ofList text), rest)
    | '\'' :: _ => (readText cs).map fun (text, rest) => (.str (String.ofList text), rest)
    | '[' :: rest =>
      if depth + 1 < levelLimit then
        (readItems fuel (depth + 1) rest).map fun (items, rest) => (.list items, rest)
      else none
    | '\x7b' :: rest =>
      if depth + 1 < levelLimit then
        match skipSpaces rest with
        | '\x7d' :: rest => some (.table [], rest)
        | rest => (readMembers fuel (depth + 1) [] rest).map fun (entries, rest) =>
          (.table (members entries), rest)
      else none
    | _ =>
      let (word, rest) := readWord cs
      (scalar? word).map (·, rest)

def readItems : (fuel depth : Nat) → List Char → Option (List Datum × List Char)
  | 0, _, _ => none
  | fuel + 1, depth, cs => do
    match ← skipGaps false cs with
    | ']' :: rest => return ([], rest)
    | cs =>
      let (item, rest) ← readValue fuel depth cs
      match ← skipGaps false rest with
      | ']' :: rest => return ([item], rest)
      | ',' :: rest =>
        let (items, rest) ← readItems fuel depth rest
        return (item :: items, rest)
      | _ => none

def readMembers : (fuel depth : Nat) → Entries → List Char → Option (Entries × List Char)
  | 0, _, _, _ => none
  | fuel + 1, depth, entries, cs => do
    let ((path, name), rest) ← readName cs
    match rest with
    | '=' :: rest =>
      let (d, rest) ← readValue fuel depth (skipSpaces rest)
      let entries ← entries.addValue path name d
      match skipSpaces rest with
      | '\x7d' :: rest => return (entries, rest)
      | ',' :: rest => readMembers fuel depth entries rest
      | _ => none
    | _ => none
end

/-- Reads one line of a document, or several if its value takes them. -/
def readLine (fuel : Nat) (doc : Document) (cs : List Char) :
    Option (Document × List Char) :=
  match skipSpaces cs with
  | [] => some (doc, [])
  | '[' :: '[' :: rest => do
    match ← readName rest with
    | ((path, name), ']' :: ']' :: rest) =>
      return (← doc.openItem path name, ← endOfLine false rest)
    | _ => none
  | '[' :: rest => do
    match ← readName rest with
    | ((path, name), ']' :: rest) => return (← doc.openTable path name, ← endOfLine false rest)
    | _ => none
  | c :: rest =>
    if c = '#' || c = '\n' || c = '\r' then
      (endOfLine false (c :: rest)).map (doc, ·)
    else do
      let ((path, name), rest) ← readName (c :: rest)
      match rest with
      | '=' :: rest =>
        let (d, rest) ← readValue fuel 0 (skipSpaces rest)
        return (← doc.addValue path name d, ← endOfLine false rest)
      | _ => none

/-- Reads the lines of a document. Every line takes at least one character. -/
def readLines : (fuel : Nat) → Document → List Char → Option Document
  | _, doc, [] => some doc
  | 0, _, _ => none
  | fuel + 1, doc, cs => do
    let (doc, rest) ← readLine (2 * (fuel + 2)) doc cs
    readLines fuel doc rest

/-- The tree of a document. A byte order mark may lead it. -/
def read? (text : List Char) : Option Datum := do
  let cs := match text with
    | '\uFEFF' :: cs => cs
    | cs => cs
  let doc ← readLines (cs.length + 1) {} cs
  return .table (members (← doc.close))

end ZoneCatalog.Toml
