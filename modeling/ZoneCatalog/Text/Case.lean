/-! Letter case of ASCII. Names, keywords and record types compare without regard to it; letters
outside ASCII keep their case. -/
namespace ZoneCatalog.Text

def fold (cs : List Char) : List Char := cs.map Char.toLower

def sameFolded (xs ys : List Char) : Bool := fold xs == fold ys

/-- The same text up to the case of ASCII letters, for words of the program's own formats. -/
def isWord (word : String) (cs : List Char) : Bool := sameFolded word.toList cs

end ZoneCatalog.Text
