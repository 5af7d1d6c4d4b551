/-! Sets of characters given by ranges of code points, the form in which character classes are
tabulated. -/
namespace ZoneCatalog.Text

abbrev CodeRange := Nat × Nat

def inRanges (table : List CodeRange) (c : Char) : Bool :=
  table.any fun r => r.1 ≤ c.toNat && c.toNat ≤ r.2

end ZoneCatalog.Text
