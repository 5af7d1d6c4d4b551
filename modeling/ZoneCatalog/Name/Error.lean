import ZoneCatalog.Text.Numeral

/-! Why a text is no domain name, or a name has no wire form. -/
namespace ZoneCatalog

inductive NameError where
  | unrecognized (c : Char)
  /-- A numeric character inside an octal escape that is no octal digit. -/
  | illegal (c : Char)
  | labelTooLong (bytes : Nat)
  | malformedLabel (label : List Char)
  | tooLong (bytes : Nat)
deriving DecidableEq, Repr

def NameError.message : NameError → String
  | .unrecognized c => "unrecognized char: " ++ String.ofList [c]
  | .illegal c => "illegal char: " ++ String.ofList [c]
  | .labelTooLong n => "label bytes exceed 63: " ++ String.ofList (Text.decimal n)
  | .malformedLabel label => "Malformed label: " ++ String.ofList label
  | .tooLong n => "name label data exceed 255: " ++ String.ofList (Text.decimal n)

end ZoneCatalog
