import DataAccess.Fault
import DataAccess.Value

/-!
# Conversion to a column's type

Text is read as the column's type; blank text means null except in a column of text. Other
values pass unchanged, apart from integers in a column of doubles or truth values.
-/

set_option autoImplicit false

namespace DataAccess.ColumnType

def readBool? (cs : List Char) : Option Bool :=
  let word := String.ofList (Text.asciiLower cs)
  if ["true", "1", "y", "yes", "on"].contains word then some true
  else if ["false", "0", "n", "no", "off"].contains word then some false
  else none

/-- The value that `s` is read as, where `trimmed` is `s` without blanks around it. A decimal
keeps its text, so that no digit is lost. -/
def read? (type : ColumnType) (s : String) (trimmed : List Char) : Option Value :=
  match type with
  | .int | .bigInt => (Text.readInt? trimmed).map .int
  | .double => (Double.read? trimmed).map .double
  | .decimal => (Double.read? trimmed).map fun _ => .text (String.ofList trimmed)
  | .bool => (readBool? trimmed).map .bool
  | .string | .clob => some (.text s)
  | .bytes | .blob => some (.bytes s.toUTF8.toList)
  | .date => (Date.read? trimmed).map .date
  | .dateTime => (DateTime.read? trimmed).map .dateTime

def ofText (type : ColumnType) (s : String) : Except Fault Value :=
  let trimmed := Text.trim s.toList
  if trimmed.isEmpty && !type.isTextual then .ok .null
  else match type.read? s trimmed with
    | some v => .ok v
    | none => .error (.conversion s type)

def convert (type : ColumnType) (v : Value) : Except Fault Value :=
  match v with
  | .text s => if type.isTextual then .ok v else type.ofText s
  | .int n =>
    if type = .double then .ok (.double (Double.ofInt n.toInt))
    else if type = .bool then .ok (.bool (n != 0))
    else .ok v
  | _ => .ok v

end DataAccess.ColumnType
