import DataAccess.Dict
import DataAccess.Fault
import DataAccess.Value.Order

/-!
# Records, table conditions and rows

Records and table conditions are dictionaries of values. A bean is anything with properties
that can be read and written; it may refuse a write.
-/

set_option autoImplicit false

namespace DataAccess

abbrev Record := Dict Value

abbrev TableCondition := Dict Value

def TableCondition.display (c : TableCondition) : String :=
  let shown := c.entries.map fun (k, v) => k ++ "=" ++ v.display
  "\x7b" ++ Text.joined ", " shown ++ "\x7d"

class Bean (β : Type) where
  value? : β → String → Option Value
  setValue : β → String → Value → Except Fault β

instance : Bean Record where
  value? r prop := r.get? prop
  setValue r prop v := .ok (r.insert prop v)

/-- A record that takes no property it has not got, and no null. -/
structure StrictRecord where
  record : Record
  deriving DecidableEq

instance : Bean StrictRecord where
  value? b prop := b.record.get? prop
  setValue b prop v :=
    if !b.record.contains prop then .error (.unknownBeanProperty prop)
    else if v.isNull then .error (.rejectedValue prop "null")
    else .ok ⟨b.record.insert prop v⟩

structure Row where
  columns : List String
  values : List Value
  deriving DecidableEq

namespace Row

/-- The value under the first label that is `column` in some letter case. -/
def get? (r : Row) (column : String) : Option Value :=
  match r.columns.findIdx? (Text.equalIgnoringAsciiCase · column) with
  | some i => r.values[i]?
  | none => none

def cells (r : Row) : List (String × Value) := r.columns.zip r.values

end Row

def firstCell? (rows : List Row) : Option Value := rows.head?.bind (·.values.head?)

end DataAccess
