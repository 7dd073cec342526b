import DataAccess.Calendar
import DataAccess.Double.Notation
import DataAccess.Text

/-!
# Values

A value is what a statement binds, a row holds and a record stores. Signed and unsigned
integers are kept apart; each has 64 bits.
-/

set_option autoImplicit false

namespace DataAccess

inductive Value where
  | null
  | bool (b : Bool)
  | int (v : Int64)
  | uint (v : UInt64)
  | double (d : Double)
  | text (s : String)
  | bytes (bs : List UInt8)
  | date (d : Date)
  | dateTime (t : DateTime)
  deriving DecidableEq

namespace Value

def isNull : Value → Bool
  | null => true
  | _ => false

/-- False, zero, the empty text, the text `false`, no bytes and null switch a directive off. -/
def isTruthy : Value → Bool
  | null => false
  | bool b => b
  | int v => v != 0
  | uint v => v != 0
  | double d => !d.isZero
  | text s => s != "" && s != "false"
  | bytes bs => !bs.isEmpty
  | date _ => true
  | dateTime _ => true

def isEmpty : Value → Bool
  | null => true
  | text s => Text.isBlankText s
  | bytes bs => bs.isEmpty
  | _ => false

def toInt? : Value → Option Int64
  | int v => some v
  | uint v => Text.signed? v.toNat
  | bool b => some (if b then 1 else 0)
  | text s => Text.readInt? (Text.trim s.toList)
  | _ => none

def text? : Value → Option String
  | text s => some s
  | _ => none

def display : Value → String
  | null => "NULL"
  | bool b => if b then "true" else "false"
  | int v => Text.ofInt v.toInt
  | uint v => Text.ofNat v.toNat
  | double d => d.display
  | text s => s
  | bytes bs => "<" ++ Text.ofNat bs.length ++ " bytes>"
  | date d => d.display
  | dateTime t => t.display

def displayList (vs : List Value) : String :=
  "[" ++ Text.joined ", " (vs.map display) ++ "]"

end Value

end DataAccess
