import DataAccess.Value

/-!
# Order and equality of values

Values of one kind have the order of their kind. Numbers of two kinds are compared as
doubles. No order holds between any other two kinds.
-/

set_option autoImplicit false

namespace DataAccess.Value

def toDouble? : Value → Option Double
  | int v => some (Double.ofInt v.toInt)
  | uint v => some (Double.ofInt v.toNat)
  | double d => some d
  | _ => none

def compareBytes : List UInt8 → List UInt8 → Ordering
  | [], [] => .eq
  | [], _ :: _ => .lt
  | _ :: _, [] => .gt
  | a :: as, b :: bs => (compare a b).then (compareBytes as bs)

def order : Value → Value → Option Ordering
  | null, null => some .eq
  | bool a, bool b => some (compare a b)
  | int a, int b => some (compare a b)
  | uint a, uint b => some (compare a b)
  | text a, text b => some (compare a b)
  | bytes a, bytes b => some (compareBytes a b)
  | date a, date b => some (a.order b)
  | dateTime a, dateTime b => some (a.order b)
  | a, b => do (← a.toDouble?).order (← b.toDouble?)

def same : Value → Value → Bool
  | double a, double b => a.same b
  | a, b => a == b

def sameAll : List Value → List Value → Bool
  | [], [] => true
  | a :: as, b :: bs => a.same b && sameAll as bs
  | _, _ => false

end DataAccess.Value
