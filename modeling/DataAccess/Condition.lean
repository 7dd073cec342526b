import DataAccess.Pattern
import DataAccess.Term
import DataAccess.Text.LowerCase

/-!
# Conditions on one property

A condition is read from text such as `age>=18`, tested on a bean, turned into a term and
shown again. Without a value it holds of every bean.
-/

set_option autoImplicit false

namespace DataAccess

structure Condition where
  field : String
  op : Operator
  value : Option Value
  deriving DecidableEq

namespace Condition

def textOf (cs : List Char) : String := String.ofList (Text.trim cs)

def parse? (text : String) : Option Condition :=
  (Operator.split? text.toList).map fun (before, op, behind) =>
    ⟨textOf before, op, some (.text (textOf behind))⟩

def parseTyped (m : Mapping) (text : String) : Except Fault (Option Condition) :=
  match Operator.split? text.toList with
  | none => .ok none
  | some (before, op, behind) => do
    let column ← m.column (textOf before)
    let value ← column.type.ofText (textOf behind)
    return some ⟨textOf before, op, some value⟩

def ofToken (field token : String) (value : Option Value) : Except Fault Condition :=
  match Operator.ofToken? token with
  | some op => .ok ⟨Text.trimmed field, op, value⟩
  | none => .error (.invalidOperator token)

def compares (op : Operator) (actual expected : Value) : Bool :=
  let order := actual.order expected
  match op with
  | .equal => order == some .eq
  | .notEqual => order != some .eq
  | .bigger => order == some .gt
  | .biggerOrEqual => order == some .gt || order == some .eq
  | .smaller => order == some .lt
  | .smallerOrEqual => order == some .lt || order == some .eq
  | .equalIgnoreCase =>
    match actual, expected with
    | .text a, .text e => Text.lowerCase a.toList == Text.lowerCase e.toList
    | _, _ => order == some .eq
  | .like =>
    match actual, expected with
    | .text a, .text p => Pattern.matchesText a.toList p.toList
    | _, _ => false
  | .likeIgnoreCase =>
    match actual, expected with
    | .text a, .text p =>
      Pattern.matchesText (Text.lowerCase a.toList) (Text.lowerCase p.toList)
    | _, _ => false

/-- A property that the bean lacks is null. -/
def holds {β : Type} [Bean β] (c : Condition) (bean : β) : Bool :=
  match c.value with
  | none => true
  | some expected => compares c.op ((Bean.value? bean c.field).getD .null) expected

def term? (c : Condition) : Option Term := c.value.map (.compare c.field c.op)

def display (c : Condition) : String :=
  c.field ++ c.op.token ++
    match c.value with
    | some v => v.display
    | none => "?"

end Condition

end DataAccess
