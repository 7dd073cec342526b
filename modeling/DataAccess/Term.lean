import DataAccess.ColumnType.Conversion
import DataAccess.Mapping
import DataAccess.Operator
import DataAccess.Parameters

/-!
# Search terms

A term compares a property, asks for membership in a list, or joins two terms of which either
may be absent. Rendering names a parameter for every value it binds, from left to right; the
parameters named before a fault stay in the accumulator.
-/

set_option autoImplicit false

namespace DataAccess

inductive Joiner where
  | and | or
  deriving DecidableEq

def Joiner.word : Joiner → String
  | .and => "and"
  | .or => "or"

inductive Term where
  | compare (prop : String) (op : Operator) (value : Value)
  | among (prop : String) (values : List Value)
  | join (joiner : Joiner) (left right : Option Term)

/-- A computation that adds parameters and may fail. -/
abbrev Rendering (α : Type) := ExceptT Fault (StateM Parameters) α

def Rendering.add (prop : String) (v : Value) : Rendering String :=
  modifyGet fun ps => ps.add prop v

namespace Term

def joinAll? (joiner : Joiner) : List Term → Option Term
  | [] => none
  | t :: rest => some (rest.foldl (fun l r => .join joiner (some l) (some r)) t)

/-- No row can satisfy the term: membership in nothing, a conjunction with such a part, a
disjunction of nothing else, or a join of no terms. -/
def isEmptyQuery : Term → Bool
  | compare .. => false
  | among _ values => values.isEmpty
  | join _ none none => true
  | join _ (some l) none => l.isEmptyQuery
  | join _ none (some r) => r.isEmptyQuery
  | join .and (some l) (some r) => l.isEmptyQuery || r.isEmptyQuery
  | join .or (some l) (some r) => l.isEmptyQuery && r.isEmptyQuery

def same : Term → Term → Bool
  | compare p op v, compare p' op' v' => p == p' && op == op' && v.same v'
  | among p vs, among p' vs' => p == p' && Value.sameAll vs vs'
  | join j l r, join j' l' r' =>
    j == j' &&
      (match l, l' with
        | none, none => true
        | some l, some l' => l.same l'
        | _, _ => false) &&
      (match r, r' with
        | none, none => true
        | some r, some r' => r.same r'
        | _, _ => false)
  | _, _ => false

/-- A comparison with null asks whether the column is null; of the other operators null is
bound like any value. -/
def nullTest? (op : Operator) (value : Value) : Option String :=
  match value, op with
  | .null, .equal | .null, .equalIgnoreCase => some " is null"
  | .null, .notEqual => some " is not null"
  | _, _ => none

def bound (op : Operator) (column : Column) (value : Value) : Except Fault Value :=
  match op with
  | .like | .likeIgnoreCase => .ok value
  | _ => column.type.convert value

def comparison (flavor : Flavor) (op : Operator) (column param : String) : String :=
  match op with
  | .likeIgnoreCase => flavor.likeIgnoringCase column param
  | .equalIgnoreCase => "lower(" ++ column ++ ") = lower(:" ++ param ++ ")"
  | _ => column ++ " " ++ op.sqlSymbol ++ " :" ++ param

def renderCompare (m : Mapping) (prop : String) (op : Operator) (value : Value) :
    Rendering String := do
  let column ← m.column prop
  match nullTest? op value with
  | some test => return column.sqlName ++ test
  | none =>
    let param ← Rendering.add prop (← bound op column value)
    return comparison m.flavor op column.sqlName param

def renderValues (prop : String) (type : ColumnType) : List Value → Rendering (List String)
  | [] => return []
  | v :: vs => do
    let param ← Rendering.add prop (← type.convert v)
    return (":" ++ param) :: (← renderValues prop type vs)

def renderAmong (m : Mapping) (prop : String) (values : List Value) : Rendering String := do
  let column ← m.column prop
  let params ← renderValues prop column.type values
  return column.sqlName ++ " in (" ++ Text.joined ", " params ++ ")"

def isJoin : Term → Bool
  | join .. => true
  | _ => false

def wrapped (isJoin : Bool) (sql : String) : String :=
  if isJoin then "(" ++ Text.trimmed sql ++ ")" else sql

def joinSides (joiner : Joiner) (leftIsJoin rightIsJoin : Bool) (left right : String) : String :=
  if Text.isBlankText left then right
  else if Text.isBlankText right then left
  else " " ++ wrapped leftIsJoin left ++ " " ++ joiner.word ++ " " ++
    wrapped rightIsJoin right ++ " "

def render (m : Mapping) : Term → Rendering String
  | compare prop op value => renderCompare m prop op value
  | among prop values =>
    if values.isEmpty then return "" else renderAmong m prop values
  | join joiner left right => do
    if (join joiner left right).isEmptyQuery then return ""
    else
      let l ← match left with
        | some t => t.render m
        | none => pure ""
      let r ← match right with
        | some t => t.render m
        | none => pure ""
      return joinSides joiner (left.any isJoin) (right.any isJoin) l r

end Term

end DataAccess
