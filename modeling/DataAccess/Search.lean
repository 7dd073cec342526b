import DataAccess.Phrase
import DataAccess.Template
import DataAccess.Term

/-!
# Searches

A search names a business and may carry a condition, phrases, a page, a lock and a table
condition of its own. It is lowered to template text in three ways: loading rows, counting
them and deleting them.
-/

set_option autoImplicit false

namespace DataAccess

structure Search where
  business : String
  condition? : Option Term := none
  selected? : Option String := none
  orderBy? : Option String := none
  countPhrase? : Option String := none
  pageNo : Nat := 1
  pageSize? : Option Nat := none
  lock : LockMode := .none
  tableCondition? : Option TableCondition := none
  loadRecords : Bool := true
  computeTotal : Bool := true

inductive Lowering where
  | load | count | delete
  deriving DecidableEq

namespace Search

/-- The greatest offset that a database takes. -/
def maxOffset : Nat := 0x7FFFFFFFFFFFFFFF

def withPageNo (s : Search) (n : Nat) : Search := { s with pageNo := max n 1 }

def paged (business : String) (pageNo pageSize : Nat) : Search :=
  { ({ business := business } : Search).withPageNo pageNo with pageSize? := some pageSize }

def join (s : Search) (joiner : Joiner) (t : Term) : Search :=
  { s with condition? := some (match s.condition? with
      | some present => .join joiner (some present) (some t)
      | none => t) }

def startPos (s : Search) : Nat :=
  Count.add (min (Count.mul (s.pageNo - 1) (s.pageSize?.getD 0)) maxOffset) 1

/-- Offset and number of the page's rows; without a size there is one page of all rows. -/
def paging? (s : Search) : Option (Nat × Nat) :=
  match s.pageSize? with
  | some (size + 1) => some (s.startPos - 1, min (size + 1) maxOffset)
  | _ => none

def isEmptyQuery (s : Search) : Bool := s.condition?.any Term.isEmptyQuery

def whereClause (s : Search) (m : Mapping) : Rendering String := do
  let predicate ← match s.condition? with
    | some t => t.render m
    | none => pure ""
  return if Text.isBlankText predicate then "" else " where " ++ Text.trimmed predicate

def projection (s : Search) (m : Mapping) : String :=
  match s.selected? with
  | some phrase => Phrase.inColumns m phrase
  | none => Text.joined ", " (m.table.columns.map (·.sqlName))

def countPhrase (s : Search) (m : Mapping) : String :=
  match s.countPhrase? with
  | some phrase => Phrase.inColumns m phrase
  | none => "count(*)"

def orderClause (s : Search) (m : Mapping) : String :=
  match s.orderBy? with
  | some phrase => " order by " ++ Phrase.inColumns m phrase
  | none => ""

def frame (s : Search) (m : Mapping) : Lowering → String × String
  | .load => ("select " ++ s.projection m ++ " from @@" ++ m.business, s.orderClause m)
  | .count => ("select " ++ s.countPhrase m ++ " from @@" ++ m.business, "")
  | .delete => ("delete from @@" ++ m.business, "")

def lower (s : Search) (m : Mapping) (lowering : Lowering) : Rendering String := do
  let condition ← s.whereClause m
  return (s.frame m lowering).1 ++ condition ++ (s.frame m lowering).2

def bound (s : Search) (registry : Registry) (m : Mapping) (lowering : Lowering) :
    Except Fault BoundTemplate :=
  match (s.lower m lowering).run .empty with
  | (.error e, _) => .error e
  | (.ok text, params) => do
    let t ← Template.compile registry m text
    t.bindAll params.pairs

end Search

structure Page (α : Type) where
  pageNo : Nat
  pageSize : Nat
  total? : Option Nat
  elements : List α

namespace Page

variable {α : Type}

def pageCount? (p : Page α) : Option Nat :=
  p.total?.map fun total =>
    if p.pageSize = 0 then 0 else (total + p.pageSize - 1) / p.pageSize

def hasNext (p : Page α) : Bool := p.pageCount?.any (p.pageNo < ·)

end Page

end DataAccess
