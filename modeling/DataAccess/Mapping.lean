import DataAccess.Dialect
import DataAccess.Record

/-!
# Mappings

A mapping ties a business name to a table: its columns by property, its key and version
properties, and the database group that holds it. A table in shards carries a suffix that the
table condition gives.
-/

set_option autoImplicit false

namespace DataAccess

structure Column where
  prop : String
  sqlName : String
  label : String
  type : ColumnType
  insertable : Bool := true
  updatable : Bool := true
  deriving DecidableEq

namespace Column

def isBacktick (c : Char) : Bool := c == '\x60'

def bareName (name : String) : String :=
  String.ofList ((name.toList.dropWhile isBacktick).reverse.dropWhile isBacktick).reverse

def quotedPart? (name : String) : Option String :=
  match name.toList with
  | c :: rest =>
    match rest.reverse with
    | d :: (e :: inner) =>
      if isBacktick c && isBacktick d then some (String.ofList (e :: inner).reverse) else none
    | _ => none
  | [] => none

/-- A column under a declared name. A name in backticks is quoted as the flavor does it, and
rows are labelled with the bare name. -/
def declare (f : Flavor) (prop name : String) (type : ColumnType) (insertable updatable : Bool) :
    Column where
  prop := prop
  sqlName := match quotedPart? name with
    | some inner => f.quote inner
    | none => name
  label := bareName name
  type := type
  insertable := insertable
  updatable := updatable

end Column

structure Table where
  name : String
  dialect : Dialect
  columns : List Column
  pkProp : Option String := none
  versionProp : Option String := none
  /-- The key of the table condition whose value is the suffix of the table's name. -/
  suffixKey : Option String := none
  deriving DecidableEq

namespace Table

def column? (t : Table) (prop : String) : Option Column := t.columns.find? (·.prop = prop)

def pk? (t : Table) : Option Column := t.pkProp.bind t.column?

def version? (t : Table) : Option Column := t.versionProp.bind t.column?

/-- Integers, and text of letters, digits and underscores, may stand in a table's name. -/
def isSuffix : Value → Bool
  | .int _ => true
  | .uint _ => true
  | .text s => s != "" && s.toList.all Text.isNamePart
  | _ => false

def suffixed (name key : String) (condition : Option TableCondition) : Except Fault String :=
  match condition.bind (·.get? key) with
  | none | some .null => .error (.missingTableCondition name key)
  | some v =>
    if isSuffix v then .ok (name ++ "_" ++ v.display)
    else .error (.invalidTableCondition name key v.display)

def realName (t : Table) (condition : Option TableCondition) : Except Fault String :=
  match t.suffixKey with
  | some key => suffixed t.name key condition
  | none => .ok t.name

end Table

structure Mapping where
  business : String
  table : Table
  group : String
  deriving DecidableEq

namespace Mapping

def dialect (m : Mapping) : Dialect := m.table.dialect

def flavor (m : Mapping) : Flavor := m.table.dialect.flavor

def column? (m : Mapping) (prop : String) : Option Column := m.table.column? prop

def sqlName? (m : Mapping) (prop : String) : Option String := (m.column? prop).map (·.sqlName)

def type? (m : Mapping) (prop : String) : Option ColumnType := (m.column? prop).map (·.type)

def column (m : Mapping) (prop : String) : Except Fault Column :=
  match m.column? prop with
  | some c => .ok c
  | none => .error (.unknownProperty m.business prop)

def pk (m : Mapping) : Except Fault Column :=
  match m.table.pk? with
  | some c => .ok c
  | none => .error (.noPrimaryKey m.business)

/-- The property that a label of a row stands for; a label of no column stands for itself. -/
def propOfLabel (m : Mapping) (label : String) : String :=
  match m.table.columns.find? fun c => Text.equalIgnoringAsciiCase c.label label with
  | some c => c.prop
  | none => label

def recordOfRow (m : Mapping) (row : Row) : Record :=
  Dict.ofList (row.cells.map fun (label, v) => (m.propOfLabel label, v))

end Mapping

abbrev Registry := Dict Mapping

namespace Registry

def register (r : Registry) (m : Mapping) : Registry := r.insert m.business m

def mapping (r : Registry) (business : String) : Except Fault Mapping :=
  match r.get? business with
  | some m => .ok m
  | none => .error (.mappingNotFound business)

end Registry

end DataAccess
