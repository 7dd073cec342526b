import DataAccess.Template

/-!
# The statement catalog

For every mapping with a key the catalog holds the statements that insert, update, delete and
select one record; beside them it keeps statements under names of their own.
-/

set_option autoImplicit false

namespace DataAccess

structure RecordStatements where
  insert : Template
  insertWithoutKey : Template
  update? : Option Template
  delete : Template
  select : Template

structure Catalog where
  registry : Registry
  named : Dict Template := Dict.empty
  records : Dict RecordStatements := Dict.empty

namespace RecordStatements

def insertText (m : Mapping) (columns : List Column) : String :=
  "insert into @@" ++ m.business ++ "(" ++ Text.joined ", " (columns.map (·.sqlName)) ++
    ") values(" ++ Text.joined ", " (columns.map fun c => ":" ++ c.prop) ++ ")"

def insertColumns (m : Mapping) : List Column := m.table.columns.filter (·.insertable)

def updateColumns (m : Mapping) (key : Column) : List Column :=
  m.table.columns.filter fun c => c.updatable && c.prop != key.prop

def isVersion (m : Mapping) (c : Column) : Bool := m.table.version?.any (·.prop = c.prop)

def assignment (m : Mapping) (c : Column) : String :=
  if isVersion m c then c.sqlName ++ " = " ++ c.sqlName ++ " + 1"
  else c.sqlName ++ "=:" ++ c.prop

def byKey (key : Column) : String := " where " ++ key.sqlName ++ "=:" ++ key.prop

def sameVersion (m : Mapping) : String :=
  match m.table.version? with
  | some v => " and " ++ v.sqlName ++ "=:" ++ v.prop
  | none => ""

def updateText (m : Mapping) (key : Column) (columns : List Column) : String :=
  "update @@" ++ m.business ++ " set " ++ Text.joined ", " (columns.map (assignment m)) ++
    byKey key ++ sameVersion m

def deleteText (m : Mapping) (key : Column) : String :=
  "delete from @@" ++ m.business ++ byKey key

def selectText (m : Mapping) (key : Column) : String :=
  "select " ++ Text.joined ", " (m.table.columns.map (·.sqlName)) ++ " from @@" ++ m.business ++
    byKey key

/-- The properties that an update takes from the record: those it assigns, the key and the
version. -/
def updateProps (m : Mapping) (key : Column) (columns : List Column) : List String :=
  ((columns.filter fun c => !isVersion m c).map (·.prop)) ++ [key.prop] ++
    (m.table.version?.map (·.prop)).toList

def statement (registry : Registry) (m : Mapping) (text : String) (props : List String) :
    Except Fault Template := do
  return (← Template.compile registry m text).withProps props

def ofKey (registry : Registry) (m : Mapping) (key : Column) : Except Fault RecordStatements := do
  let columns := insertColumns m
  let rest := columns.filter (·.prop != key.prop)
  let insert ← statement registry m (insertText m columns) (columns.map (·.prop))
  let insertWithoutKey ← statement registry m (insertText m rest) (rest.map (·.prop))
  let changed := updateColumns m key
  let update? ←
    if changed.isEmpty then pure none
    else some <$> statement registry m (updateText m key changed) (updateProps m key changed)
  let delete ← statement registry m (deleteText m key) [key.prop]
  let select ← statement registry m (selectText m key) [key.prop]
  return { insert, insertWithoutKey, update?, delete, select }

end RecordStatements

namespace Catalog

def addRecords (c : Catalog) : List (String × Mapping) → Except Fault Catalog
  | [] => .ok c
  | (business, m) :: rest =>
    match m.table.pk? with
    | none => c.addRecords rest
    | some key => do
      let statements ← RecordStatements.ofKey c.registry m key
      addRecords { c with records := c.records.insert business statements } rest

def ofRegistry (registry : Registry) : Except Fault Catalog :=
  addRecords { registry := registry } registry.entries

def template (c : Catalog) (business text : String) : Except Fault Template := do
  Template.compile c.registry (← c.registry.mapping business) text

def addNamed (c : Catalog) (id : String) (t : Template) : Catalog :=
  { c with named := c.named.insert id t }

def statement (c : Catalog) (id : String) : Except Fault Template :=
  match c.named.get? id with
  | some t => .ok t
  | none => .error (.statementNotFound id)

def recordStatements (c : Catalog) (business : String) : Except Fault RecordStatements :=
  match c.records.get? business with
  | some statements => .ok statements
  | none => do
    let m ← c.registry.mapping business
    throw (.noPrimaryKey m.business)

def updateProps (c : Catalog) (business : String) (props : List String) :
    Except Fault Template := do
  let m ← c.registry.mapping business
  let key ← m.pk
  let assigned := props.filter (· != key.prop)
  if assigned.isEmpty then
    throw (.invalidConfiguration ("no property to update for business [" ++ business ++ "]"))
  let assignments := assigned.map fun p => "@" ++ p ++ "=:" ++ p
  let text := "update @@" ++ business ++ " set " ++ Text.joined ", " assignments ++
    RecordStatements.byKey key
  RecordStatements.statement c.registry m text (props ++ [key.prop])

def keyParam : String := "guzz_pk"

def loadColumn (c : Catalog) (business column : String) : Except Fault Template := do
  let m ← c.registry.mapping business
  let key ← m.pk
  let text := "select " ++ column ++ " from @@" ++ business ++ " where " ++ key.sqlName ++ "=:" ++
    keyParam
  return (← Template.compile c.registry m text).withParamProp keyParam key.prop

end Catalog

end DataAccess
