import DataAccess.Catalog
import DataAccess.Connections
import DataAccess.Search

/-!
# Sessions

A session runs searches and bound statements on the connections it holds. A statement is
built in full before any database is called: its group, its text and its parameters under the
table condition in force. Every statement that is run is logged if the settings say so.
-/

set_option autoImplicit false

namespace DataAccess

/-- What all sessions share and none changes. -/
structure Environment where
  catalog : Catalog
  groups : Groups
  settings : SessionSettings

def Environment.registry (env : Environment) : Registry := env.catalog.registry

structure Session where
  connections : Connections
  condition? : Option TableCondition

/-- A computation of a session on the site that may fail. -/
abbrev Action (W α : Type) := ExceptT Fault (StateM (Session × Site W)) α

abbrev Window := Nat × Nat

namespace Session

def lower (env : Environment) (s : Search) (lowering : Lowering) :
    Except Fault BoundTemplate := do
  let m ← env.registry.mapping s.business
  let b ← s.bound env.registry m lowering
  return { b with lock := s.lock, condition? := s.tableCondition? }

def statement (env : Environment) (default : Option TableCondition) (b : BoundTemplate)
    (window : Option Window) : Except Fault (PhysicalGroup × Statement) := do
  let g ← env.groups.resolve b.mapping.group (b.condition default)
  let prepared ← b.prepare default
  let sql := b.mapping.flavor.locked b.lock prepared.sql
  let sql := match window with
    | some (offset, limit) => b.mapping.flavor.limited sql offset limit
    | none => sql
  return (g, ⟨sql, prepared.params, env.settings.timeoutSeconds⟩)

section
variable {W : Type}

def onSite {α : Type} (run : Effect W α) : Action W α :=
  ExceptT.lift fun (session, site) =>
    let (a, site) := run site
    (a, (session, site))

def onConnections {α : Type} (run : Connections → Effect W (Except Fault α × Connections)) :
    Action W α :=
  ExceptT.mk fun (session, site) =>
    let ((r, connections), site) := run session.connections site
    (r, ({ session with connections }, site))

def currentCondition : Action W (Option TableCondition) := do return (← get).1.condition?

def setCondition (condition : Option TableCondition) : Action W Unit :=
  modify fun (session, site) => ({ session with condition? := condition }, site)

def fault {α : Type} : Except DriverFault α → Except Fault α
  | .ok a => .ok a
  | .error e => .error (.execution e)

def note (settings : SessionSettings) (s : Statement) : Effect W Unit :=
  modify fun site =>
    if settings.logSql then
      { site with log := site.log ++ [⟨s.sql, s.params, settings.measureTime⟩] }
    else site

variable (d : Driver W) (env : Environment)

/-- Runs a statement on the group's connection. A fault that names no statement is given this
one's text. -/
def execute {α : Type} (g : PhysicalGroup) (s : Statement)
    (run : Nat → Effect W (Except DriverFault α)) : Action W α := do
  let conn ← onConnections fun cs => cs.connect d g
  let r ← onSite (run conn)
  onSite (note env.settings s)
  match r with
  | .ok a => return a
  | .error e => throw (.execution (e.withSql s.sql))

def query (g : PhysicalGroup) (s : Statement) : Action W (List Row) :=
  execute d env g s fun conn => d.call (.query conn s)

def update (g : PhysicalGroup) (s : Statement) : Action W Nat :=
  execute d env g s fun conn => d.call (.update conn s)

def fetchRows (b : BoundTemplate) (window : Option Window) :
    Action W (Statement × List Row) := do
  let (g, s) ← statement env (← currentCondition) b window
  return (s, ← query d env g s)

def updateRows (b : BoundTemplate) : Action W Nat := do
  let (g, s) ← statement env (← currentCondition) b none
  update d env g s

def loadRows (b : BoundTemplate) : List Row → Except Fault (List Record)
  | [] => .ok []
  | row :: rest => do return (← b.loadRow row) :: (← loadRows b rest)

def notFound (s : Statement) : Fault := .recordNotFound s.sql (Value.displayList s.params)

def fetchRecords (b : BoundTemplate) (window : Option Window) : Action W (List Record) := do
  let (_, rows) ← fetchRows d env b window
  loadRows b rows

def fetchOne (b : BoundTemplate) : Action W (Option Record) := do
  let (s, rows) ← fetchRows d env b (some (0, 1))
  match rows with
  | row :: _ => return some (← b.loadRow row)
  | [] => if b.mustFind then throw (notFound s) else return none

def fetchCell (b : BoundTemplate) : Action W (Option Value) := do
  let (s, rows) ← fetchRows d env b none
  match firstCell? rows with
  | some v =>
    match b.resultType? with
    | some type => if v.isNull then return some v else return some (← type.convert v)
    | none => return some v
  | none => if b.mustFind then throw (notFound s) else return none

def list (s : Search) : Action W (List Record) := do
  if s.isEmptyQuery then return []
  fetchRecords d env (← lower env s .load) s.paging?

def listAll (b : BoundTemplate) : Action W (List Record) := fetchRecords d env b none

/-- No window is cut for the first row on and without a bound on the number. -/
def windowFrom (start size : Nat) : Option Window :=
  if 1 < start ∨ size ≠ Count.greatest then
    some (min (start - 1) Search.maxOffset, min size Search.maxOffset)
  else none

def listPage (b : BoundTemplate) (start size : Nat) : Action W (List Record) :=
  fetchRecords d env b (windowFrom start size)

def listById (id : String) (params : List (String × Value)) (start size : Nat) :
    Action W (List Record) := do
  let t ← env.catalog.statement id
  listPage d env (← t.bindAll params) start size

def count (s : Search) : Action W Int := do
  if s.isEmptyQuery then return 0
  let (_, rows) ← fetchRows d env (← lower env s .count) none
  return (((firstCell? rows).bind Value.toInt?).map (·.toInt)).getD 0

def page (s : Search) : Action W (Page Record) := do
  let total? ← if s.computeTotal then (fun n => some n.toNat) <$> count d env s else pure none
  let elements ← if s.loadRecords then list d env s else pure []
  return { pageNo := s.pageNo, pageSize := s.pageSize?.getD 0, total?, elements }

def find (b : BoundTemplate) : Action W (Option Record) := fetchOne d env b

def findBySearch (s : Search) : Action W (Option Record) := do
  if s.isEmptyQuery then return none
  fetchOne d env (← lower env s .load)

def findByKey (business : String) (key : Value) : Action W (Option Record) := do
  let m ← env.registry.mapping business
  let pk ← m.pk
  let statements ← env.catalog.recordStatements business
  fetchOne d env (← statements.select.unbound.bind pk.prop key)

def findCell (b : BoundTemplate) : Action W (Option Value) := fetchCell d env b

def setIsolation (level : Isolation) : Action W Nat :=
  onConnections fun cs => do
    let (r, cs) ← cs.setIsolation d level
    return (fault r, cs)

def resetTo (point : Nat) : Action W Unit :=
  onConnections fun cs => do
    let (r, cs) ← cs.resetTo d point
    return (fault r, cs)

def resetLast : Action W Unit :=
  onConnections fun cs => do
    let (r, cs) ← cs.resetLast d
    return (fault r, cs)

def updateProps {β : Type} [Bean β] (business : String) (bean : β) (props : List String) :
    Action W Nat := do
  let t ← env.catalog.updateProps business props
  updateRows d env (← t.bindBean bean)

def delete {β : Type} [Bean β] (business : String) (bean : β) : Action W Nat := do
  let statements ← env.catalog.recordStatements business
  updateRows d env (← statements.delete.bindBean bean)

def deleteBySearch (s : Search) : Action W Nat := do
  if s.isEmptyQuery then return 0
  updateRows d env (← lower env s .delete)

def executeUpdate (b : BoundTemplate) : Action W Nat := updateRows d env b

def executeUpdateById (id : String) (params : List (String × Value)) : Action W Nat := do
  let t ← env.catalog.statement id
  updateRows d env (← t.bindAll params)

def loadForUpdate (business : String) (key : Value) (prop : String) : Action W Value := do
  let m ← env.registry.mapping business
  let column ← match m.column? prop with
    | some c => pure c
    | none => throw (.unknownProperty business prop)
  let t ← env.catalog.loadColumn business column.sqlName
  let b ← t.unbound.bind Catalog.keyParam key
  let b := { b with lock := .upgrade, resultType? := some column.type, mustFind := true }
  return (← fetchCell d env b).getD .null

def commit : Action W Unit :=
  onConnections fun cs => do return (fault (← cs.commit d), cs)

def rollback : Action W Unit :=
  onConnections fun cs => do return (fault (← cs.rollback d), cs)

end

end Session

end DataAccess
