import DataAccess.Database
import DataAccess.Settings

/-!
# Database groups

A physical group has a master and perhaps a slave, each a data source. A sharded group has a
router that turns a table condition into the name of a physical group.
-/

set_option autoImplicit false

namespace DataAccess

structure PhysicalGroup where
  name : String
  master : String
  slave : Option String
  deriving DecidableEq

def PhysicalGroup.sources (g : PhysicalGroup) : List String := g.master :: g.slave.toList

inductive Group where
  | physical (group : PhysicalGroup)
  | sharded (name : String) (router : Router)
  deriving DecidableEq

def Group.name : Group → String
  | physical g => g.name
  | sharded name _ => name

namespace Router

def keyInt? (key : String) (condition : Option TableCondition) : Option Int :=
  ((condition.bind (·.get? key)).bind Value.toInt?).map (·.toInt)

/-- An equality router looks the shown value up and may have a fallback; a modulo router takes
the group at the integer's remainder, which is never negative. -/
def route? (condition : Option TableCondition) : Router → Option String
  | equality key routes fallback =>
    ((condition.bind (·.get? key)).bind fun v => routes.get? v.display).or fallback
  | modulo key groups =>
    (keyInt? key condition).bind fun v => groups[(v % groups.length).toNat]?

end Router

abbrev Groups := Dict Group

namespace Groups

def group (gs : Groups) (name : String) : Except Fault Group :=
  match gs.get? name with
  | some g => .ok g
  | none => .error (.unknownGroup name)

def physical (gs : Groups) (name : String) : Except Fault PhysicalGroup := do
  match ← gs.group name with
  | .physical g => return g
  | .sharded .. => throw (.wrongGroupKind name "physics")

def sharded (gs : Groups) (name : String) : Except Fault Router := do
  match ← gs.group name with
  | .sharded _ router => return router
  | .physical _ => throw (.wrongGroupKind name "virtual")

def resolve (gs : Groups) (name : String) (condition : Option TableCondition) :
    Except Fault PhysicalGroup := do
  match ← gs.group name with
  | .physical g => return g
  | .sharded _ router =>
    match router.route? condition with
    | some target => gs.physical target
    | none =>
      throw (.noShardMatch name ((condition.map TableCondition.display).getD "\x7b\x7d"))

def knownSource (sources : List String) (name : String) : Except Fault String :=
  if name ∈ sources then .ok name else .error (.unknownDataSource name)

def ofGroup (sources : List String) : GroupSettings → Except Fault Group
  | .physical name master slave => do
    let master ← knownSource sources master
    let slave ← match slave with
      | some s => some <$> knownSource sources s
      | none => pure none
    return .physical ⟨name, master, slave⟩
  | .sharded name router => .ok (.sharded name router)

def addAll (sources : List String) (gs : Groups) : List GroupSettings → Except Fault Groups
  | [] => .ok gs
  | s :: rest => do
    let g ← ofGroup sources s
    addAll sources (gs.insert g.name g) rest

def ofSettings (settings : List GroupSettings) (sources : List String) : Except Fault Groups :=
  addAll sources Dict.empty settings

/-- The data sources of the groups, a master before its slave. -/
def sourcesOf : List Group → List String
  | [] => []
  | .physical g :: rest => g.sources ++ sourcesOf rest
  | .sharded .. :: rest => sourcesOf rest

end Groups

section
variable {W : Type}

def Driver.closeSources (d : Driver W) : List String → Effect W Unit
  | [] => pure ()
  | source :: rest => do
    let _ ← d.closeSource source
    d.closeSources rest

/-- Closes the data sources of the groups; failures do not stop it. -/
def Driver.shutdown (d : Driver W) (groups : List Group) : Effect W Unit :=
  d.closeSources (Groups.sourcesOf groups)

end

end DataAccess
