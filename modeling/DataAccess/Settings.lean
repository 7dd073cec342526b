import DataAccess.Dict
import DataAccess.Flavor

/-!
# Settings

Settings are read from documents. Fields may come in any order by name, or in their fixed
order as a list; unknown names are left aside.
-/

set_option autoImplicit false

namespace DataAccess

/-- A document as it is before it has a meaning. `real` is a number with a fraction. -/
inductive Document where
  | null
  | bool (b : Bool)
  | int (v : Int)
  | real
  | text (s : String)
  | list (items : List Document)
  | object (fields : List (String × Document))
  deriving Inhabited

namespace Document

def text? : Document → Option String
  | text s => some s
  | _ => none

def bool? : Document → Option Bool
  | bool b => some b
  | _ => none

def count? : Document → Option Nat
  | int v => if 0 ≤ v ∧ v < 0x10000000000000000 then some v.toNat else none
  | _ => none

def list? : Document → Option (List Document)
  | list items => some items
  | _ => none

def optional? {α : Type} (read : Document → Option α) : Document → Option (Option α)
  | null => some none
  | d => (read d).map some

def texts? (d : Document) : Option (List String) := do (← d.list?).mapM text?

def routes? : Document → Option (Dict String)
  | object fields => do
    return Dict.ofList (← fields.mapM fun (k, d) => do return (k, ← d.text?))
  | _ => none

def fields? (names : List String) : Document → Option (List (String × Document))
  | object fields => some fields
  | list items => if items.length ≤ names.length then some (names.zip items) else none
  | _ => none

def lookup (fields : List (String × Document)) (name : String) : Option Document :=
  (fields.find? (·.1 = name)).map Prod.snd

def required {α : Type} (fields : List (String × Document)) (name : String)
    (read : Document → Option α) : Option α := do read (← lookup fields name)

def withDefault {α : Type} (fields : List (String × Document)) (name : String) (default : α)
    (read : Document → Option α) : Option α :=
  match lookup fields name with
  | some d => read d
  | none => some default

def tagged? (key : String) : Document → Option (Document × Document)
  | object fields => do return (← lookup fields key, object (fields.filter (·.1 ≠ key)))
  | list (tag :: rest) => some (tag, list rest)
  | _ => none

end Document

/-- A flavor by its name, alone or as the key of an object that holds nothing. -/
def Flavor.ofDocument? : Document → Option Flavor
  | .text name => named? name
  | .object [(name, .null)] => named? name
  | _ => none
where
  named? (name : String) : Option Flavor :=
    match name with
    | "mysql" => some .mySQL
    | "postgresql" | "postgres" => some .postgreSQL
    | "sqlite" => some .sqLite
    | "oracle" => some .oracle
    | "h2" => some .h2
    | _ => none

structure SessionSettings where
  timeoutSeconds : Option Nat := none
  logSql : Bool := true
  measureTime : Bool := false
  slowMillis : Nat := 1000
  deriving DecidableEq

namespace SessionSettings

def default : SessionSettings := {}

def ofDocument? (d : Document) : Option SessionSettings := do
  let fields ← d.fields?
    ["query_timeout_secs", "log_sql", "measure_time", "slow_sql_threshold_ms"]
  return {
    timeoutSeconds := ← Document.withDefault fields "query_timeout_secs" none
      (Document.optional? Document.count?)
    logSql := ← Document.withDefault fields "log_sql" true Document.bool?
    measureTime := ← Document.withDefault fields "measure_time" false Document.bool?
    slowMillis := ← Document.withDefault fields "slow_sql_threshold_ms" 1000 Document.count? }

end SessionSettings

inductive Router where
  | equality (key : String) (routes : Dict String) (fallback : Option String)
  | modulo (key : String) (groups : List String)
  deriving DecidableEq

def Router.ofDocument? (d : Document) : Option Router := do
  let (tag, d) ← d.tagged? "kind"
  match tag with
  | .text "equality" | .int 0 =>
    let fields ← d.fields? ["key", "routes", "default"]
    return .equality (← Document.required fields "key" Document.text?)
      (← Document.required fields "routes" Document.routes?)
      (← Document.withDefault fields "default" none (Document.optional? Document.text?))
  | .text "modulo" | .int 1 =>
    let fields ← d.fields? ["key", "groups"]
    return .modulo (← Document.required fields "key" Document.text?)
      (← Document.required fields "groups" Document.texts?)
  | _ => none

inductive GroupSettings where
  | physical (name master : String) (slave : Option String)
  | sharded (name : String) (router : Router)
  deriving DecidableEq

namespace GroupSettings

def sources : GroupSettings → List String
  | physical _ master slave => master :: slave.toList
  | sharded .. => []

def ofDocument? (d : Document) : Option GroupSettings := do
  let (tag, d) ← d.tagged? "type"
  match tag with
  | .text "physics" =>
    let fields ← d.fields? ["name", "master", "slave"]
    return .physical (← Document.required fields "name" Document.text?)
      (← Document.required fields "master" Document.text?)
      (← Document.withDefault fields "slave" none (Document.optional? Document.text?))
  | .text "virtual" =>
    let fields ← d.fields? ["name", "router"]
    return .sharded (← Document.required fields "name" Document.text?)
      (← Document.required fields "router" Router.ofDocument?)
  | _ => none

def listOfDocument? (d : Document) : Option (List GroupSettings) := do
  (← d.list?).mapM ofDocument?

end GroupSettings

end DataAccess
