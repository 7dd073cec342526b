import DataAccess.ColumnType.Conversion
import DataAccess.Template.Block

/-!
# Templates and their bindings

A template is compiled once and bound to values by the names of its parameters, the variables
of its directives, or the properties that parameters stand for. A bound template is prepared
under a table condition: the SQL text with placeholders, and the values in their order.
-/

set_option autoImplicit false

namespace DataAccess

structure Template where
  mapping : Mapping
  text : String
  body : Block
  rowMapping? : Option Mapping := none
  paramProps : Dict String := Dict.empty
  paramTypes : Dict ColumnType := Dict.empty

abbrev RowLoader := Mapping → Row → Except Fault Record

structure BoundTemplate where
  template : Template
  values : Dict Value := Dict.empty
  condition? : Option TableCondition := none
  lock : LockMode := .none
  mustFind : Bool := false
  loader? : Option RowLoader := none
  resultType? : Option ColumnType := none

structure Prepared where
  sql : String
  params : List Value
  deriving DecidableEq

def firstOccurrences (names : List String) : List String :=
  names.foldl (fun seen name => if name ∈ seen then seen else seen ++ [name]) []

namespace Template

def compile (registry : Registry) (owner : Mapping) (text : String) : Except Fault Template := do
  let body ← Block.ofText registry owner text
  return { mapping := owner, text := text, body := body }

def withParamProp (t : Template) (param prop : String) : Template :=
  { t with paramProps := t.paramProps.insert param prop }

def withParamType (t : Template) (param : String) (type : ColumnType) : Template :=
  { t with paramTypes := t.paramTypes.insert param type }

def withProps (t : Template) (props : List String) : Template :=
  props.foldl (fun t prop => t.withParamProp prop prop) t

def rowMapping (t : Template) : Mapping := t.rowMapping?.getD t.mapping

def params (t : Template) : List String := firstOccurrences t.body.paramNames

def vars (t : Template) : List String := firstOccurrences t.body.guardVars

/-- What a name binds: a parameter or variable, or else the first parameter, in the order of
names, that stands for the property. -/
def resolve? (t : Template) (name : String) : Option String :=
  if name ∈ t.body.paramNames ∨ name ∈ t.body.guardVars then some name
  else (t.paramProps.entries.find? (·.2 = name)).map Prod.fst

def paramType? (t : Template) (param : String) : Option ColumnType :=
  (t.paramTypes.get? param).or ((t.paramProps.get? param).bind t.mapping.type?)

def unbound (t : Template) : BoundTemplate := { template := t }

end Template

namespace BoundTemplate

def bind (b : BoundTemplate) (name : String) (v : Value) : Except Fault BoundTemplate := do
  match b.template.resolve? name with
  | none => throw (.unknownParameter name)
  | some param =>
    let v ← match b.template.paramType? param with
      | some type => type.convert v
      | none => pure v
    return { b with values := b.values.insert param v }

def bindAll (b : BoundTemplate) : List (String × Value) → Except Fault BoundTemplate
  | [] => .ok b
  | (name, v) :: rest => do (← b.bind name v).bindAll rest

def mapping (b : BoundTemplate) : Mapping := b.template.mapping

/-- The condition of the statement itself, or else the default. -/
def condition (b : BoundTemplate) (default : Option TableCondition) : Option TableCondition :=
  b.condition?.or default

def loadRow (b : BoundTemplate) (row : Row) : Except Fault Record :=
  match b.loader? with
  | some load => load b.template.rowMapping row
  | none => .ok (b.template.rowMapping.recordOfRow row)

end BoundTemplate

def Block.prepare (flavor : Flavor) (values : Dict Value) (condition : Option TableCondition) :
    Block → Prepared → Except Fault Prepared
  | done, out => .ok out
  | text s next, out => next.prepare flavor values condition { out with sql := out.sql ++ s }
  | table m next, out => do
    let name ← m.table.realName condition
    next.prepare flavor values condition { out with sql := out.sql ++ name }
  | param name next, out =>
    match values.get? name with
    | none => .error (.parameterNotBound name)
    | some v =>
      let params := out.params ++ [v]
      next.prepare flavor values condition ⟨out.sql ++ flavor.placeholder params.length, params⟩
  | guarded guard body next, out => do
    let out ←
      if guard.holds values then body.prepare flavor values condition out else pure out
    next.prepare flavor values condition out

def BoundTemplate.prepare (b : BoundTemplate) (default : Option TableCondition) :
    Except Fault Prepared :=
  b.template.body.prepare b.mapping.flavor b.values (b.condition default) ⟨"", []⟩

namespace Template

def bindAll (t : Template) (pairs : List (String × Value)) : Except Fault BoundTemplate :=
  t.unbound.bindAll pairs

def propOf (t : Template) (param : String) : String := (t.paramProps.get? param).getD param

section
variable {β : Type} [Bean β]

def bindParams (t : Template) (bean : β) :
    BoundTemplate → List String → Except Fault BoundTemplate
  | b, [] => .ok b
  | b, param :: rest => do
    t.bindParams bean (← b.bind param ((Bean.value? bean (t.propOf param)).getD .null)) rest

/-- A variable that is no parameter is bound where the bean has the property. -/
def bindVars (t : Template) (bean : β) :
    BoundTemplate → List String → Except Fault BoundTemplate
  | b, [] => .ok b
  | b, var :: rest =>
    if var ∈ t.body.paramNames then t.bindVars bean b rest
    else match Bean.value? bean (t.propOf var) with
      | none => t.bindVars bean b rest
      | some v => do t.bindVars bean (← b.bind var v) rest

def bindBean (t : Template) (bean : β) : Except Fault BoundTemplate := do
  t.bindVars bean (← t.bindParams bean t.unbound t.params) t.vars

end

end Template

end DataAccess
