import DataAccess.Session

/-!
# Sessions that write beans back

Refreshing, inserting and updating change the bean after the database has answered: the
values of the row, the new key, the next version. The result carries the bean as it is
afterwards, also where the operation failed.
-/

set_option autoImplicit false

namespace DataAccess

/-- How an operation on a bean ended, and the bean after it. -/
structure Written (β α : Type) where
  result : Except Fault α
  bean : β

namespace Session

section
variable {β : Type} [Bean β]

/-- Sets properties in order; the first refusal ends it and keeps what was set before. -/
def setAll (bean : β) : List (String × Value) → Written β Unit
  | [] => ⟨.ok (), bean⟩
  | (prop, v) :: rest =>
    match Bean.setValue bean prop v with
    | .error e => ⟨.error e, bean⟩
    | .ok bean => setAll bean rest

def writing {α : Type} (bean : β) (values : List (String × Value)) (a : α) : Written β α :=
  let w := setAll bean values
  ⟨w.result.map fun _ => a, w.bean⟩

def thenWrite {W γ δ : Type} (act : Action W γ) (failed : Fault → δ) (write : γ → δ) :
    StateM (Session × Site W) δ := do
  match ← act.run with
  | .error e => return failed e
  | .ok c => return write c

def unwritten {α : Type} (bean : β) (e : Fault) : Written β α := ⟨.error e, bean⟩

variable {W : Type} (d : Driver W) (env : Environment)

def keyOf (bean : β) (prop : String) : Value := (Bean.value? bean prop).getD .null

def current (business : String) (bean : β) (lock : LockMode) : Action W (Option Record) := do
  let m ← env.registry.mapping business
  let pk ← m.pk
  let statements ← env.catalog.recordStatements business
  let b ← statements.select.unbound.bind pk.prop (keyOf bean pk.prop)
  fetchOne d env { b with lock, mustFind := true }

def refresh (business : String) (bean : β) (lock : LockMode) :
    StateM (Session × Site W) (Written β Unit) :=
  thenWrite (current d env business bean lock) (unwritten bean) fun found =>
    setAll bean ((found.map Dict.entries).getD [])

def convertedKey (column : Column) (id : Value) : Except Fault Value :=
  if id.isNull then .ok id else column.type.convert id

/-- The key of the inserted record, and what the bean takes: a key that the bean brings is
inserted with it; otherwise the database is asked for the one it gave, if the flavor can. -/
def inserted (business : String) (bean : β) : Action W (Value × List (String × Value)) := do
  let m ← env.registry.mapping business
  let pk ← m.pk
  let statements ← env.catalog.recordStatements business
  let key := keyOf bean pk.prop
  if !key.isNull then
    let _ ← updateRows d env (← statements.insert.bindBean bean)
    return (key, [])
  else
    let b ← statements.insertWithoutKey.bindBean bean
    let (g, s) ← statement env (← currentCondition) b none
    let _ ← update d env g s
    match m.flavor.insertedIdQuery? with
    | none => return (.null, [])
    | some sql =>
      let rows ← query d env g ⟨sql, [], env.settings.timeoutSeconds⟩
      let id ← convertedKey pk ((firstCell? rows).getD .null)
      return (id, [(pk.prop, id)])

def insert (business : String) (bean : β) : StateM (Session × Site W) (Written β Value) :=
  thenWrite (inserted d env business bean) (unwritten bean) fun (key, values) =>
    writing bean values key

def updated (business : String) (bean : β) : Action W (Mapping × Nat) := do
  let m ← env.registry.mapping business
  let statements ← env.catalog.recordStatements business
  match statements.update? with
  | none =>
    throw (.invalidConfiguration ("business [" ++ business ++ "] has no updatable column"))
  | some t =>
    let rows ← updateRows d env (← t.bindBean bean)
    return (m, rows)

/-- The next version of a bean that holds one as an integer. The greatest 64-bit integer has no
next one. -/
def nextVersion (m : Mapping) (bean : β) : Option (List (String × Value)) :=
  match m.table.version? with
  | none => some []
  | some c =>
    match (Bean.value? bean c.prop).bind Value.toInt? with
    | none => some []
    | some v => (Text.signed? (v.toInt + 1)).map fun next => [(c.prop, .int next)]

/-- The version is stepped where exactly one row was changed. Where it overflows the program
stops, behind the update, and there is no outcome. -/
def updateBean (business : String) (bean : β) :
    StateM (Session × Site W) (Option (Written β Nat)) :=
  thenWrite (updated d env business bean) (fun e => some (unwritten bean e)) fun (m, rows) =>
    (if rows = 1 then nextVersion m bean else some []).map fun values =>
      writing bean values rows

end

end Session

end DataAccess
