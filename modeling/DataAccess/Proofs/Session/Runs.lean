import DataAccess.Magazine
import DataAccess.Manager
import DataAccess.Proofs.Session.Sending
import DataAccess.Recorder
import Mathlib.Data.List.Induction

/-!
# Every statement goes where its condition says

A run of a session is any sequence of its operations, with a driver that may fail at any call,
while other sessions call the same databases in between. Each statement of the run is for the
group, and has its tables written, under the one condition of its bound template or else the
default of that moment; and it is run on the connection that the session holds for that group,
opened from the source that was right when it was opened.
-/

set_option autoImplicit false

namespace DataAccess.Session

/-- The operations of a session. Between them the default condition may be changed, and whatever
else calls the databases changes the world, the status of the sources, the history and the log. -/
inductive Op (W : Type) : Type 1 where
  | list (s : Search)
  | listAll (b : BoundTemplate)
  | listPage (b : BoundTemplate) (start size : Nat)
  | listById (id : String) (params : List (String × Value)) (start size : Nat)
  | count (s : Search)
  | page (s : Search)
  | find (b : BoundTemplate)
  | findBySearch (s : Search)
  | findByKey (business : String) (key : Value)
  | findCell (b : BoundTemplate)
  | refresh {β : Type} [Bean β] (business : String) (bean : β) (lock : LockMode)
  | insert {β : Type} [Bean β] (business : String) (bean : β)
  | updateBean {β : Type} [Bean β] (business : String) (bean : β)
  | updateProps {β : Type} [Bean β] (business : String) (bean : β) (props : List String)
  | delete {β : Type} [Bean β] (business : String) (bean : β)
  | deleteBySearch (s : Search)
  | executeUpdate (b : BoundTemplate)
  | executeUpdateById (id : String) (params : List (String × Value))
  | loadForUpdate (business : String) (key : Value) (prop : String)
  | setCondition (condition : Option TableCondition)
  | setIsolation (level : Isolation)
  | resetTo (point : Nat)
  | resetLast
  | commit
  | rollback
  | close
  | elsewhere (world : W) (status : String → SourceStatus) (calls : List Performed)
      (log : List LogEntry)

section
variable {W : Type} (d : Driver W) (env : Environment)

def step (state : Session × Site W) : Op W → Session × Site W
  | .list s => ((list d env s).run state).2
  | .listAll b => ((listAll d env b).run state).2
  | .listPage b start size => ((listPage d env b start size).run state).2
  | .listById id params start size => ((listById d env id params start size).run state).2
  | .count s => ((count d env s).run state).2
  | .page s => ((page d env s).run state).2
  | .find b => ((find d env b).run state).2
  | .findBySearch s => ((findBySearch d env s).run state).2
  | .findByKey business key => ((findByKey d env business key).run state).2
  | .findCell b => ((findCell d env b).run state).2
  | @Op.refresh _ _ _ business bean lock => (refresh d env business bean lock state).2
  | @Op.insert _ _ _ business bean => (insert d env business bean state).2
  | @Op.updateBean _ _ _ business bean => (updateBean d env business bean state).2
  | @Op.updateProps _ _ _ business bean props =>
    ((updateProps d env business bean props).run state).2
  | @Op.delete _ _ _ business bean => ((delete d env business bean).run state).2
  | .deleteBySearch s => ((deleteBySearch d env s).run state).2
  | .executeUpdate b => ((executeUpdate d env b).run state).2
  | .executeUpdateById id params => ((executeUpdateById d env id params).run state).2
  | .loadForUpdate business key prop => ((loadForUpdate d env business key prop).run state).2
  | .setCondition condition => ((setCondition condition).run state).2
  | .setIsolation level => ((setIsolation d level).run state).2
  | .resetTo point => ((resetTo d point).run state).2
  | .resetLast => ((resetLast d).run state).2
  | .commit => ((commit d).run state).2
  | .rollback => ((rollback d).run state).2
  | .close =>
    let ((_, connections), site) := state.1.connections.close d state.2
    ({ state.1 with connections }, site)
  | .elsewhere world status calls log =>
    (state.1, { world, status, history := state.2.history ++ calls, log })

def run (state : Session × Site W) (ops : List (Op W)) : Session × Site W :=
  ops.foldl (step d env) state

namespace Op

/-- The bound templates that an operation runs, and with which window of rows. -/
inductive Hands : Op W → BoundTemplate → Option Window → Prop
  | list {s : Search} {b : BoundTemplate} (hb : lower env s .load = .ok b) :
    Hands (.list s) b s.paging?
  | listAll {b : BoundTemplate} : Hands (.listAll b) b none
  | listPage {b : BoundTemplate} {start size : Nat} :
    Hands (.listPage b start size) b (windowFrom start size)
  | listById {id : String} {params : List (String × Value)} {start size : Nat} {t : Template}
    {b : BoundTemplate} (ht : env.catalog.statement id = .ok t) (hb : t.bindAll params = .ok b) :
    Hands (.listById id params start size) b (windowFrom start size)
  | count {s : Search} {b : BoundTemplate} (hb : lower env s .count = .ok b) :
    Hands (.count s) b none
  | pageCount {s : Search} {b : BoundTemplate} (hb : lower env s .count = .ok b) :
    Hands (.page s) b none
  | pageList {s : Search} {b : BoundTemplate} (hb : lower env s .load = .ok b) :
    Hands (.page s) b s.paging?
  | find {b : BoundTemplate} : Hands (.find b) b (some (0, 1))
  | findBySearch {s : Search} {b : BoundTemplate} (hb : lower env s .load = .ok b) :
    Hands (.findBySearch s) b (some (0, 1))
  | findByKey {business : String} {key : Value} {m : Mapping} {pk : Column}
    {statements : RecordStatements} {b : BoundTemplate}
    (hm : env.registry.mapping business = .ok m) (hpk : m.pk = .ok pk)
    (hs : env.catalog.recordStatements business = .ok statements)
    (hb : statements.select.unbound.bind pk.prop key = .ok b) :
    Hands (.findByKey business key) b (some (0, 1))
  | findCell {b : BoundTemplate} : Hands (.findCell b) b none
  | refresh {β : Type} [Bean β] {business : String} {bean : β} {lock : LockMode} {m : Mapping}
    {pk : Column} {statements : RecordStatements} {b : BoundTemplate}
    (hm : env.registry.mapping business = .ok m) (hpk : m.pk = .ok pk)
    (hs : env.catalog.recordStatements business = .ok statements)
    (hb : statements.select.unbound.bind pk.prop (keyOf bean pk.prop) = .ok b) :
    Hands (.refresh business bean lock) { b with lock, mustFind := true } (some (0, 1))
  | insert {β : Type} [Bean β] {business : String} {bean : β} {statements : RecordStatements}
    {b : BoundTemplate} (hs : env.catalog.recordStatements business = .ok statements)
    (hb : statements.insert.bindBean bean = .ok b) : Hands (.insert business bean) b none
  | insertWithoutKey {β : Type} [Bean β] {business : String} {bean : β}
    {statements : RecordStatements} {b : BoundTemplate}
    (hs : env.catalog.recordStatements business = .ok statements)
    (hb : statements.insertWithoutKey.bindBean bean = .ok b) :
    Hands (.insert business bean) b none
  | updateBean {β : Type} [Bean β] {business : String} {bean : β} {statements : RecordStatements}
    {t : Template} {b : BoundTemplate}
    (hs : env.catalog.recordStatements business = .ok statements)
    (ht : statements.update? = some t) (hb : t.bindBean bean = .ok b) :
    Hands (.updateBean business bean) b none
  | updateProps {β : Type} [Bean β] {business : String} {bean : β} {props : List String}
    {t : Template} {b : BoundTemplate} (ht : env.catalog.updateProps business props = .ok t)
    (hb : t.bindBean bean = .ok b) : Hands (.updateProps business bean props) b none
  | delete {β : Type} [Bean β] {business : String} {bean : β} {statements : RecordStatements}
    {b : BoundTemplate} (hs : env.catalog.recordStatements business = .ok statements)
    (hb : statements.delete.bindBean bean = .ok b) : Hands (.delete business bean) b none
  | deleteBySearch {s : Search} {b : BoundTemplate} (hb : lower env s .delete = .ok b) :
    Hands (.deleteBySearch s) b none
  | executeUpdate {b : BoundTemplate} : Hands (.executeUpdate b) b none
  | executeUpdateById {id : String} {params : List (String × Value)} {t : Template}
    {b : BoundTemplate} (ht : env.catalog.statement id = .ok t) (hb : t.bindAll params = .ok b) :
    Hands (.executeUpdateById id params) b none
  | loadForUpdate {business prop : String} {key : Value} {m : Mapping} {column : Column}
    {t : Template} {b : BoundTemplate} (hm : env.registry.mapping business = .ok m)
    (hcolumn : m.column? prop = some column)
    (ht : env.catalog.loadColumn business column.sqlName = .ok t)
    (hb : t.unbound.bind Catalog.keyParam key = .ok b) :
    Hands (.loadForUpdate business key prop)
      { b with lock := .upgrade, resultType? := some column.type, mustFind := true } none

inductive AsksKey : Op W → BoundTemplate → String → Prop
  | insert {β : Type} [Bean β] {business : String} {bean : β} {m : Mapping}
    {statements : RecordStatements} {b : BoundTemplate} {sql : String}
    (hm : env.registry.mapping business = .ok m)
    (hs : env.catalog.recordStatements business = .ok statements)
    (hb : statements.insertWithoutKey.bindBean bean = .ok b)
    (hsql : m.flavor.insertedIdQuery? = some sql) : AsksKey (.insert business bean) b sql

/-- An operation sends the statement of a bound template that it runs, or right behind an insert
and on the same connection the query for the new key. -/
def Sends (op : Op W) (default : Option TableCondition) (sent : Sent) : Prop :=
  (∃ b window, op.Hands env b window ∧ IsFor env default b window sent) ∨
    ∃ b sql s, op.AsksKey env b sql ∧ Routed env default b none sent.group s ∧
      sent.earlier.getLast? = some ⟨.update sent.conn s, true⟩ ∧
      sent.statement = ⟨sql, [], env.settings.timeoutSeconds⟩

variable {env} {op : Op W} {b : BoundTemplate} {window : Option Window}
  {default : Option TableCondition} {sent : Sent}

end Op

theorem thenWrite_eq {γ δ : Type} (act : Action W γ) (failed : Fault → δ) (write : γ → δ)
    (state : Session × Site W) : thenWrite act failed write state =
      (match (act.run state).1 with
        | .error e => failed e
        | .ok c => write c, (act.run state).2) := by
  have hrun : thenWrite act failed write state = (match (act.run state).1 with
      | .error e => pure (failed e)
      | .ok c => pure (write c) : StateM (Session × Site W) δ) (act.run state).2 := rfl
  rw [hrun]
  cases (act.run state).1 <;> rfl

theorem thenWrite_state {γ δ : Type} (act : Action W γ) (failed : Fault → δ) (write : γ → δ)
    (state : Session × Site W) :
    (thenWrite act failed write state).2 = (act.run state).2 := by
  rw [thenWrite_eq]

section
variable {env} (hkeyed : env.groups.Keyed) (state : Session × Site W)
include hkeyed

section
variable {β : Type} [Bean β]

end

end

variable {env} {allowed : Sent → Prop}

theorem run_append (state : Session × Site W) (ops more : List (Op W)) :
    run d env state (ops ++ more) = run d env (run d env state ops) more := List.foldl_append

variable (env) in
/-- Behind these operations of the run, at this one, the history went past the length. -/
structure At (start : Session × Site W) (ops : List (Op W)) (n : Nat) (before : List (Op W))
    (op : Op W) : Prop where
  first : before ++ [op] <+: ops
  began : (run d env start before).2.history.length ≤ n
  ended : n < (run d env start (before ++ [op])).2.history.length

theorem at_mono {start : Session × Site W} {ops more : List (Op W)} {n : Nat}
    {before : List (Op W)} {op : Op W} (h : At d env start ops n before op) (hops : ops <+: more) :
    At d env start more n before op := ⟨h.first.trans hops, h.began, h.ended⟩

variable {start : Session × Site W} {ops more : List (Op W)}

end

end DataAccess.Session
