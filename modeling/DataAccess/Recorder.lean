import DataAccess.Connections

/-!
# A recording database

A driver that answers queries from a queue of results and updates from a queue of counts. Any
action can be marked as failing for a database, and so can the statements that hold a
fragment. What it saw is read off the history: events of connections and data sources, and
the statements in order.
-/

set_option autoImplicit false

namespace DataAccess

structure OpenConnection where
  conn : Nat
  source : String
  level : Isolation

structure StatementFault where
  fragment : String
  fault : DriverFault

structure Recorder where
  results : List (List Row) := []
  counts : List Nat := []
  failing : List (String × String) := []
  statementFault : Option StatementFault := none
  opened : List OpenConnection := []

namespace Recorder

def queueRows (r : Recorder) (rows : List Row) : Recorder :=
  { r with results := r.results ++ [rows] }

def queueCount (r : Recorder) (count : Nat) : Recorder := { r with counts := r.counts ++ [count] }

def fail (r : Recorder) (action source : String) : Recorder :=
  { r with failing := (action, source) :: r.failing }

def heal (r : Recorder) : Recorder := { r with failing := [], statementFault := none }

def connection? (r : Recorder) (conn : Nat) : Option OpenConnection :=
  r.opened.find? (·.conn = conn)

def sourceOf (r : Recorder) (conn : Nat) : String :=
  ((r.connection? conn).map (·.source)).getD ""

def levelOf (r : Recorder) (conn : Nat) : Isolation :=
  ((r.connection? conn).map (·.level)).getD .readCommitted

def guarded {α : Type} (r : Recorder) (action source : String) (a : α) (after : Recorder) :
    Except DriverFault α × Recorder :=
  if (action, source) ∈ r.failing then
    (.error { message := action ++ " failed on " ++ source }, r)
  else (.ok a, after)

def statementFault? (r : Recorder) (s : Statement) : Option DriverFault :=
  (r.statementFault.filter fun f => Text.contains f.fragment.toList s.sql.toList).map (·.fault)

def answerQuery (r : Recorder) (s : Statement) : Except DriverFault (List Row) × Recorder :=
  match r.statementFault? s with
  | some e => (.error e, r)
  | none => (.ok (r.results.head?.getD []), { r with results := r.results.tail })

def answerUpdate (r : Recorder) (s : Statement) : Except DriverFault Nat × Recorder :=
  match r.statementFault? s with
  | some e => (.error e, r)
  | none => (.ok (r.counts.head?.getD 1), { r with counts := r.counts.tail })

def setLevel (r : Recorder) (conn : Nat) (level : Isolation) : Recorder :=
  { r with opened := r.opened.map fun o => if o.conn = conn then { o with level := level } else o }

def driver : Driver Recorder where
  answer
    | .connect conn source, r =>
      r.guarded "connect" source ()
        { r with opened := ⟨conn, source, .readCommitted⟩ :: r.opened }
    | .autoCommit conn _, r => r.guarded "auto_commit" (r.sourceOf conn) () r
    | .isolation conn, r => r.guarded "get_isolation" (r.sourceOf conn) (r.levelOf conn) r
    | .setIsolation conn level, r =>
      r.guarded "set_isolation" (r.sourceOf conn) () (r.setLevel conn level)
    | .query _ s, r => r.answerQuery s
    | .update _ s, r => r.answerUpdate s
    | .commit conn, r => r.guarded "commit" (r.sourceOf conn) () r
    | .rollback conn, r => r.guarded "rollback" (r.sourceOf conn) () r
    | .close conn, r => r.guarded "close" (r.sourceOf conn) () r
    | .shutdown source, r => r.guarded "shutdown" source () r

def event? (r : Recorder) (p : Performed) : Option String :=
  let on (conn : Nat) (what : String) := some (r.sourceOf conn ++ ":" ++ what)
  if p.succeeded then
    match p.call with
    | .connect _ source => some (source ++ ":open")
    | .autoCommit conn flag => on conn ("auto_commit=" ++ if flag then "true" else "false")
    | .setIsolation conn level => on conn ("isolation=" ++ level.name)
    | .commit conn => on conn "commit"
    | .rollback conn => on conn "rollback"
    | .close conn => on conn "close"
    | .shutdown source => some (source ++ ":shutdown")
    | _ => none
  else none

def statement? (r : Recorder) (p : Performed) : Option (String × Statement) :=
  match p.call with
  | .query conn s => some (r.sourceOf conn, s)
  | .update conn s => some (r.sourceOf conn, s)
  | _ => none

structure Report where
  events : List String
  statements : List (String × Statement)
  log : List LogEntry

def report (before after : Site Recorder) : Report :=
  let made := after.history.drop before.history.length
  ⟨made.filterMap after.world.event?, made.filterMap after.world.statement?,
    after.log.drop before.log.length⟩

end Recorder

end DataAccess
