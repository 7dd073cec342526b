import DataAccess.Groups

/-!
# Held connections

A session holds at most one connection for a physical group, opened at the first use. Levels
of isolation are overridden on all of them at once, with a stack of save points to go back to;
a connection remembers the level it had before the override. Commit, rollback and close reach
every connection, whatever fails on the way.
-/

set_option autoImplicit false

namespace DataAccess

inductive Access where
  | delayedRead
  | directRead
  | write (autoCommit : Bool)
  deriving DecidableEq

def Access.isWrite : Access → Bool
  | write _ => true
  | _ => false

/-- Delayed reads go to the slave while it is available, all else to the master. -/
def Access.pick {W : Type} (a : Access) (site : Site W) (g : PhysicalGroup) :
    Except Fault String :=
  match a with
  | .delayedRead => .ok ((g.slave.filter site.isAvailable).getD g.master)
  | .directRead => .ok g.master
  | .write _ =>
    if site.isAvailable g.master then .ok g.master else .error (.masterUnavailable g.name)

structure Held where
  group : String
  conn : Nat
  /-- The level before the override, while there is one. -/
  saved : Option Isolation := none
  deriving DecidableEq

structure Connections where
  access : Access
  held : List Held := []
  /-- The overrides that the save points go back to, the latest first. -/
  stack : List (Option Isolation) := []
  current : Option Isolation := none
  closed : Bool := false
  deriving DecidableEq

section
variable {W : Type} (d : Driver W)

def Held.apply (h : Held) (level : Option Isolation) :
    Effect W (Except DriverFault Unit × Held) :=
  match level, h.saved with
  | none, none => pure (.ok (), h)
  | none, some saved => do
    let r ← d.call (.setIsolation h.conn saved)
    return (r, { h with saved := none })
  | some level, some _ => do
    let r ← d.call (.setIsolation h.conn level)
    return (r, h)
  | some level, none => do
    match ← d.call (.isolation h.conn) with
    | .error e => return (.error e, h)
    | .ok saved => do
      let r ← d.call (.setIsolation h.conn level)
      return (r, { h with saved := some saved })

def firstFault (r : Except DriverFault Unit) (later : Option DriverFault) : Option DriverFault :=
  match r with
  | .error e => some e
  | .ok _ => later

def resultOf : Option DriverFault → Except DriverFault Unit
  | some e => .error e
  | none => .ok ()

def applyAll (level : Option Isolation) : List Held → Effect W (Option DriverFault × List Held)
  | [] => pure (none, [])
  | h :: rest => do
    let (r, h) ← h.apply d level
    let (later, rest) ← applyAll level rest
    return (firstFault r later, h :: rest)

def callAll (run : Nat → Effect W (Except DriverFault Unit)) :
    List Held → Effect W (Option DriverFault)
  | [] => pure none
  | h :: rest => do
    let r ← run h.conn
    let later ← callAll run rest
    return firstFault r later

def releaseAll : List Held → Effect W (List DriverFault)
  | [] => pure []
  | h :: rest => do
    let (_, h) ← h.apply d none
    let r ← d.call (.close h.conn)
    let later ← releaseAll rest
    return (firstFault r none).toList ++ later

namespace Connections

def new (access : Access) : Connections := { access }

def isOverridden (cs : Connections) : Bool := cs.current.isSome

/-- Auto commit is set on writing connections only. -/
def setAutoCommit (cs : Connections) (conn : Nat) : Effect W (Except DriverFault Unit) :=
  match cs.access with
  | .write autoCommit => d.call (.autoCommit conn autoCommit)
  | _ => pure (.ok ())

def ready (cs : Connections) (h : Held) : Effect W (Except DriverFault Unit × Held) := do
  match ← setAutoCommit d cs h.conn with
  | .error e => return (.error e, h)
  | .ok _ => if cs.current.isSome then h.apply d cs.current else return (.ok (), h)

/-- Opens a connection for a group; one that cannot be made ready is closed again. -/
def acquire (cs : Connections) (g : PhysicalGroup) : Effect W (Except Fault Held) := do
  let site ← get
  match cs.access.pick site g with
  | .error e => return .error e
  | .ok source =>
    let conn := site.history.length
    match ← d.call (.connect conn source) with
    | .error e => return .error (.execution e)
    | .ok _ =>
      let (r, h) ← ready d cs ⟨g.name, conn, none⟩
      match r with
      | .ok _ => return .ok h
      | .error e =>
        let _ ← d.call (.close h.conn)
        return .error (.execution e)

def connect (cs : Connections) (g : PhysicalGroup) :
    Effect W (Except Fault Nat × Connections) := do
  if cs.closed then
    return (.error (.execution { message := "connections group is already closed" }), cs)
  match cs.held.find? (·.group = g.name) with
  | some h => return (.ok h.conn, cs)
  | none =>
    match ← acquire d cs g with
    | .error e => return (.error e, cs)
    | .ok h => return (.ok h.conn, { cs with held := cs.held ++ [h] })

def commit (cs : Connections) : Effect W (Except DriverFault Unit) := do
  return resultOf (← callAll (fun conn => d.call (.commit conn)) cs.held)

def rollback (cs : Connections) : Effect W (Except DriverFault Unit) := do
  return resultOf (← callAll (fun conn => d.call (.rollback conn)) cs.held)

def applyCurrent (cs : Connections) : Effect W (Except DriverFault Unit × Connections) := do
  let (fault, held) ← applyAll d cs.current cs.held
  return (resultOf fault, { cs with held })

/-- Overrides the level. The save point is the height of the stack after it. -/
def setIsolation (cs : Connections) (level : Isolation) :
    Effect W (Except DriverFault Nat × Connections) := do
  let stack := cs.current :: cs.stack
  let (r, cs) ← applyCurrent d { cs with stack, current := some level }
  return (r.map fun _ => stack.length, cs)

/-- Goes back to the override before a save point. One that the stack does not reach, or zero,
changes nothing. -/
def resetTo (cs : Connections) (point : Nat) :
    Effect W (Except DriverFault Unit × Connections) :=
  if point = 0 ∨ cs.stack.length < point then pure (.ok (), cs)
  else
    match cs.stack.drop (cs.stack.length - point) with
    | previous :: below => applyCurrent d { cs with stack := below, current := previous }
    | [] => pure (.ok (), cs)

def resetLast (cs : Connections) : Effect W (Except DriverFault Unit × Connections) :=
  resetTo d cs cs.stack.length

def close (cs : Connections) : Effect W (List DriverFault × Connections) :=
  if cs.closed then pure ([], cs)
  else do
    let faults ← releaseAll d cs.held
    return (faults, { cs with held := [], stack := [], current := none, closed := true })

end Connections

end

end DataAccess
