import DataAccess.Proofs.Session.Routing
import DataAccess.Proofs.Session.Statements

/-!
# Where statements are sent

A session keeps the connection that it opened for a group. What happens to it between two moments
is told by the history: which connections were opened and how, and on which of them each statement
was run. Two stretches of a session put together tell it of the whole.
-/

set_option autoImplicit false

namespace DataAccess

def Performed.executed? (p : Performed) : Option (Nat × Statement) :=
  match p.call with
  | .query conn s => some (conn, s)
  | .update conn s => some (conn, s)
  | _ => none

namespace Access

def source (access : Access) (available : String → Bool) (g : PhysicalGroup) : String :=
  match access, g.slave with
  | .delayedRead, some slave => if available slave then slave else g.master
  | _, _ => g.master

end Access

namespace Connections

def conn? (cs : Connections) (name : String) : Option Nat :=
  (cs.held.find? (·.group = name)).map (·.conn)

theorem conn?_append (cs : Connections) (h : Held) (name : String) :
    { cs with held := cs.held ++ [h] }.conn? name =
      (cs.conn? name).or (if h.group = name then some h.conn else none) := by
  rw [conn?, conn?, List.find?_append, Option.map_or]
  congr 1
  by_cases hname : h.group = name <;> simp [hname]

end Connections

namespace Session

structure Sent where
  earlier : List Performed
  conn : Nat
  group : PhysicalGroup
  statement : Statement

section
variable {W : Type} (env : Environment)

variable {env} {allowed allowed' : Sent → Prop} {a b c : Session × Site W}

end

end Session

end DataAccess
