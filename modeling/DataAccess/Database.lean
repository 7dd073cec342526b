import DataAccess.Fault
import DataAccess.Record
import DataAccess.StatementLog

/-!
# Databases as they are called

A driver answers calls; it has a world of its own, and any call may fail. The site is all that
outlives one operation: the driver's world, the status of each data source, the history of the
calls and the statement log. A connection is known by the place of its opening in the history.
-/

set_option autoImplicit false

namespace DataAccess

inductive Isolation where
  | readUncommitted | readCommitted | repeatableRead | serializable
  deriving DecidableEq

def Isolation.all : List Isolation :=
  [.readUncommitted, .readCommitted, .repeatableRead, .serializable]

def Isolation.name : Isolation → String
  | readUncommitted => "ReadUncommitted"
  | readCommitted => "ReadCommitted"
  | repeatableRead => "RepeatableRead"
  | serializable => "Serializable"

structure Statement where
  sql : String
  params : List Value
  timeoutSeconds : Option Nat
  deriving DecidableEq

inductive Call where
  | connect (conn : Nat) (source : String)
  | autoCommit (conn : Nat) (on : Bool)
  | isolation (conn : Nat)
  | setIsolation (conn : Nat) (level : Isolation)
  | query (conn : Nat) (statement : Statement)
  | update (conn : Nat) (statement : Statement)
  | commit (conn : Nat)
  | rollback (conn : Nat)
  | close (conn : Nat)
  | shutdown (source : String)
  deriving DecidableEq

/-- What a call that succeeds is answered with. -/
abbrev Call.Answer : Call → Type
  | isolation _ => Isolation
  | query .. => List Row
  | update .. => Nat
  | _ => Unit

structure Driver (W : Type) where
  answer : (c : Call) → W → Except DriverFault c.Answer × W

structure Performed where
  call : Call
  succeeded : Bool
  deriving DecidableEq

structure LogEntry where
  sql : String
  params : List Value
  measured : Bool
  deriving DecidableEq

structure SourceStatus where
  enabled : Bool := true
  closed : Bool := false
  deriving DecidableEq

def SourceStatus.isAvailable (s : SourceStatus) : Bool := s.enabled && !s.closed

structure Site (W : Type) where
  world : W
  status : String → SourceStatus := fun _ => {}
  history : List Performed := []
  log : List LogEntry := []

/-- A computation on the site that cannot fail as a whole. -/
abbrev Effect (W α : Type) := StateM (Site W) α

section
variable {W : Type}

def succeeded {α : Type} : Except DriverFault α → Bool
  | .ok _ => true
  | .error _ => false

def Driver.call (d : Driver W) (c : Call) : Effect W (Except DriverFault c.Answer) := fun site =>
  let (r, world) := d.answer c site.world
  (r, { site with world := world, history := site.history ++ [⟨c, succeeded r⟩] })

def Site.setStatus (site : Site W) (source : String) (status : SourceStatus) : Site W :=
  { site with status := fun s => if s = source then status else site.status s }

def Site.isAvailable (site : Site W) (source : String) : Bool := (site.status source).isAvailable

def Site.enable (site : Site W) (source : String) (enabled : Bool) : Site W :=
  site.setStatus source { site.status source with enabled := enabled }

/-- Closes a data source once; the answer tells whether this was the time. It counts as closed
even if its driver fails to close it. -/
def Driver.closeSource (d : Driver W) (source : String) : Effect W (Except DriverFault Bool) :=
  fun site =>
    if (site.status source).closed then (.ok false, site)
    else
      let (r, site) := d.call (.shutdown source)
        (site.setStatus source { site.status source with closed := true })
      (r.map fun _ => true, site)

end

end DataAccess
