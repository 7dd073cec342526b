import DataAccess.Session.Bean

/-!
# The manager of sessions

The manager opens sessions over one environment and hands them its default table condition.
A session that is dropped releases its connections like one that is closed.
-/

set_option autoImplicit false

namespace DataAccess

structure Manager where
  environment : Environment
  condition? : Option TableCondition := none

namespace Manager

def openSession (m : Manager) (access : Access) : Session :=
  ⟨Connections.new access, m.condition?⟩

section
variable {W : Type} (d : Driver W)

def close (s : Session) : Effect W (Except DriverFault Unit) := do
  let (faults, _) ← s.connections.close d
  return resultOf faults.head?

def drop (s : Session) : Effect W Unit := do
  let _ ← s.connections.close d

def shutdown (m : Manager) : Effect W Unit :=
  d.shutdown (m.environment.groups.entries.map Prod.snd)

end

end Manager

end DataAccess
