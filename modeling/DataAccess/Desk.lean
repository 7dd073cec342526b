import DataAccess.Manager

/-!
# A desk of sessions

Sessions of one manager under names, with save points under names that all of them share. A
session opened under a name in use takes the place of the earlier one, which is dropped.
-/

set_option autoImplicit false

namespace DataAccess

structure Desk where
  manager : Manager
  sessions : Dict Session := Dict.empty
  points : Dict Nat := Dict.empty

abbrev DeskEffect (W α : Type) := StateM (Desk × Site W) α

namespace Desk

section
variable {W : Type}

def run {α : Type} (name : String) (act : StateM (Session × Site W) α) :
    DeskEffect W (Option α) := fun (desk, site) =>
  match desk.sessions.get? name with
  | none => (none, (desk, site))
  | some session =>
    let (a, session, site) := act (session, site)
    (some a, ({ desk with sessions := desk.sessions.insert name session }, site))

def finish {α : Type} (name : String) (act : Session → Effect W α) :
    DeskEffect W (Option α) := fun (desk, site) =>
  match desk.sessions.get? name with
  | none => (none, (desk, site))
  | some session =>
    let (a, site) := act session site
    (some a, ({ desk with sessions := desk.sessions.erase name }, site))

def openAs (d : Driver W) (name : String) (access : Access) : DeskEffect W Unit := do
  let _ ← finish name (Manager.drop d)
  modify fun (desk, site) =>
    let session := desk.manager.openSession access
    ({ desk with sessions := desk.sessions.insert name session }, site)

def setCondition (condition : Option TableCondition) : DeskEffect W Unit :=
  modify fun (desk, site) =>
    ({ desk with manager := { desk.manager with condition? := condition } }, site)

def remember (name : String) (point : Except Fault Nat) : DeskEffect W Unit :=
  modify fun (desk, site) =>
    match point with
    | .ok p => ({ desk with points := desk.points.insert name p }, site)
    | .error _ => (desk, site)

end

end Desk

end DataAccess
