import DataAccess.Proofs.Session.Tracing

/-!
# Sending one statement

Connecting opens the connection of a group or finds it, and sends nothing. Running a statement
sends that one on the connection of its group. From there it is followed through the binds of an
action, the condition being the same all the way.
-/

set_option autoImplicit false

namespace DataAccess

section
variable {W : Type} (d : Driver W)

theorem call_history_of_ok {c : Call} {site : Site W} {answer : c.Answer}
    (h : (d.call c site).1 = .ok answer) :
    (d.call c site).2.history = site.history ++ [⟨c, true⟩] := by
  change site.history ++ [⟨c, succeeded (d.call c site).1⟩] = _
  rw [h]
  rfl

namespace Connections

theorem connect_held {cs : Connections} {g : PhysicalGroup} {site : Site W} {conn : Nat}
    (h : (cs.connect d g site).1.1 = .ok conn) :
    (cs.connect d g site).1.2.conn? g.name = some conn := by
  rcases connect_cases d cs g site with ⟨-, e, heq⟩ | ⟨-, held, hfind, heq⟩ |
    ⟨-, hfind, ⟨e, after, hacquire, heq⟩ | ⟨held, after, hacquire, heq⟩⟩ <;> rw [heq] at h ⊢
  · cases h
  · cases h
    rw [conn?, hfind]
    rfl
  · cases h
  · cases h
    have hgroup := acquire_did d cs g site
    rw [hacquire] at hgroup
    rw [conn?_append, conn?, hfind, if_pos hgroup.1]
    rfl

theorem connect_again {cs : Connections} {g : PhysicalGroup} {site : Site W} {conn : Nat}
    (h : cs.conn? g.name = some conn) : (cs.connect d g site).2 = site := by
  rcases connect_cases d cs g site with ⟨-, e, heq⟩ | ⟨-, held, -, heq⟩ | ⟨-, hfind, -⟩
  · rw [heq]
  · rw [heq]
  · rw [conn?, hfind] at h
    cases h

end Connections

namespace Session

variable {env : Environment} {allowed : Sent → Prop}

variable {α : Type}

/-- What running a statement does, by what connecting comes to. -/
theorem execute_cases (env : Environment) (g : PhysicalGroup) (s : Statement)
    (run : Nat → Effect W (Except DriverFault α)) (session : Session) (site : Site W) :
    let out := session.connections.connect d g site
    let connected : Session := { session with connections := out.1.2 }
    let done := (execute d env g s run).run (session, site)
    (∃ e, done = (.error e, (connected, out.2))) ∨
    ∃ conn, out.1.1 = .ok conn ∧
      done.2 = (connected, (note env.settings s (run conn out.2).2).2) ∧
      ∀ a, done.1 = .ok a → (run conn out.2).1 = .ok a := by
  dsimp only
  rw [execute, run_bind, onConnections_run]
  generalize session.connections.connect d g site = out
  obtain ⟨⟨r, connections⟩, mid⟩ := out
  cases r with
  | error e => exact .inl ⟨e, rfl⟩
  | ok conn =>
    refine .inr ⟨conn, rfl, ?_⟩
    dsimp only
    rw [onSite_bind_run, onSite_bind_run]
    cases (run conn mid).1 with
    | ok a =>
      refine ⟨rfl, fun a' h => ?_⟩
      cases h
      rfl
    | error e =>
      refine ⟨rfl, fun a' h => ?_⟩
      cases h

theorem note_still (settings : SessionSettings) (s : Statement) (site : Site W) :
    (note settings s site).2.history = site.history ∧
      (note settings s site).2.status = site.status := by
  have hnote : (note settings s site).2 = if settings.logSql then
      { site with log := site.log ++ [⟨s.sql, s.params, settings.measureTime⟩] } else site := rfl
  rw [hnote]
  split <;> exact ⟨rfl, rfl⟩

def CallsOnce (run : Nat → Effect W (Except DriverFault α)) (s : Statement) : Prop :=
  ∀ conn (site : Site W), ∃ p : Performed, p.executed? = some (conn, s) ∧
    (run conn site).2.history = site.history ++ [p] ∧ (run conn site).2.status = site.status

theorem query_callsOnce (s : Statement) :
    CallsOnce (fun conn => d.call (.query conn s)) s := fun _ _ => ⟨_, rfl, rfl, rfl⟩

theorem update_callsOnce (s : Statement) :
    CallsOnce (fun conn => d.call (.update conn s)) s := fun _ _ => ⟨_, rfl, rfl, rfl⟩

theorem update_last {g : PhysicalGroup} {s : Statement} {state after : Session × Site W} {n : Nat}
    (h : (update d env g s).run state = (.ok n, after)) :
    ∃ conn, after.1.connections.conn? g.name = some conn ∧
      after.2.history.getLast? = some ⟨.update conn s, true⟩ := by
  obtain ⟨session, site⟩ := state
  rcases execute_cases d env g s (fun conn => d.call (.update conn s)) session site with
    ⟨e, heq⟩ | ⟨conn, hok, heq, hran⟩
  · rw [update, heq] at h
    cases h
  · rw [update] at h
    rw [h] at heq hran
    cases heq
    refine ⟨conn, Connections.connect_held d hok, ?_⟩
    rw [(note_still _ _ _).1, call_history_of_ok d (hran n rfl)]
    simp

end Session

namespace Action

variable {α β : Type} (env : Environment)

variable {env} {allowed allowed' : Session.Sent → Prop} {state : Session × Site W}

end Action

namespace Session

variable {env : Environment}

def IsFor (env : Environment) (default : Option TableCondition) (b : BoundTemplate)
    (window : Option Window) (sent : Sent) : Prop :=
  Routed env default b window sent.group sent.statement

variable (hkeyed : env.groups.Keyed)
include hkeyed

end Session

end

end DataAccess
