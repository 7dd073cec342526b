import DataAccess.Proofs.Computation
import DataAccess.Proofs.Connections.Calls

/-!
# The statements a session runs

A search or an update runs one statement, or ends with a fault before it runs any. What is done
to the rows afterwards runs none.
-/

set_option autoImplicit false

namespace DataAccess

section
variable {W α β : Type}

/-- From the given state the action runs one statement, one that is allowed, or it fails and
runs none. -/
def Action.RunsOne (x : Action W α) (state : Session × Site W) (allowed : Statement → Prop) :
    Prop :=
  ∃ deeds, state.2.Did (x.run state).2.2 deeds ∧
    ((deeds.executed = [] ∧ (x.run state).1.isOk = false) ∨
      ∃ s, deeds.executed = [s] ∧ allowed s)

namespace Action

theorem runsOne_throw {x : Action W α} {state : Session × Site W} {e : Fault}
    (h : x.run state = (.error e, state)) (allowed : Statement → Prop) :
    x.RunsOne state allowed :=
  ⟨{}, h ▸ state.2.did_refl, .inl ⟨rfl, h ▸ rfl⟩⟩

theorem runsOne_imp {x : Action W α} {state : Session × Site W}
    {allowed allowed' : Statement → Prop} (h : x.RunsOne state allowed)
    (himp : ∀ s, allowed s → allowed' s) : x.RunsOne state allowed' := by
  obtain ⟨deeds, hdid, hexecuted⟩ := h
  exact ⟨deeds, hdid, hexecuted.imp_right fun ⟨s, hs, ha⟩ => ⟨s, hs, himp s ha⟩⟩

theorem run_lift (x : Except Fault α) (state : Session × Site W) :
    (liftM x : Action W α).run state = (x, state) := rfl

theorem runsOne_lift_bind {x : Except Fault α} {f : α → Action W β} {state : Session × Site W}
    {allowed : Statement → Prop} (h : ∀ a, x = .ok a → (f a).RunsOne state allowed) :
    ((liftM x : Action W α) >>= f).RunsOne state allowed := by
  have hrun := run_bind (liftM x : Action W α) f state
  rw [run_lift] at hrun
  cases x with
  | error e => exact runsOne_throw hrun allowed
  | ok a =>
    obtain ⟨deeds, hdid, hexecuted⟩ := h a rfl
    refine ⟨deeds, ?_, ?_⟩
    · rw [hrun]
      exact hdid
    · rw [hrun]
      exact hexecuted

theorem runsOne_bind {x : Action W α} {f : α → Action W β} {state : Session × Site W}
    {allowed : Statement → Prop} (h : x.RunsOne state allowed)
    (hf : ∀ a state, ((f a).run state).2 = state) : (x >>= f).RunsOne state allowed := by
  obtain ⟨deeds, hdid, hexecuted⟩ := h
  have hrun := run_bind x f state
  generalize x.run state = out at hdid hexecuted hrun
  obtain ⟨r, mid⟩ := out
  cases r with
  | error e =>
    refine ⟨deeds, ?_, hexecuted.imp (fun h => ⟨h.1, ?_⟩) id⟩
    · rw [hrun]
      exact hdid
    · rw [hrun]
      rfl
  | ok a =>
    refine ⟨deeds, ?_, .inr ?_⟩
    · rw [hrun, hf]
      exact hdid
    · rcases hexecuted with ⟨-, hok⟩ | hone
      · cases hok
      · exact hone

end Action

namespace Session

variable (d : Driver W) (env : Environment)

theorem connect_runs_none (cs : Connections) (g : PhysicalGroup) (site : Site W) :
    ∃ deeds, site.Did (cs.connect d g site).2 deeds ∧ deeds.executed = [] := by
  have h := cs.connect_connected d g site
  generalize cs.connect d g site = out at h ⊢
  obtain ⟨⟨r, after⟩, site'⟩ := out
  cases r with
  | error e =>
    obtain ⟨-, hdid | ⟨hdid, -⟩⟩ := h
    · exact ⟨_, hdid, rfl⟩
    · exact ⟨_, hdid, rfl⟩
  | ok conn =>
    rcases h with ⟨-, rfl, -⟩ | ⟨-, -, -, hdid, -⟩
    · exact ⟨_, site'.did_refl, rfl⟩
    · exact ⟨_, hdid, rfl⟩

theorem note_did (settings : SessionSettings) (s : Statement) (site : Site W) :
    site.Did (note settings s site).2 {} := by
  have hhistory : (note settings s site).2.history = site.history := by
    change (if settings.logSql then _ else _ : Site W).history = _
    split <;> rfl
  exact ⟨[], hhistory.trans (List.append_nil _).symm, rfl⟩

theorem onConnections_run (run : Connections → Effect W (Except Fault α × Connections))
    (session : Session) (site : Site W) :
    (onConnections run : Action W α).run (session, site) =
      ((run session.connections site).1.1,
        ({ session with connections := (run session.connections site).1.2 },
          (run session.connections site).2)) := rfl

theorem onSite_bind_run (x : Effect W α) (f : α → Action W β) (session : Session)
    (site : Site W) :
    (onSite x >>= f).run (session, site) = (f (x site).1).run (session, (x site).2) := rfl

theorem execute_runsOne {run : Nat → Effect W (Except DriverFault α)} {s : Statement}
    (hrun : ∀ conn (site : Site W), site.Did (run conn site).2 { executed := [s] })
    (g : PhysicalGroup) (state : Session × Site W) :
    (execute d env g s run).RunsOne state (· = s) := by
  obtain ⟨session, site⟩ := state
  obtain ⟨deeds, hconnect, hnone⟩ := connect_runs_none d session.connections g site
  rw [execute, Action.RunsOne, run_bind, onConnections_run]
  generalize session.connections.connect d g site = out at hconnect ⊢
  obtain ⟨⟨r, connections⟩, mid⟩ := out
  cases r with
  | error e => exact ⟨deeds, hconnect, .inl ⟨hnone, rfl⟩⟩
  | ok conn =>
    have hran := Site.did_trans hconnect (hrun conn mid)
    have hnoted := Site.did_trans_quiet hran (note_did env.settings s (run conn mid).2)
    refine ⟨deeds.append { executed := [s] }, ?_, .inr ⟨s, ?_, rfl⟩⟩
    · simp only [onSite_bind_run]
      cases (run conn mid).1 <;> exact hnoted
    · simp [Deeds.append, hnone]

theorem query_runsOne (g : PhysicalGroup) (s : Statement) (state : Session × Site W) :
    (query d env g s).RunsOne state (· = s) :=
  execute_runsOne d env (fun conn site => call_did d (.query conn s) site) g state

theorem update_runsOne (g : PhysicalGroup) (s : Statement) (state : Session × Site W) :
    (update d env g s).RunsOne state (· = s) :=
  execute_runsOne d env (fun conn site => call_did d (.update conn s) site) g state

def IsStatement (default : Option TableCondition) (b : BoundTemplate) (window : Option Window)
    (s : Statement) : Prop :=
  ∃ g, statement env default b window = .ok (g, s)

theorem fetchRows_runsOne (b : BoundTemplate) (window : Option Window)
    (state : Session × Site W) :
    (fetchRows d env b window).RunsOne state (IsStatement env state.1.condition? b window) := by
  have hcurrent : ((fetchRows d env b window).run state) =
      ((liftM (statement env state.1.condition? b window) : Action W _) >>= fun p =>
        query d env p.1 p.2 >>= fun rows => pure (p.2, rows)).run state := rfl
  rw [Action.RunsOne, hcurrent]
  apply Action.runsOne_lift_bind
  intro ⟨g, s⟩ hs
  apply Action.runsOne_bind
  · exact Action.runsOne_imp (query_runsOne d env g s state) fun s' hs' => ⟨g, hs' ▸ hs⟩
  · exact fun rows state => rfl

theorem updateRows_runsOne (b : BoundTemplate) (state : Session × Site W) :
    (updateRows d env b).RunsOne state (IsStatement env state.1.condition? b none) := by
  have hcurrent : ((updateRows d env b).run state) =
      ((liftM (statement env state.1.condition? b none) : Action W _) >>= fun p =>
        update d env p.1 p.2).run state := rfl
  rw [Action.RunsOne, hcurrent]
  apply Action.runsOne_lift_bind
  intro ⟨g, s⟩ hs
  exact Action.runsOne_imp (update_runsOne d env g s state) fun s' hs' => ⟨g, hs' ▸ hs⟩

theorem fetchOne_eq (b : BoundTemplate) :
    ∃ rest : Statement × List Row → Action W (Option Record),
      fetchOne d env b = fetchRows d env b (some (0, 1)) >>= rest ∧
        ∀ fetched state, ((rest fetched).run state).2 = state := by
  refine ⟨_, rfl, ?_⟩
  rintro ⟨s, rows⟩ state
  cases rows with
  | nil =>
    change ((if b.mustFind then throw (notFound s) else pure none : Action W _).run state).2 = state
    split <;> rfl
  | cons row rows =>
    change (((liftM (b.loadRow row) : Action W _) >>= fun r => pure (some r)).run state).2 = state
    cases b.loadRow row <;> rfl

theorem fetchCell_eq (b : BoundTemplate) :
    ∃ rest : Statement × List Row → Action W (Option Value),
      fetchCell d env b = fetchRows d env b none >>= rest ∧
        ∀ fetched state, ((rest fetched).run state).2 = state := by
  refine ⟨_, rfl, ?_⟩
  rintro ⟨s, rows⟩ state
  dsimp only
  cases firstCell? rows with
  | none =>
    dsimp only
    split <;> rfl
  | some v =>
    cases b.resultType? with
    | none => rfl
    | some type =>
      dsimp only
      split
      · rfl
      · cases type.convert v <;> rfl

end Session

end

end DataAccess
