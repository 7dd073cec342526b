import DataAccess.Proofs.Catalog.Records
import DataAccess.Proofs.Session.Runs

/-!
# Statements are built before anything is called

A search or an update builds its first statement in full, out of look-ups, values and the table
condition alone. Where that fails the operation ends with the fault, and no database was called.
A bean is written back last, so that no fault leaves a record half written.
-/

set_option autoImplicit false

namespace DataAccess

def faultOf {α : Type} : Except Fault α → Option Fault
  | .ok _ => none
  | .error e => some e

abbrev Opening := Option (BoundTemplate × Option Window)

section
variable {W α β : Type} (d : Driver W) (env : Environment)

namespace Action

def Grows (x : Action W α) : Prop :=
  ∀ state : Session × Site W, state.2.history <+: (x.run state).2.2.history

/-- The action runs the statement of the group, and goes on from there if that succeeds. Where
there is no such statement it ends with the fault and leaves the state alone. -/
def Begins (x : Action W α) (state : Session × Site W) :
    Except Fault (PhysicalGroup × Statement) → Prop
  | .error e => x.run state = (.error e, state)
  | .ok (g, s) => ∃ (γ : Type) (call : Nat → Effect W (Except DriverFault γ))
      (rest : γ → Action W α), Session.CallsOnce call s ∧ (∀ c, (rest c).Grows) ∧
        x.run state = (Session.execute d env g s call >>= rest).run state

/-- The action begins with the statement of the bound template for the window of rows. Without a
template it leaves the state alone, and it fails only where a fault stands in place of both. -/
def Opens (x : Action W α) (state : Session × Site W) :
    Except Fault Opening → Prop
  | .error e => x.run state = (.error e, state)
  | .ok none => ∃ a, x.run state = (.ok a, state)
  | .ok (some (b, window)) =>
    x.Begins d env state (Session.statement env state.1.condition? b window)

theorem grows_of_still {x : Action W α} (h : ∀ state, (x.run state).2 = state) : x.Grows :=
  fun state => (h state).symm ▸ List.prefix_refl _

theorem run_lift_pure_still (x : Except Fault α) (f : α → β) (state : Session × Site W) :
    (((liftM x : Action W α) >>= fun a => pure (f a)).run state).2 = state := by
  cases x <;> rfl

theorem grows_bind {x : Action W α} {f : α → Action W β} (h : x.Grows) (hf : ∀ a, (f a).Grows) :
    (x >>= f).Grows := by
  intro state
  have hx := h state
  rw [run_bind]
  generalize x.run state = out at hx ⊢
  obtain ⟨r, mid⟩ := out
  cases r with
  | error e => exact hx
  | ok a => exact hx.trans (hf a mid)

theorem grows_of_runsOne {x : Action W α} {allowed : Session × Site W → Statement → Prop}
    (h : ∀ state, x.RunsOne state (allowed state)) : x.Grows := by
  intro state
  obtain ⟨deeds, ⟨calls, hcalls, -⟩, -⟩ := h state
  exact ⟨calls, hcalls.symm⟩

variable {d env} {state : Session × Site W}

theorem begins_bind {x : Action W α} {f : α → Action W β}
    {first : Except Fault (PhysicalGroup × Statement)} (h : x.Begins d env state first)
    (hf : ∀ a, (f a).Grows) : (x >>= f).Begins d env state first := by
  cases first with
  | error e =>
    have hx : x.run state = (.error e, state) := h
    rw [Begins, run_bind, hx]
  | ok first =>
    obtain ⟨γ, call, rest, hcall, hrest, hx⟩ := h
    refine ⟨γ, call, fun c => rest c >>= f, hcall, fun c => grows_bind (hrest c) hf, ?_⟩
    rw [run_bind, hx, ← run_bind, bind_assoc]

theorem opens_lift_bind {x : Except Fault α} {f : α → Action W β}
    {opens : α → Except Fault Opening}
    (h : ∀ a, x = .ok a → (f a).Opens d env state (opens a)) :
    ((liftM x : Action W α) >>= f).Opens d env state (x >>= opens) := by
  cases x with
  | error e => rfl
  | ok a => exact h a rfl

end Action

namespace Session

theorem query_grows (g : PhysicalGroup) (s : Statement) : (query d env g s).Grows :=
  Action.grows_of_runsOne fun state => query_runsOne d env g s state

variable (state : Session × Site W)

variable {d env} in
theorem execute_begins {call : Nat → Effect W (Except DriverFault α)} {s : Statement}
    (hcall : CallsOnce call s) (g : PhysicalGroup) :
    (execute d env g s call).Begins d env state (.ok (g, s)) := by
  refine ⟨α, call, pure, hcall, fun _ => Action.grows_of_still fun _ => rfl, ?_⟩
  rw [bind_pure]

theorem query_begins (g : PhysicalGroup) (s : Statement) :
    (query d env g s).Begins d env state (.ok (g, s)) :=
  execute_begins state (query_callsOnce d s) g

theorem update_begins (g : PhysicalGroup) (s : Statement) :
    (update d env g s).Begins d env state (.ok (g, s)) :=
  execute_begins state (update_callsOnce d s) g

variable {d env} in
theorem statement_begins {f : PhysicalGroup × Statement → Action W α}
    (hf : ∀ g s, (f (g, s)).Begins d env state (.ok (g, s))) (b : BoundTemplate)
    (window : Option Window) :
    (currentCondition >>= fun condition =>
      liftM (statement env condition b window) >>= f : Action W α).Begins d env state
        (statement env state.1.condition? b window) := by
  have hcurrent : (currentCondition >>= fun condition =>
      liftM (statement env condition b window) >>= f : Action W α).run state =
        (liftM (statement env state.1.condition? b window) >>= f : Action W α).run state := rfl
  cases hs : statement env state.1.condition? b window with
  | error e =>
    rw [Action.Begins, hcurrent, hs]
    rfl
  | ok first =>
    obtain ⟨γ, call, rest, hcall, hrest, hrun⟩ := hf first.1 first.2
    rw [hs] at hcurrent
    exact ⟨γ, call, rest, hcall, hrest, hcurrent.trans hrun⟩

theorem fetchRows_begins (b : BoundTemplate) (window : Option Window) :
    (fetchRows d env b window).Begins d env state
      (statement env state.1.condition? b window) :=
  statement_begins state (fun g s => Action.begins_bind (query_begins d env state g s)
    fun _ => Action.grows_of_still fun _ => rfl) b window

theorem updateRows_begins (b : BoundTemplate) :
    (updateRows d env b).Begins d env state (statement env state.1.condition? b none) :=
  statement_begins state (update_begins d env state) b none

theorem fetchRecords_begins (b : BoundTemplate) (window : Option Window) :
    (fetchRecords d env b window).Begins d env state
      (statement env state.1.condition? b window) :=
  Action.begins_bind (fetchRows_begins d env state b window)
    fun _ => Action.grows_of_still fun _ => rfl

theorem fetchOne_begins (b : BoundTemplate) :
    (fetchOne d env b).Begins d env state
      (statement env state.1.condition? b (some (0, 1))) := by
  obtain ⟨rest, hfetch, hstill⟩ := fetchOne_eq d env b
  rw [hfetch]
  exact Action.begins_bind (fetchRows_begins d env state b (some (0, 1)))
    fun fetched => Action.grows_of_still (hstill fetched)

theorem fetchCell_begins (b : BoundTemplate) :
    (fetchCell d env b).Begins d env state (statement env state.1.condition? b none) := by
  obtain ⟨rest, hfetch, hstill⟩ := fetchCell_eq d env b
  rw [hfetch]
  exact Action.begins_bind (fetchRows_begins d env state b none)
    fun fetched => Action.grows_of_still (hstill fetched)

namespace Opening

def ofSearch (s : Search) (lowering : Lowering) (window : Option Window) :
    Except Fault Opening := do
  if s.isEmptyQuery then return none
  return some (← lower env s lowering, window)

def ofName (id : String) (params : List (String × Value)) (window : Option Window) :
    Except Fault Opening := do
  let t ← env.catalog.statement id
  return some (← t.bindAll params, window)

def ofKey (business : String) (key : String → Value) (settle : BoundTemplate → BoundTemplate) :
    Except Fault Opening := do
  let m ← env.registry.mapping business
  let pk ← m.pk
  let statements ← env.catalog.recordStatements business
  let b ← statements.select.unbound.bind pk.prop (key pk.prop)
  return some (settle b, some (0, 1))

end Opening

namespace Op

def asks : Op W → Bool
  | page _ | setCondition _ | setIsolation _ | resetTo _ | resetLast | commit | rollback | close
  | elsewhere .. => false
  | _ => true

def opens : Op W → Except Fault Opening
  | list s => Opening.ofSearch env s .load s.paging?
  | listAll b => return some (b, none)
  | listPage b start size => return some (b, windowFrom start size)
  | listById id params start size => Opening.ofName env id params (windowFrom start size)
  | count s => Opening.ofSearch env s .count none
  | find b => return some (b, some (0, 1))
  | findBySearch s => Opening.ofSearch env s .load (some (0, 1))
  | findByKey business key => Opening.ofKey env business (fun _ => key) id
  | findCell b => return some (b, none)
  | refresh business bean lock =>
    Opening.ofKey env business (keyOf bean) fun b => { b with lock, mustFind := true }
  | insert business bean => do
    let m ← env.registry.mapping business
    let pk ← m.pk
    let statements ← env.catalog.recordStatements business
    if (keyOf bean pk.prop).isNull then
      return some (← statements.insertWithoutKey.bindBean bean, none)
    return some (← statements.insert.bindBean bean, none)
  | updateBean business bean => do
    let _ ← env.registry.mapping business
    let statements ← env.catalog.recordStatements business
    match statements.update? with
    | none =>
      throw (.invalidConfiguration ("business [" ++ business ++ "] has no updatable column"))
    | some t => return some (← t.bindBean bean, none)
  | updateProps business bean props => do
    let t ← env.catalog.updateProps business props
    return some (← t.bindBean bean, none)
  | delete business bean => do
    let statements ← env.catalog.recordStatements business
    return some (← statements.delete.bindBean bean, none)
  | deleteBySearch s => Opening.ofSearch env s .delete none
  | executeUpdate b => return some (b, none)
  | executeUpdateById id params => Opening.ofName env id params none
  | loadForUpdate business key prop => do
    let m ← env.registry.mapping business
    match m.column? prop with
    | none => throw (.unknownProperty business prop)
    | some column =>
      let t ← env.catalog.loadColumn business column.sqlName
      let b ← t.unbound.bind Catalog.keyParam key
      return some
        ({ b with lock := .upgrade, resultType? := some column.type, mustFind := true }, none)
  | _ => return none

def first (default : Option TableCondition) (op : Op W) :
    Except Fault (Option (PhysicalGroup × Statement)) :=
  match op.opens env with
  | .error e => .error e
  | .ok none => .ok none
  | .ok (some (b, window)) => (statement env default b window).map some

end Op

theorem search_opens {f : BoundTemplate → Action W α} {lowering : Lowering}
    {window : Option Window} (s : Search) (a : α)
    (hf : ∀ b, (f b).Begins d env state (statement env state.1.condition? b window)) :
    (if s.isEmptyQuery then pure a else liftM (lower env s lowering) >>= f : Action W α).Opens
      d env state (Opening.ofSearch env s lowering window) := by
  unfold Opening.ofSearch
  split
  · exact ⟨a, rfl⟩
  · exact Action.opens_lift_bind fun b _ => hf b

theorem name_opens {f : BoundTemplate → Action W α} {window : Option Window} (id : String)
    (params : List (String × Value))
    (hf : ∀ b, (f b).Begins d env state (statement env state.1.condition? b window)) :
    ((liftM (env.catalog.statement id) : Action W Template) >>= fun t =>
      liftM (t.bindAll params) >>= f).Opens d env state (Opening.ofName env id params window) :=
  Action.opens_lift_bind fun _ _ => Action.opens_lift_bind fun b _ => hf b

theorem findByKey_opens (business : String) (key : Value) :
    (findByKey d env business key).Opens d env state
      (Op.opens env (.findByKey business key : Op W)) := by
  apply Action.opens_lift_bind
  intro m _
  apply Action.opens_lift_bind
  intro pk _
  apply Action.opens_lift_bind
  intro statements _
  apply Action.opens_lift_bind
  intro b _
  exact fetchOne_begins d env state b

theorem loadForUpdate_opens (business : String) (key : Value) (prop : String) :
    (loadForUpdate d env business key prop).Opens d env state
      (Op.opens env (.loadForUpdate business key prop : Op W)) := by
  apply Action.opens_lift_bind
  intro m _
  cases m.column? prop with
  | none => rfl
  | some column =>
    show Action.Opens d env (pure column >>= _) state _
    rw [pure_bind]
    apply Action.opens_lift_bind
    intro t _
    apply Action.opens_lift_bind
    intro b _
    exact Action.begins_bind (fetchCell_begins d env state _)
      fun _ => Action.grows_of_still fun _ => rfl

section
variable [Bean β]

theorem current_opens (business : String) (bean : β) (lock : LockMode) :
    (current d env business bean lock).Opens d env state
      (Op.opens env (.refresh business bean lock : Op W)) := by
  apply Action.opens_lift_bind
  intro m _
  apply Action.opens_lift_bind
  intro pk _
  apply Action.opens_lift_bind
  intro statements _
  apply Action.opens_lift_bind
  intro b _
  exact fetchOne_begins d env state _

theorem inserted_opens (business : String) (bean : β) :
    (inserted d env business bean).Opens d env state
      (Op.opens env (.insert business bean : Op W)) := by
  apply Action.opens_lift_bind
  intro m _
  apply Action.opens_lift_bind
  intro pk _
  apply Action.opens_lift_bind
  intro statements _
  dsimp only
  cases (keyOf bean pk.prop).isNull with
  | false =>
    apply Action.opens_lift_bind
    intro b _
    exact Action.begins_bind (updateRows_begins d env state b)
      fun _ => Action.grows_of_still fun _ => rfl
  | true =>
    apply Action.opens_lift_bind
    intro b _
    refine statement_begins state (fun g s => ?_) b none
    apply Action.begins_bind (update_begins d env state g s)
    intro _
    cases m.flavor.insertedIdQuery? with
    | none => exact Action.grows_of_still fun _ => rfl
    | some sql =>
      apply Action.grows_bind (query_grows d env g _)
      intro rows
      apply Action.grows_of_still
      intro mid
      exact Action.run_lift_pure_still _ _ mid

theorem updated_opens (business : String) (bean : β) :
    (updated d env business bean).Opens d env state
      (Op.opens env (.updateBean business bean : Op W)) := by
  apply Action.opens_lift_bind
  intro m _
  apply Action.opens_lift_bind
  intro statements _
  cases statements.update? with
  | none => rfl
  | some t =>
    apply Action.opens_lift_bind
    intro b _
    exact Action.begins_bind (updateRows_begins d env state b)
      fun _ => Action.grows_of_still fun _ => rfl

end

namespace Op

def fault? : Op W → Option Fault
  | list s => faultOf ((Session.list d env s).run state).1
  | listAll b => faultOf ((Session.listAll d env b).run state).1
  | listPage b start size => faultOf ((Session.listPage d env b start size).run state).1
  | listById id params start size =>
    faultOf ((Session.listById d env id params start size).run state).1
  | count s => faultOf ((Session.count d env s).run state).1
  | page s => faultOf ((Session.page d env s).run state).1
  | find b => faultOf ((Session.find d env b).run state).1
  | findBySearch s => faultOf ((Session.findBySearch d env s).run state).1
  | findByKey business key => faultOf ((Session.findByKey d env business key).run state).1
  | findCell b => faultOf ((Session.findCell d env b).run state).1
  | refresh business bean lock => faultOf (Session.refresh d env business bean lock state).1.result
  | insert business bean => faultOf (Session.insert d env business bean state).1.result
  | updateBean business bean =>
    (Session.updateBean d env business bean state).1.bind (faultOf ·.result)
  | updateProps business bean props =>
    faultOf ((Session.updateProps d env business bean props).run state).1
  | delete business bean => faultOf ((Session.delete d env business bean).run state).1
  | deleteBySearch s => faultOf ((Session.deleteBySearch d env s).run state).1
  | executeUpdate b => faultOf ((Session.executeUpdate d env b).run state).1
  | executeUpdateById id params =>
    faultOf ((Session.executeUpdateById d env id params).run state).1
  | loadForUpdate business key prop =>
    faultOf ((Session.loadForUpdate d env business key prop).run state).1
  | setCondition condition => faultOf ((Session.setCondition condition).run state).1
  | setIsolation level => faultOf ((Session.setIsolation d level).run state).1
  | resetTo point => faultOf ((Session.resetTo d point).run state).1
  | resetLast => faultOf ((Session.resetLast d).run state).1
  | commit => faultOf ((Session.commit d).run state).1
  | rollback => faultOf ((Session.rollback d).run state).1
  | close => (state.1.connections.close d state.2).1.1.head?.map .execution
  | elsewhere .. => none

structure Does (op : Op W) (x : Action W α) : Prop where
  outcome : step d env state op = (x.run state).2
  ends : ∀ e, (x.run state).1 = .error e → op.fault? d env state = some e

end Op

variable {d env state}

theorem does_of_run {op : Op W} {x : Action W α} (hstep : step d env state op = (x.run state).2)
    (hfault : op.fault? d env state = faultOf (x.run state).1) : op.Does d env state x where
  outcome := hstep
  ends e h := by
    rw [hfault, h]
    rfl

theorem does_of_thenWrite {γ δ : Type} {op : Op W} {act : Action W γ} {failed : Fault → δ}
    {write : γ → δ} (fault? : δ → Option Fault) (hfailed : ∀ e, fault? (failed e) = some e)
    (hstep : step d env state op = (thenWrite act failed write state).2)
    (hfault : op.fault? d env state = fault? (thenWrite act failed write state).1) :
    op.Does d env state act where
  outcome := hstep.trans (thenWrite_state act failed write state)
  ends e h := by
    rw [hfault, thenWrite_eq, h]
    exact hfailed e

variable (d env state) in
/-- Every operation that asks is an action that opens with what the operation opens with. -/
theorem exists_action (op : Op W) (hasks : op.asks = true) :
    ∃ (α : Type) (x : Action W α), op.Does d env state x ∧ x.Opens d env state (op.opens env) := by
  cases op with
  | list s =>
    exact ⟨_, _, does_of_run rfl rfl,
      search_opens d env state s [] fun b => fetchRecords_begins d env state b _⟩
  | listAll b => exact ⟨_, _, does_of_run rfl rfl, fetchRecords_begins d env state b none⟩
  | listPage b start size =>
    exact ⟨_, _, does_of_run rfl rfl, fetchRecords_begins d env state b _⟩
  | listById id params start size =>
    exact ⟨_, _, does_of_run rfl rfl,
      name_opens d env state id params fun b => fetchRecords_begins d env state b _⟩
  | count s =>
    exact ⟨_, _, does_of_run rfl rfl, search_opens d env state s 0 fun b =>
      Action.begins_bind (fetchRows_begins d env state b none)
        fun _ => Action.grows_of_still fun _ => rfl⟩
  | find b => exact ⟨_, _, does_of_run rfl rfl, fetchOne_begins d env state b⟩
  | findBySearch s =>
    exact ⟨_, _, does_of_run rfl rfl,
      search_opens d env state s none fun b => fetchOne_begins d env state b⟩
  | findByKey business key =>
    exact ⟨_, _, does_of_run rfl rfl, findByKey_opens d env state business key⟩
  | findCell b => exact ⟨_, _, does_of_run rfl rfl, fetchCell_begins d env state b⟩
  | refresh business bean lock =>
    exact ⟨_, _, does_of_thenWrite (faultOf ·.result) (fun _ => rfl) rfl rfl,
      current_opens d env state business bean lock⟩
  | insert business bean =>
    exact ⟨_, _, does_of_thenWrite (faultOf ·.result) (fun _ => rfl) rfl rfl,
      inserted_opens d env state business bean⟩
  | updateBean business bean =>
    exact ⟨_, _, does_of_thenWrite (·.bind (faultOf ·.result)) (fun _ => rfl) rfl rfl,
      updated_opens d env state business bean⟩
  | updateProps business bean props =>
    exact ⟨_, _, does_of_run rfl rfl, Action.opens_lift_bind fun t _ =>
      Action.opens_lift_bind fun b _ => updateRows_begins d env state b⟩
  | delete business bean =>
    exact ⟨_, _, does_of_run rfl rfl, Action.opens_lift_bind fun t _ =>
      Action.opens_lift_bind fun b _ => updateRows_begins d env state b⟩
  | deleteBySearch s =>
    exact ⟨_, _, does_of_run rfl rfl,
      search_opens d env state s 0 fun b => updateRows_begins d env state b⟩
  | executeUpdate b => exact ⟨_, _, does_of_run rfl rfl, updateRows_begins d env state b⟩
  | executeUpdateById id params =>
    exact ⟨_, _, does_of_run rfl rfl,
      name_opens d env state id params fun b => updateRows_begins d env state b⟩
  | loadForUpdate business key prop =>
    exact ⟨_, _, does_of_run rfl rfl, loadForUpdate_opens d env state business key prop⟩
  | _ => cases hasks

def Spares (w : Written β α) (bean : β) : Prop := ∀ e, w.result = .error e → w.bean = bean

theorem setAll_record (record : Record) (values : List (String × Value)) :
    (setAll record values).result = .ok () := by
  induction values generalizing record with
  | nil => rfl
  | cons first rest ih => exact ih (record.insert first.1 first.2)

theorem thenWrite_spares {γ : Type} (record : Record) (act : Action W γ)
    {write : γ → Written Record α} (hwrite : ∀ c, faultOf (write c).result = none) :
    Spares (thenWrite act (unwritten record) write state).1 record := by
  intro e he
  rw [thenWrite_eq] at he ⊢
  cases hact : (act.run state).1 with
  | error e' => rfl
  | ok c =>
    rw [hact] at he
    have hnone := hwrite c
    rw [he] at hnone
    cases hnone

theorem writing_record (record : Record) (values : List (String × Value)) (a : α) :
    faultOf (writing record values a).result = none := by
  rw [writing, setAll_record]
  rfl

theorem updateBean_spares {business : String} {record : Record} {w : Written Record Nat}
    (h : (updateBean d env business record state).1 = some w) : Spares w record := by
  intro e he
  rw [updateBean, thenWrite_eq] at h
  cases hact : ((updated d env business record).run state).1 with
  | error e' =>
    rw [hact] at h
    cases h
    rfl
  | ok changed =>
    rw [hact] at h
    obtain ⟨values, -, rfl⟩ := Option.map_eq_some_iff.mp h
    have hnone := writing_record record values changed.2
    rw [he] at hnone
    cases hnone

variable (d env state) in
/-- The operation runs the statement of the group, and what it does besides comes behind that. If
it cannot be run, the operation ends there. -/
def Op.Runs (op : Op W) (g : PhysicalGroup) (s : Statement) : Prop :=
  ∃ (γ : Type) (call : Nat → Effect W (Except DriverFault γ)), CallsOnce call s ∧
    let ran := (execute d env g s call).run state
    ran.2.2.history <+: (step d env state op).2.history ∧
      ∀ e, ran.1 = .error e → op.fault? d env state = some e ∧ step d env state op = ran.2

theorem runs_of_begins {op : Op W} {x : Action W α} (hdoes : op.Does d env state x)
    {g : PhysicalGroup} {s : Statement} (h : x.Begins d env state (.ok (g, s))) :
    op.Runs d env state g s := by
  obtain ⟨γ, call, rest, hcall, hrest, hrun⟩ := h
  refine ⟨γ, call, hcall, ?_⟩
  have hends := hdoes.ends
  dsimp only
  rw [hdoes.outcome]
  rw [hrun, run_bind] at hends ⊢
  generalize (execute d env g s call).run state = ran at hends ⊢
  obtain ⟨r, mid⟩ := ran
  cases r with
  | error e =>
    refine ⟨List.prefix_refl _, fun e' he => ?_⟩
    cases he
    exact ⟨hends e rfl, rfl⟩
  | ok c => exact ⟨hrest c mid, nofun⟩

/-- An operation whose first statement cannot be built ends with that fault: nothing was called,
and the session holds what it held, at the levels it had. A statement that is built is run before
all else. And a record that is refreshed, inserted or updated is the same after any fault. -/
theorem failure_keeps_state (d : Driver W) (env : Environment) (state : Session × Site W) :
    (∀ op : Op W, op.asks = true →
      (∀ e, op.first env state.1.condition? = .error e →
        op.fault? d env state = some e ∧ step d env state op = state) ∧
      (op.first env state.1.condition? = .ok none → step d env state op = state) ∧
      ∀ g s, op.first env state.1.condition? = .ok (some (g, s)) → op.Runs d env state g s) ∧
    ∀ (business : String) (record : Record),
      (∀ lock, Spares (refresh d env business record lock state).1 record) ∧
      Spares (insert d env business record state).1 record ∧
      ∀ w ∈ (updateBean d env business record state).1, Spares w record := by
  refine ⟨fun op hasks => ?_, fun business record => ⟨fun lock => ?_, ?_, fun w hw => ?_⟩⟩
  · obtain ⟨α, x, hdoes, hopens⟩ := exists_action d env state op hasks
    have hstill {r : Except Fault α} (h : x.run state = (r, state)) :
        step d env state op = state := by rw [hdoes.outcome, h]
    have hfault {e : Fault} (h : x.run state = (.error e, state)) :
        op.fault? d env state = some e ∧ step d env state op = state :=
      ⟨hdoes.ends e (by rw [h]), hstill h⟩
    rw [Op.first]
    rcases hfirst : op.opens env with e | - | ⟨b, window⟩ <;> rw [hfirst] at hopens
    · exact ⟨fun e' h => by cases h; exact hfault hopens, nofun, nofun⟩
    · obtain ⟨a, ha⟩ := hopens
      exact ⟨nofun, fun _ => hstill ha, nofun⟩
    · change x.Begins d env state (statement env state.1.condition? b window) at hopens
      dsimp only
      cases hs : statement env state.1.condition? b window with
      | error e =>
        rw [hs] at hopens
        exact ⟨fun e' h => by cases h; exact hfault hopens, nofun, nofun⟩
      | ok first =>
        rw [hs] at hopens
        exact ⟨nofun, nofun, fun g s h => by cases h; exact runs_of_begins hdoes hopens⟩
  · refine thenWrite_spares record _ fun found => ?_
    rw [setAll_record]
    rfl
  · exact thenWrite_spares record _ fun _ => writing_record record _ _
  · exact updateBean_spares hw

end Session

end

/-- A comment cannot be inserted without a condition for its shard, and the connection that is held
keeps its level. With a condition the update is run and fails, and the record is left as it is. -/
theorem Session.failure_keeps_state_comment :
    let registry := Registry.ofMappings [Magazine.comment .mySQL]
    let catalog := (Catalog.ofRegistry registry).toOption.getD { registry }
    let groups : Groups := Dict.ofList [("comment1", .physical ⟨"comment1", "c1", none⟩),
      ("comments", .sharded "comments" (.modulo "userId" ["comment1"]))]
    let env : Environment := ⟨catalog, groups, {}⟩
    let connections : Connections :=
      { access := .write false, held := [⟨"comment1", 0, some .readCommitted⟩], stack := [none],
        current := some .serializable }
    let site : Site Recorder :=
      { world := { statementFault := some ⟨"update", { message := "deadlock" }⟩ } }
    let record : Record := Dict.ofList [("id", .text "7"), ("userId", .int 2)]
    let e := Fault.noShardMatch "comments" "\x7b\x7d"
    let condition := some (Dict.ofList [("userId", .int 2)])
    let failing := "update TB_COMMENT_2 set userId=?, DESCRIPTION=? where id=?"
    (Op.insert "comment" record : Op Recorder).first env none = .error e ∧
      (Op.insert "comment" record).fault? Recorder.driver env (⟨connections, none⟩, site) = some e ∧
      step Recorder.driver env (⟨connections, none⟩, site) (.insert "comment" record) =
        (⟨connections, none⟩, site) ∧
      ∃ written ∈ (updateBean Recorder.driver env "comment" record
          (⟨connections, condition⟩, site)).1,
        faultOf written.result = some (.execution { message := "deadlock", sql := failing }) ∧
          written.bean = record := by
  intro registry catalog groups env connections site record e condition failing
  have hfirst : (Op.insert "comment" record : Op Recorder).first env none = .error e := by
    decide +kernel
  obtain ⟨hasks, -⟩ := failure_keeps_state Recorder.driver env (⟨connections, none⟩, site)
  obtain ⟨hfault, hstep⟩ := (hasks (.insert "comment" record) rfl).1 e hfirst
  obtain ⟨-, hrecords⟩ := failure_keeps_state Recorder.driver env (⟨connections, condition⟩, site)
  obtain ⟨-, -, hspares⟩ := hrecords "comment" record
  have hended : ((updateBean Recorder.driver env "comment" record
      (⟨connections, condition⟩, site)).1.map (·.result)) =
        some (.error (.execution { message := "deadlock", sql := failing })) := by
    decide +kernel
  obtain ⟨written, hwritten, hfailed⟩ := Option.map_eq_some_iff.mp hended
  refine ⟨hfirst, hfault, hstep, written, hwritten, ?_, hspares written hwritten _ hfailed⟩
  rw [hfailed]
  rfl

end DataAccess
