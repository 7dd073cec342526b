import DataAccess.Magazine
import DataAccess.Proofs.Flavor.Locks
import DataAccess.Proofs.Session.Building
import DataAccess.Proofs.Session.Condition
import DataAccess.Proofs.Template.Binding
import DataAccess.Proofs.Template.Parsing
import DataAccess.Recorder

/-!
# Locks of deletes and counts

A search takes its lock along whatever it is lowered to, and the clause stands behind every text.
So deleting or counting the records of a locked search runs the statement of the same search
without a lock, with the clause at its end.
-/

set_option autoImplicit false

namespace DataAccess

def Statement.ending (s : Statement) (clause : String) : Statement :=
  { s with sql := s.sql ++ clause }

@[simp] theorem Statement.ending_empty (s : Statement) : s.ending "" = s := by
  rw [ending, String.append_empty]

theorem Statement.endsLocked_ending (s : Statement) {clause : String}
    (h : clause ∈ Flavor.lockClauses) : Flavor.EndsLocked (s.ending clause).sql := by
  refine ⟨clause, h, ?_⟩
  rw [ending, String.toList_append]
  exact Flavor.suffix_asciiLower_append h s.sql.toList

def Registry.lockClause (registry : Registry) (business : String) (mode : LockMode) : String :=
  ((registry.get? business).map fun m => m.flavor.lockClause mode).getD ""

theorem Registry.lockClause_of_mapping {registry : Registry} {business : String} {m : Mapping}
    (h : registry.mapping business = .ok m) (mode : LockMode) :
    registry.lockClause business mode = m.flavor.lockClause mode := by
  rw [lockClause, get?_of_mapping h]
  rfl

theorem Flavor.lockClause_mem (f : Flavor) (mode : LockMode) :
    if mode = .none ∨ f = .sqLite then f.lockClause mode = ""
    else f.lockClause mode ∈ lockClauses := by
  cases f <;> cases mode <;> decide

namespace Session

section
variable {W α : Type} (d : Driver W) (env : Environment)

def lowered (default : Option TableCondition) (s : Search) (lowering : Lowering) :
    Except Fault (PhysicalGroup × Statement) := do
  let b ← lower env s lowering
  statement env default b none

variable (default : Option TableCondition) (s : Search) (lowering : Lowering)

theorem statement_lock (b : BoundTemplate) (mode : LockMode) :
    statement env default { b with lock := mode } none =
      (statement env default { b with lock := .none } none).map
        (Prod.map id (·.ending (b.mapping.flavor.lockClause mode))) := by
  have hstatement (mode : LockMode) : statement env default { b with lock := mode } none = (do
      let g ← env.groups.resolve b.mapping.group (b.condition default)
      let prepared ← b.prepare default
      return (g, ⟨b.mapping.flavor.locked mode prepared.sql, prepared.params,
        env.settings.timeoutSeconds⟩)) := rfl
  rw [hstatement mode, hstatement .none]
  cases env.groups.resolve b.mapping.group (b.condition default) with
  | error e => rfl
  | ok g =>
    cases b.prepare default with
    | error e => rfl
    | ok prepared =>
      have hnone : b.mapping.flavor.locked .none prepared.sql = prepared.sql := String.append_empty
      show Except.ok (g, Statement.mk _ _ _) = .ok (g, (Statement.mk _ _ _).ending _)
      rw [hnone]
      rfl

theorem lowered_lock (mode : LockMode) :
    lowered env default { s with lock := mode } lowering =
      (lowered env default { s with lock := .none } lowering).map
        (Prod.map id (·.ending (env.registry.lockClause s.business mode))) := by
  have hlower (mode : LockMode) : lowered env default { s with lock := mode } lowering = (do
      let m ← env.registry.mapping s.business
      let b ← s.bound env.registry m lowering
      statement env default { b with lock := mode, condition? := s.tableCondition? } none) := by
    rw [lowered, lower, bind_assoc]
    congr 1
    funext m
    exact bind_assoc _ _ _
  rw [hlower mode, hlower .none]
  cases hm : env.registry.mapping s.business with
  | error e => rfl
  | ok m =>
    show (s.bound env.registry m lowering >>= _) = (s.bound env.registry m lowering >>= _).map _
    cases hb : s.bound env.registry m lowering with
    | error e => rfl
    | ok b =>
      obtain ⟨text, params, template, -, hcompile, hbind⟩ := Search.bound_ok hb
      have hmapping : b.mapping = m := by
        rw [BoundTemplate.mapping, BoundTemplate.bindAll_fields hbind]
        exact (Template.compile_eq_ok hcompile).1
      rw [Registry.lockClause_of_mapping hm, ← hmapping]
      exact statement_lock env default { b with condition? := s.tableCondition? } mode

/-- The action runs the statement first and no other, or ends with the fault in its place. -/
def Sends (x : Action W α) (state : Session × Site W)
    (first : Except Fault (PhysicalGroup × Statement)) : Prop :=
  x.Begins d env state first ∧ x.RunsOne state fun st => ∃ g, first = .ok (g, st)

theorem sends_lowered {s : Search} {lowering : Lowering} {state : Session × Site W} {a : α}
    {f : BoundTemplate → Action W α} (hs : s.isEmptyQuery = false)
    (hbegins : ∀ b, (f b).Begins d env state (statement env state.1.condition? b none))
    (hruns : ∀ b, (f b).RunsOne state (IsStatement env state.1.condition? b none)) :
    Sends d env (if s.isEmptyQuery then pure a else liftM (lower env s lowering) >>= f) state
      (lowered env state.1.condition? s lowering) := by
  rw [if_neg (hs ▸ Bool.false_ne_true)]
  constructor
  · rw [lowered]
    cases hlower : lower env s lowering with
    | error e => rfl
    | ok b => exact hbegins b
  · apply Action.runsOne_lift_bind
    intro b hb
    refine Action.runsOne_imp (hruns b) fun st ⟨g, hst⟩ => ⟨g, ?_⟩
    rw [lowered, hb]
    exact hst

theorem deleteBySearch_sends {s : Search} (hs : s.isEmptyQuery = false)
    (state : Session × Site W) :
    Sends d env (deleteBySearch d env s) state (lowered env state.1.condition? s .delete) :=
  sends_lowered d env hs (updateRows_begins d env state) (updateRows_runsOne d env · state)

theorem count_sends {s : Search} (hs : s.isEmptyQuery = false) (state : Session × Site W) :
    Sends d env (count d env s) state (lowered env state.1.condition? s .count) :=
  sends_lowered d env hs
    (fun b => Action.begins_bind (fetchRows_begins d env state b none)
      fun _ => Action.grows_of_still fun _ => rfl)
    (fun b => Action.runsOne_bind (fetchRows_runsOne d env b none state) fun _ _ => rfl)

end

/-- An empty query makes no call, whatever its lock. Any other delete or count runs the statement
that it runs without a lock, for the same group, with the clause of the lock at its end; so the
text is the same without a lock and in SQLite, and elsewhere it ends with a clause. -/
theorem lock_kept {W : Type} (d : Driver W) (env : Environment) (s : Search) (mode : LockMode)
    (state : Session × Site W) :
    let locked := { s with lock := mode }
    let clause := env.registry.lockClause s.business mode
    let first (lowering : Lowering) :=
      (lowered env state.1.condition? { s with lock := .none } lowering).map
        (Prod.map id (·.ending clause))
    (s.isEmptyQuery = true → (deleteBySearch d env locked).run state = (.ok 0, state) ∧
      (count d env locked).run state = (.ok 0, state)) ∧
    (s.isEmptyQuery = false → Sends d env (deleteBySearch d env locked) state (first .delete) ∧
      Sends d env (count d env locked) state (first .count)) ∧
    ∀ m, env.registry.mapping s.business = .ok m → ∀ st : Statement,
      if mode = .none ∨ m.flavor = .sqLite then st.ending clause = st
      else Flavor.EndsLocked (st.ending clause).sql := by
  intro locked clause first
  refine ⟨fun hs => ?_, fun hs => ?_, fun m hm st => ?_⟩
  · have hdelete : deleteBySearch d env locked = pure 0 := if_pos hs
    have hcount : count d env locked = pure 0 := if_pos hs
    rw [hdelete, hcount]
    exact ⟨rfl, rfl⟩
  · have hlocked : locked.isEmptyQuery = false := hs
    have hfirst (lowering : Lowering) :
        lowered env state.1.condition? locked lowering = first lowering :=
      lowered_lock env state.1.condition? s lowering mode
    rw [← hfirst .delete, ← hfirst .count]
    exact ⟨deleteBySearch_sends d env hlocked state, count_sends d env hlocked state⟩
  · have hclause := m.flavor.lockClause_mem mode
    rw [← Registry.lockClause_of_mapping hm] at hclause
    split at hclause
    · next hnone =>
      rw [if_pos hnone]
      exact (congrArg st.ending hclause).trans st.ending_empty
    · next hsome =>
      rw [if_neg hsome]
      exact st.endsLocked_ending hclause

def articles : Environment :=
  ⟨{ registry := Dict.ofList [("article", Magazine.article .mySQL)] },
    Dict.ofList [("default", .physical ⟨"default", "master", none⟩)], {}⟩

def oneArticle (mode : LockMode) : Search :=
  { business := "article", condition? := some (.compare "id" .equal (.int 1)), lock := mode }

theorem oneArticle_lowered (mode : LockMode) :
    lower articles (oneArticle mode) .delete = (do
      let t ← Template.compile articles.registry (Magazine.article .mySQL)
        "delete from @@article where id = :id_0"
      let b ← t.bindAll [("id_0", .int 1)]
      return { b with lock := mode, condition? := none }) := by
  have htext : ((oneArticle mode).lower (Magazine.article .mySQL) .delete).run .empty =
      (.ok ("delete from @@article" ++ (if Text.isBlankText "id = :id_0" then "" else
        " where " ++ Text.trimmed "id = :id_0") ++ ""), ⟨[⟨"id_0", "id", .int 1⟩]⟩) := rfl
  have hbound : (oneArticle mode).bound articles.registry (Magazine.article .mySQL) .delete = (do
      let t ← Template.compile articles.registry (Magazine.article .mySQL)
        "delete from @@article where id = :id_0"
      t.bindAll [("id_0", .int 1)]) := by
    rw [Search.bound, htext, Text.isBlankText_eq_allBlank, Text.trimmed_eq]
    rfl
  have hlower : lower articles (oneArticle mode) .delete = (do
      let b ← (oneArticle mode).bound articles.registry (Magazine.article .mySQL) .delete
      return { b with lock := mode, condition? := none }) := rfl
  rw [hlower, hbound, bind_assoc]

def deleteArticle (mode : LockMode) : Except Fault Nat × Session × Site Recorder :=
  (deleteBySearch Recorder.driver articles (oneArticle mode)).run
    (⟨.new (.write true), none⟩, { world := {} })

theorem deleteArticle_eq (mode : LockMode) :
    deleteArticle mode = ((liftM (lower articles (oneArticle mode) .delete) :
      Action Recorder BoundTemplate) >>= updateRows Recorder.driver articles).run
        (⟨.new (.write true), none⟩, { world := {} }) := rfl

def deletingArticle : Statement := ⟨"delete from TB_ARTICLE where id = ?", [.int 1], none⟩

theorem lock_kept_article :
    let state : Session × Site Recorder := (⟨.new (.write true), none⟩, { world := {} })
    let delete := deleteBySearch Recorder.driver articles (oneArticle .upgrade)
    Sends Recorder.driver articles delete state
        (.ok (⟨"default", "master", none⟩, deletingArticle.ending " for update")) ∧
      Flavor.EndsLocked (deletingArticle.ending " for update").sql := by
  intro state delete
  have hlowered : lowered articles none (oneArticle .none) .delete =
      .ok (⟨"default", "master", none⟩, deletingArticle) := by
    rw [lowered, oneArticle_lowered]
    decide +kernel
  obtain ⟨-, hsends, hends⟩ :=
    lock_kept Recorder.driver articles (oneArticle .upgrade) .upgrade state
  obtain ⟨hdelete, -⟩ := hsends rfl
  change Sends _ _ delete state
    ((lowered articles none (oneArticle .none) .delete).map _) at hdelete
  rw [hlowered] at hdelete
  exact ⟨hdelete, hends (Magazine.article .mySQL) (by decide +kernel) deletingArticle⟩

/-- The statement that deletes the article depends on the lock, and may end with a clause. -/
theorem delete_locked :
    (Deeds.of (deleteArticle .none).2.2.history).executed = [deletingArticle] ∧
      (Deeds.of (deleteArticle .upgrade).2.2.history).executed =
        [deletingArticle.ending " for update"] ∧
      deletingArticle.sql ≠ (deletingArticle.ending " for update").sql ∧
      Flavor.EndsLocked (deletingArticle.ending " for update").sql := by
  rw [deleteArticle_eq, deleteArticle_eq, oneArticle_lowered, oneArticle_lowered]
  decide +kernel

end Session

end DataAccess
