import DataAccess.Proofs.Catalog.Records
import DataAccess.Proofs.Session.Runs
import DataAccess.Recorder

/-!
# Versions of beans and rows

An update by record changes the row that has the key and the version of the bean. What the row
holds behind it is told by the statement; what the bean holds is told by the session, which does
not look at the statement. The two keep step where the statement counts the version up.
-/

set_option autoImplicit false

namespace DataAccess

open Text

inductive Change where
  | value (v : Value)
  | counted
  deriving DecidableEq

def Change.value? : Change → Option Value
  | value v => some v
  | counted => none

/-- Changes of the rows that have certain values, by the columns' names in SQL. -/
structure RowUpdate where
  changes : List (String × Change)
  matched : List (String × Value)

namespace RowUpdate

def changeTexts (flavor : Flavor) : Nat → List (String × Change) → List String
  | _, [] => []
  | used, (column, .counted) :: rest =>
    (column ++ " = " ++ column ++ " + 1") :: changeTexts flavor used rest
  | used, (column, .value _) :: rest =>
    (column ++ "=" ++ flavor.placeholder (used + 1)) :: changeTexts flavor (used + 1) rest

def matchTexts (flavor : Flavor) : Nat → List (String × Value) → List String
  | _, [] => []
  | used, (column, _) :: rest =>
    (column ++ "=" ++ flavor.placeholder (used + 1)) :: matchTexts flavor (used + 1) rest

def newValues (u : RowUpdate) : List Value := u.changes.filterMap (·.2.value?)

def sql (u : RowUpdate) (flavor : Flavor) (table : String) : String :=
  "update " ++ table ++ " set " ++ joined ", " (changeTexts flavor 0 u.changes) ++ " where " ++
    joined " and " (matchTexts flavor u.newValues.length u.matched)

def params (u : RowUpdate) : List Value := u.newValues ++ u.matched.map Prod.snd

def Matches (u : RowUpdate) (row : String → Value) : Prop :=
  ∀ check ∈ u.matched, row check.1 = check.2

def apply (u : RowUpdate) (row : String → Value) (column : String) : Value :=
  match u.changes.find? (·.1 = column), row column with
  | some (_, .value v), _ => v
  | some (_, .counted), .int n => .int (n + 1)
  | _, v => v

/-- The columns take what is stored for them and the version counts up; the row is found by key
and version. -/
def ofColumns (m : Mapping) (key : Column) (columns : List Column) (stored : Column → Value) :
    RowUpdate where
  changes := columns.map fun c =>
    (c.sqlName, if m.table.version? = some c then .counted else .value (stored c))
  matched := (key :: m.table.version?.toList).map fun c => (c.sqlName, stored c)

section
variable {m : Mapping} {key : Column} {columns : List Column} {stored : Column → Value}

theorem ofColumns_newValues : (ofColumns m key columns stored).newValues =
    (RecordStatements.assigned m columns).map stored := by
  unfold newValues ofColumns RecordStatements.assigned
  dsimp only
  induction columns with
  | nil => rfl
  | cons c columns ih =>
    rw [List.map_cons, List.filterMap_cons, List.filter_cons, ih]
    by_cases h : m.table.version? = some c <;> simp [h, Change.value?]

theorem changeTexts_ofColumns (used : Nat) :
    changeTexts m.flavor used (ofColumns m key columns stored).changes =
      RecordStatements.assignments m used columns := by
  unfold ofColumns
  dsimp only
  induction columns generalizing used with
  | nil => rfl
  | cons c columns ih =>
    rw [List.map_cons, RecordStatements.assignments]
    by_cases h : m.table.version? = some c
    · rw [if_pos h, if_pos h, changeTexts, ih]
    · rw [if_neg h, if_neg h, changeTexts, ih]

theorem ofColumns_sql (table : String) : (ofColumns m key columns stored).sql m.flavor table =
    RecordStatements.updateSql m table key columns := by
  rw [sql, changeTexts_ofColumns, ofColumns_newValues, List.length_map]
  unfold RecordStatements.updateSql RecordStatements.keyCheck RecordStatements.versionCheck
    ofColumns
  cases m.table.version? with
  | none => simp [matchTexts, joined, String.append_assoc]
  | some version => simp [matchTexts, joined, String.append_assoc]

theorem ofColumns_params : (ofColumns m key columns stored).params =
    (RecordStatements.assigned m columns ++ [key] ++ m.table.version?.toList).map stored := by
  rw [params, ofColumns_newValues, ofColumns]
  simp

theorem ofColumns_version {version : Column} (hversion : m.table.version? = some version)
    (hown : ∀ c ∈ columns, c.sqlName = version.sqlName → c = version) {v : Int64}
    (hv : stored version = .int v) {row : String → Value}
    (hrow : (ofColumns m key columns stored).Matches row) :
    row version.sqlName = .int v ∧
      (ofColumns m key columns stored).apply row version.sqlName =
        .int (if version ∈ columns then v + 1 else v) := by
  have hmatched : (version.sqlName, stored version) ∈
      (ofColumns m key columns stored).matched := by
    simp [ofColumns, hversion]
  have hbefore : row version.sqlName = .int v := hv ▸ hrow _ hmatched
  refine ⟨hbefore, ?_⟩
  rw [apply, hbefore]
  cases hfind : (ofColumns m key columns stored).changes.find? (·.1 = version.sqlName) with
  | none =>
    have hnot : version ∉ columns := by
      intro hmem
      have hchange := List.find?_eq_none.mp hfind _ (List.mem_map_of_mem hmem)
      simp at hchange
    rw [if_neg hnot]
  | some change =>
    have hname : change.1 = version.sqlName := by simpa using List.find?_some hfind
    obtain ⟨c, hc, rfl⟩ := List.mem_map.mp (List.mem_of_find?_eq_some hfind)
    obtain rfl := hown c hc hname
    rw [if_pos hc, if_pos hversion]

end

end RowUpdate

theorem Text.toInt_of_signed? {n : Int} {v : Int64} (h : signed? n = some v) : v.toInt = n := by
  rw [signed?] at h
  split at h
  · next hrange =>
    cases h
    exact Int64.toInt_ofInt_of_le hrange.1 hrange.2
  · cases h

theorem succ_of_toInt {v next : Int64} (h : next.toInt = v.toInt + 1) : v + 1 = next := by
  have hone : (1 : Int64).toInt = 1 := rfl
  have hlow := Int64.le_toInt next
  have hhigh := Int64.toInt_lt next
  apply Int64.toInt_inj.mp
  rw [Int64.toInt_add, hone, ← h]
  exact Int.bmod_eq_of_le (by omega) (by omega)

namespace Session

section
variable {W : Type} {d : Driver W} {env : Environment}

theorem updateRows_ok {b : BoundTemplate} {state after : Session × Site W} {rows : Nat}
    (h : (updateRows d env b).run state = (.ok rows, after)) :
    ∃ g s, statement env state.1.condition? b none = .ok (g, s) ∧
      (update d env g s).run state = (.ok rows, after) := by
  have hcurrent : (updateRows d env b).run state =
      ((liftM (statement env state.1.condition? b none) : Action W _) >>= fun p =>
        update d env p.1 p.2).run state := rfl
  rw [hcurrent] at h
  obtain ⟨⟨g, s⟩, hs, hupdate⟩ := run_lift_bind_ok.mp h
  exact ⟨g, s, hs, hupdate⟩

variable {β : Type} [Bean β] {business : String} {bean : β}

theorem updated_ok {state after : Session × Site W} {m : Mapping} {rows : Nat}
    (h : (updated d env business bean).run state = (.ok (m, rows), after)) :
    env.registry.mapping business = .ok m ∧
      ∃ statements t b, env.catalog.recordStatements business = .ok statements ∧
        statements.update? = some t ∧ t.bindBean bean = .ok b ∧
        (updateRows d env b).run state = (.ok rows, after) := by
  obtain ⟨m', hm, h⟩ := run_lift_bind_ok.mp h
  obtain ⟨statements, hs, h⟩ := run_lift_bind_ok.mp h
  cases ht : statements.update? with
  | none =>
    rw [ht] at h
    cases h
  | some t =>
    rw [ht] at h
    obtain ⟨b, hb, h⟩ := run_lift_bind_ok.mp h
    obtain ⟨rows', mid, hrows, h⟩ := run_bind_ok.mp h
    cases h
    exact ⟨hm, statements, t, b, hs, ht, hb, hrows⟩

theorem updateBean_ok {state : Session × Site W} {written : Written β Nat}
    (h : (updateBean d env business bean state).1 = some written)
    (hone : written.result = .ok 1) :
    ∃ m after values, (updated d env business bean).run state = (.ok (m, 1), after) ∧
      (updateBean d env business bean state).2 = after ∧ nextVersion m bean = some values ∧
      (setAll bean values).result = .ok () ∧ written.bean = (setAll bean values).bean := by
  rw [updateBean, thenWrite_eq] at h ⊢
  generalize hrun : (updated d env business bean).run state = out at h
  obtain ⟨r, after⟩ := out
  cases r with
  | error e =>
    cases h
    cases hone
  | ok changed =>
    obtain ⟨m, rows⟩ := changed
    obtain ⟨values, hvalues, rfl⟩ := Option.map_eq_some_iff.mp h
    dsimp only [writing] at hone ⊢
    cases hset : (setAll bean values).result with
    | error e =>
      rw [hset] at hone
      cases hone
    | ok _ =>
      rw [hset] at hone
      cases hone
      exact ⟨m, after, values, rfl, rfl, hvalues, hset, rfl⟩

theorem setAll_one {prop : String} {w : Value}
    (h : (setAll bean [(prop, w)]).result = .ok ()) :
    Bean.setValue bean prop w = .ok (setAll bean [(prop, w)]).bean := by
  rw [setAll] at h ⊢
  cases hset : Bean.setValue bean prop w with
  | error e =>
    rw [hset] at h
    cases h
  | ok after => rfl

theorem nextVersion_int {m : Mapping} {version : Column}
    (hversion : m.table.version? = some version) {v : Int64}
    (hv : Bean.value? bean version.prop = some (.int v)) {values : List (String × Value)}
    (h : nextVersion m bean = some values) :
    ∃ next : Int64, next.toInt = v.toInt + 1 ∧ values = [(version.prop, .int next)] := by
  rw [nextVersion, hversion] at h
  dsimp only at h
  rw [hv] at h
  obtain ⟨next, hnext, rfl⟩ := Option.map_eq_some_iff.mp h
  exact ⟨next, toInt_of_signed? hnext, rfl⟩

theorem statement_places {t : Template} {m : Mapping} {columns : List Column}
    {sql : String → String} (ht : t.Places m columns sql) {values : Dict Value}
    {stored : Column → Value} (hvalues : ∀ c ∈ columns, values.get? c.prop = some (stored c))
    {default : Option TableCondition} {g : PhysicalGroup} {s : Statement}
    (h : statement env default { template := t, values } none = .ok (g, s)) :
    ∃ table, m.table.realName default = .ok table ∧
      s = ⟨sql table, columns.map stored, env.settings.timeoutSeconds⟩ := by
  obtain ⟨g', -, hrest⟩ := bind_eq_ok.mp h
  obtain ⟨prepared, hprepared, hdone⟩ := bind_eq_ok.mp hrest
  rw [Template.prepare_places ht hvalues] at hprepared
  cases htable : m.table.realName default with
  | error e =>
    rw [htable] at hprepared
    cases hprepared
  | ok table =>
    rw [htable] at hprepared
    cases hprepared
    cases hdone
    refine ⟨table, rfl, ?_⟩
    rw [Flavor.locked, Flavor.lockClause, String.append_empty]

section
variable {ms : List Mapping} {m : Mapping}
  (hmapping : (Registry.ofMappings ms).mapping m.business = .ok m) (hm : m.Identified)
  (hdistinct : (m.table.columns.map (·.prop)).Nodup) {key : Column} (hkey : m.table.pk? = some key)
  {catalog : Catalog} {named : Dict Template}
  (hcatalog : Catalog.ofRegistry (.ofMappings ms) = .ok catalog)
  (henv : env.catalog = { catalog with named })
include hmapping hm hdistinct hkey hcatalog henv

theorem updated_generated {state after : Session × Site W} {m' : Mapping} {rows : Nat}
    (h : (updated d env m.business bean).run state = (.ok (m', rows), after)) :
    m' = m ∧ ∃ (statements : RecordStatements) (t : Template) (b : BoundTemplate),
      statements.Generated m key ∧ statements.update? = some t ∧ t.bindBean bean = .ok b ∧
        (updateRows d env b).run state = (.ok rows, after) := by
  obtain ⟨hm', statements, t, b, hstatements, ht, hb, hrows⟩ := updated_ok h
  have hregistry : env.registry = .ofMappings ms := by
    rw [Environment.registry, henv]
    exact Catalog.addRecords_registry hcatalog
  rw [hregistry, hmapping] at hm'
  obtain ⟨statements', hstatements', hgenerated⟩ :=
    Catalog.recordStatements_generated hmapping hm hdistinct hkey hcatalog
  have hsame : env.catalog.recordStatements m.business = .ok statements' := by
    rw [henv]
    exact hstatements'
  obtain rfl : statements = statements' := Except.ok.inj (hstatements.symm.trans hsame)
  exact ⟨(Except.ok.inj hm').symm, statements, t, b, hgenerated, ht, hb, hrows⟩

theorem updateBean_sent {state : Session × Site W} {written : Written β Nat}
    (h : (updateBean d env m.business bean state).1 = some written)
    (hone : written.result = .ok 1) :
    let u := RowUpdate.ofColumns m key (RecordStatements.updateColumns m key) (·.stored bean)
    (∃ values, nextVersion m bean = some values ∧ (setAll bean values).result = .ok () ∧
        written.bean = (setAll bean values).bean) ∧
      (∀ c ∈ m.table.version?, c.taken bean = .ok (c.stored bean)) ∧
      ∃ conn table, m.table.realName state.1.condition? = .ok table ∧
        (updateBean d env m.business bean state).2.2.history.getLast? = some ⟨.update conn
          ⟨u.sql m.flavor table, u.params, env.settings.timeoutSeconds⟩, true⟩ := by
  obtain ⟨m', after, stepped, hrun, hafter, hstepped, hset, hbean⟩ := updateBean_ok h hone
  obtain ⟨rfl, statements, t, b, hgenerated, ht, hb, hrows⟩ :=
    updated_generated hmapping hm hdistinct hkey hcatalog henv hrun
  have hplaces := hgenerated.update t ht
  have hupdatable : ∀ c ∈ RecordStatements.updateColumns m' key, c ∈ m'.table.columns :=
    fun _ => RecordStatements.mem_updateColumns
  have hcolumns := RecordStatements.mem_update_columns (Table.mem_of_pk? hkey) hupdatable
  have hstored := fun c hc =>
    Column.taken_stored (Template.exists_taken_places hplaces hdistinct hcolumns hb c hc)
  obtain ⟨values, hbind, hvalues⟩ :=
    Template.bindBean_places hplaces hdistinct hcolumns hstored
  obtain rfl : b = { template := t, values } := Except.ok.inj (hb.symm.trans hbind)
  obtain ⟨g, s, hs, hupdate⟩ := updateRows_ok hrows
  obtain ⟨table, htable, rfl⟩ := statement_places hplaces hvalues hs
  obtain ⟨conn, -, hlast⟩ := update_last d hupdate
  refine ⟨⟨stepped, hstepped, hset, hbean⟩, fun c hc => hstored c ?_, conn, table, htable, ?_⟩
  · exact List.mem_append_right _ (Option.mem_toList.mpr hc)
  · rw [hafter, hlast, RowUpdate.ofColumns_sql, RowUpdate.ofColumns_params]

end

end

/-- A mapping has identifiers for names, a key and a version that no other column shares its name
in SQL with. A bean holds the version as an integer that the column's type keeps, and its update
changes one row. Then the bean has the next version. The last call was a row update by key and
version; a row that it matches has the next version too if the version is updatable and not the
key, and otherwise keeps the one that the bean had. -/
theorem updateBean_version {W β : Type} [Bean β] (d : Driver W) {env : Environment}
    {ms : List Mapping} {m : Mapping}
    (hmapping : (Registry.ofMappings ms).mapping m.business = .ok m) (hm : m.Identified)
    (hdistinct : (m.table.columns.map (·.prop)).Nodup) {key : Column}
    (hkey : m.table.pk? = some key) {catalog : Catalog} {named : Dict Template}
    (hcatalog : Catalog.ofRegistry (.ofMappings ms) = .ok catalog)
    (henv : env.catalog = { catalog with named }) {version : Column}
    (hversion : m.table.version? = some version)
    (hown : ∀ c ∈ m.table.columns, c.sqlName = version.sqlName → c = version) {bean : β}
    {v : Int64} (hv : Bean.value? bean version.prop = some (.int v))
    (hint : version.type.convert (.int v) = .ok (.int v))
    (hset : ∀ (bean' : β) (w : Value), Bean.setValue bean version.prop w = .ok bean' →
      Bean.value? bean' version.prop = some w)
    {state : Session × Site W} {written : Written β Nat}
    (h : (updateBean d env m.business bean state).1 = some written)
    (hone : written.result = .ok 1) :
    let after := (updateBean d env m.business bean state).2
    ∃ next : Int64, next.toInt = v.toInt + 1 ∧
      Bean.value? written.bean version.prop = some (.int next) ∧
      ∃ (u : RowUpdate) (conn : Nat) (table : String),
        m.table.realName state.1.condition? = .ok table ∧
        after.2.history.getLast? = some ⟨.update conn
          ⟨u.sql m.flavor table, u.params, env.settings.timeoutSeconds⟩, true⟩ ∧
        ∀ row, u.Matches row → row version.sqlName = .int v ∧
          u.apply row version.sqlName =
            .int (if version.updatable ∧ version.prop ≠ key.prop then next else v) := by
  obtain ⟨⟨values, hvalues, hresult, hbean⟩, htaken, conn, table, htable, hlast⟩ :=
    updateBean_sent hmapping hm hdistinct hkey hcatalog henv h hone
  obtain ⟨next, hnext, rfl⟩ := nextVersion_int hversion hv hvalues
  have hafter := hset _ _ (setAll_one hresult)
  have hstored : version.stored bean = .int v := by
    have htaken := htaken version hversion
    rw [Column.taken, hv] at htaken
    exact Except.ok.inj (htaken.symm.trans hint)
  have hchanged : version ∈ RecordStatements.updateColumns m key ↔
      version.updatable ∧ version.prop ≠ key.prop := by
    simp [RecordStatements.updateColumns, Table.mem_of_version? hversion]
  refine ⟨next, hnext, hbean ▸ hafter, _, conn, table, htable, hlast, fun row hrow => ?_⟩
  obtain ⟨hbefore, hbehind⟩ := RowUpdate.ofColumns_version hversion
    (fun c hc => hown c (RecordStatements.mem_updateColumns hc)) hstored hrow
  obtain rfl : v + 1 = next := succ_of_toInt hnext
  refine ⟨hbefore, hbehind.trans ?_⟩
  simp only [hchanged]

def versionedUser (updatable : Bool) : Mapping where
  business := "user"
  group := "default"
  table := { Magazine.table .mySQL "TB_USER" [Magazine.column .mySQL "id" "pk" .int,
    Magazine.column .mySQL "userName" "userName" .string,
    .declare .mySQL "version" "version" .int true updatable] with versionProp := some "version" }

def lily : Record :=
  Dict.ofList [("id", .int 1), ("userName", .text "lily"), ("version", .int 3)]

def environmentOf (m : Mapping) : Environment :=
  let registry := Registry.ofMappings [m]
  { catalog := (Catalog.ofRegistry registry).toOption.getD { registry },
    groups := Dict.ofList [(m.group, .physical ⟨m.group, "master", none⟩)], settings := {} }

theorem environmentOf_catalog {m : Mapping} (hm : m.Identified)
    (hdistinct : (m.table.columns.map (·.prop)).Nodup) :
    Catalog.ofRegistry (.ofMappings [m]) = .ok (environmentOf m).catalog := by
  have hall : ∀ m' ∈ [m], m'.Identified ∧ (m'.table.columns.map (·.prop)).Nodup := by
    simpa using ⟨hm, hdistinct⟩
  obtain ⟨catalog, hcatalog⟩ := Catalog.ofRegistry_ok hall
  rw [environmentOf, hcatalog]
  rfl

def updateLily (updatable : Bool) : Option (Written Record Nat) × Session × Site Recorder :=
  updateBean Recorder.driver (environmentOf (versionedUser updatable)) "user" lily
    (⟨Connections.new (.write true), none⟩, { world := {} })

theorem updateLily_ran : (updateLily true).1.map (·.result) = some (.ok 1) ∧
    (updateLily true).2.2.history.getLast? = some ⟨.update 0
      ⟨"update TB_USER set userName=?, version = version + 1 where pk=? and version=?",
        [.text "lily", .int 1, .int 3], none⟩, true⟩ := by
  decide +kernel

/-- Where the version is updatable, bean and row both come to version 4. -/
theorem updateBean_version_user :
    (updateLily true).1.bind (·.bean.get? "version") = some (.int 4) ∧
      ∃ u : RowUpdate, u.sql .mySQL "TB_USER" =
          "update TB_USER set userName=?, version = version + 1 where pk=? and version=?" ∧
        u.params = [.text "lily", .int 1, .int 3] ∧
        ∀ row, u.Matches row → u.apply row "version" = .int 4 := by
  let m := versionedUser true
  have hm : m.Identified := by
    refine ⟨by decide, fun column hcolumn => ?_⟩
    simp only [m, versionedUser, Magazine.table, List.mem_cons, List.not_mem_nil, or_false]
      at hcolumn
    rcases hcolumn with rfl | rfl | rfl
    · exact ⟨by decide, .mySQL, "pk", "pk", by decide, .inl rfl, rfl⟩
    · exact ⟨by decide, .mySQL, "userName", "userName", by decide, .inl rfl, rfl⟩
    · exact ⟨by decide, .mySQL, "version", "version", by decide, .inl rfl, rfl⟩
  have hdistinct : (m.table.columns.map (·.prop)).Nodup := by decide
  have hcatalog : Catalog.ofRegistry (.ofMappings [m]) = .ok (environmentOf m).catalog := by
    have hall : ∀ m' ∈ [m], m'.Identified ∧ (m'.table.columns.map (·.prop)).Nodup := by
      simpa using ⟨hm, hdistinct⟩
    obtain ⟨catalog, hcatalog⟩ := Catalog.ofRegistry_ok hall
    rw [environmentOf, hcatalog]
    rfl
  obtain ⟨written, hwritten, hone⟩ := Option.map_eq_some_iff.mp updateLily_ran.1
  obtain ⟨next, hnext, hbean, u, conn, table, htable, hsent, hrow⟩ :=
    updateBean_version Recorder.driver
      (show (Registry.ofMappings [m]).mapping m.business = .ok m by decide +kernel) hm hdistinct
      (show m.table.pk? = some (Magazine.column .mySQL "id" "pk" .int) by decide +kernel) hcatalog
      rfl (show m.table.version? = some (Magazine.column .mySQL "version" "version" .int) by
        decide +kernel) (by decide +kernel)
      (show Bean.value? lily "version" = some (.int 3) by decide +kernel) rfl
      (fun bean' w hset => by
        cases hset
        exact (Dict.get?_insert _ _ _ _).trans (if_pos rfl))
      hwritten hone
  obtain rfl : next = 4 := Int64.toInt_inj.mp hnext
  obtain rfl : table = "TB_USER" := Except.ok.inj (htable.symm.trans (by decide +kernel))
  injection Option.some.inj (updateLily_ran.2.symm.trans hsent) with hcall
  injection hcall with hconn hstatement
  injection hstatement with hsql hparams
  exact ⟨Option.bind_eq_some_iff.mpr ⟨written, hwritten, hbean⟩, u, hsql.symm, hparams.symm,
    fun row hmatched => (hrow row hmatched).2.trans (by decide +kernel)⟩

/-- Where it is not, the bean comes to version 4, and the row that is matched and changed stays at
version 3. -/
theorem version_drifts :
    let u : RowUpdate :=
      ⟨[("userName", .value (.text "lily"))], [("pk", .int 1), ("version", .int 3)]⟩
    let row := fun column => if column = "pk" then Value.int 1 else .int 3
    (updateLily false).1.map (·.result) = some (.ok 1) ∧
      (updateLily false).2.2.history.getLast? =
        some ⟨.update 0 ⟨u.sql .mySQL "TB_USER", u.params, none⟩, true⟩ ∧
      u.sql .mySQL "TB_USER" = "update TB_USER set userName=? where pk=? and version=?" ∧
      u.Matches row ∧ u.apply row "version" = .int 3 ∧
      (updateLily false).1.bind (·.bean.get? "version") = some (.int 4) := by
  unfold RowUpdate.Matches
  decide +kernel

end Session

end DataAccess
