import DataAccess.Proofs.Session.Versions

/-!
# Keys of inserted beans

An insert answers with a key. One that the bean brought is answered as the bean has it, and which
statement is run is decided by the bean alone; what the statement binds is decided by the columns
and their types. One that the database gave is asked for behind the insert.
-/

set_option autoImplicit false

namespace DataAccess

open Text

structure RowInsert where
  cells : List (Column × Value)

namespace RowInsert

def sql (i : RowInsert) (flavor : Flavor) (table : String) : String :=
  "insert into " ++ table ++ "(" ++ joined ", " (i.cells.map (·.1.sqlName)) ++ ") values(" ++
    joined ", " (placeholders flavor 0 i.cells.length) ++ ")"

def params (i : RowInsert) : List Value := i.cells.map Prod.snd

def given? (i : RowInsert) (c : Column) : Option Value :=
  (i.cells.find? (·.1 = c)).map Prod.snd

def ofColumns (columns : List Column) (stored : Column → Value) : RowInsert where
  cells := columns.map fun c => (c, stored c)

section
variable {m : Mapping} {columns : List Column} {stored : Column → Value}

theorem ofColumns_sql (table : String) : (ofColumns columns stored).sql m.flavor table =
    RecordStatements.insertSql m table columns := by
  unfold sql ofColumns
  dsimp only
  rw [List.length_map, List.map_map]
  rfl

theorem ofColumns_params : (ofColumns columns stored).params = columns.map stored := by
  rw [params, ofColumns, List.map_map]
  rfl

theorem given?_ofColumns (c : Column) :
    (ofColumns columns stored).given? c = if c ∈ columns then some (stored c) else none := by
  unfold given? ofColumns
  dsimp only
  induction columns with
  | nil => rfl
  | cons head rest ih =>
    rw [List.map_cons, List.find?_cons]
    by_cases hc : head = c
    · simp [hc]
    · simp only [hc, decide_false, ih, List.mem_cons, Ne.symm hc, false_or]

end

end RowInsert

theorem Connections.connect_same {W : Type} {d : Driver W} {cs : Connections} {g : PhysicalGroup}
    {site : Site W} {conn conn' : Nat} (hheld : cs.conn? g.name = some conn)
    (h : (cs.connect d g site).1.1 = .ok conn') : conn' = conn := by
  rcases connect_cases d cs g site with ⟨-, e, heq⟩ | ⟨-, held, hfind, heq⟩ | ⟨-, hfind, -⟩
  · rw [heq] at h
    cases h
  · rw [heq] at h
    rw [conn?, hfind] at hheld
    cases h
    cases hheld
    rfl
  · rw [conn?, hfind] at hheld
    cases hheld

namespace Session

section
variable {W : Type} {d : Driver W} {env : Environment}

/-- The session has run the statement of the bound template on the connection, and nothing since. -/
structure RanLast (env : Environment) (before : Session × Site W) (b : BoundTemplate)
    (s : Statement) (conn : Nat) (site : Site W) : Prop where
  statement : ∃ g, statement env before.1.condition? b none = .ok (g, s)
  last : site.history.getLast? = some ⟨.update conn s, true⟩

structure Answered (d : Driver W) (conn : Nat) (s : Statement) (rows : List Row)
    (before after : Site W) : Prop where
  answer : (d.call (.query conn s) before).1 = .ok rows
  history : after.history = before.history ++ [⟨.query conn s, true⟩]

theorem query_answered {g : PhysicalGroup} {s : Statement} {state after : Session × Site W}
    {rows : List Row} (h : (query d env g s).run state = (.ok rows, after)) {conn : Nat}
    (hheld : state.1.connections.conn? g.name = some conn) :
    Answered d conn s rows state.2 after.2 := by
  obtain ⟨session, site⟩ := state
  rcases execute_cases d env g s (fun conn => d.call (.query conn s)) session site with
    ⟨e, heq⟩ | ⟨conn', hok, heq, hran⟩
  · rw [query, heq] at h
    cases h
  · obtain rfl := Connections.connect_same hheld hok
    rw [query] at h
    rw [h, Connections.connect_again d hheld] at heq
    rw [h, Connections.connect_again d hheld] at hran
    cases heq
    have hanswer := hran rows rfl
    exact ⟨hanswer, (note_still _ _ _).1.trans (call_history_of_ok d hanswer)⟩

variable {β : Type} [Bean β] {business : String} {bean : β}

theorem inserted_ok {state after : Session × Site W} {m : Mapping} {key : Column}
    {statements : RecordStatements} (hm : env.registry.mapping business = .ok m)
    (hkey : m.pk = .ok key) (hstatements : env.catalog.recordStatements business = .ok statements)
    {k : Value} {values : List (String × Value)}
    (h : (inserted d env business bean).run state = (.ok (k, values), after)) :
    (keyOf bean key.prop = k ∧ values = [] ∧ ∃ b s conn, statements.insert.bindBean bean = .ok b ∧
      RanLast env state b s conn after.2) ∨
    ((keyOf bean key.prop).isNull = true ∧
      ∃ b s conn mid, statements.insertWithoutKey.bindBean bean = .ok b ∧
        RanLast env state b s conn mid ∧
        (k = .null ∧ values = [] ∨
          ∃ sql rows, m.flavor.insertedIdQuery? = some sql ∧
            Answered d conn ⟨sql, [], env.settings.timeoutSeconds⟩ rows mid after.2 ∧
            convertedKey key ((firstCell? rows).getD .null) = .ok k ∧
            values = [(key.prop, k)])) := by
  obtain ⟨m', hm', h⟩ := run_lift_bind_ok.mp h
  obtain rfl : m' = m := Except.ok.inj (hm'.symm.trans hm)
  obtain ⟨key', hkey', h⟩ := run_lift_bind_ok.mp h
  obtain rfl : key' = key := Except.ok.inj (hkey'.symm.trans hkey)
  obtain ⟨statements', hstatements', h⟩ := run_lift_bind_ok.mp h
  obtain rfl : statements' = statements := Except.ok.inj (hstatements'.symm.trans hstatements)
  cases hnull : (keyOf bean key'.prop).isNull with
  | false =>
    simp only [hnull, Bool.not_false, if_true] at h
    obtain ⟨b, hb, h⟩ := run_lift_bind_ok.mp h
    obtain ⟨n, mid, hrows, h⟩ := run_bind_ok.mp h
    cases h
    obtain ⟨g, s, hs, hupdate⟩ := updateRows_ok hrows
    obtain ⟨conn, -, hlast⟩ := update_last d hupdate
    exact .inl ⟨rfl, rfl, b, s, conn, hb, ⟨g, hs⟩, hlast⟩
  | true =>
    simp only [hnull, Bool.not_true, Bool.false_eq_true, if_false] at h
    obtain ⟨b, hb, h⟩ := run_lift_bind_ok.mp h
    obtain ⟨condition, mid, hcurrent, h⟩ := run_bind_ok.mp h
    cases hcurrent
    obtain ⟨⟨g, s⟩, hs, h⟩ := run_lift_bind_ok.mp h
    obtain ⟨n, mid, hupdate, h⟩ := run_bind_ok.mp h
    obtain ⟨conn, hheld, hlast⟩ := update_last d hupdate
    refine .inr ⟨rfl, b, s, conn, mid.2, hb, ⟨⟨g, hs⟩, hlast⟩, ?_⟩
    cases hsql : m'.flavor.insertedIdQuery? with
    | none =>
      simp only [hsql] at h
      cases h
      exact .inl ⟨rfl, rfl⟩
    | some sql =>
      simp only [hsql] at h
      obtain ⟨rows, last, hquery, h⟩ := run_bind_ok.mp h
      obtain ⟨id, hid, h⟩ := run_lift_bind_ok.mp h
      cases h
      exact .inr ⟨sql, rows, rfl, query_answered hquery hheld, hid, rfl⟩

theorem insert_cases {state : Session × Site W} {m : Mapping} {key : Column}
    {statements : RecordStatements} (hm : env.registry.mapping business = .ok m)
    (hkey : m.pk = .ok key) (hstatements : env.catalog.recordStatements business = .ok statements)
    {k : Value} (h : (insert d env business bean state).1.result = .ok k) (hk : k ≠ .null) :
    let after := insert d env business bean state
    ∃ b s conn,
      (keyOf bean key.prop = k ∧ after.1.bean = bean ∧ statements.insert.bindBean bean = .ok b ∧
        RanLast env state b s conn after.2.2) ∨
      ((keyOf bean key.prop).isNull = true ∧ Bean.setValue bean key.prop k = .ok after.1.bean ∧
        statements.insertWithoutKey.bindBean bean = .ok b ∧
        ∃ mid sql rows, RanLast env state b s conn mid ∧ m.flavor.insertedIdQuery? = some sql ∧
          Answered d conn ⟨sql, [], env.settings.timeoutSeconds⟩ rows mid after.2.2 ∧
          convertedKey key ((firstCell? rows).getD .null) = .ok k) := by
  rw [insert, thenWrite_eq] at h ⊢
  generalize hrun : (inserted d env business bean).run state = out at h
  obtain ⟨r, after⟩ := out
  cases r with
  | error e => cases h
  | ok answered =>
    obtain ⟨k', values⟩ := answered
    dsimp only [writing] at h ⊢
    cases hset : (setAll bean values).result with
    | error e =>
      rw [hset] at h
      cases h
    | ok _ =>
      rw [hset] at h
      cases h
      rcases inserted_ok hm hkey hstatements hrun with ⟨hbean, rfl, b, s, conn, hb, hran⟩ |
        ⟨hnull, b, s, conn, mid, hb, hran, ⟨rfl, -⟩ | ⟨sql, rows, hsql, hanswered, hid, rfl⟩⟩
      · exact ⟨b, s, conn, .inl ⟨hbean, rfl, hb, hran⟩⟩
      · exact absurd rfl hk
      · exact ⟨b, s, conn, .inr ⟨hnull, setAll_one hset, hb, mid, sql, rows, hran, hsql,
          hanswered, hid⟩⟩

end

theorem taken_of_keyOf {β : Type} [Bean β] {bean : β} {key : Column} {k : Value}
    (h : keyOf bean key.prop = k) (hk : k ≠ .null) : key.taken bean = key.type.convert k := by
  unfold keyOf at h
  unfold Column.taken
  cases hvalue : Bean.value? bean key.prop with
  | none =>
    rw [hvalue] at h
    exact absurd h.symm hk
  | some v =>
    rw [hvalue] at h
    cases h
    rfl

def rowOf {β : Type} [Bean β] (m : Mapping) (bean : β) : RowInsert :=
  .ofColumns (RecordStatements.insertColumns m) (·.stored bean)

section
variable {W β : Type} [Bean β] {env : Environment} {m : Mapping} {key : Column}
  {statements : RecordStatements} (hgenerated : statements.Generated m key)
  (hdistinct : (m.table.columns.map (·.prop)).Nodup) {bean : β} {b : BoundTemplate}
  (hb : statements.insert.bindBean bean = .ok b)
include hgenerated hdistinct hb

theorem taken_insertColumns :
    ∀ c ∈ RecordStatements.insertColumns m, c.taken bean = .ok (c.stored bean) := fun c hc =>
  Column.taken_stored (Template.exists_taken_places hgenerated.insert hdistinct
    (fun _ => RecordStatements.mem_insertColumns) hb c hc)

theorem statement_rowOf {state : Session × Site W} {s : Statement} {conn : Nat} {site : Site W}
    (h : RanLast env state b s conn site) :
    ∃ table, m.table.realName state.1.condition? = .ok table ∧
      s = ⟨(rowOf m bean).sql m.flavor table, (rowOf m bean).params,
        env.settings.timeoutSeconds⟩ := by
  obtain ⟨values, hbind, hvalues⟩ := Template.bindBean_places hgenerated.insert hdistinct
    (fun _ => RecordStatements.mem_insertColumns) (taken_insertColumns hgenerated hdistinct hb)
  obtain rfl : b = { template := statements.insert, values } :=
    Except.ok.inj (hb.symm.trans hbind)
  obtain ⟨g, hs⟩ := h.statement
  obtain ⟨table, htable, rfl⟩ := statement_places hgenerated.insert hvalues hs
  exact ⟨table, htable, by rw [rowOf, RowInsert.ofColumns_sql, RowInsert.ofColumns_params]⟩

theorem given?_rowOf (hmem : key ∈ m.table.columns) {k : Value} (hbean : keyOf bean key.prop = k)
    (hk : k ≠ .null) : (rowOf m bean).given? key =
      if key.insertable then (key.type.convert k).toOption else none := by
  have hinsertable : key ∈ RecordStatements.insertColumns m ↔ key.insertable = true := by
    simp [RecordStatements.insertColumns, hmem]
  rw [rowOf, RowInsert.given?_ofColumns]
  by_cases hkey : key.insertable = true
  · have hin := hinsertable.mpr hkey
    rw [if_pos hin, if_pos hkey, ← taken_of_keyOf hbean hk,
      taken_insertColumns hgenerated hdistinct hb key hin]
    rfl
  · rw [if_neg (mt hinsertable.mp hkey), if_neg hkey]

end

/-- A mapping has a key, and an insert answers with a value that is not null. If the bean had that
value for its key, the statement with the bean's key was run last; where names are identifiers and
no property is double, the row has the key converted, provided that the key's column is
insertable, and else no key, so that the value is the row's key exactly if that column is
insertable and converts it to itself. If the bean had no key, the query for the key that the
database gave was the next call after the insert, the value is its first cell converted, and the
bean has taken it. -/
theorem insert_key {W β : Type} [Bean β] (d : Driver W) {env : Environment} {ms : List Mapping}
    {m : Mapping} (hmapping : (Registry.ofMappings ms).mapping m.business = .ok m) {key : Column}
    (hkey : m.table.pk? = some key) {catalog : Catalog} {named : Dict Template}
    (hcatalog : Catalog.ofRegistry (.ofMappings ms) = .ok catalog)
    (henv : env.catalog = { catalog with named }) {bean : β} {state : Session × Site W} {k : Value}
    (h : (insert d env m.business bean state).1.result = .ok k) (hk : k ≠ .null) :
    let after := insert d env m.business bean state
    ∃ statements b s conn, env.catalog.recordStatements m.business = .ok statements ∧
      ((keyOf bean key.prop = k ∧ after.1.bean = bean ∧
        statements.insert.bindBean bean = .ok b ∧ RanLast env state b s conn after.2.2 ∧
        (m.Identified → (m.table.columns.map (·.prop)).Nodup →
          (∃ table, m.table.realName state.1.condition? = .ok table ∧
            s = ⟨(rowOf m bean).sql m.flavor table, (rowOf m bean).params,
              env.settings.timeoutSeconds⟩) ∧
          ((rowOf m bean).given? key =
            if key.insertable then (key.type.convert k).toOption else none) ∧
          ((rowOf m bean).given? key = some k ↔
            key.insertable = true ∧ key.type.convert k = .ok k))) ∨
      ((keyOf bean key.prop).isNull = true ∧ Bean.setValue bean key.prop k = .ok after.1.bean ∧
        statements.insertWithoutKey.bindBean bean = .ok b ∧
        ∃ mid sql rows, RanLast env state b s conn mid ∧ m.flavor.insertedIdQuery? = some sql ∧
          Answered d conn ⟨sql, [], env.settings.timeoutSeconds⟩ rows mid after.2.2 ∧
          convertedKey key ((firstCell? rows).getD .null) = .ok k)) := by
  have hregistry : env.registry = .ofMappings ms := by
    rw [Environment.registry, henv]
    exact Catalog.addRecords_registry hcatalog
  have hpk : m.pk = .ok key := by rw [Mapping.pk, hkey]
  obtain ⟨statements, -, hgot⟩ := Catalog.recordStatements_ofKey hmapping hkey hcatalog
  have hstatements : env.catalog.recordStatements m.business = .ok statements := by
    rw [henv]
    exact hgot
  obtain ⟨b, s, conn, hcase⟩ :=
    insert_cases (by rw [hregistry, hmapping]) hpk hstatements h hk
  refine ⟨statements, b, s, conn, hstatements, hcase.imp_left ?_⟩
  rintro ⟨hbean, hsame, hb, hran⟩
  refine ⟨hbean, hsame, hb, hran, fun hm hdistinct => ?_⟩
  obtain ⟨statements', hgot', hgenerated⟩ :=
    Catalog.recordStatements_generated hmapping hm hdistinct hkey hcatalog
  obtain rfl : statements = statements' := Except.ok.inj (hgot.symm.trans hgot')
  have hgiven := given?_rowOf hgenerated hdistinct hb (Table.mem_of_pk? hkey) hbean hk
  refine ⟨statement_rowOf hgenerated hdistinct hb hran, hgiven, ?_⟩
  rw [hgiven]
  cases key.insertable <;> cases key.type.convert k <;> simp [Except.toOption]

def keyedUser (insertable : Bool) : Mapping where
  business := "user"
  group := "default"
  table := Magazine.table .mySQL "TB_USER" [.declare .mySQL "id" "pk" .int insertable true,
    Magazine.column .mySQL "userName" "userName" .string]

def lilyUnder (key : Value) : Record := Dict.ofList [("id", key), ("userName", .text "lily")]

def insertLily (insertable : Bool) (key : Value) : Written Record Value × Session × Site Recorder :=
  insert Recorder.driver (environmentOf (keyedUser insertable)) "user" (lilyUnder key)
    (⟨Connections.new (.write true), none⟩, { world := {} })

theorem insertLily_ran : (insertLily true (.int 7)).1.result = .ok (.int 7) := by
  decide +kernel

/-- Where the key is insertable, the row is stored under the key that is answered. -/
theorem insert_key_user :
    let i := rowOf (keyedUser true) (lilyUnder (.int 7))
    i.given? (.declare .mySQL "id" "pk" .int true true) = some (.int 7) ∧
      ∃ conn, (insertLily true (.int 7)).2.2.history.getLast? =
        some ⟨.update conn ⟨i.sql .mySQL "TB_USER", i.params, none⟩, true⟩ := by
  let m := keyedUser true
  have hm : m.Identified := by
    refine ⟨by decide, fun column hcolumn => ?_⟩
    simp only [m, keyedUser, Magazine.table, List.mem_cons, List.not_mem_nil, or_false] at hcolumn
    rcases hcolumn with rfl | rfl
    · exact ⟨by decide, .mySQL, "pk", "pk", by decide, .inl rfl, rfl⟩
    · exact ⟨by decide, .mySQL, "userName", "userName", by decide, .inl rfl, rfl⟩
  have hdistinct : (m.table.columns.map (·.prop)).Nodup := by decide
  have hmapping : (Registry.ofMappings [m]).mapping m.business = .ok m := by decide +kernel
  have hkey : m.table.pk? = some (.declare .mySQL "id" "pk" .int true true) := by decide +kernel
  obtain ⟨statements, b, s, conn, -, ⟨-, -, -, hran, hrow⟩ | ⟨hnull, -⟩⟩ :=
    insert_key Recorder.driver hmapping hkey (environmentOf_catalog hm hdistinct) rfl
      insertLily_ran (by decide)
  · obtain ⟨⟨table, htable, rfl⟩, -, hgiven⟩ := hrow hm hdistinct
    obtain rfl : table = "TB_USER" := Except.ok.inj (htable.symm.trans (by decide +kernel))
    exact ⟨hgiven.mpr ⟨by decide, by decide +kernel⟩, conn, hran.last⟩
  · exact absurd hnull (by decide +kernel)

/-- Where it is not, the key 7 is answered although no row has it and no key is asked for. Blank
text is answered although null is stored. -/
theorem key_of_no_row :
    let history := (insertLily false (.int 7)).2.2.history
    (insertLily false (.int 7)).1.result = .ok (.int 7) ∧
      history.map (·.call) = [.connect 0 "master", .autoCommit 0 true,
        .update 0 ⟨"insert into TB_USER(userName) values(?)", [.text "lily"], none⟩] ∧
      (insertLily true (.text " ")).1.result = .ok (.text " ") ∧
      (insertLily true (.text " ")).2.2.history.getLast? = some ⟨.update 0
        ⟨"insert into TB_USER(pk, userName) values(?, ?)", [.null, .text "lily"], none⟩, true⟩ := by
  decide +kernel

end Session

end DataAccess
