import DataAccess.Magazine
import DataAccess.Proofs.Catalog.Statements

/-!
# The records of a catalog

A catalog holds the statements of every registered mapping that has a key. Where names are
identifiers none of them fails to be generated, and each of them, bound to a bean and prepared, has
its columns and values in their places.
-/

set_option autoImplicit false

namespace DataAccess

open Text

namespace Registry

def ofMappings (ms : List Mapping) : Registry := ms.foldl register Dict.empty

theorem ofMappings_sorted (ms : List Mapping) : (ofMappings ms).Sorted := by
  have hfold (registry : Registry) (h : registry.Sorted) : (ms.foldl register registry).Sorted := by
    induction ms generalizing registry with
    | nil => exact h
    | cons m ms ih => exact ih _ (Dict.put_sorted h)
  exact hfold Dict.empty .nil

theorem mem_foldl_register {ms : List Mapping} {registry : Registry} {e : String × Mapping}
    (h : e ∈ (ms.foldl register registry).entries) :
    e ∈ registry.entries ∨ e.2 ∈ ms ∧ e.1 = e.2.business := by
  induction ms generalizing registry with
  | nil => exact .inl h
  | cons m ms ih =>
    rcases ih h with h | ⟨hmem, hkey⟩
    · rcases Dict.mem_put h with rfl | h
      · exact .inr ⟨List.mem_cons_self, rfl⟩
      · exact .inl h
    · exact .inr ⟨List.mem_cons_of_mem m hmem, hkey⟩

theorem mem_ofMappings {ms : List Mapping} {e : String × Mapping}
    (h : e ∈ (ofMappings ms).entries) : e.2 ∈ ms ∧ e.1 = e.2.business :=
  (mem_foldl_register h).resolve_left List.not_mem_nil

end Registry

namespace RecordStatements

/-- The statements of a mapping with the key, bound to the bean and prepared: columns and
placeholders by kind, and at each placeholder what the column there has stored. -/
structure Store {β : Type} [Bean β] (statements : RecordStatements) (m : Mapping) (key : Column)
    (bean : β) (stored : Column → Value) (condition : Option TableCondition) (table : String) :
    Prop where
  insert : let columns := m.table.columns.filter (·.insertable)
    statements.insert.prepareBean bean condition =
      .ok ⟨insertSql m table columns, columns.map stored⟩
  insertWithoutKey :
    let columns := m.table.columns.filter fun c => c.insertable && c.prop != key.prop
    statements.insertWithoutKey.prepareBean bean condition =
      .ok ⟨insertSql m table columns, columns.map stored⟩
  updatable : statements.update? = none ↔
    ∀ c ∈ m.table.columns, c.prop ≠ key.prop → c.updatable = false
  update : ∀ update, statements.update? = some update →
    let columns := m.table.columns.filter fun c => c.updatable && c.prop != key.prop
    update.prepareBean bean condition = .ok ⟨updateSql m table key columns,
      (assigned m columns ++ [key] ++ m.table.version?.toList).map stored⟩
  delete : statements.delete.prepareBean bean condition =
    .ok ⟨deleteSql m table key, [stored key]⟩
  select : statements.select.prepareBean bean condition =
    .ok ⟨selectSql m table key, [stored key]⟩

theorem insertColumns_without (m : Mapping) (key : Column) :
    (insertColumns m).filter (·.prop != key.prop) =
      m.table.columns.filter fun c => c.insertable && c.prop != key.prop := by
  rw [insertColumns, List.filter_filter]
  exact List.filter_congr fun c _ => Bool.and_comm _ _

theorem updateColumns_isEmpty (m : Mapping) (key : Column) :
    (updateColumns m key).isEmpty = true ↔
      ∀ c ∈ m.table.columns, c.prop ≠ key.prop → c.updatable = false := by
  rw [List.isEmpty_iff, updateColumns, List.filter_eq_nil_iff]
  refine forall₂_congr fun c _ => ?_
  by_cases hc : c.prop = key.prop <;> simp [hc]

variable {registry : Registry} {m : Mapping} {key : Column}

theorem ofKey_eq {insert insertWithoutKey delete select : Template} {update? : Option Template}
    (hinsert : statement registry m (insertText m (insertColumns m))
      ((insertColumns m).map (·.prop)) = .ok insert)
    (hrest : statement registry m
      (insertText m ((insertColumns m).filter (·.prop != key.prop)))
      (((insertColumns m).filter (·.prop != key.prop)).map (·.prop)) = .ok insertWithoutKey)
    (hupdate : (updateColumns m key).isEmpty = true ∧ update? = none ∨
      (updateColumns m key).isEmpty = false ∧ ∃ update, update? = some update ∧
        statement registry m (updateText m key (updateColumns m key))
          (updateProps m key (updateColumns m key)) = .ok update)
    (hdelete : statement registry m (deleteText m key) [key.prop] = .ok delete)
    (hselect : statement registry m (selectText m key) [key.prop] = .ok select) :
    ofKey registry m key = .ok { insert, insertWithoutKey, update?, delete, select } := by
  unfold ofKey
  rcases hupdate with ⟨hnone, rfl⟩ | ⟨hsome, update, rfl, hupdate⟩
  · simp only [hinsert, hrest, hnone, hdelete, hselect, bind, Except.bind]
    rfl
  · simp only [hinsert, hrest, hsome, hupdate, hdelete, hselect, bind, Except.bind]
    rfl

structure Generated (statements : RecordStatements) (m : Mapping) (key : Column) : Prop where
  insert : statements.insert.Places m (insertColumns m) fun table =>
    insertSql m table (insertColumns m)
  insertWithoutKey : let columns := (insertColumns m).filter (·.prop != key.prop)
    statements.insertWithoutKey.Places m columns fun table => insertSql m table columns
  updatable : statements.update? = none ↔ (updateColumns m key).isEmpty = true
  update : ∀ update, statements.update? = some update → update.Places m
    (assigned m (updateColumns m key) ++ [key] ++ m.table.version?.toList) fun table =>
      updateSql m table key (updateColumns m key)
  delete : statements.delete.Places m [key] fun table => deleteSql m table key
  select : statements.select.Places m [key] fun table => selectSql m table key

theorem mem_insertColumns {c : Column} (h : c ∈ insertColumns m) : c ∈ m.table.columns :=
  List.mem_of_mem_filter h

theorem mem_updateColumns {c : Column} (h : c ∈ updateColumns m key) : c ∈ m.table.columns :=
  List.mem_of_mem_filter h

theorem exists_ofKey_generated (hm : m.Identified)
    (hdistinct : (m.table.columns.map (·.prop)).Nodup)
    (hmapping : registry.mapping m.business = .ok m) (hkey : m.table.pk? = some key) :
    ∃ statements, ofKey registry m key = .ok statements ∧ statements.Generated m key := by
  have hpk := Table.mem_of_pk? hkey
  have hwithout : ∀ c ∈ (insertColumns m).filter (·.prop != key.prop), c ∈ m.table.columns :=
    fun _ hc => mem_insertColumns (List.mem_of_mem_filter hc)
  have hupdatable : ∀ c ∈ updateColumns m key, c ∈ m.table.columns := fun _ => mem_updateColumns
  obtain ⟨insert, hinsert, hinsert'⟩ := insert_places hm hmapping fun _ => mem_insertColumns
  obtain ⟨rest, hrest, hrest'⟩ := insert_places hm hmapping hwithout
  obtain ⟨update, hupdate, hupdate'⟩ := update_places hm hdistinct hmapping hpk hupdatable
  obtain ⟨delete, hdelete, hdelete'⟩ := delete_places hm hmapping hpk
  obtain ⟨select, hselect, hselect'⟩ := select_places hm hmapping hpk
  cases hchanged : (updateColumns m key).isEmpty with
  | true =>
    have hofKey := ofKey_eq hinsert hrest (.inl ⟨hchanged, rfl⟩) hdelete hselect
    refine ⟨_, hofKey, hinsert', hrest', by simp [hchanged], fun t ht => ?_, hdelete', hselect'⟩
    cases ht
  | false =>
    have hofKey := ofKey_eq hinsert hrest (.inr ⟨hchanged, update, rfl, hupdate⟩) hdelete hselect
    refine ⟨_, hofKey, hinsert', hrest', by simp [hchanged], fun t ht => ?_, hdelete', hselect'⟩
    cases ht
    exact hupdate'

theorem Generated.store {statements : RecordStatements} (h : statements.Generated m key)
    (hdistinct : (m.table.columns.map (·.prop)).Nodup) (hpk : key ∈ m.table.columns)
    {β : Type} [Bean β] {bean : β} {stored : Column → Value}
    (hstored : ∀ c ∈ m.table.columns, c.taken bean = .ok (stored c))
    {condition : Option TableCondition} {table : String}
    (htable : m.table.realName condition = .ok table) :
    statements.Store m key bean stored condition table := by
  have hprepare {t : Template} {columns : List Column} {sql : String → String}
      (ht : t.Places m columns sql) (hcolumns : ∀ c ∈ columns, c ∈ m.table.columns) :
      t.prepareBean bean condition = .ok ⟨sql table, columns.map stored⟩ := by
    rw [Template.prepareBean_places ht hdistinct hcolumns fun c hc => hstored c (hcolumns c hc),
      htable]
    rfl
  have hkey : ∀ c ∈ [key], c ∈ m.table.columns := by simpa using hpk
  refine ⟨hprepare h.insert fun _ => mem_insertColumns, ?_,
    h.updatable.trans (updateColumns_isEmpty m key), fun t ht => ?_, hprepare h.delete hkey,
    hprepare h.select hkey⟩
  · rw [← insertColumns_without]
    exact hprepare h.insertWithoutKey fun c hc => mem_insertColumns (List.mem_of_mem_filter hc)
  · exact hprepare (h.update t ht) (mem_update_columns hpk fun _ => mem_updateColumns)

theorem exists_ofKey_store {β : Type} [Bean β] {bean : β} {stored : Column → Value}
    (hm : m.Identified) (hdistinct : (m.table.columns.map (·.prop)).Nodup)
    (hmapping : registry.mapping m.business = .ok m) (hkey : m.table.pk? = some key)
    (hstored : ∀ c ∈ m.table.columns, c.taken bean = .ok (stored c)) :
    ∃ statements, ofKey registry m key = .ok statements ∧
      ∀ condition table, m.table.realName condition = .ok table →
        statements.Store m key bean stored condition table := by
  obtain ⟨statements, hofKey, hgenerated⟩ := exists_ofKey_generated hm hdistinct hmapping hkey
  exact ⟨statements, hofKey, fun _ _ htable =>
    hgenerated.store hdistinct (Table.mem_of_pk? hkey) hstored htable⟩

end RecordStatements

namespace Catalog

theorem addRecords_get? {entries : List (String × Mapping)} {c c' : Catalog}
    (h : c.addRecords entries = .ok c') {business : String}
    (hbusiness : business ∉ entries.map Prod.fst) :
    c'.records.get? business = c.records.get? business := by
  induction entries generalizing c with
  | nil =>
    cases h
    rfl
  | cons e rest ih =>
    rw [List.map_cons, List.mem_cons, not_or] at hbusiness
    rw [addRecords] at h
    split at h
    · exact ih h hbusiness.2
    · obtain ⟨statements, -, h⟩ := bind_eq_ok.mp h
      rw [ih h hbusiness.2, Dict.get?_insert, if_neg hbusiness.1]

theorem addRecords_registry {entries : List (String × Mapping)} {c c' : Catalog}
    (h : c.addRecords entries = .ok c') : c'.registry = c.registry := by
  induction entries generalizing c with
  | nil =>
    cases h
    rfl
  | cons e rest ih =>
    rw [addRecords] at h
    split at h
    · exact ih h
    · obtain ⟨statements, -, h⟩ := bind_eq_ok.mp h
      have hrest := ih h
      exact hrest

theorem addRecords_mem {entries : List (String × Mapping)} {c c' : Catalog}
    (h : c.addRecords entries = .ok c') (hdistinct : (entries.map Prod.fst).Nodup)
    {business : String} {m : Mapping} (hmem : (business, m) ∈ entries) {key : Column}
    (hkey : m.table.pk? = some key) :
    ∃ statements, RecordStatements.ofKey c.registry m key = .ok statements ∧
      c'.records.get? business = some statements := by
  induction entries generalizing c with
  | nil => cases hmem
  | cons e rest ih =>
    rw [List.map_cons, List.nodup_cons] at hdistinct
    rw [addRecords] at h
    rcases List.mem_cons.mp hmem with rfl | hmem
    · rw [hkey] at h
      obtain ⟨statements, hstatements, h⟩ := bind_eq_ok.mp h
      refine ⟨statements, hstatements, ?_⟩
      rw [addRecords_get? h hdistinct.1, Dict.get?_insert, if_pos rfl]
    · split at h
      · exact ih h hdistinct.2 hmem
      · obtain ⟨statements, -, h⟩ := bind_eq_ok.mp h
        have hrest := ih h hdistinct.2 hmem
        exact hrest

theorem addRecords_ok {entries : List (String × Mapping)} {c : Catalog}
    (h : ∀ e ∈ entries, ∀ key, e.2.table.pk? = some key →
      ∃ statements, RecordStatements.ofKey c.registry e.2 key = .ok statements) :
    ∃ c', c.addRecords entries = .ok c' := by
  induction entries generalizing c with
  | nil => exact ⟨c, rfl⟩
  | cons e rest ih =>
    rw [List.forall_mem_cons] at h
    rw [addRecords]
    split
    · exact ih h.2
    · next key hkey =>
      obtain ⟨statements, hstatements⟩ := h.1 key hkey
      rw [hstatements]
      exact ih h.2

theorem ofRegistry_ok {ms : List Mapping} (h : ∀ m ∈ ms, m.Identified ∧
    (m.table.columns.map (·.prop)).Nodup) : ∃ c, ofRegistry (.ofMappings ms) = .ok c := by
  refine addRecords_ok fun e he key hkey => ?_
  obtain ⟨hmem, hbusiness⟩ := Registry.mem_ofMappings he
  obtain ⟨hm, hdistinct⟩ := h e.2 hmem
  have hget : (Registry.ofMappings ms).get? e.2.business = some e.2 :=
    Dict.get?_of_mem (Registry.ofMappings_sorted ms) (hbusiness ▸ he)
  have hmapping : (Registry.ofMappings ms).mapping e.2.business = .ok e.2 := by
    rw [Registry.mapping, hget]
  obtain ⟨statements, hstatements, -⟩ :=
    RecordStatements.exists_ofKey_generated hm hdistinct hmapping hkey
  exact ⟨statements, hstatements⟩

theorem recordStatements_ofKey {ms : List Mapping} {m : Mapping}
    (hmapping : (Registry.ofMappings ms).mapping m.business = .ok m) {key : Column}
    (hkey : m.table.pk? = some key) {catalog : Catalog}
    (hcatalog : ofRegistry (.ofMappings ms) = .ok catalog) :
    ∃ statements, RecordStatements.ofKey (.ofMappings ms) m key = .ok statements ∧
      catalog.recordStatements m.business = .ok statements := by
  have hmem := Dict.mem_of_get? (Registry.get?_of_mapping hmapping)
  have hkeys : ((Registry.ofMappings ms).entries.map Prod.fst).Nodup :=
    List.pairwise_map.mpr ((Registry.ofMappings_sorted ms).imp ne_of_lt)
  obtain ⟨statements, hstatements, hget⟩ := addRecords_mem hcatalog hkeys hmem hkey
  exact ⟨statements, hstatements, by rw [recordStatements, hget]⟩

/-- Every catalog over the registry has what is generated for a registered mapping. -/
theorem recordStatements_generated {ms : List Mapping} {m : Mapping}
    (hmapping : (Registry.ofMappings ms).mapping m.business = .ok m) (hm : m.Identified)
    (hdistinct : (m.table.columns.map (·.prop)).Nodup) {key : Column}
    (hkey : m.table.pk? = some key) {catalog : Catalog}
    (hcatalog : ofRegistry (.ofMappings ms) = .ok catalog) :
    ∃ statements, catalog.recordStatements m.business = .ok statements ∧
      statements.Generated m key := by
  obtain ⟨statements, hstatements, hgot⟩ := recordStatements_ofKey hmapping hkey hcatalog
  obtain ⟨statements', hstatements', hgenerated⟩ :=
    RecordStatements.exists_ofKey_generated hm hdistinct hmapping hkey
  obtain rfl : statements = statements' :=
    Except.ok.inj (hstatements.symm.trans hstatements')
  exact ⟨statements, hgot, hgenerated⟩

end Catalog

/-- A registered mapping has a key, identifiers for names and no property twice, and the values of
a bean convert to the types of its columns. Then every catalog over the registry has its
statements, and bound to the bean and prepared under a condition that names the table, they store
what the columns take from the bean. There is such a catalog if the other mappings have such names
too. -/
theorem Catalog.recordStatements_store {β : Type} [Bean β] {ms : List Mapping} {m : Mapping}
    (hmapping : (Registry.ofMappings ms).mapping m.business = .ok m) (hm : m.Identified)
    (hdistinct : (m.table.columns.map (·.prop)).Nodup) {key : Column}
    (hkey : m.table.pk? = some key) {bean : β} {stored : Column → Value}
    (hstored : ∀ c ∈ m.table.columns, c.taken bean = .ok (stored c))
    {condition : Option TableCondition} {table : String}
    (htable : m.table.realName condition = .ok table) :
    ((∀ m' ∈ ms, m'.Identified ∧ (m'.table.columns.map (·.prop)).Nodup) →
      ∃ catalog, ofRegistry (.ofMappings ms) = .ok catalog) ∧
    ∀ catalog, ofRegistry (.ofMappings ms) = .ok catalog →
      ∃ statements, catalog.recordStatements m.business = .ok statements ∧
        statements.Store m key bean stored condition table := by
  refine ⟨ofRegistry_ok, fun catalog hcatalog => ?_⟩
  have hmem := Dict.mem_of_get? (Registry.get?_of_mapping hmapping)
  have hkeys : ((Registry.ofMappings ms).entries.map Prod.fst).Nodup :=
    List.pairwise_map.mpr ((Registry.ofMappings_sorted ms).imp ne_of_lt)
  obtain ⟨statements, hstatements, hget⟩ := addRecords_mem hcatalog hkeys hmem hkey
  obtain ⟨statements', hstatements', hstore⟩ :=
    RecordStatements.exists_ofKey_store hm hdistinct hmapping hkey hstored
  obtain rfl : statements = statements' :=
    Except.ok.inj (hstatements.symm.trans hstatements')
  refine ⟨statements, ?_, hstore condition table htable⟩
  rw [recordStatements, hget]

/-- A quoted column, one that no update changes, a version, and a table that needs a condition. The
bean lacks a property, and its key is text. -/
theorem Catalog.recordStatements_store_user :
    let columns := [Magazine.column .oracle "id" "pk" .int,
      Magazine.column .oracle "userName" "`USER`" .string,
      .declare .oracle "joined" "JOINED" .date true false,
      Magazine.column .oracle "version" "version" .int]
    let table : Table := { Magazine.table .oracle "TB_USER" columns with
      versionProp := some "version", suffixKey := some "userId" }
    let m : Mapping := { business := "user", group := "default", table }
    let bean : Record :=
      Dict.ofList [("id", .text "7"), ("userName", .text ":id"), ("version", .int 3)]
    let condition := some (Dict.ofList [("userId", .int 2)])
    ∃ catalog statements update, ofRegistry (.ofMappings [m]) = .ok catalog ∧
      catalog.recordStatements "user" = .ok statements ∧
      statements.insert.prepareBean bean condition =
        .ok ⟨"insert into TB_USER_2(pk, \"USER\", JOINED, version) values(:1, :2, :3, :4)",
          [.int 7, .text ":id", .null, .int 3]⟩ ∧
      statements.update? = some update ∧ update.prepareBean bean condition =
        .ok ⟨"update TB_USER_2 set \"USER\"=:1, version = version + 1 where pk=:2 and version=:3",
          [.text ":id", .int 7, .int 3]⟩ := by
  intro columns table m bean condition
  have hm : m.Identified := by
    refine ⟨by decide, fun column hcolumn => ?_⟩
    simp only [m, table, Magazine.table, columns, List.mem_cons, List.not_mem_nil, or_false]
      at hcolumn
    rcases hcolumn with rfl | rfl | rfl | rfl
    · exact ⟨by decide, .oracle, "pk", "pk", by decide, .inl rfl, rfl⟩
    · exact ⟨by decide, .oracle, "USER", "`USER`", by decide, .inr rfl, rfl⟩
    · exact ⟨by decide, .oracle, "JOINED", "JOINED", by decide, .inl rfl, rfl⟩
    · exact ⟨by decide, .oracle, "version", "version", by decide, .inl rfl, rfl⟩
  have hdistinct : (m.table.columns.map (·.prop)).Nodup := by decide
  let stored (c : Column) : Value := match c.prop with
    | "id" => .int 7
    | "userName" => .text ":id"
    | "version" => .int 3
    | _ => .null
  have hstored : ∀ c ∈ m.table.columns, c.taken bean = .ok (stored c) := by decide +kernel
  have htable : m.table.realName condition = .ok "TB_USER_2" := by decide +kernel
  obtain ⟨hcatalog, hstatements⟩ := recordStatements_store
    (show (Registry.ofMappings [m]).mapping m.business = .ok m by decide +kernel) hm hdistinct
    (show m.table.pk? = some (Magazine.column .oracle "id" "pk" .int) by decide +kernel) hstored
    htable
  obtain ⟨catalog, hcatalog⟩ := hcatalog (by simpa using ⟨hm, hdistinct⟩)
  obtain ⟨statements, hgot, hstore⟩ := hstatements catalog hcatalog
  have hchanges : statements.update? ≠ none := by
    rw [ne_eq, hstore.updatable]
    decide
  obtain ⟨update, hupdate⟩ := Option.ne_none_iff_exists'.mp hchanges
  refine ⟨catalog, statements, update, hcatalog, hgot, ?_, hupdate, ?_⟩
  · rw [hstore.insert]
    decide +kernel
  · rw [hstore.update update hupdate]
    decide +kernel

end DataAccess
