import DataAccess.Proofs.Catalog.Records

/-!
# What is inserted is read back

The values that an insert binds come back in a row under the labels of their columns. The labels
may be in any letter case and the columns in any order: the record of the row holds each value
under the property that it was bound for.
-/

set_option autoImplicit false

namespace DataAccess

open Text

theorem Text.equalIgnoringAsciiCase_iff {a b : String} :
    equalIgnoringAsciiCase a b = true ↔ asciiLower a.toList = asciiLower b.toList :=
  beq_iff_eq

/-- The row has the values under the labels of the columns, in any letter case and order. -/
def Row.Carries (row : Row) (columns : List Column) (values : List Value) : Prop :=
  ∃ labels, List.Forall₂ (fun c label => equalIgnoringAsciiCase c.label label = true)
    columns labels ∧ row.cells.Perm (labels.zip values)

def Mapping.Labelled (m : Mapping) : Prop :=
  m.table.columns.Pairwise fun c c' => equalIgnoringAsciiCase c.label c'.label = false

namespace Mapping

variable {m : Mapping} {columns : List Column}

theorem find?_label
    (h : columns.Pairwise fun c c' => equalIgnoringAsciiCase c.label c'.label = false)
    {c : Column} (hc : c ∈ columns) {label : String}
    (hlabel : equalIgnoringAsciiCase c.label label = true) :
    columns.find? (fun c => equalIgnoringAsciiCase c.label label) = some c := by
  induction columns with
  | nil => cases hc
  | cons first rest ih =>
    obtain ⟨hfirst, hrest⟩ := List.pairwise_cons.mp h
    rcases List.mem_cons.mp hc with rfl | hc
    · exact List.find?_cons_of_pos hlabel
    · have hother : equalIgnoringAsciiCase first.label label = false := by
        rw [← Bool.not_eq_true]
        intro hsame
        have hequal : equalIgnoringAsciiCase first.label c.label = true := by
          rw [equalIgnoringAsciiCase_iff] at hsame hlabel ⊢
          rw [hsame, hlabel]
        rw [hfirst c hc] at hequal
        cases hequal
      simp only [List.find?_cons, hother]
      exact ih hrest hc

theorem propOfLabel_of_mem (h : m.Labelled) {c : Column} (hc : c ∈ m.table.columns)
    {label : String} (hlabel : equalIgnoringAsciiCase c.label label = true) :
    m.propOfLabel label = c.prop := by
  rw [propOfLabel, find?_label h hc hlabel]

theorem map_propOfLabel (h : m.Labelled) (hcolumns : ∀ c ∈ columns, c ∈ m.table.columns)
    {labels : List String}
    (hlabels : List.Forall₂ (fun c label => equalIgnoringAsciiCase c.label label = true)
      columns labels) : labels.map m.propOfLabel = columns.map (·.prop) := by
  induction hlabels with
  | nil => rfl
  | cons hlabel hlabels ih =>
    rw [List.forall_mem_cons] at hcolumns
    rw [List.map_cons, List.map_cons, propOfLabel_of_mem h hcolumns.1 hlabel, ih hcolumns.2]

theorem recordOfRow_carried (h : m.Labelled) (hcolumns : ∀ c ∈ columns, c ∈ m.table.columns)
    (hdistinct : (columns.map (·.prop)).Nodup) {value : Column → Value} {row : Row}
    (hrow : row.Carries columns (columns.map value)) :
    (m.recordOfRow row).keys.Perm (columns.map (·.prop)) ∧
      ∀ c ∈ columns, (m.recordOfRow row).get? c.prop = some (value c) := by
  obtain ⟨labels, hlabels, hcells⟩ := hrow
  let pairs := row.cells.map (Prod.map m.propOfLabel id)
  have hpairs : pairs.Perm (columns.map fun c => (c.prop, value c)) := by
    have hread := hcells.map (Prod.map m.propOfLabel id)
    rwa [← List.zip_map_left, map_propOfLabel h hcolumns hlabels, List.zip_map'] at hread
  have hprops : (columns.map fun c => (c.prop, value c)).map Prod.fst = columns.map (·.prop) :=
    List.map_map
  have hkeys : (pairs.map Prod.fst).Perm (columns.map (·.prop)) := hprops ▸ hpairs.map Prod.fst
  have hnodup : (pairs.map Prod.fst).Nodup := hkeys.nodup_iff.mpr hdistinct
  refine ⟨((Dict.ofList_perm hnodup).map Prod.fst).trans hkeys, fun c hc => ?_⟩
  exact Dict.get?_ofList hnodup (hpairs.mem_iff.mpr (List.mem_map_of_mem hc))

end Mapping

/-- A registered mapping has a key, identifiers for names, no property twice and no label twice,
and the values of a bean convert to the types of the columns that are inserted. Bound to the bean,
the generated insert has the converted values for its parameters. A row that carries these under
the labels of the columns, in any letter case and order, is read as the record that has each of
them under its property, and nothing else. -/
theorem Mapping.recordOfRow_inserted {β : Type} [Bean β] {ms : List Mapping} {m : Mapping}
    (hmapping : (Registry.ofMappings ms).mapping m.business = .ok m) (hm : m.Identified)
    (hdistinct : (m.table.columns.map (·.prop)).Nodup) (hlabels : m.Labelled) {key : Column}
    (hkey : m.table.pk? = some key) {bean : β} {stored : Column → Value}
    (hstored : ∀ c ∈ m.table.columns, c.insertable = true → c.taken bean = .ok (stored c)) :
    ((∀ m' ∈ ms, m'.Identified ∧ (m'.table.columns.map (·.prop)).Nodup) →
      ∃ catalog, Catalog.ofRegistry (.ofMappings ms) = .ok catalog) ∧
    ∀ catalog, Catalog.ofRegistry (.ofMappings ms) = .ok catalog →
      ∃ statements b, catalog.recordStatements m.business = .ok statements ∧
        statements.insert.bindBean bean = .ok b ∧
        let columns := m.table.columns.filter (·.insertable)
        let params := columns.map stored
        b.template.params.map b.values.get? = params.map some ∧
        (∀ condition, b.prepare condition =
          (m.table.realName condition).map fun table =>
            ⟨RecordStatements.insertSql m table columns, params⟩) ∧
        ∀ row : Row, row.Carries columns params →
          let record := m.recordOfRow row
          record.keys.Perm (columns.map (·.prop)) ∧
          ∀ c ∈ columns, record.get? c.prop = some (stored c) ∧
            b.values.get? c.prop = some (stored c) := by
  refine ⟨Catalog.ofRegistry_ok, fun catalog hcatalog => ?_⟩
  obtain ⟨statements, hstatements, hgenerated⟩ :=
    Catalog.recordStatements_generated hmapping hm hdistinct hkey hcatalog
  let columns := m.table.columns.filter (·.insertable)
  have hplaces : statements.insert.Places m columns _ := hgenerated.insert
  have hcolumns : ∀ c ∈ columns, c ∈ m.table.columns := fun c hc => List.mem_of_mem_filter hc
  have hcolumnsDistinct : (columns.map (·.prop)).Nodup :=
    hdistinct.sublist (List.filter_sublist.map _)
  obtain ⟨values, hbind, hvalues⟩ := Template.bindBean_places hplaces hdistinct hcolumns
    fun c hc => hstored c (hcolumns c hc) (List.mem_filter.mp hc).2
  refine ⟨statements, _, hstatements, hbind, ?_, Template.prepare_places hplaces hvalues,
    fun row hrow => ?_⟩
  · rw [Template.params, hplaces.names, firstOccurrences_of_nodup hcolumnsDistinct,
      List.map_map, List.map_map]
    exact List.map_congr_left hvalues
  · obtain ⟨hkeys, hread⟩ := recordOfRow_carried hlabels hcolumns hcolumnsDistinct hrow
    exact ⟨hkeys, fun c hc => ⟨hread c hc, hvalues c hc⟩⟩

/-- A quoted column, one that is not inserted, and a property that the bean lacks. The row has its
labels in other letters, and its columns the other way round. -/
theorem Mapping.recordOfRow_inserted_order :
    let columns := [Magazine.column .mySQL "id" "pk" .int,
      Magazine.column .mySQL "kind" "`Order`" .string,
      .declare .mySQL "joined" "JOINED" .date false true,
      Magazine.column .mySQL "score" "score" .int]
    let m : Mapping :=
      { business := "game", group := "default", table := Magazine.table .mySQL "TB_GAME" columns }
    let bean : Record := Dict.ofList [("id", .text "7"), ("kind", .text ":id")]
    let row : Row := ⟨["SCORE", "order", "Pk"], [.null, .text ":id", .int 7]⟩
    ∃ catalog statements b, Catalog.ofRegistry (.ofMappings [m]) = .ok catalog ∧
      catalog.recordStatements "game" = .ok statements ∧
      statements.insert.bindBean bean = .ok b ∧
      b.template.params.map b.values.get? = [some (.int 7), some (.text ":id"), some .null] ∧
      (m.recordOfRow row).keys.Perm ["id", "kind", "score"] ∧
      (m.recordOfRow row).get? "kind" = b.values.get? "kind" := by
  intro columns m bean row
  have hm : m.Identified := by
    refine ⟨by decide, fun column hcolumn => ?_⟩
    simp only [m, Magazine.table, columns, List.mem_cons, List.not_mem_nil, or_false] at hcolumn
    rcases hcolumn with rfl | rfl | rfl | rfl
    · exact ⟨by decide, .mySQL, "pk", "pk", by decide, .inl rfl, rfl⟩
    · exact ⟨by decide, .mySQL, "Order", "`Order`", by decide, .inr rfl, rfl⟩
    · exact ⟨by decide, .mySQL, "JOINED", "JOINED", by decide, .inl rfl, rfl⟩
    · exact ⟨by decide, .mySQL, "score", "score", by decide, .inl rfl, rfl⟩
  have hdistinct : (m.table.columns.map (·.prop)).Nodup := by decide
  have hlabels : m.Labelled := by
    unfold Labelled
    decide +kernel
  let stored (c : Column) : Value := c.stored bean
  have hstored : ∀ c ∈ m.table.columns, c.insertable = true → c.taken bean = .ok (stored c) := by
    decide +kernel
  obtain ⟨hcatalog, hinserted⟩ := recordOfRow_inserted
    (show (Registry.ofMappings [m]).mapping m.business = .ok m by decide +kernel) hm hdistinct
    hlabels (show m.table.pk? = some (Magazine.column .mySQL "id" "pk" .int) by decide +kernel)
    hstored
  obtain ⟨catalog, hcatalog⟩ := hcatalog (by simpa using ⟨hm, hdistinct⟩)
  obtain ⟨statements, b, hstatements, hbind, hparams, -, hrow⟩ := hinserted catalog hcatalog
  have hcarries : row.Carries (m.table.columns.filter (·.insertable))
      ((m.table.columns.filter (·.insertable)).map stored) := by
    refine ⟨["Pk", "order", "SCORE"], ?_, by decide +kernel⟩
    exact .cons (by decide +kernel) (.cons (by decide +kernel) (.cons (by decide +kernel) .nil))
  obtain ⟨hkeys, hread⟩ := hrow row hcarries
  obtain ⟨hkind, hbound⟩ := hread (Magazine.column .mySQL "kind" "`Order`" .string)
    (by decide +kernel)
  exact ⟨catalog, statements, b, hcatalog, hstatements, hbind, hparams, hkeys,
    hkind.trans hbound.symm⟩

end DataAccess
