import DataAccess.Catalog
import DataAccess.Proofs.Catalog.Beans
import DataAccess.Proofs.Catalog.Filling
import Mathlib.Data.List.Nodup
import Mathlib.Data.String.Basic

/-!
# The statements that a catalog generates

Each statement of a record is text that is read again as a template. Bound to a bean and prepared,
it has the columns and the placeholders that its kind asks for, and at each placeholder what the
column there takes from the bean.
-/

set_option autoImplicit false

namespace DataAccess

open Text

theorem Table.mem_of_column? {t : Table} {prop : String} {c : Column}
    (h : t.column? prop = some c) : c ∈ t.columns ∧ c.prop = prop :=
  ⟨List.mem_of_find?_eq_some h, by simpa using List.find?_some h⟩

theorem Table.mem_of_version? {t : Table} {v : Column} (h : t.version? = some v) :
    v ∈ t.columns := by
  obtain ⟨prop, -, hcolumn⟩ := Option.bind_eq_some_iff.mp h
  exact (Table.mem_of_column? hcolumn).1

theorem Table.mem_of_pk? {t : Table} {key : Column} (h : t.pk? = some key) : key ∈ t.columns := by
  obtain ⟨prop, -, hcolumn⟩ := Option.bind_eq_some_iff.mp h
  exact (Table.mem_of_column? hcolumn).1

theorem Table.column?_of_mem {t : Table} (h : (t.columns.map (·.prop)).Nodup) {c : Column}
    (hc : c ∈ t.columns) : t.column? c.prop = some c := find?_key h hc

namespace Template

structure HasProps (t : Template) (m : Mapping) (props : List String) : Prop where
  mapping : t.mapping = m
  types : t.paramTypes = Dict.empty
  guards : t.body.guardVars = []
  names : t.body.paramNames = props
  props : ∀ prop ∈ props, t.paramProps.get? prop = some prop

section
variable {t : Template} {m : Mapping} {props : List String} (h : t.HasProps m props) {β : Type}
  [Bean β] {bean : β}
include h

theorem paramType?_hasProps {prop : String} (hprop : prop ∈ props) :
    t.paramType? prop = m.type? prop := by
  rw [paramType?, h.types, h.props prop hprop, h.mapping]
  rfl

theorem convert_hasProps {prop : String} (hprop : prop ∈ props) {c : Column}
    (hc : m.column? prop = some c) :
    c.type.convert ((Bean.value? bean (t.propOf prop)).getD .null) = c.taken bean := by
  rw [propOf, h.props prop hprop, Option.getD_some, Column.taken, (Table.mem_of_column? hc).2]
  cases Bean.value? bean prop <;> rfl

theorem exists_taken_hasProps {b : BoundTemplate} (hb : t.bindBean bean = .ok b) {prop : String}
    (hprop : prop ∈ props) {c : Column} (hc : m.column? prop = some c) :
    ∃ v, c.taken bean = .ok v := by
  have htype : t.paramType? prop = some c.type := by
    rw [paramType?_hasProps h hprop, Mapping.type?, hc]
    rfl
  obtain ⟨v, hv⟩ := bindBean_converts hb prop (h.names ▸ hprop) c.type htype
  exact ⟨v, (convert_hasProps h hprop hc).symm.trans hv⟩

theorem bindBean_hasProps {stored : Column → Value}
    (hstored : ∀ prop ∈ props, ∃ c, m.column? prop = some c ∧ c.taken bean = .ok (stored c)) :
    ∃ values : Dict Value, t.bindBean bean = .ok { template := t, values } ∧
      ∀ prop ∈ props, ∀ c, m.column? prop = some c → values.get? prop = some (stored c) := by
  have htakes : t.Takes bean fun param => ((m.column? param).map stored).getD .null := by
    intro param hparam
    rw [h.names] at hparam
    obtain ⟨c, hc, htaken⟩ := hstored param hparam
    refine ⟨c.type, ?_, ?_⟩
    · rw [paramType?_hasProps h hparam, Mapping.type?, hc]
      rfl
    · dsimp only
      rw [convert_hasProps h hparam hc, htaken, hc]
      rfl
  obtain ⟨values, hbind, hvalues⟩ := bindBean_taken htakes h.guards
  refine ⟨values, hbind, fun prop hprop c hc => ?_⟩
  rw [hvalues prop (h.names ▸ hprop), hc]
  rfl

variable (hprops : ∀ prop ∈ props, ∃ c, m.column? prop = some c)
include hprops

theorem bindBean_iff_hasProps (bean : β) : (∃ b, t.bindBean bean = .ok b) ↔
    ∀ prop ∈ props, ∀ c, m.column? prop = some c → ∃ w, c.taken bean = .ok w := by
  constructor
  · rintro ⟨b, hb⟩ prop hprop c hc
    exact exists_taken_hasProps h hb hprop hc
  · intro htaken
    have hstored : ∀ prop ∈ props,
        ∃ c, m.column? prop = some c ∧ c.taken bean = .ok (c.stored bean) := by
      intro prop hprop
      obtain ⟨c, hc⟩ := hprops prop hprop
      exact ⟨c, hc, Column.taken_stored (htaken prop hprop c hc)⟩
    obtain ⟨values, hbind, -⟩ := bindBean_hasProps h hstored
    exact ⟨_, hbind⟩

theorem values_hasProps {b : BoundTemplate} (hb : t.bindBean bean = .ok b) {prop : String}
    (hprop : prop ∈ props) {c : Column} (hc : m.column? prop = some c) :
    c.taken bean = .ok (c.stored bean) ∧ b.values.get? prop = some (c.stored bean) := by
  have hstored : ∀ prop ∈ props,
      ∃ c, m.column? prop = some c ∧ c.taken bean = .ok (c.stored bean) := by
    intro prop hprop
    obtain ⟨c, hc⟩ := hprops prop hprop
    exact ⟨c, hc, Column.taken_stored (exists_taken_hasProps h hb hprop hc)⟩
  obtain ⟨values, hbind, hvalues⟩ := bindBean_hasProps h hstored
  cases hb.symm.trans hbind
  exact ⟨Column.taken_stored (exists_taken_hasProps h hb hprop hc), hvalues prop hprop c hc⟩

end

/-- A statement over the table of the mapping. Its parameters stand for the properties of the
columns in their order, and prepared it is the SQL with the values of these. -/
structure Places (t : Template) (m : Mapping) (columns : List Column) (sql : String → String) :
    Prop where
  mapping : t.mapping = m
  types : t.paramTypes = Dict.empty
  guards : t.body.guardVars = []
  names : t.body.paramNames = columns.map (·.prop)
  props : ∀ c ∈ columns, t.paramProps.get? c.prop = some c.prop
  prepare : ∀ (values : Dict Value) (bound : List Value) (condition : Option TableCondition),
    List.Forall₂ (fun c v => values.get? c.prop = some v) columns bound →
      t.body.prepare m.flavor values condition ⟨"", []⟩ =
        (m.table.realName condition).map fun table => ⟨sql table, bound⟩

section
variable {t : Template} {m : Mapping} {columns : List Column} {sql : String → String}
  (h : t.Places m columns sql) {β : Type} [Bean β] {bean : β} {stored : Column → Value}
include h

theorem prepare_places {values : Dict Value}
    (hvalues : ∀ c ∈ columns, values.get? c.prop = some (stored c))
    (condition : Option TableCondition) :
    BoundTemplate.prepare { template := t, values } condition =
      (m.table.realName condition).map fun table => ⟨sql table, columns.map stored⟩ := by
  have hbound : List.Forall₂ (fun c v => values.get? c.prop = some v) columns
      (columns.map stored) := by
    rw [List.forall₂_map_right_iff, List.forall₂_same]
    exact hvalues
  rw [BoundTemplate.prepare, BoundTemplate.mapping, h.mapping]
  exact h.prepare values _ condition hbound

theorem hasProps_of_places : t.HasProps m (columns.map (·.prop)) :=
  ⟨h.mapping, h.types, h.guards, h.names, by simpa using h.props⟩

variable (hdistinct : (m.table.columns.map (·.prop)).Nodup)
  (hcolumns : ∀ c ∈ columns, c ∈ m.table.columns)
include hdistinct hcolumns

theorem exists_taken_places {b : BoundTemplate} (hb : t.bindBean bean = .ok b) :
    ∀ c ∈ columns, ∃ v, c.taken bean = .ok v := fun c hc =>
  exists_taken_hasProps (hasProps_of_places h) hb (List.mem_map_of_mem hc)
    (Table.column?_of_mem hdistinct (hcolumns c hc))

variable (hstored : ∀ c ∈ columns, c.taken bean = .ok (stored c))
include hstored

theorem bindBean_places : ∃ values : Dict Value, t.bindBean bean = .ok { template := t, values } ∧
    ∀ c ∈ columns, values.get? c.prop = some (stored c) := by
  have hcolumn {c : Column} (hc : c ∈ columns) : m.column? c.prop = some c :=
    Table.column?_of_mem hdistinct (hcolumns c hc)
  have hprops : ∀ prop ∈ columns.map (·.prop),
      ∃ c, m.column? prop = some c ∧ c.taken bean = .ok (stored c) := by
    intro prop hprop
    obtain ⟨c, hc, rfl⟩ := List.mem_map.mp hprop
    exact ⟨c, hcolumn hc, hstored c hc⟩
  obtain ⟨values, hbind, hvalues⟩ := bindBean_hasProps (hasProps_of_places h) hprops
  exact ⟨values, hbind, fun c hc => hvalues c.prop (List.mem_map_of_mem hc) c (hcolumn hc)⟩

theorem prepareBean_places (condition : Option TableCondition) :
    t.prepareBean bean condition =
      (m.table.realName condition).map fun table => ⟨sql table, columns.map stored⟩ := by
  obtain ⟨values, hbind, hvalues⟩ := bindBean_places h hdistinct hcolumns hstored
  rw [prepareBean, hbind]
  exact prepare_places h hvalues condition

end

end Template

theorem Text.not_mem_of_isName {name : List Char} (h : isName name = true) : '#' ∉ name := by
  intro hmem
  cases List.all_eq_true.mp (all_of_isName h) '#' hmem

theorem Text.not_mem_of_written {cs : List Char} {names : List String} (h : Written cs names) :
    '#' ∉ cs := by
  induction h with
  | nil => exact List.not_mem_nil
  | plain hc hcs ih =>
    rw [List.mem_cons, not_or]
    refine ⟨?_, ih⟩
    rintro rfl
    cases hc
  | quoted hname hcs ih => simp [not_mem_of_isName hname, ih]
  | param hname hend hcs ih => simp [not_mem_of_isName hname, ih]

namespace RecordStatements

section
variable {m : Mapping}

theorem fills_equals {flavor : Flavor} {used : Nat} (words : String)
    (hwords : words.toList.all isPlain = true) {column : Column} (h : column.IsPlain) :
    Fills flavor used (words ++ column.sqlName ++ "=:" ++ column.prop) [column.prop]
      (words ++ column.sqlName ++ "=" ++ flavor.placeholder (used + 1)) := by
  have hsign : "=:" ++ column.prop = "=" ++ (":" ++ column.prop) := by
    rw [← String.toList_inj]
    simp
  have hparam : Fills flavor used ("=:" ++ column.prop) [column.prop]
      ("=" ++ flavor.placeholder (used + 1)) := by
    rw [hsign]
    exact fills_behind "=" (by decide) (fills_param h.prop)
  have hcolumn := fills_append (fills_column h) hparam (endsName_words (by decide) _)
  simpa only [String.append_assoc, List.nil_append] using fills_behind words hwords hcolumn

def keyCheck (m : Mapping) (key : Column) (used : Nat) : String :=
  " where " ++ key.sqlName ++ "=" ++ m.flavor.placeholder (used + 1)

theorem byKey_fills {used : Nat} {key : Column} (h : key.IsPlain) :
    Fills m.flavor used (byKey key) [key.prop] (keyCheck m key used) :=
  fills_equals " where " (by decide) h

theorem endsName_byKey (key : Column) : EndsName (byKey key).toList := by
  rw [byKey, String.append_assoc, String.append_assoc]
  exact endsName_words (by decide) _

def assigned (m : Mapping) (columns : List Column) : List Column :=
  columns.filter fun c => m.table.version? ≠ some c

def assignments (m : Mapping) : Nat → List Column → List String
  | _, [] => []
  | used, c :: rest =>
    if m.table.version? = some c then
      (c.sqlName ++ " = " ++ c.sqlName ++ " + 1") :: assignments m used rest
    else (c.sqlName ++ "=" ++ m.flavor.placeholder (used + 1)) :: assignments m (used + 1) rest

def versionCheck (m : Mapping) (used : Nat) : String :=
  match m.table.version? with
  | some v => " and " ++ v.sqlName ++ "=" ++ m.flavor.placeholder (used + 1)
  | none => ""

theorem isVersion_iff (hdistinct : (m.table.columns.map (·.prop)).Nodup) {c : Column}
    (hc : c ∈ m.table.columns) : isVersion m c = true ↔ m.table.version? = some c := by
  rw [isVersion]
  cases hversion : m.table.version? with
  | none => simp
  | some v =>
    have hv := Table.mem_of_version? hversion
    have hsame : v.prop = c.prop ↔ v = c :=
      ⟨List.inj_on_of_nodup_map hdistinct hv hc, fun h => congrArg Column.prop h⟩
    simp [hsame]

theorem fills_counted {flavor : Flavor} {used : Nat} {c : Column} (h : c.IsPlain) :
    Fills flavor used (c.sqlName ++ " = " ++ c.sqlName ++ " + 1") []
      (c.sqlName ++ " = " ++ c.sqlName ++ " + 1") := by
  have hone : Written " + 1".toList [] := written_of_all (by decide)
  apply fills_unnamed
  rw [String.append_assoc, String.append_assoc, String.toList_append, String.toList_append,
    String.toList_append]
  exact h.written_append (written_plain_append (by decide) (h.written_append hone))

theorem fillsEach_assignments (hm : m.Identified)
    (hdistinct : (m.table.columns.map (·.prop)).Nodup) {columns : List Column} {used : Nat}
    (hcolumns : ∀ c ∈ columns, c ∈ m.table.columns) :
    FillsEach m.flavor used (columns.map (assignment m)) ((assigned m columns).map (·.prop))
      (assignments m used columns) := by
  induction columns generalizing used with
  | nil => exact .nil
  | cons c columns ih =>
    rw [List.forall_mem_cons] at hcolumns
    have hplain := hm.columns c hcolumns.1
    have hiff := isVersion_iff hdistinct hcolumns.1
    rw [List.map_cons, assignment, assignments, assigned, List.filter_cons]
    by_cases hversion : m.table.version? = some c
    · rw [if_pos (hiff.mpr hversion), if_pos hversion, if_neg (by simpa using hversion)]
      exact .cons (fills_counted hplain) (ih hcolumns.2)
    · rw [if_neg (hversion ∘ hiff.mp), if_neg hversion, if_pos (by simpa using hversion)]
      have hequals : Fills m.flavor used ("" ++ c.sqlName ++ "=:" ++ c.prop) [c.prop] _ :=
        fills_equals "" (by decide) hplain
      rw [String.empty_append] at hequals
      exact .cons hequals (ih hcolumns.2)

theorem versionCheck_fills (hm : m.Identified) (used : Nat) :
    Fills m.flavor used (sameVersion m) (m.table.version?.toList.map (·.prop))
      (versionCheck m used) := by
  rw [sameVersion, versionCheck]
  cases hversion : m.table.version? with
  | none => exact fills_plain "" rfl
  | some v => exact fills_equals " and " (by decide) (hm.columns v (Table.mem_of_version? hversion))

theorem endsName_sameVersion (m : Mapping) : EndsName (sameVersion m).toList := by
  rw [sameVersion]
  cases m.table.version? with
  | none => rfl
  | some v =>
    dsimp only
    rw [String.append_assoc, String.append_assoc]
    exact endsName_words (by decide) _

def insertSql (m : Mapping) (table : String) (columns : List Column) : String :=
  "insert into " ++ table ++ "(" ++ joined ", " (columns.map (·.sqlName)) ++ ") values(" ++
    joined ", " (placeholders m.flavor 0 columns.length) ++ ")"

def deleteSql (m : Mapping) (table : String) (key : Column) : String :=
  "delete from " ++ table ++ keyCheck m key 0

def selectSql (m : Mapping) (table : String) (key : Column) : String :=
  "select " ++ joined ", " (m.table.columns.map (·.sqlName)) ++ " from " ++ table ++
    keyCheck m key 0

def updateSql (m : Mapping) (table : String) (key : Column) (columns : List Column) : String :=
  let used := (assigned m columns).length
  "update " ++ table ++ " set " ++ joined ", " (assignments m 0 columns) ++
    keyCheck m key used ++ versionCheck m (used + 1)

theorem mem_update_columns {key : Column} (hkey : key ∈ m.table.columns) {columns : List Column}
    (hcolumns : ∀ c ∈ columns, c ∈ m.table.columns) :
    ∀ c ∈ assigned m columns ++ [key] ++ m.table.version?.toList, c ∈ m.table.columns := by
  intro c hc
  rw [List.mem_append, List.mem_append, List.mem_singleton, Option.mem_toList] at hc
  rcases hc with (hc | rfl) | hc
  · exact hcolumns c (List.mem_of_mem_filter hc)
  · exact hkey
  · exact Table.mem_of_version? hc

end

section
variable {registry : Registry} {m : Mapping} (hm : m.Identified)
  (hdistinct : (m.table.columns.map (·.prop)).Nodup)
  (hmapping : registry.mapping m.business = .ok m)
include hm hmapping

theorem statement_places {text front tail filled : String}
    (htext : text.toList = front.toList ++ '@' :: '@' :: (m.business.toList ++ tail.toList))
    (hfront : Written front.toList []) {columns : List Column}
    (htail : Fills m.flavor 0 tail (columns.map (·.prop)) filled) (hend : EndsName tail.toList)
    {props : List String} (hprops : ∀ c ∈ columns, c.prop ∈ props) {sql : String → String}
    (hsql : ∀ table, sql table = front ++ table ++ filled) :
    ∃ t, statement registry m text props = .ok t ∧ t.Places m columns sql := by
  obtain ⟨body, hbuild, hnames, hprepare⟩ :=
    Block.build_table m text hm.business hmapping hfront htail.written hend
  have hguards : body.guardVars = [] := by
    refine Block.guardVars_of_build hbuild
      (Token.not_opening_of_splits (Token.splits_scan _) ?_)
    simp [not_mem_of_written hfront, not_mem_of_written htail.written,
      not_mem_of_isName hm.business]
  rw [← htext] at hbuild
  have hcompile : Template.compile registry m text = .ok { mapping := m, text, body } := by
    rw [Template.compile, Block.ofText_eq_ok.mpr hbuild]
    rfl
  let ownProps := props.foldl (fun d prop => d.insert prop prop) Dict.empty
  let t : Template := { mapping := m, text, body, paramProps := ownProps }
  refine ⟨t, ?_, rfl, rfl, hguards, hnames, fun c hc => ?_,
    fun values bound condition hbound => ?_⟩
  · rw [statement, hcompile]
    exact congrArg Except.ok (Template.withProps_eq _ props)
  · rw [Dict.get?_foldl_insert_map (fun prop => prop), if_pos (hprops c hc)]
  · have hfilled (table : String) : String.ofList (substituted m.flavor table 0
        (front.toList ++ '@' :: '@' :: (m.business.toList ++ tail.toList))) = sql table := by
      have hat (cs : List Char) : EndsName ('@' :: cs) := rfl
      rw [substituted_written hfront (hat _), substituted_table hm.business hend,
        (fills_unnamed hfront).filled, List.length_nil, htail.filled, hsql]
      simp [String.append_assoc]
    rw [hprepare m.flavor values condition bound (List.forall₂_map_left_iff.mpr hbound)]
    simp only [hfilled]

theorem insert_places {columns : List Column} (hcolumns : ∀ c ∈ columns, c ∈ m.table.columns) :
    ∃ t, statement registry m (insertText m columns) (columns.map (·.prop)) = .ok t ∧
      t.Places m columns fun table => insertSql m table columns := by
  have hplain : ∀ c ∈ columns, c.IsPlain := fun c hc => hm.columns c (hcolumns c hc)
  have hvalues : Fills m.flavor 0 _ (columns.map (·.prop)) _ :=
    fills_joined (fillsEach_params hplain)
  have htail := fills_behind "(" (by decide) (fills_append (fills_joined (fillsEach_columns hplain))
    (fills_behind ") values(" (by decide) (fills_append hvalues (fills_plain ")" (by decide)) rfl))
    (endsName_words (by decide) _))
  rw [List.nil_append, List.append_nil] at htail
  have htext : (insertText m columns).toList = "insert into ".toList ++ '@' :: '@' ::
      (m.business.toList ++ ("(" ++ (joined ", " (columns.map (·.sqlName)) ++ (") values(" ++
        (joined ", " (columns.map fun c => ":" ++ c.prop) ++ ")")))).toList) := by
    unfold insertText
    simp
  refine statement_places hm hmapping htext (written_of_all (by decide)) htail
    (endsName_words (by decide) _) (fun c hc => List.mem_map_of_mem hc) fun table => ?_
  unfold insertSql
  simp only [String.append_assoc]

theorem byKey_places {key : Column} (hkey : key ∈ m.table.columns) {text front : String}
    (hfront : Written front.toList [])
    (htext : text.toList =
      front.toList ++ '@' :: '@' :: (m.business.toList ++ (byKey key).toList)) :
    ∃ t, statement registry m text [key.prop] = .ok t ∧
      t.Places m [key] fun table => front ++ table ++ keyCheck m key 0 :=
  have htail : Fills m.flavor 0 (byKey key) ([key].map (·.prop)) (keyCheck m key 0) :=
    byKey_fills (hm.columns key hkey)
  statement_places hm hmapping htext hfront htail (endsName_byKey key) (by simp) fun _ => rfl

theorem delete_places {key : Column} (hkey : key ∈ m.table.columns) :
    ∃ t, statement registry m (deleteText m key) [key.prop] = .ok t ∧
      t.Places m [key] fun table => deleteSql m table key := by
  have htext : (deleteText m key).toList = "delete from ".toList ++ '@' :: '@' ::
      (m.business.toList ++ (byKey key).toList) := by simp [deleteText]
  exact byKey_places hm hmapping hkey (written_of_all (by decide)) htext

theorem select_places {key : Column} (hkey : key ∈ m.table.columns) :
    ∃ t, statement registry m (selectText m key) [key.prop] = .ok t ∧
      t.Places m [key] fun table => selectSql m table key := by
  have hfrom : Written " from ".toList [] := written_of_all (by decide)
  have hfront : Written ("select " ++ joined ", " (m.table.columns.map (·.sqlName)) ++
      " from ").toList [] := by
    rw [String.append_assoc, String.toList_append, String.toList_append]
    exact written_plain_append (by decide) (Search.columns_written hm.columns hfrom)
  have htext : (selectText m key).toList = ("select " ++
      joined ", " (m.table.columns.map (·.sqlName)) ++ " from ").toList ++ '@' :: '@' ::
      (m.business.toList ++ (byKey key).toList) := by simp [selectText]
  exact byKey_places hm hmapping hkey hfront htext

include hdistinct in
theorem update_places {key : Column}
    (hkey : key ∈ m.table.columns) {columns : List Column}
    (hcolumns : ∀ c ∈ columns, c ∈ m.table.columns) :
    ∃ t, statement registry m (updateText m key columns) (updateProps m key columns) = .ok t ∧
      t.Places m (assigned m columns ++ [key] ++ m.table.version?.toList)
        fun table => updateSql m table key columns := by
  have hset : Fills m.flavor 0 (" set " ++ _) _ _ := fills_behind " set " (by decide)
    (fills_joined (fillsEach_assignments hm hdistinct hcolumns))
  have hwhere := fills_append hset (byKey_fills (hm.columns key hkey)) (endsName_byKey key)
  have hwhole := fills_append hwhere (versionCheck_fills hm _) (endsName_sameVersion m)
  have htail : Fills m.flavor 0
      (" set " ++ joined ", " (columns.map (assignment m)) ++ byKey key ++ sameVersion m)
      ((assigned m columns ++ [key] ++ m.table.version?.toList).map (·.prop))
      (" set " ++ joined ", " (assignments m 0 columns) ++
        keyCheck m key (assigned m columns).length ++
        versionCheck m ((assigned m columns).length + 1)) := by
    simpa using hwhole
  have htext : (updateText m key columns).toList = "update ".toList ++ '@' :: '@' ::
      (m.business.toList ++ (" set " ++ joined ", " (columns.map (assignment m)) ++ byKey key ++
        sameVersion m).toList) := by simp [updateText]
  have hend : EndsName (" set " ++ joined ", " (columns.map (assignment m)) ++ byKey key ++
      sameVersion m).toList := by
    rw [String.append_assoc, String.append_assoc]
    exact endsName_words (by decide) _
  have htaken : ∀ c ∈ assigned m columns ++ [key] ++ m.table.version?.toList,
      c.prop ∈ updateProps m key columns := by
    intro c hc
    rw [List.mem_append, List.mem_append, List.mem_singleton, Option.mem_toList] at hc
    rcases hc with (hc | rfl) | hc
    · obtain ⟨hmem, hother⟩ := List.mem_filter.mp hc
      have hassigned : isVersion m c = false := by
        rw [← Bool.not_eq_true, isVersion_iff hdistinct (hcolumns c hmem)]
        simpa using hother
      refine List.mem_append_left _ (List.mem_append_left _ ?_)
      exact List.mem_map_of_mem (List.mem_filter.mpr ⟨hmem, by rw [hassigned]; rfl⟩)
    · simp [updateProps]
    · simp [updateProps, Option.mem_def.mp hc]
  refine statement_places hm hmapping htext (written_of_all (by decide)) htail hend htaken
    fun table => ?_
  unfold updateSql
  simp only [String.append_assoc]

end

end RecordStatements

end DataAccess
