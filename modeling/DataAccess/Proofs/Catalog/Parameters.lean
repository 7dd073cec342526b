import DataAccess.Proofs.Catalog.Records
import DataAccess.Proofs.Conversion

/-!
# The parameters of generated statements

A generated statement is text that is read again, and its parameters are the names that are found
there. Where every property is an identifier, these are the properties that were written; the
names of columns and of the business need only be text in which no parameter and no directive
stands.
-/

set_option autoImplicit false

namespace DataAccess

namespace Token

def isFixed : Token → Bool
  | text _ | table _ | column _ => true
  | _ => false

def marks (tokens : List Token) : List Token := tokens.filter (!·.isFixed)

def params (names : List String) : List Token := names.map fun name => param name.toList

end Token

theorem names_of_marks {tokens : List Token} {names : List String}
    (h : Token.marks tokens = Token.params names) :
    tokens.filterMap Token.param? = names ∧
      ∀ directive argument, Token.opening directive argument ∉ tokens := by
  constructor
  · have hfixed (token : Token) :
        (if (!token.isFixed) = true then token.param? else none) = token.param? := by
      cases token <;> rfl
    have hmarks : (Token.marks tokens).filterMap Token.param? = tokens.filterMap Token.param? := by
      rw [Token.marks, List.filterMap_filter]
      exact List.filterMap_congr fun token _ => hfixed token
    rw [← hmarks, h, Token.params, List.filterMap_map]
    have hnames : Token.param? ∘ (fun name => Token.param name.toList) = some :=
      funext fun name => congrArg some String.ofList_toList
    rw [hnames, List.filterMap_some]
  · intro directive argument hmem
    have hmark : Token.opening directive argument ∈ Token.marks tokens :=
      List.mem_filter.mpr ⟨hmem, rfl⟩
    rw [h] at hmark
    obtain ⟨name, -, hname⟩ := List.mem_map.mp hmark
    cases hname

namespace Text

/-- Read in front of anything that ends a name, the text has parameters of these names, and no
directives. -/
def Carries (text : String) (names : List String) : Prop :=
  ∀ rest, EndsName rest → Token.marks (Token.scan (text.toList ++ rest)) =
    Token.params names ++ Token.marks (Token.scan rest)

variable {text text' : String} {names names' : List String}

theorem marks_of_carries (h : Carries text names) :
    Token.marks (Token.scan text.toList) = Token.params names := by
  have hwhole := h [] rfl
  rwa [List.append_nil, Token.scan, show Token.marks [] = [] from rfl, List.append_nil] at hwhole

theorem carries_append (h : Carries text names) (h' : Carries text' names')
    (hend : EndsName text'.toList) : Carries (text ++ text') (names ++ names') := by
  intro rest hrest
  have hparams : Token.params (names ++ names') = Token.params names ++ Token.params names' :=
    List.map_append
  rw [String.toList_append, List.append_assoc, h _ (endsName_append hend hrest), h' _ hrest,
    hparams, List.append_assoc]

theorem carries_behind (words : String) (hwords : words.toList.all isPlain = true)
    (h : Carries text names) : Carries (words ++ text) names := by
  intro rest hrest
  rw [String.toList_append, List.append_assoc, ← h rest hrest]
  generalize words.toList = cs at hwords
  induction cs with
  | nil => rfl
  | cons c cs ih =>
    rw [List.all_cons, Bool.and_eq_true] at hwords
    rw [List.cons_append, Token.scan_of_begins (Token.begins_isPlain hwords.1)]
    exact ih hwords.2

theorem carries_empty : Carries "" [] := fun _ _ => rfl

theorem carries_plain (words : String) (hwords : words.toList.all isPlain = true) :
    Carries words [] := by
  have h := carries_behind words hwords carries_empty
  rwa [String.append_empty] at h

theorem carries_quoted (name : String) (h : '"' ∉ name.toList) :
    Carries ("\"" ++ name ++ "\"") [] := by
  intro rest _
  have hbegins : Token.Begins ('"' :: (name.toList ++ '"' :: rest)) _ rest :=
    .quoted (.inr rfl) h
  have htext : ("\"" ++ name ++ "\"").toList ++ rest =
      '"' :: (name.toList ++ '"' :: rest) := by simp
  rw [htext, Token.scan_of_begins hbegins]
  rfl

theorem carries_param {name : String} (h : isName name.toList = true) :
    Carries (":" ++ name) [name] := by
  intro rest hrest
  have htext : (":" ++ name).toList ++ rest = ':' :: (name.toList ++ rest) := by simp
  rw [htext, Token.scan_of_begins (.param h hrest)]
  rfl

theorem carries_table {business : String} (h : isName business.toList = true) :
    Carries ("@@" ++ business) [] := by
  intro rest hrest
  have htext : ("@@" ++ business).toList ++ rest = '@' :: '@' :: (business.toList ++ rest) := by
    simp
  rw [htext, Token.scan_of_begins (.table h hrest)]
  rfl

theorem carries_joined {α : Type} {items : List α} {part : α → String} {names : α → List String}
    (h : ∀ item ∈ items, Carries (part item) (names item)) :
    Carries (joined ", " (items.map part)) (items.flatMap names) := by
  induction items with
  | nil => exact carries_empty
  | cons item items ih =>
    rw [List.forall_mem_cons] at h
    cases items with
    | nil => simpa [joined] using h.1
    | cons next items =>
      have hrest := carries_behind ", " (by decide) (ih h.2)
      have hwhole := carries_append h.1 hrest (endsName_words (by decide) _)
      simpa only [joined, List.map_cons, List.flatMap_cons, String.append_assoc] using hwhole

end Text

open Text

namespace RecordStatements

theorem statement_hasProps {registry : Registry} {m : Mapping} {text : String}
    {props : List String} {t : Template} (h : statement registry m text props = .ok t)
    (htext : Carries text props) : t.HasProps m props := by
  obtain ⟨read, hread, hdone⟩ := bind_eq_ok.mp h
  cases hdone
  obtain ⟨body, hbody, hmade⟩ := bind_eq_ok.mp hread
  cases hmade
  obtain ⟨hnames, hno⟩ := names_of_marks (marks_of_carries htext)
  have hparams : body.paramNames = props := (Block.paramNames_of_ofText hbody).trans hnames
  have hguards := Block.guardVars_of_build (Block.ofText_eq_ok.mp hbody) hno
  rw [Template.withProps_eq]
  refine ⟨rfl, rfl, hguards, hparams, fun prop hprop => ?_⟩
  exact (Dict.get?_foldl_insert_map (fun prop => prop) props _ prop).trans (if_pos hprop)

def takenByUpdate (m : Mapping) (key : Column) : List Column :=
  (updateColumns m key).filter (fun c => !isVersion m c) ++ [key] ++ m.table.version?.toList

def entries (statements : RecordStatements) (m : Mapping) (key : Column) :
    List (Template × List Column) :=
  [(statements.insert, insertColumns m),
    (statements.insertWithoutKey, (insertColumns m).filter (·.prop != key.prop)),
    (statements.delete, [key]), (statements.select, [key])] ++
      statements.update?.toList.map fun update => (update, takenByUpdate m key)

theorem ofKey_eq_ok {registry : Registry} {m : Mapping} {key : Column}
    {statements : RecordStatements} (h : ofKey registry m key = .ok statements) :
    statement registry m (insertText m (insertColumns m)) ((insertColumns m).map (·.prop)) =
        .ok statements.insert ∧
      statement registry m (insertText m ((insertColumns m).filter (·.prop != key.prop)))
        (((insertColumns m).filter (·.prop != key.prop)).map (·.prop)) =
          .ok statements.insertWithoutKey ∧
      (∀ update ∈ statements.update?, statement registry m
        (updateText m key (updateColumns m key)) (updateProps m key (updateColumns m key)) =
          .ok update) ∧
      statement registry m (deleteText m key) [key.prop] = .ok statements.delete ∧
      statement registry m (selectText m key) [key.prop] = .ok statements.select := by
  obtain ⟨insert, hinsert, h⟩ := bind_eq_ok.mp h
  obtain ⟨rest, hrest, h⟩ := bind_eq_ok.mp h
  dsimp only at h
  -- without a column to change there is no update
  split at h
  · obtain ⟨update?, hupdate, h⟩ := bind_eq_ok.mp h
    obtain ⟨delete, hdelete, h⟩ := bind_eq_ok.mp h
    obtain ⟨select, hselect, h⟩ := bind_eq_ok.mp h
    cases hupdate
    cases h
    refine ⟨hinsert, hrest, fun update hmem => ?_, hdelete, hselect⟩
    cases hmem
  · obtain ⟨update?, hupdate, h⟩ := bind_eq_ok.mp h
    obtain ⟨delete, hdelete, h⟩ := bind_eq_ok.mp h
    obtain ⟨select, hselect, h⟩ := bind_eq_ok.mp h
    cases h
    refine ⟨hinsert, hrest, fun update hmem => ?_, hdelete, hselect⟩
    rw [map_eq_pure_bind] at hupdate
    obtain ⟨t, hread, ht⟩ := bind_eq_ok.mp hupdate
    cases ht
    cases hmem
    exact hread

end RecordStatements

/-- Properties are identifiers, and neither the business nor a column has a parameter or a
directive in its name. -/
structure Mapping.Readable (m : Mapping) : Prop where
  business : Carries ("@@" ++ m.business) []
  props : ∀ c ∈ m.table.columns, isName c.prop.toList = true
  sqlNames : ∀ c ∈ m.table.columns, Carries c.sqlName []

namespace RecordStatements

theorem flatMap_assigned (m : Mapping) (columns : List Column) :
    columns.flatMap (fun c => if isVersion m c then [] else [c.prop]) =
      (columns.filter fun c => !isVersion m c).map (·.prop) := by
  induction columns with
  | nil => rfl
  | cons c columns ih =>
    rw [List.flatMap_cons, ih, List.filter_cons]
    cases isVersion m c <;> rfl

section
variable {m : Mapping} (hm : m.Readable)
include hm

theorem carries_equals (words : String) (hwords : words.toList.all isPlain = true) {c : Column}
    (hc : c ∈ m.table.columns) :
    Carries (words ++ c.sqlName ++ "=:" ++ c.prop) [c.prop] := by
  have hsign : "=:" ++ c.prop = "=" ++ (":" ++ c.prop) := by
    rw [← String.toList_inj]
    simp
  have hparam : Carries ("=:" ++ c.prop) [c.prop] := by
    rw [hsign]
    exact carries_behind "=" (by decide) (carries_param (hm.props c hc))
  have hcolumn := carries_append (hm.sqlNames c hc) hparam (endsName_words (by decide) _)
  simpa only [String.append_assoc, List.nil_append] using carries_behind words hwords hcolumn

theorem carries_behind_table (marked words : String) (hmarked : marked = words ++ "@@")
    (hwords : words.toList.all isPlain = true) {tail : String} {names : List String}
    (htail : Carries tail names) (hend : EndsName tail.toList) :
    Carries (marked ++ m.business ++ tail) names := by
  have hwhole := carries_behind words hwords (carries_append hm.business htail hend)
  simpa only [hmarked, String.append_assoc, List.nil_append] using hwhole

theorem carries_columns {columns : List Column} (hcolumns : ∀ c ∈ columns, c ∈ m.table.columns) :
    Carries (joined ", " (columns.map (·.sqlName))) [] := by
  have hnone : columns.flatMap (fun _ => ([] : List String)) = [] := by simp
  rw [← hnone]
  exact carries_joined fun c hc => hm.sqlNames c (hcolumns c hc)

theorem insertText_carries {columns : List Column} (hcolumns : ∀ c ∈ columns, c ∈ m.table.columns) :
    Carries (insertText m columns) (columns.map (·.prop)) := by
  have hparams : Carries (joined ", " (columns.map fun c => ":" ++ c.prop))
      (columns.flatMap fun c => [c.prop]) :=
    carries_joined fun c hc => carries_param (hm.props c (hcolumns c hc))
  have hvalues := carries_behind ") values(" (by decide)
    (carries_append hparams (carries_plain ")" (by decide)) rfl)
  have htail := carries_behind "(" (by decide)
    (carries_append (carries_columns hm hcolumns) hvalues (endsName_words (by decide) _))
  have hwhole := carries_behind_table hm "insert into @@" "insert into " (by decide) (by decide)
    htail (endsName_words (by decide) _)
  have hnames : columns.flatMap (fun c => [c.prop]) = columns.map (·.prop) :=
    List.map_eq_flatMap.symm
  rw [List.nil_append, List.append_nil, hnames] at hwhole
  unfold insertText
  simpa only [String.append_assoc] using hwhole

theorem byKey_carries {key : Column} (hkey : key ∈ m.table.columns) :
    Carries (byKey key) [key.prop] :=
  carries_equals hm " where " (by decide) hkey

theorem deleteText_carries {key : Column} (hkey : key ∈ m.table.columns) :
    Carries (deleteText m key) [key.prop] :=
  carries_behind_table hm "delete from @@" "delete from " (by decide) (by decide)
    (byKey_carries hm hkey) (endsName_byKey key)

theorem selectText_carries {key : Column} (hkey : key ∈ m.table.columns) :
    Carries (selectText m key) [key.prop] := by
  have hfrom := carries_behind_table hm " from @@" " from " (by decide) (by decide)
    (byKey_carries hm hkey) (endsName_byKey key)
  have hend : EndsName (" from @@" ++ m.business ++ byKey key).toList := by
    rw [String.append_assoc]
    exact endsName_words (by decide) _
  have hcolumns := carries_append (carries_columns hm fun _ hc => hc) hfrom hend
  have hwhole := carries_behind "select " (by decide) hcolumns
  simpa only [selectText, String.append_assoc, List.nil_append] using hwhole

theorem assignment_carries {c : Column} (hc : c ∈ m.table.columns) :
    Carries (assignment m c) (if isVersion m c then [] else [c.prop]) := by
  rw [assignment]
  split
  · have hone := carries_append (hm.sqlNames c hc) (carries_plain " + 1" (by decide)) rfl
    have hcounted := carries_append (hm.sqlNames c hc) (carries_behind " = " (by decide) hone)
      (endsName_words (by decide) _)
    simpa only [String.append_assoc, List.nil_append] using hcounted
  · have hequals := carries_equals hm "" rfl hc
    rwa [String.empty_append] at hequals

theorem sameVersion_carries :
    Carries (sameVersion m) (m.table.version?.map (·.prop)).toList := by
  rw [sameVersion]
  cases hversion : m.table.version? with
  | none => exact carries_empty
  | some v => exact carries_equals hm " and " (by decide) (Table.mem_of_version? hversion)

theorem updateText_carries {key : Column} (hkey : key ∈ m.table.columns) {columns : List Column}
    (hcolumns : ∀ c ∈ columns, c ∈ m.table.columns) :
    Carries (updateText m key columns) (updateProps m key columns) := by
  have hset : Carries (joined ", " (columns.map (assignment m)))
      ((columns.filter fun c => !isVersion m c).map (·.prop)) := by
    rw [← flatMap_assigned]
    exact carries_joined fun c hc => assignment_carries hm (hcolumns c hc)
  have hwhere := carries_append (byKey_carries hm hkey) (sameVersion_carries hm)
    (endsName_sameVersion m)
  have hend : EndsName (byKey key ++ sameVersion m).toList := by
    rw [String.toList_append]
    exact endsName_append (endsName_byKey key) (endsName_sameVersion m)
  have htail := carries_behind " set " (by decide) (carries_append hset hwhere hend)
  have hwhole := carries_behind_table hm "update @@" "update " (by decide) (by decide) htail
    (endsName_words (by decide) _)
  simpa only [updateText, updateProps, String.append_assoc, List.append_assoc] using hwhole

end

theorem hasProps_of_mem_entries {registry : Registry} {m : Mapping} {key : Column}
    (hm : m.Readable) (hkey : m.table.pk? = some key) {statements : RecordStatements}
    (h : ofKey registry m key = .ok statements) :
    ∀ entry ∈ statements.entries m key, entry.1.HasProps m (entry.2.map (·.prop)) ∧
      ∀ c ∈ entry.2, c ∈ m.table.columns := by
  obtain ⟨hinsert, hrest, hupdate, hdelete, hselect⟩ := ofKey_eq_ok h
  have hpk := Table.mem_of_pk? hkey
  have hwithout : ∀ c ∈ (insertColumns m).filter (·.prop != key.prop), c ∈ m.table.columns :=
    fun _ hc => mem_insertColumns (List.mem_of_mem_filter hc)
  intro entry hentry
  simp only [entries, List.mem_append, List.mem_cons, List.not_mem_nil, or_false, List.mem_map,
    Option.mem_toList] at hentry
  rcases hentry with (rfl | rfl | rfl | rfl) | ⟨update, hsome, rfl⟩
  · have htext := insertText_carries hm fun _ => mem_insertColumns
    exact ⟨statement_hasProps hinsert htext, fun _ => mem_insertColumns⟩
  · exact ⟨statement_hasProps hrest (insertText_carries hm hwithout), hwithout⟩
  · exact ⟨statement_hasProps hdelete (deleteText_carries hm hpk), by simpa using hpk⟩
  · exact ⟨statement_hasProps hselect (selectText_carries hm hpk), by simpa using hpk⟩
  · have hupdatable : ∀ c ∈ updateColumns m key, c ∈ m.table.columns := fun _ => mem_updateColumns
    have htext := updateText_carries hm hpk hupdatable
    have hprops : updateProps m key (updateColumns m key) = (takenByUpdate m key).map (·.prop) := by
      cases hversion : m.table.version? <;> simp [updateProps, takenByUpdate, hversion]
    refine ⟨hprops ▸ statement_hasProps (hupdate update hsome) htext, fun c hc => ?_⟩
    rcases List.mem_append.mp hc with hc | hc
    · rcases List.mem_append.mp hc with hc | hc
      · exact hupdatable c (List.mem_of_mem_filter hc)
      · exact List.mem_singleton.mp hc ▸ hpk
    · exact Table.mem_of_version? (Option.mem_toList.mp hc)

end RecordStatements

theorem ColumnType.blank_of_convert {type : ColumnType} {v : Value}
    (h : type.convert v = .ok .null) : v = .null ∨ ∃ s, v = .text s ∧ isBlankText s = true :=
  (convert_eq_null.mp h).imp_right And.right

namespace Catalog

/-- A mapping with a key is registered, and it can be read. Then every catalog over the registry
has its statements, the parameters of each are the properties of its columns, and a bean is bound
where the columns take its values: what it holds for a property is what the parameter has, in the
column's type, and is null only where it was null or blank. -/
theorem recordStatements_params {ms : List Mapping} {catalog : Catalog}
    (hcatalog : ofRegistry (.ofMappings ms) = .ok catalog) {m : Mapping}
    (hmapping : (Registry.ofMappings ms).mapping m.business = .ok m) {key : Column}
    (hkey : m.table.pk? = some key) (hm : m.Readable) :
    ∃ statements, catalog.recordStatements m.business = .ok statements ∧
      ∀ entry ∈ statements.entries m key,
        entry.1.params = firstOccurrences (entry.2.map (·.prop)) ∧
        (∀ param ∈ entry.1.params, ∃ c, m.column? param = some c) ∧
        ∀ {β : Type} [Bean β] (bean : β),
          ((∃ b, entry.1.bindBean bean = .ok b) ↔ ∀ param ∈ entry.1.params, ∀ c,
            m.column? param = some c → ∃ w, c.taken bean = .ok w) ∧
          ∀ b, entry.1.bindBean bean = .ok b → ∀ param ∈ entry.1.params, ∀ v,
            Bean.value? bean param = some v → ∃ c w, m.column? param = some c ∧
              c.type.convert v = .ok w ∧ b.values.get? param = some w ∧
              (w = .null → v = .null ∨ ∃ s, v = .text s ∧ isBlankText s = true) := by
  obtain ⟨statements, hstatements, hgot⟩ := recordStatements_ofKey hmapping hkey hcatalog
  refine ⟨statements, hgot, fun entry hentry => ?_⟩
  obtain ⟨hprops, hcolumns⟩ :=
    RecordStatements.hasProps_of_mem_entries hm hkey hstatements entry hentry
  have hparam {param : String} : param ∈ entry.1.params ↔ param ∈ entry.2.map (·.prop) := by
    rw [Template.params, mem_firstOccurrences, hprops.names]
  have hcolumn : ∀ param ∈ entry.2.map (·.prop), ∃ c, m.column? param = some c := by
    intro param hparam
    obtain ⟨c, hc, rfl⟩ := List.mem_map.mp hparam
    rw [← Option.isSome_iff_exists, Mapping.column?, Table.column?, List.find?_isSome]
    exact ⟨c, hcolumns c hc, by simp⟩
  refine ⟨by rw [Template.params, hprops.names], fun param hmem => hcolumn param (hparam.mp hmem),
    fun {β} _ bean => ?_⟩
  simp only [hparam]
  refine ⟨Template.bindBean_iff_hasProps hprops hcolumn bean, fun b hb param hmem v hv => ?_⟩
  obtain ⟨c, hc⟩ := hcolumn param hmem
  obtain ⟨htaken, hget⟩ := Template.values_hasProps hprops hcolumn hb hmem hc
  rw [Column.taken, (Table.mem_of_column? hc).2, hv] at htaken
  refine ⟨c, c.stored bean, hc, htaken, hget, fun hnull => ?_⟩
  rw [hnull] at htaken
  exact ColumnType.blank_of_convert htaken

/-- A column in quotes with a number sign in its name, and one in which blank text is null. -/
theorem recordStatements_params_user :
    let columns := [Magazine.column .oracle "id" "pk" .int,
      Magazine.column .oracle "userName" "`USER#`" .string,
      Magazine.column .oracle "vipPoints" "VIP_POINTS" .int]
    let m : Mapping :=
      { business := "user", group := "default", table := Magazine.table .oracle "TB_USER" columns }
    let bean : Record :=
      Dict.ofList [("id", .int 1), ("userName", .text "lily"), ("vipPoints", .text " ")]
    ∃ catalog statements b, ofRegistry (.ofMappings [m]) = .ok catalog ∧
      catalog.recordStatements "user" = .ok statements ∧
      statements.insert.params = ["id", "userName", "vipPoints"] ∧
      statements.insert.bindBean bean = .ok b ∧
      b.values.get? "userName" = some (.text "lily") ∧
      b.values.get? "vipPoints" = some .null := by
  intro columns m bean
  have hm : m.Readable := by
    refine ⟨carries_table (by decide), by decide, fun c hc => ?_⟩
    simp only [m, Magazine.table, columns, List.mem_cons, List.not_mem_nil, or_false] at hc
    rcases hc with rfl | rfl | rfl
    · exact carries_plain "pk" (by decide)
    · exact carries_quoted "USER#" (by decide)
    · exact carries_plain "VIP_POINTS" (by decide)
  have hcatalog : (ofRegistry (.ofMappings [m])).isOk = true := by decide +kernel
  obtain ⟨catalog, hcatalog⟩ := exists_of_isOk hcatalog
  obtain ⟨statements, hstatements, hentries⟩ := recordStatements_params hcatalog
    (show (Registry.ofMappings [m]).mapping m.business = .ok m by decide +kernel)
    (show m.table.pk? = some (Magazine.column .oracle "id" "pk" .int) by decide +kernel) hm
  have hmem : (statements.insert, RecordStatements.insertColumns m) ∈
      statements.entries m (Magazine.column .oracle "id" "pk" .int) := List.mem_cons_self
  obtain ⟨hparams, -, hbean⟩ := hentries _ hmem
  have hprops : firstOccurrences ((RecordStatements.insertColumns m).map (·.prop)) =
      ["id", "userName", "vipPoints"] := by decide +kernel
  have hnames := hparams.trans hprops
  dsimp only at hbean
  rw [hnames] at hbean
  obtain ⟨hbinds, hvalues⟩ := hbean bean
  have htaken : ∀ param ∈ ["id", "userName", "vipPoints"], ∀ c,
      m.column? param = some c → ∃ w, c.taken bean = .ok w := by
    intro param _ c hc
    have htaken : ∀ c ∈ m.table.columns, (c.taken bean).isOk = true := by decide +kernel
    exact exists_of_isOk (htaken c (Table.mem_of_column? hc).1)
  obtain ⟨b, hb⟩ := hbinds.mpr htaken
  have hvalue {param : String} (hparam : param ∈ ["id", "userName", "vipPoints"]) {v w : Value}
      (hv : Bean.value? bean param = some v)
      (hw : (m.column? param).map (·.type.convert v) = some (.ok w)) :
      b.values.get? param = some w := by
    obtain ⟨c, w', hc, hw', hget, -⟩ := hvalues b hb param hparam v hv
    rw [hc, Option.map_some, hw'] at hw
    cases hw
    exact hget
  refine ⟨catalog, statements, b, hcatalog, hstatements, hnames, hb, ?_, ?_⟩
  · exact hvalue (v := .text "lily") (by decide) (by decide +kernel) (by decide +kernel)
  · exact hvalue (v := .text " ") (by decide) (by decide +kernel) (by decide +kernel)

/-- The property is written into the text as it is, and only its front is read as a name. No column
has the name, and the record's value is not bound. -/
theorem property_unread :
    let columns := [Magazine.column .mySQL "id" "pk" .int,
      Magazine.column .mySQL "user.name" "userName" .string]
    let m : Mapping :=
      { business := "user", group := "default", table := Magazine.table .mySQL "TB_USER" columns }
    let bean : Record := Dict.ofList [("id", .int 1), ("user.name", .text "lily")]
    m.column? "user" = none ∧
    (do
      let catalog ← ofRegistry (.ofMappings [m])
      let statements ← catalog.recordStatements "user"
      return (statements.insert.params, ← statements.insert.prepareBean bean none)) =
        .ok (["id", "user"],
          ⟨"insert into TB_USER(pk, userName) values(?, ?.name)", [.int 1, .null]⟩) := by
  decide +kernel

end Catalog

end DataAccess
