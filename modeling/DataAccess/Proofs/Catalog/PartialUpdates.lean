import DataAccess.Proofs.Catalog.Records
import DataAccess.Proofs.Template.Assignments

/-!
# Updates of some properties

The strings that a caller gives are assigned to in the text of an update. What is looked up is the
identifier that a string begins with, and what stands behind that goes to the database.
-/

set_option autoImplicit false

namespace DataAccess

open Text

theorem Table.column?_of_pk? {t : Table} {key : Column} (h : t.pk? = some key) :
    t.column? key.prop = some key := by
  obtain ⟨prop, -, hcolumn⟩ := Option.bind_eq_some_iff.mp h
  rw [(mem_of_column? hcolumn).2, hcolumn]

namespace PartialUpdate

theorem build_update {registry : Registry} {m : Mapping}
    (hbusiness : isName m.business.toList = true)
    (hmapping : registry.mapping m.business = .ok m) {key : Column} (hkey : key.IsPlain)
    {ps : List String} (h : ∀ p ∈ ps, p.toList.all isPlain = true) (source : String) :
    ∃ check, check.guardVars = [] ∧
      Block.Leads (RecordStatements.byKey key).toList [key.prop] .done check ∧
      Block.build registry m source 0 (Token.scan ("update @@" ++ m.business ++ " set " ++
        joined ", " (ps.map assignment) ++ RecordStatements.byKey key).toList) =
          (setLinks m ps).map fun ls => (Block.chain (Link.ofChars "update ".toList)
            (.table m (Block.chain (Link.ofChars " set ".toList ++ ls) check)), []) := by
  have hfills : Fills m.flavor 0 (RecordStatements.byKey key) [key.prop]
      (RecordStatements.keyCheck m key 0) := RecordStatements.byKey_fills hkey
  have hwritten := hfills.written
  have hdone : Block.build registry m source 0 (Token.scan []) = .ok (.done, []) := by
    rw [Token.scan]
    rfl
  have hend : EndsName [] := rfl
  obtain ⟨check, hcheck, hleads⟩ := Block.build_written hwritten hend hdone
  rw [List.append_nil] at hcheck
  refine ⟨check, ?_, hleads, ?_⟩
  · exact Block.guardVars_of_build hcheck
      (Token.not_opening_of_splits (Token.splits_scan _) (not_mem_of_written hwritten))
  · have hset : Becomes registry m (" set " ++ joined ", " (ps.map assignment)) _ :=
      becomes_behind " set " (by decide) (becomes_set h)
    have hstops : Stops (RecordStatements.byKey key).toList := by
      rw [RecordStatements.byKey, String.append_assoc, String.append_assoc]
      exact stops_words (by decide) _
    have hends : EndsName ((" set " ++ joined ", " (ps.map assignment)).toList ++
        (RecordStatements.byKey key).toList) := by
      rw [String.toList_append]
      rfl
    have htext : ("update @@" ++ m.business ++ " set " ++ joined ", " (ps.map assignment) ++
        RecordStatements.byKey key).toList = "update ".toList ++ '@' :: '@' ::
          (m.business.toList ++ ((" set " ++ joined ", " (ps.map assignment)).toList ++
            (RecordStatements.byKey key).toList)) := by simp
    rw [htext, build_isPlain (by decide), Token.scan_of_begins (.table hbusiness hends),
      Block.build, String.ofList_toList, hmapping, hset source 0 _ hstops, hcheck]
    cases setLinks m ps <;> rfl

structure Updates (t : Template) (m : Mapping) (key : Column) (props assigned : List String) :
    Prop where
  mapping : t.mapping = m
  types : t.paramTypes = Dict.empty
  guards : t.body.guardVars = []
  names : t.body.paramNames = fronts assigned ++ [key.prop]
  props : ∀ prop ∈ props ++ [key.prop], t.paramProps.get? prop = some prop
  prepare : ∀ (values : Dict Value) (bound : List Value) (condition : Option TableCondition),
    List.Forall₂ (fun name v => values.get? name = some v) (fronts assigned ++ [key.prop]) bound →
      t.body.prepare m.flavor values condition ⟨"", []⟩ =
        (m.table.realName condition).map fun table =>
          ⟨"update " ++ table ++ " set " ++ joined ", " (assignments m 0 assigned) ++
            RecordStatements.keyCheck m key (fronts assigned).length, bound⟩

theorem prepare_update {m : Mapping} {key : Column} (hkey : key.IsPlain) {check : Block}
    (hleads : Block.Leads (RecordStatements.byKey key).toList [key.prop] .done check)
    {ls : List Link} {values : Dict Value} {bound : List Value}
    (hbound : List.Forall₂ (fun name v => values.get? name = some v)
      (Link.names ls ++ [key.prop]) bound) (condition : Option TableCondition) :
    (Block.chain (Link.ofChars "update ".toList) (.table m (Block.chain
      (Link.ofChars " set ".toList ++ ls) check))).prepare m.flavor values condition ⟨"", []⟩ =
        (m.table.realName condition).map fun table =>
          ⟨"update " ++ table ++ " set " ++ Link.sql m.flavor 0 ls ++
            RecordStatements.keyCheck m key (Link.names ls).length, bound⟩ := by
  generalize hset : Block.chain (Link.ofChars " set ".toList ++ ls) check = set
  rw [Block.prepare_ofChars, Block.prepare]
  cases m.table.realName condition with
  | error e => rfl
  | ok table =>
    have hvalues := List.forall₂_take_append _ _ _ hbound.flip
    have hlast := List.forall₂_drop_append _ _ _ hbound.flip
    have hcheck : Fills m.flavor (Link.names ls).length (RecordStatements.byKey key) _ _ :=
      RecordStatements.byKey_fills hkey
    show set.prepare _ _ _ _ = _
    rw [← hset, Block.chain_append, Block.prepare_ofChars, Block.prepare_chain hvalues.flip,
      hleads.prepare m.flavor values condition _ table _ hlast.flip]
    have hcount := hvalues.length_eq
    simp only [List.nil_append, List.length_nil, hcount, hcheck.filled table,
      List.take_append_drop, String.ofList_toList, String.empty_append]
    rfl

def equalities (m : Mapping) (used : Nat) (columns : List Column) : List String :=
  List.zipWith (fun c placeholder => c.sqlName ++ "=" ++ placeholder) columns
    (placeholders m.flavor used columns.length)

theorem exists_columns {m : Mapping} {names : List String}
    (h : ∀ name ∈ names, ∃ c, m.column? name = some c) :
    ∃ columns : List Column, columns.map (·.prop) = names ∧
      ∀ c ∈ columns, m.column? c.prop = some c := by
  induction names with
  | nil => exact ⟨[], rfl, nofun⟩
  | cons name names ih =>
    rw [List.forall_mem_cons] at h
    obtain ⟨c, hc⟩ := h.1
    obtain ⟨columns, hnames, hcolumns⟩ := ih h.2
    have hprop : c.prop = name := (Table.mem_of_column? hc).2
    refine ⟨c :: columns, by rw [List.map_cons, hprop, hnames], ?_⟩
    rw [List.forall_mem_cons, hprop]
    exact ⟨hc, hcolumns⟩

theorem assignments_of_isName {m : Mapping} {columns : List Column}
    (h : ∀ c ∈ columns, isName c.prop.toList = true ∧ m.column? c.prop = some c) (used : Nat) :
    assignments m used (columns.map (·.prop)) = equalities m used columns := by
  induction columns generalizing used with
  | nil => rfl
  | cons c columns ih =>
    rw [List.forall_mem_cons] at h
    obtain ⟨hfront, htail⟩ := front?_of_isName h.1.1
    rw [List.map_cons, assignments, hfront, Option.bind_some, h.1.2, htail]
    dsimp only
    rw [String.append_empty, String.append_empty, ih h.2]
    rfl

theorem places_of_updates {t : Template} {m : Mapping} {key : Column} {props : List String}
    {columns : List Column} (h : Updates t m key props (columns.map (·.prop)))
    (hprops : ∀ c ∈ columns, c.prop ∈ props)
    (hcolumns : ∀ c ∈ columns, isName c.prop.toList = true ∧ m.column? c.prop = some c) :
    t.Places m (columns ++ [key]) fun table => "update " ++ table ++ " set " ++
      joined ", " (equalities m 0 columns) ++
        RecordStatements.keyCheck m key columns.length := by
  have hnames : ∀ prop ∈ columns.map (·.prop), isName prop.toList = true := by
    simpa using fun c hc => (hcolumns c hc).1
  have hfronts := fronts_of_isName hnames
  refine ⟨h.mapping, h.types, h.guards, ?_, fun c hc => h.props _ ?_,
    fun values bound condition hbound => ?_⟩
  · rw [h.names, hfronts, List.map_append]
    rfl
  · rcases List.mem_append.mp hc with hc | hc
    · exact List.mem_append_left _ (hprops c hc)
    · rw [List.mem_singleton.mp hc]
      exact List.mem_append_right _ (List.mem_singleton_self _)
  · have hbound' : List.Forall₂ (fun name v => values.get? name = some v)
        (fronts (columns.map (·.prop)) ++ [key.prop]) bound := by
      have hprops : columns.map (·.prop) ++ [key.prop] = (columns ++ [key]).map (·.prop) := by simp
      rw [hfronts, hprops]
      exact List.forall₂_map_left_iff.mpr hbound
    rw [h.prepare values bound condition hbound', hfronts, assignments_of_isName hcolumns,
      List.length_map]

end PartialUpdate

open PartialUpdate

namespace Catalog

section
variable {catalog : Catalog} {m : Mapping} {key : Column}
  (hmapping : catalog.registry.mapping m.business = .ok m) (hpk : m.table.pk? = some key)
  {props : List String}
include hmapping hpk

theorem updateProps_eq : catalog.updateProps m.business props =
    if (props.filter (· != key.prop)).isEmpty then
      .error (.invalidConfiguration
        ("no property to update for business [" ++ m.business ++ "]"))
    else RecordStatements.statement catalog.registry m ("update @@" ++ m.business ++ " set " ++
      joined ", " ((props.filter (· != key.prop)).map assignment) ++ RecordStatements.byKey key)
        (props ++ [key.prop]) := by
  rw [updateProps, hmapping]
  show (m.pk >>= _) = _
  rw [Mapping.pk, hpk]
  rfl

variable (hbusiness : isName m.business.toList = true) (hkey : key.IsPlain)
  (hprops : ∀ p ∈ props, p.toList.all isPlain = true)
include hbusiness hkey hprops

theorem updateProps_links (hsome : props.filter (· != key.prop) ≠ []) :
    ∃ template : List Link → Template,
      catalog.updateProps m.business props =
        (setLinks m (props.filter (· != key.prop))).map template ∧
      ∀ ls, setLinks m (props.filter (· != key.prop)) = .ok ls →
        Updates (template ls) m key props (props.filter (· != key.prop)) := by
  rw [updateProps_eq hmapping hpk, if_neg (by simpa using hsome)]
  generalize hassigned : props.filter (· != key.prop) = assigned
  have hplain : ∀ p ∈ assigned, p.toList.all isPlain = true := fun p hp =>
    hprops p (List.mem_of_mem_filter (hassigned ▸ hp))
  generalize htext : "update @@" ++ m.business ++ " set " ++
    joined ", " (assigned.map assignment) ++ RecordStatements.byKey key = text
  obtain ⟨check, hguards, hleads, hbuild⟩ := build_update hbusiness hmapping hkey hplain text
  rw [htext] at hbuild
  let body (ls : List Link) := Block.chain (Link.ofChars "update ".toList)
    (.table m (Block.chain (Link.ofChars " set ".toList ++ ls) check))
  let ownProps := (props ++ [key.prop]).foldl (fun d prop => d.insert prop prop) Dict.empty
  refine ⟨fun ls => { mapping := m, text, body := body ls, paramProps := ownProps }, ?_,
    fun ls hls => ?_⟩
  · rw [RecordStatements.statement, Template.compile, Block.ofText, hbuild]
    cases setLinks m assigned with
    | error e => rfl
    | ok ls => exact congrArg Except.ok (Template.withProps_eq _ _)
  · obtain ⟨hnames, hsql⟩ := setLinks_eq_ok hls
    refine ⟨rfl, rfl, ?_, ?_, fun prop hprop => ?_, fun values bound condition hbound => ?_⟩
    · rw [Block.guardVars_chain, Block.guardVars, Block.guardVars_chain, hguards]
    · rw [Block.paramNames_chain, Block.paramNames, Block.paramNames_chain, hleads.paramNames,
        Link.names_append, Link.names_ofChars, Link.names_ofChars, hnames]
      rfl
    · rw [Dict.get?_foldl_insert_map (fun prop => prop), if_pos hprop]
    · rw [← hnames] at hbound ⊢
      rw [← hsql 0]
      exact prepare_update hkey hleads hbound condition

theorem updateProps_eq_error (hsome : props.filter (· != key.prop) ≠ []) (e : Fault) :
    catalog.updateProps m.business props = .error e ↔
      unknown? m (fronts (props.filter (· != key.prop))) = some e := by
  obtain ⟨template, heq, -⟩ := updateProps_links hmapping hpk hbusiness hkey hprops hsome
  rw [heq, ← setLinks_eq_error]
  cases setLinks m (props.filter (· != key.prop)) <;> simp [Except.map]

theorem updateProps_eq_ok {t : Template} (ht : catalog.updateProps m.business props = .ok t) :
    props.filter (· != key.prop) ≠ [] ∧
      unknown? m (fronts (props.filter (· != key.prop))) = none ∧
      Updates t m key props (props.filter (· != key.prop)) := by
  have hsome : props.filter (· != key.prop) ≠ [] := by
    intro hnone
    rw [updateProps_eq hmapping hpk, hnone] at ht
    cases ht
  obtain ⟨template, heq, hupdates⟩ := updateProps_links hmapping hpk hbusiness hkey hprops hsome
  refine ⟨hsome, ?_, ?_⟩
  · rw [Option.eq_none_iff_forall_ne_some]
    intro e he
    rw [(updateProps_eq_error hmapping hpk hbusiness hkey hprops hsome e).mpr he] at ht
    cases ht
  · rw [heq] at ht
    cases hls : setLinks m (props.filter (· != key.prop)) with
    | error e =>
      rw [hls] at ht
      cases ht
    | ok ls =>
      rw [hls] at ht
      cases ht
      exact hupdates ls hls

theorem exists_updateProps_iff : (∃ t, catalog.updateProps m.business props = .ok t) ↔
    props.filter (· != key.prop) ≠ [] ∧
      unknown? m (fronts (props.filter (· != key.prop))) = none := by
  constructor
  · rintro ⟨t, ht⟩
    obtain ⟨hsome, hnone, -⟩ := updateProps_eq_ok hmapping hpk hbusiness hkey hprops ht
    exact ⟨hsome, hnone⟩
  · rintro ⟨hsome, hnone⟩
    cases h : catalog.updateProps m.business props with
    | ok t => exact ⟨t, rfl⟩
    | error e =>
      rw [updateProps_eq_error hmapping hpk hbusiness hkey hprops hsome, hnone] at h
      cases h

omit hmapping hbusiness hkey hprops in
theorem forall_column?_iff : (∀ p ∈ props.filter (· != key.prop), ∃ c, m.column? p = some c) ↔
    ∀ p ∈ props, ∃ c, m.column? p = some c := by
  constructor
  · intro h p hp
    by_cases hkeyed : p = key.prop
    · exact ⟨key, hkeyed ▸ Table.column?_of_pk? hpk⟩
    · exact h p (List.mem_filter.mpr ⟨hp, by simpa using hkeyed⟩)
  · exact fun h p hp => h p (List.mem_of_mem_filter hp)

end

/-- A mapping is registered under an identifier, and its key is plain. Of strings without quotes and
marks the builder looks up the identifiers that they begin with, in their order; the first that is
not mapped is the fault, and only if the key stands alone is there another. What is written behind
the identifiers goes to the database as it is. Where the strings are identifiers, all of them have
to be mapped, and the update assigns to their columns, without the key, a parameter each and is
restricted by the key alone. -/
theorem updateProps_checked {catalog : Catalog} {m : Mapping} {key : Column}
    (hmapping : catalog.registry.mapping m.business = .ok m)
    (hbusiness : isName m.business.toList = true) (hpk : m.table.pk? = some key)
    (hkey : key.IsPlain) {props : List String}
    (hprops : ∀ p ∈ props, p.toList.all isPlain = true) :
    let assigned := props.filter (· != key.prop)
    (assigned = [] → catalog.updateProps m.business props = .error (.invalidConfiguration
      ("no property to update for business [" ++ m.business ++ "]"))) ∧
    (assigned ≠ [] → ∀ e,
      catalog.updateProps m.business props = .error e ↔ unknown? m (fronts assigned) = some e) ∧
    (∀ t, catalog.updateProps m.business props = .ok t → Updates t m key props assigned) ∧
    ((∀ p ∈ props, isName p.toList = true) →
      ((∃ t, catalog.updateProps m.business props = .ok t) ↔
        assigned ≠ [] ∧ ∀ p ∈ props, ∃ c, m.column? p = some c) ∧
      ∀ t, catalog.updateProps m.business props = .ok t → ∃ columns : List Column,
        columns.map (·.prop) = assigned ∧ (∀ c ∈ columns, m.column? c.prop = some c) ∧
        t.Places m (columns ++ [key]) fun table => "update " ++ table ++ " set " ++
          joined ", " (equalities m 0 columns) ++
            RecordStatements.keyCheck m key columns.length) := by
  intro assigned
  refine ⟨fun hnone => ?_, updateProps_eq_error hmapping hpk hbusiness hkey hprops,
    fun t ht => (updateProps_eq_ok hmapping hpk hbusiness hkey hprops ht).2.2, fun hnames => ?_⟩
  · rw [updateProps_eq hmapping hpk]
    exact if_pos (List.isEmpty_iff.mpr hnone)
  · have hfronts : fronts assigned = assigned :=
      fronts_of_isName fun p hp => hnames p (List.mem_of_mem_filter hp)
    refine ⟨?_, fun t ht => ?_⟩
    · rw [exists_updateProps_iff hmapping hpk hbusiness hkey hprops, hfronts, unknown?_eq_none,
        forall_column?_iff hpk]
    · obtain ⟨-, hknown, hupdates⟩ := updateProps_eq_ok hmapping hpk hbusiness hkey hprops ht
      rw [hfronts, unknown?_eq_none] at hknown
      obtain ⟨columns, hcolumns, hfound⟩ := exists_columns hknown
      have hmem : ∀ c ∈ columns, c.prop ∈ props := fun c hc =>
        List.mem_of_mem_filter (hcolumns ▸ List.mem_map_of_mem hc)
      have hassigned : Updates t m key props (columns.map (·.prop)) := by
        rw [hcolumns]
        exact hupdates
      exact ⟨columns, hcolumns, hfound, places_of_updates hassigned hmem fun c hc =>
        ⟨hnames _ (hmem c hc), hfound c hc⟩⟩

def articles : Catalog :=
  { registry := Dict.ofList [("article", Magazine.article .mySQL)] }

/-- Two columns of an article are updated, the key alone is refused, and so is a property that an
article has not, even with text behind it. -/
theorem updateProps_checked_article :
    (∃ t, articles.updateProps "article" ["title", "id", "content"] = .ok t ∧
      t.body.paramNames = ["title", "content", "id"]) ∧
    articles.updateProps "article" ["id"] = .error (.invalidConfiguration
      "no property to update for business [article]") ∧
    articles.updateProps "article" ["title", "views + 1"] =
      .error (.unknownProperty "article" "views") := by
  have hmapping : articles.registry.mapping (Magazine.article .mySQL).business =
      .ok (Magazine.article .mySQL) := by decide +kernel
  have hpk : (Magazine.article .mySQL).table.pk? =
      some (Magazine.column .mySQL "id" "id" .int) := by decide +kernel
  have hkey : (Magazine.column .mySQL "id" "id" .int).IsPlain :=
    ⟨by decide, .mySQL, "id", "id", by decide, .inl rfl, rfl⟩
  obtain ⟨-, -, -, hnames⟩ := updateProps_checked hmapping (by decide) hpk hkey
    (show ∀ p ∈ ["title", "id", "content"], p.toList.all isPlain = true by decide)
  obtain ⟨hiff, hplaces⟩ := hnames (by decide)
  obtain ⟨t, ht⟩ := hiff.mpr ⟨by decide, fun p hp => Option.isSome_iff_exists.mp (by
    revert p
    decide +kernel)⟩
  obtain ⟨columns, hcolumns, -, hplaces⟩ := hplaces t ht
  obtain ⟨hnone, -⟩ := updateProps_checked hmapping (by decide) hpk hkey
    (show ∀ p ∈ ["id"], p.toList.all isPlain = true by decide)
  obtain ⟨-, herror, -⟩ := updateProps_checked hmapping (by decide) hpk hkey
    (show ∀ p ∈ ["title", "views + 1"], p.toList.all isPlain = true by decide)
  refine ⟨⟨t, ht, ?_⟩, hnone (by decide), (herror (by decide) _).mpr (by decide +kernel)⟩
  rw [hplaces.names, List.map_append, hcolumns]
  decide

/-- A string that is no property is accepted for the property in front of it. -/
theorem unmapped_accepted :
    let bean : Record := Dict.ofList [("id", .int 1), ("title", .text "t")]
    (Magazine.article .mySQL).column? "title " = none ∧
      (articles.updateProps "article" ["title "] >>= fun t => t.prepareBean bean none) =
        .ok ⟨"update TB_ARTICLE set NAME =?  where id=?", [.text "t", .int 1]⟩ := by
  decide +kernel

end Catalog

end DataAccess
