import DataAccess.Proofs.Search.Independence
import DataAccess.Proofs.Search.Substitution
import DataAccess.Proofs.Term.Bindings

/-!
# Searches with their values in place

The text of a search is written text with one table in it. Its template has the parameters of
the condition, in the order in which the condition binds its values, each under a name of its
own; so binding the values by name puts each of them at its own placeholder.
-/

set_option autoImplicit false

namespace DataAccess

open Text

def Registry.Keyed (registry : Registry) : Prop :=
  ∀ business m, registry.mapping business = .ok m → m.business = business

theorem Registry.keyed_empty : Registry.Keyed Dict.empty := by
  intro business m h
  cases h

theorem Registry.register_keyed {registry : Registry} (h : registry.Keyed) (m : Mapping) :
    (registry.register m).Keyed := by
  intro business m' hm'
  have hget := Registry.get?_of_mapping hm'
  rw [Registry.register, Dict.get?_insert] at hget
  split at hget
  · next hbusiness =>
    cases hget
    exact hbusiness.symm
  · exact h business m' (by rw [Registry.mapping, hget])

/-- The business, the properties and the names in SQL are identifiers, the latter perhaps
quoted. -/
structure Mapping.Identified (m : Mapping) : Prop where
  business : isName m.business.toList = true
  columns : ∀ column ∈ m.table.columns, column.IsPlain

theorem Block.build_table {registry : Registry} (owner : Mapping) (source : String) {m : Mapping}
    {front tail : List Char} {names : List String} (hbusiness : isName m.business.toList = true)
    (hm : registry.mapping m.business = .ok m) (hfront : Written front [])
    (htail : Written tail names) (hend : EndsName tail) :
    ∃ b, build registry owner source 0
        (Token.scan (front ++ '@' :: '@' :: (m.business.toList ++ tail))) = .ok (b, []) ∧
      b.paramNames = names ∧
      ∀ (flavor : Flavor) (values : Dict Value) (condition : Option TableCondition)
        (bound : List Value),
        List.Forall₂ (fun name v => values.get? name = some v) names bound →
        b.prepare flavor values condition ⟨"", []⟩ =
          (m.table.realName condition).map fun table =>
            ⟨String.ofList (substituted flavor table 0
              (front ++ '@' :: '@' :: (m.business.toList ++ tail))), bound⟩ := by
  have hdone : build registry owner source 0 (Token.scan []) = .ok (done, []) := by
    rw [Token.scan]
    rfl
  have hnil : EndsName [] := rfl
  have hat (cs : List Char) : EndsName ('@' :: cs) := rfl
  obtain ⟨behind, hbehind, hleads⟩ := build_written htail hnil hdone
  rw [List.append_nil] at hbehind
  have htable : build registry owner source 0
      (Token.scan ('@' :: '@' :: (m.business.toList ++ tail))) = .ok (table m behind, []) := by
    rw [Token.scan_of_begins (.table hbusiness hend), build, String.ofList_toList, hm]
    show (build registry owner source 0 (Token.scan tail) >>= _) = _
    rw [hbehind]
    rfl
  obtain ⟨b, hb, hfrontLeads⟩ := build_written hfront (hat _) htable
  refine ⟨b, hb, ?_, ?_⟩
  · rw [hfrontLeads.paramNames, List.nil_append, paramNames, hleads.paramNames, paramNames,
      List.append_nil]
  · intro flavor values condition bound hbound
    have hprepare (name : String) :=
      hfrontLeads.prepare flavor values condition [] name ⟨"", []⟩ .nil
    cases hname : m.table.realName condition with
    | error e =>
      rw [hprepare "", prepare, hname]
      rfl
    | ok name =>
      rw [hprepare name, prepare, hname]
      show behind.prepare flavor values condition _ = _
      rw [hleads.prepare flavor values condition bound name _ hbound, prepare, Except.map,
        substituted_written hfront (hat _), substituted_table hbusiness hend]
      simp [String.append_assoc]

theorem Parameters.get?_ofList_pairs {ps : Parameters} (h : ps.Named) :
    List.Forall₂ (fun name v => (Dict.ofList ps.pairs).get? name = some v)
      (ps.entries.map (·.name)) (ps.entries.map (·.value)) := by
  have hkeys : ps.pairs.map Prod.fst = ps.entries.map (·.name) := by
    rw [pairs, List.map_map]
    rfl
  rw [List.forall₂_map_left_iff, List.forall₂_map_right_iff, List.forall₂_same]
  intro e he
  apply Dict.get?_ofList (hkeys ▸ h.nodup)
  exact List.mem_map.mpr ⟨e, he, rfl⟩

namespace Search

variable {s : Search} {m : Mapping}

/-- Columns are selected as they are, rows are counted as they are, and nothing orders them. -/
structure Unphrased (s : Search) : Prop where
  selected : s.selected? = none
  orderBy : s.orderBy? = none
  countPhrase : s.countPhrase? = none

theorem columns_written {columns : List Column} (h : ∀ column ∈ columns, column.IsPlain)
    {cs : List Char} {names : List String} (hcs : Written cs names) :
    Written ((joined ", " (columns.map (·.sqlName))).toList ++ cs) names := by
  induction columns with
  | nil => exact hcs
  | cons column columns ih =>
    rw [List.forall_mem_cons] at h
    cases columns with
    | nil => exact h.1.written_append hcs
    | cons next columns =>
      have hcomma : ", ".toList.all isPlain = true := by decide
      have hrest := h.1.written_append (written_plain_append hcomma (ih h.2))
      simpa [joined] using hrest

theorem frame_written (hm : m.Identified) (hs : s.Unphrased) (lowering : Lowering) :
    (s.frame m lowering).2 = "" ∧ ∃ front, Written front [] ∧
      (s.frame m lowering).1.toList = front ++ '@' :: '@' :: m.business.toList := by
  cases lowering with
  | load =>
    refine ⟨by rw [frame, orderClause, hs.orderBy], ?_⟩
    have hfrom : Written " from ".toList [] := written_of_all (by decide)
    have hselect : "select ".toList.all isPlain = true := by decide
    refine ⟨_, written_plain_append hselect (columns_written hm.columns hfrom), ?_⟩
    simp [frame, projection, hs.selected]
  | count =>
    refine ⟨rfl, "select count(*) from ".toList, written_of_all (by decide), ?_⟩
    simp [frame, countPhrase, hs.countPhrase]
  | delete =>
    refine ⟨rfl, "delete from ".toList, written_of_all (by decide), ?_⟩
    simp [frame]

theorem clause_written {predicate : String} {names : List String}
    (h : Written predicate.toList names) :
    Written (clause predicate).toList names ∧ EndsName (clause predicate).toList := by
  rw [clause]
  split
  · next hblank =>
    rw [names_of_blank h hblank]
    exact ⟨.nil, rfl⟩
  · have hwhere : " where ".toList.all isPlain = true := by decide
    rw [← trimmed_eq, String.toList_append, toList_trimmed]
    exact ⟨written_plain_append hwhere (written_trim h), rfl⟩

theorem lower_run (hm : m.Identified) (hs : s.Unphrased) {predicate : String} {ps : Parameters}
    (h : (Term.renderSide m s.condition?).run .empty = (.ok predicate, ps))
    (lowering : Lowering) : (s.lower m lowering).run .empty =
      (.ok ((s.frame m lowering).1 ++ clause predicate), ps) := by
  rw [lower_eq, run_bind, h, (frame_written hm hs lowering).1]
  show (Except.ok _, ps) = _
  rw [String.append_empty]

/-- The template of a lowering has the parameters of the condition, and with their values it is
prepared to the text with the values in their places. -/
theorem compile_lowered {registry : Registry} (hm : m.Identified) (hs : s.Unphrased)
    (hmapping : registry.mapping m.business = .ok m) {predicate : String} {names : List String}
    (hpredicate : Written predicate.toList names) (lowering : Lowering) :
    let text := (s.frame m lowering).1 ++ clause predicate
    ∃ body, Template.compile registry m text = .ok { mapping := m, text, body } ∧
      body.paramNames = names ∧
      ∀ (values : Dict Value) (condition : Option TableCondition) (bound : List Value),
        List.Forall₂ (fun name v => values.get? name = some v) names bound →
        body.prepare m.flavor values condition ⟨"", []⟩ =
          (m.table.realName condition).map fun table =>
            ⟨String.ofList (substituted m.flavor table 0 text.toList), bound⟩ := by
  intro text
  obtain ⟨-, front, hfront, hhead⟩ := frame_written hm hs lowering
  obtain ⟨hclause, hend⟩ := clause_written hpredicate
  have htext : text.toList =
      front ++ '@' :: '@' :: (m.business.toList ++ (clause predicate).toList) := by
    rw [String.toList_append, hhead]
    simp
  obtain ⟨body, hbuild, hnames, hprepare⟩ :=
    Block.build_table m text hm.business hmapping hfront hclause hend
  rw [← htext] at hbuild hprepare
  refine ⟨body, ?_, hnames, hprepare m.flavor⟩
  rw [Template.compile, Block.ofText_eq_ok.mpr hbuild]
  rfl

theorem bound_lowered {registry : Registry} (hm : m.Identified) (hs : s.Unphrased)
    (hmapping : registry.mapping m.business = .ok m) {predicate : String} {ps : Parameters}
    (hrender : (Term.renderSide m s.condition?).run .empty = (.ok predicate, ps))
    (lowering : Lowering) :
    let text := (s.frame m lowering).1 ++ clause predicate
    ∃ body, s.bound registry m lowering =
        .ok { template := { mapping := m, text, body }, values := Dict.ofList ps.pairs } ∧
      body.paramNames = ps.entries.map (·.name) ∧
      ∀ condition, body.prepare m.flavor (Dict.ofList ps.pairs) condition ⟨"", []⟩ =
        (m.table.realName condition).map fun table =>
          ⟨String.ofList (substituted m.flavor table 0 text.toList),
            ps.entries.map (·.value)⟩ := by
  intro text
  obtain ⟨new, hnew, hwritten⟩ := Term.render_adds hm.columns hrender
  obtain rfl : new = ps.entries := by simpa [Parameters.empty] using hnew.symm
  have hnamed := Term.render_named hrender Parameters.named_empty
  obtain ⟨body, hcompile, hnames, hprepare⟩ := compile_lowered hm hs hmapping hwritten lowering
  refine ⟨body, ?_, hnames, fun condition => ?_⟩
  · have hpairs : ∀ pair ∈ ps.pairs, pair.1 ∈ body.paramNames := by
      intro pair hpair
      obtain ⟨e, he, rfl⟩ := List.mem_map.mp hpair
      rw [hnames]
      exact List.mem_map_of_mem he
    rw [bound, lower_run hm hs hrender]
    show (Template.compile registry m text >>= _) = _
    rw [hcompile]
    exact BoundTemplate.bindAll_params hpairs fun _ => rfl
  · exact hprepare _ condition _ (Parameters.get?_ofList_pairs hnamed)

end Search

/-- A search whose condition is rendered is lowered in every way: the text is the head of the
lowering and the one condition, and the template is bound to what the leaves bind, in their order.
Preparing it fails only where the table has no name under the table condition; otherwise the
statement is the text with that name and the placeholders in their places, and its parameters are
the values in their order. -/
theorem Session.lower_substitutes {env : Environment} {s : Search} {m : Mapping}
    (hkeyed : env.registry.Keyed) (hmapping : env.registry.mapping s.business = .ok m)
    (hm : m.Identified) (hs : s.Unphrased) {predicate : String} {ps : Parameters}
    (hrender : (Term.renderSide m s.condition?).run .empty = (.ok predicate, ps)) :
    Term.sideBindings m s.condition? = .ok (ps.entries.map fun e => (e.prop, e.value)) ∧
    ∀ lowering, let text := (s.frame m lowering).1 ++ Search.clause predicate
      (s.lower m lowering).run .empty = (.ok text, ps) ∧
      ∃ b, Session.lower env s lowering = .ok b ∧ b.template.text = text ∧
        b.template.body.paramNames = ps.entries.map (·.name) ∧
        ∀ default, b.prepare default =
          (m.table.realName (s.tableCondition?.or default)).map fun table =>
            ⟨String.ofList (Text.substituted m.flavor table 0 text.toList),
              ps.entries.map (·.value)⟩ := by
  obtain ⟨pairs, hpairs, new, hnew, rfl⟩ := Term.render_bindings hrender
  obtain rfl : new = ps.entries := by simpa [Parameters.empty] using hnew.symm
  have hbusiness : env.registry.mapping m.business = .ok m := by
    rw [hkeyed _ _ hmapping]
    exact hmapping
  refine ⟨hpairs, fun lowering => ?_⟩
  intro text
  obtain ⟨body, hbound, hnames, hprepare⟩ :=
    Search.bound_lowered hm hs hbusiness hrender lowering
  have hlower : Session.lower env s lowering = .ok {
      template := { mapping := m, text, body }, values := Dict.ofList ps.pairs,
      lock := s.lock, condition? := s.tableCondition? } := by
    rw [Session.lower, hmapping]
    show (s.bound env.registry m lowering >>= _) = _
    rw [hbound]
    rfl
  exact ⟨Search.lower_run hm hs hrender lowering, _, hlower, rfl, hnames,
    fun default => hprepare (s.tableCondition?.or default)⟩

/-- A quoted column, values that look like marks, and a table that needs a condition. -/
theorem Session.lower_substitutes_sharded :
    let columns := [Magazine.column .oracle "userId" "`USER`" .int,
      Magazine.column .oracle "content" "DESCRIPTION" .string]
    let table : Table :=
      { Magazine.table .oracle "TB_COMMENT" columns with suffixKey := some "userId" }
    let m : Mapping := { business := "comment", group := "comments", table }
    let env : Environment := ⟨{ registry := Registry.register Dict.empty m }, Dict.empty, {}⟩
    let either : Term := .join .or (some (.compare "userId" .equal (.int 7)))
      (some (.among "content" [.text ":userId_0", .text "@@comment"]))
    let both : Term := .join .and (some either) (some (.compare "userId" .bigger (.int 3)))
    let s : Search := { business := "comment", condition? := some both }
    ∃ b, Session.lower env s .delete = .ok b ∧
      b.prepare (some (Dict.ofList [("userId", .int 2)])) =
        .ok ⟨"delete from TB_COMMENT_2 where (\"USER\" = :1 or DESCRIPTION in (:2, :3)) " ++
          "and \"USER\" > :4", [.int 7, .text ":userId_0", .text "@@comment", .int 3]⟩ ∧
      b.prepare none = .error (.missingTableCondition "TB_COMMENT" "userId") := by
  intro columns table m env either both s
  let predicate := " (\"USER\" = :userId_0 or DESCRIPTION in (:content_0, :content_1)) " ++
    "and \"USER\" > :userId_1 "
  let ps : Parameters := ⟨[⟨"userId_0", "userId", .int 7⟩,
    ⟨"content_0", "content", .text ":userId_0"⟩, ⟨"content_1", "content", .text "@@comment"⟩,
    ⟨"userId_1", "userId", .int 3⟩]⟩
  have hrender : (Term.renderSide m s.condition?).run .empty = (.ok predicate, ps) := by
    simp only [s, both, either, Term.renderSide, Term.render, Term.joinSides, Term.wrapped,
      isBlankText_eq_allBlank, trimmed_eq]
    apply Prod.ext <;> decide +kernel
  have hm : m.Identified := by
    refine ⟨by decide, fun column hcolumn => ?_⟩
    rcases List.mem_cons.mp hcolumn with rfl | hcolumn
    · exact ⟨by decide, .oracle, "USER", "`USER`", by decide, .inr rfl, rfl⟩
    · obtain rfl := List.mem_singleton.mp hcolumn
      exact ⟨by decide, .oracle, "DESCRIPTION", "DESCRIPTION", by decide, .inl rfl, rfl⟩
  have hkeyed : env.registry.Keyed := Registry.register_keyed Registry.keyed_empty m
  obtain ⟨-, hlower⟩ :=
    Session.lower_substitutes hkeyed (by decide +kernel) hm ⟨rfl, rfl, rfl⟩ hrender
  obtain ⟨-, b, hb, -, -, hprepare⟩ := hlower .delete
  refine ⟨b, hb, ?_, hprepare none⟩
  rw [hprepare]
  decide +kernel

end DataAccess
