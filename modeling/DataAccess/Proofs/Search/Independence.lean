import DataAccess.Proofs.Parameters.Names
import DataAccess.Proofs.Session.Condition
import DataAccess.Proofs.Template.Binding
import DataAccess.Proofs.Template.Independence
import DataAccess.Proofs.Term.Independence
import Mathlib.Data.List.Forall2

/-!
# Values do not reach the text

A search is lowered to the same text whatever its values are. That text holds no number sign
where the mapping and the phrases hold none, so the template of the search has no guards, and
what it is prepared to does not depend on the values that are bound. A template with guards is
prepared to one text for all values on which the guards agree.
-/

set_option autoImplicit false

namespace DataAccess

namespace Text

/-- No directive begins anywhere in the text. -/
def Unmarked (s : String) : Prop := '#' ∉ s.toList

instance decidableUnmarked (s : String) : Decidable (Unmarked s) :=
  inferInstanceAs (Decidable ('#' ∉ s.toList))

theorem unmarked_append (s t : String) : Unmarked (s ++ t) ↔ Unmarked s ∧ Unmarked t := by
  simp [Unmarked]

theorem unmarked_joined {separator : String} (hs : Unmarked separator) {parts : List String}
    (h : ∀ part ∈ parts, Unmarked part) : Unmarked (joined separator parts) := by
  induction parts with
  | nil => simp [joined, Unmarked]
  | cons part rest ih =>
    have hpart := h part (List.mem_cons_self ..)
    have hrest := ih fun p hp => h p (List.mem_cons_of_mem _ hp)
    cases rest with
    | nil => exact hpart
    | cons next rest =>
      rw [joined, unmarked_append, unmarked_append]
      exact ⟨⟨hpart, hs⟩, hrest⟩
      simp

theorem unmarked_trimmed {s : String} (h : Unmarked s) : Unmarked (trimmed s) := by
  obtain ⟨front, back, -, -, heq⟩ := exists_append_trim s.toList
  rw [Unmarked, heq] at h
  rw [Unmarked, toList_trimmed]
  exact fun hm => h (List.mem_append_right _ (List.mem_append_left _ hm))

theorem unmarked_of_all {s : String} (h : s.toList.all isNamePart = true) : Unmarked s := by
  intro hm
  have hmark := List.all_eq_true.mp h '#' hm
  cases hmark

end Text

open Text

namespace Term

variable {m : Mapping}

theorem nullTest?_unmarked {op : Operator} {value : Value} {test : String}
    (h : nullTest? op value = some test) : Unmarked test := by
  unfold nullTest? at h
  split at h <;> cases h <;> simp [Unmarked]

theorem comparison_unmarked (flavor : Flavor) (op : Operator) {column param : String}
    (hcolumn : Unmarked column) (hparam : Unmarked param) :
    Unmarked (comparison flavor op column param) := by
  rw [Unmarked] at hcolumn hparam
  cases op with
  | likeIgnoreCase =>
    cases flavor <;> simp [Unmarked, comparison, Flavor.likeIgnoringCase, hcolumn, hparam]
  | _ => simp [Unmarked, comparison, Operator.sqlSymbol, hcolumn, hparam]

theorem nextName_unmarked (ps : Parameters) (prop : String) : Unmarked (ps.nextName prop) :=
  unmarked_of_all (Parameters.numbered_all prop _)

theorem renderValues_unmarked {prop : String} {type : ColumnType} {values : List Value}
    {ps ps' : Parameters} {params : List String}
    (h : (renderValues prop type values).run ps = (.ok params, ps')) :
    ∀ param ∈ params, Unmarked param := by
  induction values generalizing ps params with
  | nil =>
    cases h
    intro param hparam
    cases hparam
  | cons v values ih =>
    obtain ⟨w, rest, -, hrest, rfl⟩ := renderValues_cons_ok h
    rw [List.forall_mem_cons]
    refine ⟨?_, ih hrest⟩
    rw [unmarked_append]
    exact ⟨by simp [Unmarked], nextName_unmarked ps prop⟩

theorem wrapped_unmarked (isJoin : Bool) {sql : String} (h : Unmarked sql) :
    Unmarked (wrapped isJoin sql) := by
  cases isJoin with
  | false => exact h
  | true =>
    have htrimmed := unmarked_trimmed h
    rw [Unmarked] at htrimmed
    simp [Unmarked, wrapped, htrimmed]

theorem joinSides_unmarked {joiner : Joiner} {isJoin isJoin' : Bool} {l r : String}
    (hl : Unmarked l) (hr : Unmarked r) : Unmarked (joinSides joiner isJoin isJoin' l r) := by
  rw [joinSides]
  split
  · exact hr
  split
  · exact hl
  · have hleft := wrapped_unmarked isJoin hl
    have hright := wrapped_unmarked isJoin' hr
    rw [Unmarked] at hleft hright
    cases joiner <;> simp [Unmarked, Joiner.word, hleft, hright]

section
variable (hcolumns : ∀ column ∈ m.table.columns, Unmarked column.sqlName)
include hcolumns

theorem column?_unmarked {prop : String} {column : Column} (h : m.column? prop = some column) :
    Unmarked column.sqlName :=
  hcolumns column (List.mem_of_find?_eq_some h)

theorem renderCompare_unmarked {prop : String} {op : Operator} {value : Value}
    {ps ps' : Parameters} {sql : String}
    (h : (renderCompare m prop op value).run ps = (.ok sql, ps')) : Unmarked sql := by
  obtain ⟨column, hc, ⟨test, htest, rfl, -⟩ | ⟨-, v, -, rfl, -⟩⟩ := renderCompare_ok h
  · rw [unmarked_append]
    exact ⟨column?_unmarked hcolumns hc, nullTest?_unmarked htest⟩
  · exact comparison_unmarked _ _ (column?_unmarked hcolumns hc) (nextName_unmarked ps prop)

theorem renderAmong_unmarked {prop : String} {values : List Value} {ps ps' : Parameters}
    {sql : String} (h : (renderAmong m prop values).run ps = (.ok sql, ps')) : Unmarked sql := by
  obtain ⟨column, params, hc, hparams, rfl⟩ := renderAmong_ok h
  have hname := column?_unmarked hcolumns hc
  have hlist : Unmarked (joined ", " params) :=
    unmarked_joined (by simp [Unmarked]) (renderValues_unmarked hparams)
  rw [Unmarked] at hname hlist
  simp [Unmarked, hname, hlist]

theorem render_unmarked {t : Option Term} {ps ps' : Parameters} {sql : String}
    (h : (renderSide m t).run ps = (.ok sql, ps')) : Unmarked sql :=
  render_induction (P := fun _ _ sql _ => Unmarked sql) (fun _ => by simp [Unmarked])
    (renderCompare_unmarked hcolumns) (fun _ => renderAmong_unmarked hcolumns)
    (fun _ => joinSides_unmarked) h

end

end Term

namespace Phrase

theorem next_chars (c : Char) (rest : List Char) : ∃ cs, cs ++ (next c rest).2 = c :: rest ∧
    ((next c rest).1 = .literal cs ∨ (next c rest).1 = .word cs) := by
  unfold next
  split
  · refine ⟨c :: (Token.throughQuote c rest).1, ?_, .inl rfl⟩
    rw [Token.throughQuote_eq, List.cons_append, List.take_append_drop]
  split
  · refine ⟨c :: Token.name rest, ?_, .inr rfl⟩
    exact congrArg (c :: ·) List.takeWhile_append_dropWhile
  · exact ⟨[c], rfl, .inl rfl⟩

variable {m : Mapping} (hcolumns : ∀ column ∈ m.table.columns, Unmarked column.sqlName)
include hcolumns

theorem piece_unmarked {piece : Piece} {cs : List Char} (hcs : '#' ∉ cs)
    (h : piece = .literal cs ∨ piece = .word cs) : Unmarked (piece.sql m) := by
  have htext : Unmarked (String.ofList cs) := by rwa [Unmarked, String.toList_ofList]
  rcases h with rfl | rfl
  · exact htext
  · rw [Piece.sql, Mapping.sqlName?]
    cases hc : m.column? (String.ofList cs) with
    | none => exact htext
    | some column => exact Term.column?_unmarked hcolumns hc

theorem pieces_unmarked {cs : List Char} (hcs : '#' ∉ cs) :
    ∀ piece ∈ pieces cs, Unmarked (piece.sql m) := by
  induction cs using pieces.induct with
  | case1 =>
    intro piece hpiece
    rw [pieces] at hpiece
    cases hpiece
  | case2 c rest ih =>
    obtain ⟨front, hchars, hfirst⟩ := next_chars c rest
    rw [← hchars, List.mem_append, not_or] at hcs
    rw [pieces, List.forall_mem_cons]
    exact ⟨piece_unmarked hcolumns hcs.1 hfirst, ih hcs.2⟩

theorem inColumns_unmarked {phrase : String} (h : Unmarked phrase) :
    Unmarked (inColumns m phrase) := by
  apply unmarked_joined (by simp [Unmarked])
  intro part hpart
  obtain ⟨piece, hpiece, rfl⟩ := List.mem_map.mp hpart
  exact pieces_unmarked hcolumns h piece hpiece

end Phrase

namespace Search

variable {s s' : Search} {m : Mapping}

/-- No number sign stands in the business, in a column's name or in a phrase of the search. -/
structure Plain (s : Search) (m : Mapping) : Prop where
  business : Unmarked m.business
  columns : ∀ column ∈ m.table.columns, Unmarked column.sqlName
  selected : ∀ phrase ∈ s.selected?, Unmarked phrase
  orderBy : ∀ phrase ∈ s.orderBy?, Unmarked phrase
  countPhrase : ∀ phrase ∈ s.countPhrase?, Unmarked phrase

/-- Equal except for the values in the leaves of the conditions. -/
structure Alike (s s' : Search) : Prop where
  rest : s' = { s with condition? := s'.condition? }
  condition : Option.Rel Term.Alike s.condition? s'.condition?

theorem frame_unmarked (h : s.Plain m) (lowering : Lowering) :
    Unmarked (s.frame m lowering).1 ∧ Unmarked (s.frame m lowering).2 := by
  have hbusiness := h.business
  have hprojection : Unmarked (s.projection m) := by
    rw [projection]
    split
    · next phrase hphrase =>
      exact Phrase.inColumns_unmarked h.columns (h.selected phrase hphrase)
    · apply unmarked_joined (by simp [Unmarked])
      intro part hpart
      obtain ⟨column, hcolumn, rfl⟩ := List.mem_map.mp hpart
      exact h.columns column hcolumn
  have hcount : Unmarked (s.countPhrase m) := by
    rw [countPhrase]
    split
    · next phrase hphrase =>
      exact Phrase.inColumns_unmarked h.columns (h.countPhrase phrase hphrase)
    · simp [Unmarked]
  have horder : Unmarked (s.orderClause m) := by
    rw [orderClause]
    split
    · next phrase hphrase =>
      rw [unmarked_append]
      exact ⟨by simp [Unmarked], Phrase.inColumns_unmarked h.columns (h.orderBy phrase hphrase)⟩
    · simp [Unmarked]
  rw [Unmarked] at hbusiness hprojection hcount horder
  cases lowering <;> simp [frame, Unmarked, hbusiness, hprojection, hcount, horder]

def clause (predicate : String) : String :=
  if allBlank predicate.toList then "" else " where " ++ String.ofList (trim predicate.toList)

theorem lower_eq (s : Search) (m : Mapping) (lowering : Lowering) :
    s.lower m lowering = do
      let predicate ← Term.renderSide m s.condition?
      return (s.frame m lowering).1 ++ clause predicate ++ (s.frame m lowering).2 := by
  have hclause : s.whereClause m = do return clause (← Term.renderSide m s.condition?) := by
    simp only [whereClause, clause, isBlankText_eq_allBlank, trimmed_eq]
    cases s.condition? <;> rfl
  rw [lower, hclause, bind_assoc]
  simp only [pure_bind]

theorem clause_unmarked {predicate : String} (h : Unmarked predicate) :
    Unmarked (clause predicate) := by
  rw [clause]
  split
  · simp [Unmarked]
  · rw [unmarked_append, ← trimmed_eq]
    exact ⟨by simp [Unmarked], unmarked_trimmed h⟩

theorem lower_unmarked (h : s.Plain m) {lowering : Lowering} {ps ps' : Parameters}
    {text : String} (hlower : (s.lower m lowering).run ps = (.ok text, ps')) : Unmarked text := by
  rw [lower_eq] at hlower
  obtain ⟨predicate, mid, hpredicate, hdone⟩ := run_bind_ok.mp hlower
  have hsql := Term.render_unmarked h.columns hpredicate
  obtain ⟨hhead, htail⟩ := frame_unmarked h lowering
  cases hdone
  rw [unmarked_append, unmarked_append]
  exact ⟨⟨hhead, clause_unmarked hsql⟩, htail⟩

theorem lower_agree (h : s.Alike s') (m : Mapping) (lowering : Lowering) :
    Rendering.Agree (s.lower m lowering) (s'.lower m lowering) := by
  have hside : Rendering.Agree (Term.renderSide m s.condition?)
      (Term.renderSide m s'.condition?) := by
    have hcondition := h.condition
    generalize s.condition? = condition, s'.condition? = condition' at hcondition
    cases hcondition with
    | some halike => exact Term.render_agree halike
    | none => exact Rendering.agree_pure ""
  have hframe : s'.frame m lowering = s.frame m lowering := by
    rw [h.rest]
    rfl
  rw [lower_eq, lower_eq, hframe]
  exact Rendering.agree_bind hside fun predicate => Rendering.agree_pure _

theorem bound_unguarded (h : s.Plain m) {registry : Registry} {lowering : Lowering}
    {b : BoundTemplate} (hb : s.bound registry m lowering = .ok b) :
    b.template.body.guardVars = [] := by
  obtain ⟨text, params, t, hlower, ht, hbind⟩ := bound_ok hb
  have hbuild := Block.ofText_eq_ok.mp (Template.compile_eq_ok ht).2
  rw [BoundTemplate.bindAll_fields hbind]
  exact Block.guardVars_of_build hbuild
    (Token.not_opening_of_splits (Token.splits_scan text.toList) (lower_unmarked h hlower))

theorem bound_alike (h : s.Alike s') {registry : Registry} {lowering : Lowering}
    {b b' : BoundTemplate} (hb : s.bound registry m lowering = .ok b)
    (hb' : s'.bound registry m lowering = .ok b') : b' = { b with values := b'.values } := by
  obtain ⟨text, params, t, hlower, ht, hbind⟩ := bound_ok hb
  obtain ⟨text', params', t', hlower', ht', hbind'⟩ := bound_ok hb'
  obtain ⟨rfl, -⟩ := lower_agree h m lowering _ _ _ _ _ _ rfl hlower hlower'
  obtain rfl : t = t' := Except.ok.inj (ht.symm.trans ht')
  rw [BoundTemplate.bindAll_fields hbind', BoundTemplate.bindAll_fields hbind]

end Search

theorem BoundTemplate.prepare_text_eq {b : BoundTemplate} {values' : Dict Value}
    {default : Option TableCondition} {p p' : Prepared}
    (hguards : ∀ var ∈ b.template.body.guardVars, Block.SameSwitch b.values values' var)
    (h : b.prepare default = .ok p)
    (h' : { b with values := values' }.prepare default = .ok p') : p.sql = p'.sql :=
  (Block.prepare_sameText hguards ⟨rfl, rfl⟩ h h').1

/-- Searches that differ in the values of their leaves alone are prepared to one text, whatever
the mapping, its flavor and the table condition are; and so is a template under two bindings
that agree on whether the variable of each directive is true and whether it is filled. -/
theorem prepared_text_ignores_values :
    (∀ (env : Environment) (s s' : Search) (lowering : Lowering)
      (default : Option TableCondition) (b b' : BoundTemplate) (p p' : Prepared),
      s.Alike s' → (∀ m, env.registry.mapping s.business = .ok m → s.Plain m) →
      Session.lower env s lowering = .ok b → b.prepare default = .ok p →
      Session.lower env s' lowering = .ok b' → b'.prepare default = .ok p' → p.sql = p'.sql) ∧
    ∀ (b : BoundTemplate) (values' : Dict Value) (default : Option TableCondition)
      (p p' : Prepared),
      (∀ var ∈ b.template.vars, Block.SameSwitch b.values values' var) →
      b.prepare default = .ok p → { b with values := values' }.prepare default = .ok p' →
      p.sql = p'.sql := by
  constructor
  · intro env s s' lowering default b b' p p' halike hplain hb hp hb' hp'
    obtain ⟨m, hm, hlower⟩ := bind_eq_ok.mp hb
    obtain ⟨m', hm', hlower'⟩ := bind_eq_ok.mp hb'
    obtain ⟨bound, hbound, hdone⟩ := bind_eq_ok.mp hlower
    obtain ⟨bound', hbound', hdone'⟩ := bind_eq_ok.mp hlower'
    rw [halike.rest] at hm' hdone'
    obtain rfl : m = m' := Except.ok.inj (hm.symm.trans hm')
    have hfields := Search.bound_alike halike hbound hbound'
    have hunguarded := Search.bound_unguarded (hplain m hm) hbound
    cases hdone
    cases hdone'
    rw [hfields] at hp'
    refine BoundTemplate.prepare_text_eq ?_ hp hp'
    intro var hvar
    rw [hunguarded] at hvar
    cases hvar
  · intro b values' default p p' hvars hp hp'
    refine BoundTemplate.prepare_text_eq ?_ hp hp'
    intro var hvar
    exact hvars var (mem_firstOccurrences.mpr hvar)

/-- One of two searches has text for values that would end a quote, name a parameter or close a
directive. Of the two bindings of the template both switch its outer part on and its inner off. -/
theorem prepared_text_ignores_values_quoted :
    let m := Magazine.article .postgreSQL
    let env : Environment := ⟨{ registry := Dict.ofList [("article", m)] }, Dict.empty, {}⟩
    let search (titles : List Value) : Search :=
      { business := "article", condition? := some (.among "title" titles) }
    let prepared (titles : List Value) : Except Fault Prepared := do
      (← Session.lower env (search titles) .count).prepare none
    let template := "select @id#if(a) where @title = :a #notEmpty(b) or :b #end#end"
    let bound (a b : Value) : Except Fault Prepared := do
      let t ← Template.compile env.registry m template
      let values := Dict.ofList [("a", a), ("b", b)]
      ({ template := t, values } : BoundTemplate).prepare none
    (∃ p p', prepared [.text "x", .null] = .ok p ∧
      prepared [.text "') or (:title_0 = '", .text "#end"] = .ok p' ∧ p.params ≠ p'.params ∧
      p.sql = p'.sql) ∧
    ∃ p p', bound (.int 1) .null = .ok p ∧ bound (.bytes [39]) (.bytes []) = .ok p' ∧
      p.params ≠ p'.params ∧ p.sql = p'.sql := by
  intro m env search prepared template bound
  let text := "select count(*) from @@article where NAME in (:title_0, :title_1)"
  let params (v w : Value) : Parameters := ⟨[⟨"title_0", "title", v⟩, ⟨"title_1", "title", w⟩]⟩
  have hplain : ((search [.text "x", .null]).lower m .count).run .empty =
      (.ok text, params (.text "x") .null) := by
    rw [Search.lower_eq]
    rfl
  have hquoted : ((search [.text "') or (:title_0 = '", .text "#end"]).lower m .count).run .empty =
      (.ok text, params (.text "') or (:title_0 = '") (.text "#end")) := by
    rw [Search.lower_eq]
    rfl
  let filled (v w : Value) : Except Fault BoundTemplate := do
    (← Template.compile env.registry m text).bindAll [("title_0", v), ("title_1", w)]
  have hprepared {titles : List Value} {v w : Value}
      (h : ((search titles).lower m .count).run .empty = (.ok text, params v w)) :
      Session.lower env (search titles) .count =
        do return { ← filled v w with lock := .none, condition? := none } := by
    show (Search.bound (search titles) env.registry m .count >>= _) = _
    rw [Search.bound, h]
    rfl
  have hp : prepared [.text "x", .null] =
      .ok ⟨"select count(*) from TB_ARTICLE where NAME in ($1, $2)", [.text "x", .null]⟩ := by
    show (Session.lower _ _ _ >>= _) = _
    rw [hprepared hplain]
    decide +kernel
  have hp' : prepared [.text "') or (:title_0 = '", .text "#end"] =
      .ok ⟨"select count(*) from TB_ARTICLE where NAME in ($1, $2)",
        [.text "') or (:title_0 = '", .text "#end"]⟩ := by
    show (Session.lower _ _ _ >>= _) = _
    rw [hprepared hquoted]
    decide +kernel
  have hm : env.registry.mapping "article" = .ok m := by decide +kernel
  have hvars : (Template.compile env.registry m template).map Template.vars = .ok ["a", "b"] := by
    decide +kernel
  constructor
  · refine ⟨_, _, hp, hp', by decide, ?_⟩
    obtain ⟨b, hb, hprepare⟩ := bind_eq_ok.mp hp
    obtain ⟨b', hb', hprepare'⟩ := bind_eq_ok.mp hp'
    refine prepared_text_ignores_values.1 env _ _ .count none b b' _ _
      ⟨rfl, .some (.among rfl)⟩ ?_ hb hprepare hb' hprepare'
    intro m' hm'
    obtain rfl : m = m' := Except.ok.inj (hm.symm.trans hm')
    have hno (phrase : String) (h : phrase ∈ (none : Option String)) : Unmarked phrase := by
      cases h
    exact ⟨by decide, by decide, hno, hno, hno⟩
  · have hq : bound (.int 1) .null = .ok ⟨"select id where NAME = $1 ", [.int 1]⟩ := by
      decide +kernel
    have hq' : bound (.bytes [39]) (.bytes []) =
        .ok ⟨"select id where NAME = $1 ", [.bytes [39]]⟩ := by
      decide +kernel
    have hswitch : ∀ var ∈ ["a", "b"], Block.SameSwitch (Dict.ofList [("a", .int 1), ("b", .null)])
        (Dict.ofList [("a", .bytes [39]), ("b", .bytes [])]) var := by
      unfold Block.SameSwitch
      decide +kernel
    refine ⟨_, _, hq, hq', by decide, ?_⟩
    obtain ⟨t, ht, hprepare⟩ := bind_eq_ok.mp hq
    obtain ⟨t', ht', hprepare'⟩ := bind_eq_ok.mp hq'
    obtain rfl : t = t' := Except.ok.inj (ht.symm.trans ht')
    refine prepared_text_ignores_values.2 _ _ none _ _ ?_ hprepare hprepare'
    rw [ht] at hvars
    rw [show t.vars = ["a", "b"] from Except.ok.inj hvars]
    exact hswitch

end DataAccess
