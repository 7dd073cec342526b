import DataAccess.Proofs.Computation
import DataAccess.Proofs.Term.Spelling

/-!
# What a term renders to

An empty query renders to nothing and names no parameter. The text of a leaf holds a mark. The
text of a join comes from the texts of its sides, in the order of the sides.
-/

set_option autoImplicit false

namespace DataAccess.Term

theorem colon_mem_comparison (flavor : Flavor) (op : Operator) (column param : String) :
    ':' ∈ (comparison flavor op column param).toList := by
  cases op with
  | likeIgnoreCase => cases flavor <;> simp [comparison, Flavor.likeIgnoringCase]
  | _ => simp [comparison]

theorem i_mem_nullTest {op : Operator} {value : Value} {test : String}
    (h : nullTest? op value = some test) : 'i' ∈ test.toList := by
  unfold nullTest? at h
  split at h
  · cases h; decide
  · cases h; decide
  · cases h; decide
  · cases h

theorem renderCompare_ok {m : Mapping} {prop : String} {op : Operator} {value : Value}
    {ps ps' : Parameters} {sql : String}
    (h : (renderCompare m prop op value).run ps = (.ok sql, ps')) :
    ∃ column, m.column? prop = some column ∧
      ((∃ test, nullTest? op value = some test ∧ sql = column.sqlName ++ test ∧ ps' = ps) ∨
        nullTest? op value = none ∧ ∃ v, bound op column value = .ok v ∧
          sql = comparison m.flavor op column.sqlName (ps.nextName prop) ∧
          ps' = (ps.add prop v).2) := by
  obtain ⟨column, mid, hcolumn, htail⟩ := run_bind_ok.mp h
  obtain ⟨hc, rfl⟩ := run_liftM_ok.mp hcolumn
  refine ⟨column, Mapping.column?_of_column hc, ?_⟩
  cases htest : nullTest? op value with
  | some test =>
    simp only [htest] at htail
    cases htail
    exact .inl ⟨test, rfl, rfl, rfl⟩
  | none =>
    simp only [htest] at htail
    obtain ⟨v, mid', hv, hadd⟩ := run_bind_ok.mp htail
    obtain ⟨hbound, rfl⟩ := run_liftM_ok.mp hv
    obtain ⟨param, mid'', hparam, hdone⟩ := run_bind_ok.mp hadd
    cases hparam
    cases hdone
    exact .inr ⟨rfl, v, hbound, rfl, rfl⟩

theorem renderAmong_ok {m : Mapping} {prop : String} {values : List Value}
    {ps ps' : Parameters} {sql : String}
    (h : (renderAmong m prop values).run ps = (.ok sql, ps')) :
    ∃ column params, m.column? prop = some column ∧
      (renderValues prop column.type values).run ps = (.ok params, ps') ∧
      sql = column.sqlName ++ " in (" ++ Text.joined ", " params ++ ")" := by
  obtain ⟨column, mid, hcolumn, htail⟩ := run_bind_ok.mp h
  obtain ⟨hc, rfl⟩ := run_liftM_ok.mp hcolumn
  obtain ⟨params, mid', hparams, hdone⟩ := run_bind_ok.mp htail
  cases hdone
  exact ⟨column, params, Mapping.column?_of_column hc, hparams, rfl⟩

theorem renderValues_cons_ok {prop : String} {type : ColumnType} {v : Value} {vs : List Value}
    {ps ps' : Parameters} {params : List String}
    (h : (renderValues prop type (v :: vs)).run ps = (.ok params, ps')) :
    ∃ w rest, type.convert v = .ok w ∧
      (renderValues prop type vs).run (ps.add prop w).2 = (.ok rest, ps') ∧
      params = (":" ++ ps.nextName prop) :: rest := by
  obtain ⟨w, mid, hw, hadd⟩ := run_bind_ok.mp h
  obtain ⟨hconvert, rfl⟩ := run_liftM_ok.mp hw
  obtain ⟨param, mid', hparam, htail⟩ := run_bind_ok.mp hadd
  cases hparam
  obtain ⟨rest, mid'', hrest, hdone⟩ := run_bind_ok.mp htail
  cases hdone
  exact ⟨w, rest, hconvert, hrest, rfl⟩

theorem renderCompare_isMarked {m : Mapping} {prop : String} {op : Operator} {value : Value}
    {ps ps' : Parameters} {sql : String}
    (h : (renderCompare m prop op value).run ps = (.ok sql, ps')) : Lexeme.IsMarked sql := by
  obtain ⟨column, mid, -, h⟩ := run_bind_ok.mp h
  cases htest : nullTest? op value with
  | some test =>
    simp only [htest] at h
    cases h
    refine ⟨'i', ?_, by decide⟩
    rw [String.toList_append]
    exact List.mem_append_right _ (i_mem_nullTest htest)
  | none =>
    simp only [htest] at h
    obtain ⟨bound, mid', -, h⟩ := run_bind_ok.mp h
    obtain ⟨param, mid'', -, h⟩ := run_bind_ok.mp h
    cases h
    exact ⟨':', colon_mem_comparison _ _ _ _, by decide⟩

theorem renderAmong_isMarked {m : Mapping} {prop : String} {values : List Value}
    {ps ps' : Parameters} {sql : String}
    (h : (renderAmong m prop values).run ps = (.ok sql, ps')) : Lexeme.IsMarked sql := by
  obtain ⟨column, mid, -, h⟩ := run_bind_ok.mp h
  obtain ⟨params, mid', -, h⟩ := run_bind_ok.mp h
  cases h
  exact ⟨'i', by simp, by decide⟩

def renderSide (m : Mapping) : Option Term → Rendering String
  | some t => t.render m
  | none => pure ""

theorem render_of_isEmptyQuery {m : Mapping} {t : Term} (h : t.isEmptyQuery = true) :
    t.render m = pure "" := by
  cases t with
  | compare => cases h
  | among prop values =>
    rw [isEmptyQuery] at h
    rw [render, if_pos h]
  | join joiner left right => rw [render, if_pos h]

theorem render_join {m : Mapping} {joiner : Joiner} {left right : Option Term}
    (h : (join joiner left right).isEmptyQuery = false) :
    (join joiner left right).render m = do
      let l ← renderSide m left
      let r ← renderSide m right
      return joinSides joiner (left.any isJoin) (right.any isJoin) l r := by
  rw [render, h, if_neg Bool.false_ne_true]
  cases left <;> cases right <;> rfl

theorem render_join_ok {m : Mapping} {joiner : Joiner} {left right : Option Term}
    {ps ps' : Parameters} {sql : String}
    (he : (join joiner left right).isEmptyQuery = false)
    (h : ((join joiner left right).render m).run ps = (.ok sql, ps')) :
    ∃ l mid r, (renderSide m left).run ps = (.ok l, mid) ∧
      (renderSide m right).run mid = (.ok r, ps') ∧
      sql = joinSides joiner (left.any isJoin) (right.any isJoin) l r := by
  rw [render_join he] at h
  obtain ⟨l, mid, hl, h⟩ := run_bind_ok.mp h
  obtain ⟨r, mid', hr, h⟩ := run_bind_ok.mp h
  cases h
  exact ⟨l, mid, r, hl, hr, rfl⟩

theorem joinSides_blank_left {joiner : Joiner} {l r : String} (isJoin isJoin' : Bool)
    (h : Text.isBlankText l = true) : joinSides joiner isJoin isJoin' l r = r := if_pos h

theorem joinSides_blank_right {joiner : Joiner} {l r : String} (isJoin isJoin' : Bool)
    (h : Text.isBlankText l = false) (h' : Text.isBlankText r = true) :
    joinSides joiner isJoin isJoin' l r = l := by
  rw [joinSides, h, if_neg Bool.false_ne_true, if_pos h']

theorem toList_joinSides {joiner : Joiner} {l r : String} (isJoin isJoin' : Bool)
    (h : Text.isBlankText l = false) (h' : Text.isBlankText r = false) :
    (joinSides joiner isJoin isJoin' l r).toList =
      ' ' :: ((wrapped isJoin l).toList ++ ' ' :: (joiner.word.toList ++
        ' ' :: ((wrapped isJoin' r).toList ++ [' ']))) := by
  rw [joinSides, h, h', if_neg Bool.false_ne_true, if_neg Bool.false_ne_true]
  simp

theorem toList_wrapped (isJoin : Bool) (sql : String) :
    (wrapped isJoin sql).toList =
      if isJoin then '(' :: (Text.trim sql.toList ++ [')']) else sql.toList := by
  cases isJoin with
  | true => simp [wrapped, Text.toList_trimmed]
  | false => rfl

theorem isBlankText_empty : Text.isBlankText "" = true := by
  rw [Text.isBlankText_eq_allBlank]
  rfl

theorem not_isBlankText_of_isMarked {sql : String} (h : Lexeme.IsMarked sql) :
    Text.isBlankText sql = false := by
  obtain ⟨c, hc, hm⟩ := h
  rw [Text.isBlankText_eq_allBlank, ← Bool.not_eq_true]
  intro hb
  rw [Lexeme.not_isMark_of_isBlank (List.all_eq_true.mp hb c hc)] at hm
  cases hm

theorem isBlankText_joinSides (joiner : Joiner) (isJoin isJoin' : Bool) (l r : String) :
    Text.isBlankText (joinSides joiner isJoin isJoin' l r) =
      (Text.isBlankText l && Text.isBlankText r) := by
  cases hl : Text.isBlankText l with
  | true => rw [joinSides_blank_left _ _ hl, Bool.true_and]
  | false =>
    cases hr : Text.isBlankText r with
    | true => rw [joinSides_blank_right _ _ hl hr, hl, Bool.false_and]
    | false =>
      have hword : Text.allBlank joiner.word.toList = false := by cases joiner <;> decide
      rw [Text.isBlankText_eq_allBlank, toList_joinSides _ _ hl hr]
      rw [Text.allBlank] at hword
      simp [Text.allBlank, List.all_append, hword]

theorem isBlankText_render {m : Mapping} {t : Term} {ps ps' : Parameters} {sql : String}
    (h : (t.render m).run ps = (.ok sql, ps')) : Text.isBlankText sql = t.isEmptyQuery := by
  cases he : t.isEmptyQuery with
  | true =>
    rw [render_of_isEmptyQuery he] at h
    cases h
    exact isBlankText_empty
  | false =>
    -- a join that is no empty query has a side that is none, and one such side is enough
    induction t using isEmptyQuery.induct generalizing ps ps' sql with
    | case1 prop op value => exact not_isBlankText_of_isMarked (renderCompare_isMarked h)
    | case2 prop values =>
      rw [isEmptyQuery] at he
      rw [render, he, if_neg Bool.false_ne_true] at h
      exact not_isBlankText_of_isMarked (renderAmong_isMarked h)
    | case3 joiner => cases he
    | case4 joiner l ih =>
      obtain ⟨sql, mid, none, hl, -, rfl⟩ := render_join_ok he h
      rw [isBlankText_joinSides, ih hl he, Bool.false_and]
    | case5 joiner r ih =>
      obtain ⟨none, mid, sql, -, hr, rfl⟩ := render_join_ok he h
      rw [isBlankText_joinSides, ih hr he, Bool.and_false]
    | case6 l r ihl ihr =>
      obtain ⟨left, mid, right, hl, -, rfl⟩ := render_join_ok he h
      rw [isEmptyQuery, Bool.or_eq_false_iff] at he
      rw [isBlankText_joinSides, ihl hl he.1, Bool.false_and]
    | case7 l r ihl ihr =>
      obtain ⟨left, mid, right, hl, hr, rfl⟩ := render_join_ok he h
      rw [isEmptyQuery, Bool.and_eq_false_iff] at he
      rw [isBlankText_joinSides]
      rcases he with he | he
      · rw [ihl hl he, Bool.false_and]
      · rw [ihr hr he, Bool.and_false]

/-- A relation between a term that may be absent, the parameters before, the text and the
parameters behind holds of every rendering when it holds where nothing is rendered, of the
leaves, and of a join of two sides. -/
theorem render_induction {m : Mapping}
    {P : Option Term → Parameters → String → Parameters → Prop}
    (hempty : ∀ {t ps}, (∀ u ∈ t, u.isEmptyQuery = true) → P t ps "" ps)
    (hcompare : ∀ {prop op value ps sql ps'},
      (renderCompare m prop op value).run ps = (.ok sql, ps') →
      P (some (compare prop op value)) ps sql ps')
    (hamong : ∀ {prop values ps sql ps'}, values ≠ [] →
      (renderAmong m prop values).run ps = (.ok sql, ps') → P (some (among prop values)) ps sql ps')
    (hjoin : ∀ {joiner left right ps l mid r ps'}, (join joiner left right).isEmptyQuery = false →
      P left ps l mid → P right mid r ps' → P (some (join joiner left right)) ps
        (joinSides joiner (left.any isJoin) (right.any isJoin) l r) ps')
    {t : Option Term} {ps ps' : Parameters} {sql : String}
    (h : (renderSide m t).run ps = (.ok sql, ps')) : P t ps sql ps' := by
  have hnone {ps ps' : Parameters} {sql : String}
      (h : (renderSide m none).run ps = (.ok sql, ps')) : P none ps sql ps' := by
    cases h
    exact hempty nofun
  have hquery {t : Term} {ps ps' : Parameters} {sql : String} (he : t.isEmptyQuery = true)
      (h : (t.render m).run ps = (.ok sql, ps')) : P (some t) ps sql ps' := by
    rw [render_of_isEmptyQuery he] at h
    cases h
    exact hempty fun u hu => Option.some.inj hu ▸ he
  have hsides {joiner : Joiner} {left right : Option Term} {ps ps' : Parameters} {sql : String}
      (h : ((join joiner left right).render m).run ps = (.ok sql, ps'))
      (hl : ∀ ps ps' sql, (renderSide m left).run ps = (.ok sql, ps') → P left ps sql ps')
      (hr : ∀ ps ps' sql, (renderSide m right).run ps = (.ok sql, ps') → P right ps sql ps') :
      P (some (join joiner left right)) ps sql ps' := by
    cases he : (join joiner left right).isEmptyQuery with
    | true => exact hquery he h
    | false =>
      obtain ⟨l, mid, r, hleft, hright, rfl⟩ := render_join_ok he h
      exact hjoin he (hl _ _ _ hleft) (hr _ _ _ hright)
  cases t with
  | none => exact hnone h
  | some t =>
    rw [renderSide] at h
    induction t using isEmptyQuery.induct generalizing ps ps' sql with
    | case1 prop op value => exact hcompare h
    | case2 prop values =>
      cases hvalues : values.isEmpty with
      | true => exact hquery hvalues h
      | false =>
        rw [render, hvalues, if_neg Bool.false_ne_true] at h
        exact hamong (by simpa using hvalues) h
    | case3 joiner => exact hquery rfl h
    | case4 joiner l ih => exact hsides h (fun _ _ _ => ih) fun _ _ _ => hnone
    | case5 joiner r ih => exact hsides h (fun _ _ _ => hnone) fun _ _ _ => ih
    | case6 l r ihl ihr => exact hsides h (fun _ _ _ => ihl) fun _ _ _ => ihr
    | case7 l r ihl ihr => exact hsides h (fun _ _ _ => ihl) fun _ _ _ => ihr

end DataAccess.Term
