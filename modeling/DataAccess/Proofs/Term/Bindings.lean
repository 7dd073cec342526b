import DataAccess.Proofs.Parameters.Names
import DataAccess.Proofs.Term.Rendering

/-!
# The values that a term binds

The leaves of a term bind their values from left to right, each value under the property it is
compared with and under a name of its own. A null test binds nothing, and neither does an empty
query.
-/

set_option autoImplicit false

namespace DataAccess.Term

variable {m : Mapping}

def bindings (m : Mapping) : Term → Except Fault (List (String × Value))
  | compare prop op value => do
    let column ← m.column prop
    if (nullTest? op value).isSome then return []
    else return [(prop, ← bound op column value)]
  | among prop values => do
    if values.isEmpty then return []
    else
      let column ← m.column prop
      return (← values.mapM column.type.convert).map fun v => (prop, v)
  | join joiner left right => do
    if (join joiner left right).isEmptyQuery then return []
    else
      let l ← match left with
        | some t => t.bindings m
        | none => pure []
      let r ← match right with
        | some t => t.bindings m
        | none => pure []
      return l ++ r

def sideBindings (m : Mapping) : Option Term → Except Fault (List (String × Value))
  | some t => t.bindings m
  | none => pure []

theorem sideBindings_of_isEmptyQuery {t : Option Term} (h : ∀ u ∈ t, u.isEmptyQuery = true) :
    sideBindings m t = .ok [] := by
  cases t with
  | none => rfl
  | some t =>
    have ht := h t rfl
    rw [sideBindings]
    cases t with
    | compare => cases ht
    | among prop values =>
      rw [isEmptyQuery] at ht
      rw [bindings, if_pos ht]
      rfl
    | join joiner left right =>
      rw [bindings, if_pos ht]
      rfl

theorem bindings_join {joiner : Joiner} {left right : Option Term}
    (h : (join joiner left right).isEmptyQuery = false) :
    (join joiner left right).bindings m = do
      let l ← sideBindings m left
      let r ← sideBindings m right
      return l ++ r := by
  rw [bindings, h, if_neg Bool.false_ne_true]
  cases left <;> cases right <;> rfl

def Binds (ps : Parameters) (pairs : List (String × Value)) (ps' : Parameters) : Prop :=
  ∃ new : List Parameter, ps'.entries = ps.entries ++ new ∧
    new.map (fun e => (e.prop, e.value)) = pairs

theorem binds_refl (ps : Parameters) : Binds ps [] ps :=
  ⟨[], (List.append_nil _).symm, rfl⟩

theorem binds_add (ps : Parameters) (prop : String) (v : Value) :
    Binds ps [(prop, v)] (ps.add prop v).2 :=
  ⟨[⟨ps.nextName prop, prop, v⟩], rfl, rfl⟩

theorem binds_trans {ps mid ps' : Parameters} {pairs pairs' : List (String × Value)}
    (h : Binds ps pairs mid) (h' : Binds mid pairs' ps') : Binds ps (pairs ++ pairs') ps' := by
  obtain ⟨new, hmid, rfl⟩ := h
  obtain ⟨new', hps', rfl⟩ := h'
  exact ⟨new ++ new', by rw [hps', hmid, List.append_assoc], List.map_append⟩

theorem renderCompare_bindings {prop : String} {op : Operator} {value : Value}
    {ps ps' : Parameters} {sql : String}
    (h : (renderCompare m prop op value).run ps = (.ok sql, ps')) :
    ∃ pairs, (compare prop op value).bindings m = .ok pairs ∧ Binds ps pairs ps' := by
  obtain ⟨column, hc, hcase⟩ := renderCompare_ok h
  have hcolumn : m.column prop = .ok column := by rw [Mapping.column, hc]
  rcases hcase with ⟨test, htest, -, rfl⟩ | ⟨htest, v, hv, -, rfl⟩
  · refine ⟨[], ?_, binds_refl _⟩
    rw [bindings, hcolumn, htest]
    rfl
  · refine ⟨[(prop, v)], ?_, binds_add ps prop v⟩
    rw [bindings, hcolumn, htest]
    show (bound op column value >>= fun v => pure [(prop, v)]) = _
    rw [hv]
    rfl

theorem renderValues_bindings {prop : String} {type : ColumnType} {values : List Value}
    {ps ps' : Parameters} {params : List String}
    (h : (renderValues prop type values).run ps = (.ok params, ps')) :
    ∃ converted, values.mapM type.convert = .ok converted ∧
      Binds ps (converted.map fun v => (prop, v)) ps' := by
  induction values generalizing ps params with
  | nil =>
    cases h
    exact ⟨[], rfl, binds_refl _⟩
  | cons v values ih =>
    obtain ⟨w, rest, hw, hrest, -⟩ := renderValues_cons_ok h
    obtain ⟨converted, hconverted, hbinds⟩ := ih hrest
    refine ⟨w :: converted, ?_, binds_trans (binds_add ps prop w) hbinds⟩
    rw [List.mapM_cons, hw, hconverted]
    rfl

theorem renderAmong_bindings {prop : String} {values : List Value} (hvalues : values ≠ [])
    {ps ps' : Parameters} {sql : String}
    (h : (renderAmong m prop values).run ps = (.ok sql, ps')) :
    ∃ pairs, (among prop values).bindings m = .ok pairs ∧ Binds ps pairs ps' := by
  obtain ⟨column, params, hc, hparams, -⟩ := renderAmong_ok h
  obtain ⟨converted, hconverted, hbinds⟩ := renderValues_bindings hparams
  refine ⟨_, ?_, hbinds⟩
  have hcolumn : m.column prop = .ok column := by rw [Mapping.column, hc]
  have hsome : ¬ values.isEmpty = true := by simpa using hvalues
  rw [bindings, if_neg hsome, hcolumn]
  show (values.mapM column.type.convert >>= _) = _
  rw [hconverted]
  rfl

theorem render_bindings {t : Option Term} {ps ps' : Parameters} {sql : String}
    (h : (renderSide m t).run ps = (.ok sql, ps')) :
    ∃ pairs, sideBindings m t = .ok pairs ∧ Binds ps pairs ps' := by
  refine render_induction
    (P := fun t ps _ ps' => ∃ pairs, sideBindings m t = .ok pairs ∧ Binds ps pairs ps')
    ?_ renderCompare_bindings (fun hvalues h => renderAmong_bindings hvalues h) ?_ h
  · intro t ps ht
    exact ⟨[], sideBindings_of_isEmptyQuery ht, binds_refl ps⟩
  · rintro joiner left right ps l mid r ps' he ⟨pairs, hpairs, hl⟩ ⟨pairs', hpairs', hr⟩
    refine ⟨pairs ++ pairs', ?_, binds_trans hl hr⟩
    rw [sideBindings, bindings_join he, hpairs, hpairs']
    rfl

theorem renderCompare_named {prop : String} {op : Operator} {value : Value}
    {ps ps' : Parameters} {sql : String}
    (h : (renderCompare m prop op value).run ps = (.ok sql, ps')) (hps : ps.Named) : ps'.Named := by
  obtain ⟨column, -, ⟨test, -, -, rfl⟩ | ⟨-, v, -, -, rfl⟩⟩ := renderCompare_ok h
  · exact hps
  · exact Parameters.add_named hps prop v

theorem renderValues_named {prop : String} {type : ColumnType} {values : List Value}
    {ps ps' : Parameters} {params : List String}
    (h : (renderValues prop type values).run ps = (.ok params, ps')) (hps : ps.Named) :
    ps'.Named := by
  induction values generalizing ps params with
  | nil =>
    cases h
    exact hps
  | cons v values ih =>
    obtain ⟨w, rest, -, hrest, -⟩ := renderValues_cons_ok h
    exact ih hrest (Parameters.add_named hps prop w)

theorem render_named {t : Option Term} {ps ps' : Parameters} {sql : String}
    (h : (renderSide m t).run ps = (.ok sql, ps')) (hps : ps.Named) : ps'.Named := by
  refine render_induction (P := fun _ ps _ ps' => ps.Named → ps'.Named)
    (fun _ => id) renderCompare_named ?_ (fun _ hl hr => hr ∘ hl) h hps
  intro prop values ps sql ps' _ h
  obtain ⟨column, params, -, hparams, -⟩ := renderAmong_ok h
  exact renderValues_named hparams

end DataAccess.Term
