import DataAccess.Proofs.Template.Binding
import DataAccess.Proofs.Template.Independence

/-!
# Templates bound to beans

A template whose parameters stand for the properties of the same names takes from a bean what the
columns of these properties take from it.
-/

set_option autoImplicit false

namespace DataAccess

def Column.taken {β : Type} [Bean β] (c : Column) (bean : β) : Except Fault Value :=
  match Bean.value? bean c.prop with
  | some v => c.type.convert v
  | none => .ok .null

def Column.stored {β : Type} [Bean β] (c : Column) (bean : β) : Value :=
  (c.taken bean).toOption.getD .null

theorem Column.taken_stored {β : Type} [Bean β] {c : Column} {bean : β}
    (h : ∃ v, c.taken bean = .ok v) : c.taken bean = .ok (c.stored bean) := by
  obtain ⟨v, hv⟩ := h
  rw [stored, hv]
  rfl

namespace Template

theorem withProps_eq (t : Template) (props : List String) : t.withProps props =
    { t with paramProps := props.foldl (fun d prop => d.insert prop prop) t.paramProps } := by
  induction props generalizing t with
  | nil => rfl
  | cons prop props ih => exact ih (t.withParamProp prop prop)

section
variable {β : Type} [Bean β] {t : Template} {bean : β}

/-- Each of the parameters has a type, and what it takes from the bean converts to it. -/
def Takes (t : Template) (bean : β) (value : String → Value) : Prop :=
  ∀ param ∈ t.body.paramNames, ∃ type, t.paramType? param = some type ∧
    type.convert ((Bean.value? bean (t.propOf param)).getD .null) = .ok (value param)

theorem bind_taken {value : String → Value} (h : t.Takes bean value) {param : String}
    (hparam : param ∈ t.body.paramNames) {b : BoundTemplate} (hb : b.template = t) :
    b.bind param ((Bean.value? bean (t.propOf param)).getD .null) =
      .ok { b with values := b.values.insert param (value param) } := by
  obtain ⟨type, htype, hvalue⟩ := h param hparam
  have hresolve : b.template.resolve? param = some param := by
    rw [hb]
    exact if_pos (.inl hparam)
  rw [BoundTemplate.bind, hresolve]
  dsimp only
  rw [hb, htype]
  dsimp only
  rw [hvalue]
  rfl

theorem bindParams_taken {value : String → Value} (h : t.Takes bean value) {params : List String}
    (hparams : ∀ param ∈ params, param ∈ t.body.paramNames) {b : BoundTemplate}
    (hb : b.template = t) :
    t.bindParams bean b params = .ok { b with
      values := params.foldl (fun d param => d.insert param (value param)) b.values } := by
  induction params generalizing b with
  | nil => rfl
  | cons param params ih =>
    rw [List.forall_mem_cons] at hparams
    rw [bindParams, bind_taken h hparams.1 hb]
    exact ih hparams.2 hb

theorem bindBean_taken {value : String → Value} (h : t.Takes bean value)
    (hguards : t.body.guardVars = []) : ∃ values : Dict Value,
      t.bindBean bean = .ok { template := t, values } ∧
      ∀ param ∈ t.body.paramNames, values.get? param = some (value param) := by
  have hvars : t.vars = [] := by
    rw [vars, hguards]
    rfl
  let values := t.params.foldl (fun d param => d.insert param (value param)) Dict.empty
  have hmem (param : String) : param ∈ t.params ↔ param ∈ t.body.paramNames :=
    mem_firstOccurrences
  have hparams : t.bindParams bean t.unbound t.params = .ok { template := t, values } :=
    bindParams_taken h (fun param => (hmem param).mp) rfl
  refine ⟨values, ?_, fun param hparam => ?_⟩
  · rw [bindBean, hparams, hvars]
    rfl
  · rw [Dict.get?_foldl_insert_map, if_pos ((hmem param).mpr hparam)]

theorem bind_converts {b b' : BoundTemplate} {param : String} {v : Value} {type : ColumnType}
    (hparam : param ∈ b.template.body.paramNames) (htype : b.template.paramType? param = some type)
    (h : b.bind param v = .ok b') : ∃ w, type.convert v = .ok w := by
  have hresolve : b.template.resolve? param = some param := if_pos (.inl hparam)
  rw [BoundTemplate.bind, hresolve] at h
  dsimp only at h
  rw [htype] at h
  obtain ⟨w, hw, -⟩ := bind_eq_ok.mp h
  exact ⟨w, hw⟩

theorem bindParams_converts {params : List String}
    (hparams : ∀ param ∈ params, param ∈ t.body.paramNames) {b b' : BoundTemplate}
    (hb : b.template = t) (h : t.bindParams bean b params = .ok b') :
    ∀ param ∈ params, ∀ type, t.paramType? param = some type →
      ∃ w, type.convert ((Bean.value? bean (t.propOf param)).getD .null) = .ok w := by
  induction params generalizing b with
  | nil => exact fun _ hparam => absurd hparam List.not_mem_nil
  | cons param params ih =>
    rw [List.forall_mem_cons] at hparams
    obtain ⟨mid, hmid, hrest⟩ := bind_eq_ok.mp h
    have htemplate : mid.template = t := by rw [BoundTemplate.bind_fields hmid, hb]
    rw [List.forall_mem_cons]
    refine ⟨fun type htype => ?_, ih hparams.2 htemplate hrest⟩
    subst hb
    exact bind_converts hparams.1 htype hmid

theorem bindBean_converts {b : BoundTemplate} (h : t.bindBean bean = .ok b) :
    ∀ param ∈ t.body.paramNames, ∀ type, t.paramType? param = some type →
      ∃ w, type.convert ((Bean.value? bean (t.propOf param)).getD .null) = .ok w := by
  obtain ⟨mid, hmid, -⟩ := bind_eq_ok.mp h
  have hunbound : t.unbound.template = t := rfl
  intro param hparam
  exact bindParams_converts (fun _ => mem_firstOccurrences.mp) hunbound hmid param
    (mem_firstOccurrences.mpr hparam)

def prepareBean (t : Template) (bean : β) (condition : Option TableCondition) :
    Except Fault Prepared := do
  (← t.bindBean bean).prepare condition

end

end Template

end DataAccess
