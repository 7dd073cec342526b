import DataAccess.Proofs.Computation
import DataAccess.Proofs.Dictionaries

/-!
# Binding values

Binding inserts one value and changes nothing else of a bound template, so what is bound stays
bound. A parameter without a type can be bound to any value.
-/

set_option autoImplicit false

namespace DataAccess

namespace BoundTemplate

theorem bind_inserts {b b' : BoundTemplate} {name : String} {v : Value}
    (h : b.bind name v = .ok b') : ∃ param w, b.template.resolve? name = some param ∧
      b' = { b with values := b.values.insert param w } := by
  unfold bind at h
  split at h
  · cases h
  · next param hparam =>
    dsimp only at h
    split at h
    · obtain ⟨w, -, hdone⟩ := bind_eq_ok.mp h
      cases hdone
      exact ⟨param, w, hparam, rfl⟩
    · cases h
      exact ⟨param, v, hparam, rfl⟩

theorem bind_fields {b b' : BoundTemplate} {name : String} {v : Value}
    (h : b.bind name v = .ok b') : b' = { b with values := b'.values } := by
  obtain ⟨param, w, -, rfl⟩ := bind_inserts h
  rfl

theorem bindAll_fields {b b' : BoundTemplate} {pairs : List (String × Value)}
    (h : b.bindAll pairs = .ok b') : b' = { b with values := b'.values } := by
  induction pairs generalizing b with
  | nil =>
    cases h
    rfl
  | cons pair rest ih =>
    obtain ⟨mid, hmid, hrest⟩ := bind_eq_ok.mp h
    rw [ih hrest, bind_fields hmid]

theorem bind_param {b : BoundTemplate} {name : String} (v : Value)
    (hname : name ∈ b.template.body.paramNames) (htype : b.template.paramType? name = none) :
    b.bind name v = .ok { b with values := b.values.insert name v } := by
  have hresolve : b.template.resolve? name = some name := if_pos (.inl hname)
  rw [bind, hresolve]
  dsimp only
  rw [htype]
  rfl

theorem bindAll_params {b : BoundTemplate} {pairs : List (String × Value)}
    (hnames : ∀ pair ∈ pairs, pair.1 ∈ b.template.body.paramNames)
    (htypes : ∀ name, b.template.paramType? name = none) :
    b.bindAll pairs =
      .ok { b with values := pairs.foldl (fun d (k, a) => d.insert k a) b.values } := by
  induction pairs generalizing b with
  | nil => rfl
  | cons pair rest ih =>
    rw [List.forall_mem_cons] at hnames
    rw [bindAll, bind_param pair.2 hnames.1 (htypes pair.1)]
    exact ih hnames.2 htypes

theorem contains_of_bindAll {b b' : BoundTemplate} {pairs : List (String × Value)}
    (h : b.bindAll pairs = .ok b') {name : String}
    (hname : b.values.contains name = true) : b'.values.contains name = true := by
  induction pairs generalizing b with
  | nil =>
    cases h
    exact hname
  | cons pair rest ih =>
    obtain ⟨mid, hmid, hrest⟩ := bind_eq_ok.mp h
    obtain ⟨param, w, -, rfl⟩ := bind_inserts hmid
    exact ih hrest ((Dict.contains_insert ..).mpr (.inr hname))

theorem bindAll_contains {b b' : BoundTemplate} {pairs : List (String × Value)}
    (h : b.bindAll pairs = .ok b') {name : String}
    (hparam : name ∈ b.template.body.paramNames) (hname : name ∈ pairs.map Prod.fst) :
    b'.values.contains name = true := by
  induction pairs generalizing b with
  | nil => cases hname
  | cons pair rest ih =>
    obtain ⟨mid, hmid, hrest⟩ := bind_eq_ok.mp h
    obtain ⟨param, w, hresolve, rfl⟩ := bind_inserts hmid
    rcases List.mem_cons.mp hname with rfl | hname
    · obtain rfl : pair.1 = param := by
        rw [Template.resolve?, if_pos (.inl hparam)] at hresolve
        exact Option.some.inj hresolve
      exact contains_of_bindAll hrest ((Dict.contains_insert ..).mpr (.inl rfl))
    · exact ih hrest hparam hname

end BoundTemplate

theorem Template.bindAll_one {t : Template} (hvars : t.body.guardVars = [])
    (hprops : t.paramProps = Dict.empty) (htypes : t.paramTypes = Dict.empty) (name : String)
    (v : Value) : t.bindAll [(name, v)] =
      if name ∈ t.body.paramNames then
        .ok { template := t, values := Dict.ofList [(name, v)] }
      else .error (.unknownParameter name) := by
  split
  · next hname =>
    have htype (param : String) : t.paramType? param = none := by
      rw [paramType?, htypes, hprops]
      rfl
    exact BoundTemplate.bindAll_params (List.forall_mem_singleton.mpr hname) htype
  · next hname =>
    have hresolve : t.resolve? name = none := by
      rw [resolve?, hvars, hprops, if_neg (by simpa using hname)]
      rfl
    show (do (← t.unbound.bind name v).bindAll []) = _
    rw [BoundTemplate.bind, show t.unbound.template.resolve? name = none from hresolve]
    rfl

end DataAccess
