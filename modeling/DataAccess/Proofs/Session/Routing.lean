import DataAccess.Proofs.Computation
import DataAccess.Proofs.Template.Independence
import DataAccess.Proofs.Template.Reader

/-!
# The group and the tables of a statement

A bound template is prepared for a session under one table condition: that of the template itself,
or else the default of the session. The condition picks the physical group of the mapping, and
under the same condition the name of every table in the text is written.
-/

set_option autoImplicit false

namespace DataAccess

def Groups.Keyed (gs : Groups) : Prop := ∀ name g, gs.get? name = some g → g.name = name

namespace Groups

theorem keyed_empty : Groups.Keyed Dict.empty := by
  intro name g h
  cases h

end Groups

/-- A part of a block that is switched on. -/
inductive Part where
  | text (s : String)
  | table (mapping : Mapping)
  | param (name : String)

def Block.parts (values : Dict Value) : Block → List Part
  | done => []
  | text s next => .text s :: next.parts values
  | table m next => .table m :: next.parts values
  | param name next => .param name :: next.parts values
  | guarded guard body next =>
    (if guard.holds values then body.parts values else []) ++ next.parts values

/-- What a part is written as under a condition: a table under its real name there, a parameter as
the value that it is bound to. -/
inductive Part.Writes (condition : Option TableCondition) (values : Dict Value) :
    Part → Emission → Prop
  | text (s : String) : Part.Writes condition values (.text s) (.text s)
  | table {m : Mapping} {name : String} (h : m.table.realName condition = .ok name) :
      Part.Writes condition values (.table m) (.text name)
  | param {name : String} {v : Value} (h : values.get? name = some v) :
      Part.Writes condition values (.param name) (.value name v)

theorem Block.prepare_writes {flavor : Flavor} {values : Dict Value}
    {condition : Option TableCondition} {b : Block} {out prepared : Prepared}
    (h : b.prepare flavor values condition out = .ok prepared) :
    ∃ es, List.Forall₂ (Part.Writes condition values) (b.parts values) es ∧
      prepared = Emission.behind flavor out es := by
  induction b generalizing out prepared with
  | done =>
    cases h
    exact ⟨[], .nil, (Emission.behind_nil flavor out).symm⟩
  | text s next ih =>
    obtain ⟨es, hes, rfl⟩ := ih h
    exact ⟨.text s :: es, .cons (.text s) hes, Emission.behind_text flavor out s es⟩
  | table m next ih =>
    obtain ⟨name, hname, hnext⟩ := bind_eq_ok.mp h
    obtain ⟨es, hes, rfl⟩ := ih hnext
    exact ⟨.text name :: es, .cons (.table hname) hes, Emission.behind_text flavor out name es⟩
  | param name next ih =>
    rw [prepare] at h
    split at h
    · cases h
    · next v hv =>
      obtain ⟨es, hes, rfl⟩ := ih h
      exact ⟨.value name v :: es, .cons (.param hv) hes, Emission.behind_value flavor out name v es⟩
  | guarded guard body next ihb ihn =>
    rw [prepare_guarded] at h
    rw [parts]
    split at h
    · next hon =>
      obtain ⟨mid, hmid, hnext⟩ := bind_eq_ok.mp h
      obtain ⟨es, hes, rfl⟩ := ihb hmid
      obtain ⟨fs, hfs, rfl⟩ := ihn hnext
      rw [if_pos hon]
      exact ⟨es ++ fs, List.rel_append hes hfs, Emission.behind_append flavor out es fs⟩
    · next hoff =>
      rw [if_neg hoff]
      exact ihn h

theorem Part.writes_append {condition : Option TableCondition} {values : Dict Value}
    {front back : List Part} {all : List Emission}
    (h : List.Forall₂ (Part.Writes condition values) (front ++ back) all) :
    ∃ es fs, all = es ++ fs ∧ List.Forall₂ (Part.Writes condition values) front es ∧
      List.Forall₂ (Part.Writes condition values) back fs :=
  ⟨_, _, (List.take_append_drop front.length all).symm,
    (List.forall₂_take_append all front back h.flip).flip,
    (List.forall₂_drop_append all front back h.flip).flip⟩

theorem Part.writes_table {condition : Option TableCondition} {values : Dict Value} {m : Mapping}
    {e : Emission} (h : Part.Writes condition values (.table m) e) :
    ∃ real, m.table.realName condition = .ok real ∧ e = .text real := by
  cases h with
  | table hreal => exact ⟨_, hreal, rfl⟩

namespace Session

def framed (b : BoundTemplate) (window : Option Window) (sql : String) : String :=
  let locked := b.mapping.flavor.locked b.lock sql
  match window with
  | some (offset, limit) => b.mapping.flavor.limited locked offset limit
  | none => locked

/-- The statement of a bound template goes to the group of its mapping under one condition, the
template's own or else the default, and every part of it is written under that condition. -/
structure Routed (env : Environment) (default : Option TableCondition) (b : BoundTemplate)
    (window : Option Window) (g : PhysicalGroup) (s : Statement) : Prop where
  resolved : env.groups.resolve b.mapping.group (b.condition?.or default) = .ok g
  written : ∃ es, List.Forall₂ (Part.Writes (b.condition?.or default) b.values)
      (b.template.body.parts b.values) es ∧
    s = ⟨framed b window (Emission.sql b.mapping.flavor 0 es), Emission.params es,
      env.settings.timeoutSeconds⟩

end Session

end DataAccess
