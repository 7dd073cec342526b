import DataAccess.Proofs.Term.Rendering

/-!
# Rendered text and bound values

Two terms that differ in their values alone, and have null in the same places where null is
asked for, are rendered to the same text, and their parameters have the same names. Both runs
are followed side by side, through every bind.
-/

set_option autoImplicit false

namespace DataAccess

namespace Parameters

/-- The same names for the same properties, in the same order. -/
def SameNames (ps qs : Parameters) : Prop :=
  ps.entries.map (fun e => (e.name, e.prop)) = qs.entries.map fun e => (e.name, e.prop)

theorem uses_eq {ps qs : Parameters} (h : SameNames ps qs) (prop : String) :
    ps.uses prop = qs.uses prop := by
  have huses (rs : Parameters) : rs.uses prop =
      (rs.entries.map fun e => (e.name, e.prop)).countP fun e =>
        e.2 == prop || base e.2 == base prop := by
    rw [List.countP_map]
    rfl
  rw [huses, huses, h]

theorem add_sameNames {ps qs : Parameters} (h : SameNames ps qs) (prop : String) (v w : Value) :
    ps.nextName prop = qs.nextName prop ∧ SameNames (ps.add prop v).2 (qs.add prop w).2 := by
  have hname : ps.nextName prop = qs.nextName prop := by
    rw [nextName, nextName, uses_eq h prop]
  refine ⟨hname, ?_⟩
  rw [SameNames, add, add, List.map_append, List.map_append, h, hname]
  rfl

end Parameters

namespace Rendering
open Parameters

section
variable {α β : Type}

/-- Where both computations succeed under parameters of the same names, they give the same and
leave parameters of the same names. -/
def Agree (x y : Rendering α) : Prop :=
  ∀ ps qs ps' qs' a b, SameNames ps qs → x.run ps = (.ok a, ps') → y.run qs = (.ok b, qs') →
    a = b ∧ SameNames ps' qs'

theorem agree_pure (a : α) : Agree (pure a) (pure a) := by
  intro ps qs ps' qs' b c hps h h'
  cases h
  cases h'
  exact ⟨rfl, hps⟩

theorem agree_bind {x y : Rendering α} {f g : α → Rendering β} (hx : Agree x y)
    (hf : ∀ a, Agree (f a) (g a)) : Agree (x >>= f) (y >>= g) := by
  intro ps qs ps' qs' b c hps h h'
  obtain ⟨a, mid, ha, hb⟩ := run_bind_ok.mp h
  obtain ⟨a', mid', ha', hb'⟩ := run_bind_ok.mp h'
  obtain ⟨rfl, hmid⟩ := hx _ _ _ _ _ _ hps ha ha'
  exact hf a _ _ _ _ _ _ hmid hb hb'

theorem agree_lift (x : Except Fault α) : Agree (liftM x : Rendering α) (liftM x) := by
  intro ps qs ps' qs' a b hps h h'
  obtain ⟨ha, rfl⟩ := run_liftM_ok.mp h
  obtain ⟨hb, rfl⟩ := run_liftM_ok.mp h'
  exact ⟨Except.ok.inj (ha.symm.trans hb), hps⟩

theorem agree_add (prop : String) (x y : Except Fault Value) {f : String → Rendering β}
    {g : String → Rendering β} (hf : ∀ param, Agree (f param) (g param)) :
    Agree (do f (← add prop (← liftM x))) (do g (← add prop (← liftM y))) := by
  intro ps qs ps' qs' b c hps h h'
  obtain ⟨v, mid, hv, hadd⟩ := run_bind_ok.mp h
  obtain ⟨w, mid', hw, hadd'⟩ := run_bind_ok.mp h'
  obtain ⟨-, rfl⟩ := run_liftM_ok.mp hv
  obtain ⟨-, rfl⟩ := run_liftM_ok.mp hw
  obtain ⟨param, after, hparam, hrest⟩ := run_bind_ok.mp hadd
  obtain ⟨param', after', hparam', hrest'⟩ := run_bind_ok.mp hadd'
  obtain ⟨hname, hnames⟩ := add_sameNames hps prop v w
  cases hparam
  cases hparam'
  have hother : (g (mid.nextName prop)).run (mid'.add prop w).2 = (.ok c, qs') := by
    rw [hname]
    exact hrest'
  exact hf _ _ _ _ _ _ _ hnames hrest hother

end

end Rendering

namespace Term

/-- Equal except for the values of the leaves. Lists have as many of them, and where null is
asked for and not bound it stands on both sides or on none. -/
inductive Alike : Term → Term → Prop
  | compare {prop : String} {op : Operator} {v w : Value}
      (hnull : op ∈ [.equal, .notEqual, .equalIgnoreCase] → (v.isNull ↔ w.isNull)) :
      Alike (.compare prop op v) (.compare prop op w)
  | among {prop : String} {vs ws : List Value} (hlength : vs.length = ws.length) :
      Alike (.among prop vs) (.among prop ws)
  | join {joiner : Joiner} : Alike (.join joiner none none) (.join joiner none none)
  | left {joiner : Joiner} {l l' : Term} (hl : Alike l l') :
      Alike (.join joiner (some l) none) (.join joiner (some l') none)
  | right {joiner : Joiner} {r r' : Term} (hr : Alike r r') :
      Alike (.join joiner none (some r)) (.join joiner none (some r'))
  | both {joiner : Joiner} {l l' r r' : Term} (hl : Alike l l') (hr : Alike r r') :
      Alike (.join joiner (some l) (some r)) (.join joiner (some l') (some r'))

theorem isEmptyQuery_eq {t u : Term} (h : Alike t u) : t.isEmptyQuery = u.isEmptyQuery := by
  induction h with
  | compare => rfl
  | among hlength =>
    rw [isEmptyQuery, isEmptyQuery, Bool.eq_iff_iff, List.isEmpty_iff_length_eq_zero,
      List.isEmpty_iff_length_eq_zero, hlength]
  | join => rfl
  | @left joiner l l' hl ih => cases joiner <;> exact ih
  | @right joiner r r' hr ih => cases joiner <;> exact ih
  | @both joiner l l' r r' hl hr ihl ihr =>
    cases joiner with
    | and => rw [isEmptyQuery, isEmptyQuery, ihl, ihr]
    | or => rw [isEmptyQuery, isEmptyQuery, ihl, ihr]

theorem isJoin_eq {t u : Term} (h : Alike t u) : t.isJoin = u.isJoin := by
  cases h <;> rfl

theorem nullTest?_eq {op : Operator} {v w : Value}
    (hnull : op ∈ [.equal, .notEqual, .equalIgnoreCase] → (v.isNull ↔ w.isNull)) :
    nullTest? op v = nullTest? op w := by
  by_cases hop : op ∈ [.equal, .notEqual, .equalIgnoreCase]
  · have hiff := hnull hop
    cases v <;> cases w <;> simp_all [nullTest?, Value.isNull]
  · have hnone (x : Value) : nullTest? op x = none := by
      cases x <;> cases op <;> simp_all [nullTest?]
    rw [hnone, hnone]

open Rendering

variable {m : Mapping}

theorem renderCompare_agree {prop : String} {op : Operator} {v w : Value}
    (hnull : op ∈ [.equal, .notEqual, .equalIgnoreCase] → (v.isNull ↔ w.isNull)) :
    Agree (renderCompare m prop op v) (renderCompare m prop op w) := by
  apply agree_bind (agree_lift (m.column prop))
  intro column
  rw [nullTest?_eq hnull]
  cases nullTest? op w with
  | some test => exact agree_pure _
  | none => exact agree_add prop _ _ fun param => agree_pure _

theorem renderValues_agree (prop : String) (type : ColumnType) {vs ws : List Value}
    (hlength : vs.length = ws.length) :
    Agree (renderValues prop type vs) (renderValues prop type ws) := by
  induction vs generalizing ws with
  | nil =>
    obtain rfl : ws = [] := List.length_eq_zero_iff.mp hlength.symm
    exact agree_pure []
  | cons v vs ih =>
    cases ws with
    | nil => cases hlength
    | cons w ws =>
      apply agree_add prop
      intro param
      exact agree_bind (ih (Nat.succ.inj hlength)) fun params => agree_pure _

theorem renderAmong_agree {prop : String} {vs ws : List Value} (hlength : vs.length = ws.length) :
    Agree (renderAmong m prop vs) (renderAmong m prop ws) := by
  apply agree_bind (agree_lift (m.column prop))
  intro column
  exact agree_bind (renderValues_agree prop column.type hlength) fun params => agree_pure _

theorem render_join_agree {joiner : Joiner} {left right left' right' : Option Term}
    (halike : Alike (join joiner left right) (join joiner left' right'))
    (hl : Agree (renderSide m left) (renderSide m left'))
    (hr : Agree (renderSide m right) (renderSide m right'))
    (hleft : left.any isJoin = left'.any isJoin) (hright : right.any isJoin = right'.any isJoin) :
    Agree ((join joiner left right).render m) ((join joiner left' right').render m) := by
  have hquery := isEmptyQuery_eq halike
  cases he : (join joiner left right).isEmptyQuery with
  | true =>
    rw [render_of_isEmptyQuery he, render_of_isEmptyQuery (hquery.symm.trans he)]
    exact agree_pure ""
  | false =>
    rw [render_join he, render_join (hquery.symm.trans he), hleft, hright]
    exact agree_bind hl fun l => agree_bind hr fun r => agree_pure _

theorem render_agree {t u : Term} (h : Alike t u) : Agree (t.render m) (u.render m) := by
  induction h with
  | compare hnull => exact renderCompare_agree hnull
  | @among prop vs ws hlength =>
    have halike : Alike (.among prop vs) (.among prop ws) := .among hlength
    have hempty : vs.isEmpty = ws.isEmpty := isEmptyQuery_eq halike
    rw [render, render, hempty]
    split
    · exact agree_pure ""
    · exact renderAmong_agree hlength
  | join => exact render_join_agree .join (agree_pure "") (agree_pure "") rfl rfl
  | left hl ih => exact render_join_agree (.left hl) ih (agree_pure "") (isJoin_eq hl) rfl
  | right hr ih => exact render_join_agree (.right hr) (agree_pure "") ih rfl (isJoin_eq hr)
  | both hl hr ihl ihr =>
    exact render_join_agree (.both hl hr) ihl ihr (isJoin_eq hl) (isJoin_eq hr)

end Term

end DataAccess
