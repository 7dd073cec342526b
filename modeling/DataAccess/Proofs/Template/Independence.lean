import DataAccess.Proofs.Template.Names

/-!
# Prepared text and bound values

Values are looked at in two places only: a guard asks whether its variable's value is true or
filled, and a parameter asks whether there is a value. So two bindings that agree on the guards
prepare the same text, and a text without a number sign has no guards.
-/

set_option autoImplicit false

namespace DataAccess

namespace Block

/-- The variable's values are both true or both not, and both filled or both not. -/
def SameSwitch (values values' : Dict Value) (var : String) : Prop :=
  (values.get? var).any Value.isTruthy = (values'.get? var).any Value.isTruthy ∧
    ((values.get? var).any fun v => !v.isEmpty) = (values'.get? var).any fun v => !v.isEmpty

theorem holds_eq {values values' : Dict Value} {guard : Guard}
    (h : SameSwitch values values' guard.var) : guard.holds values = guard.holds values' := by
  cases guard with
  | ifTrue var negated => exact congrArg (· != negated) h.1
  | notEmpty var => exact h.2

def SameText (out out' : Prepared) : Prop :=
  out.sql = out'.sql ∧ out.params.length = out'.params.length

theorem prepare_guarded (flavor : Flavor) (values : Dict Value)
    (condition : Option TableCondition) (guard : Guard) (body next : Block) (out : Prepared) :
    (guarded guard body next).prepare flavor values condition out =
      if guard.holds values = true then
        body.prepare flavor values condition out >>= next.prepare flavor values condition
      else next.prepare flavor values condition out := by
  rw [prepare]
  split <;> rfl

theorem prepare_sameText {flavor : Flavor} {values values' : Dict Value}
    {condition : Option TableCondition} {b : Block}
    (hguards : ∀ var ∈ b.guardVars, SameSwitch values values' var) {out out' p p' : Prepared}
    (hout : SameText out out') (h : b.prepare flavor values condition out = .ok p)
    (h' : b.prepare flavor values' condition out' = .ok p') : SameText p p' := by
  induction b generalizing out out' p p' with
  | done =>
    cases h
    cases h'
    exact hout
  | text s next ih =>
    have htext : SameText { out with sql := out.sql ++ s } { out' with sql := out'.sql ++ s } :=
      ⟨congrArg (· ++ s) hout.1, hout.2⟩
    exact ih hguards htext h h'
  | table m next ih =>
    obtain ⟨name, hname, h⟩ := bind_eq_ok.mp h
    obtain ⟨name', hname', h'⟩ := bind_eq_ok.mp h'
    obtain rfl : name = name' := Except.ok.inj (hname.symm.trans hname')
    have htext : SameText { out with sql := out.sql ++ name }
        { out' with sql := out'.sql ++ name } := ⟨congrArg (· ++ name) hout.1, hout.2⟩
    exact ih hguards htext h h'
  | param name next ih =>
    rw [prepare] at h h'
    cases hv : values.get? name with
    | none =>
      rw [hv] at h
      cases h
    | some v =>
      cases hv' : values'.get? name with
      | none =>
        rw [hv'] at h'
        cases h'
      | some v' =>
        rw [hv] at h
        rw [hv'] at h'
        have hlength : (out.params ++ [v]).length = (out'.params ++ [v']).length := by
          simp [hout.2]
        refine ih hguards ⟨?_, hlength⟩ h h'
        rw [hout.1, hlength]
  | guarded guard body next ihb ihn =>
    rw [guardVars] at hguards
    have hholds := holds_eq (hguards _ (List.mem_cons_self ..))
    have hbody : ∀ var ∈ body.guardVars, SameSwitch values values' var := fun var hvar =>
      hguards var (List.mem_cons_of_mem _ (List.mem_append_left _ hvar))
    have hnext : ∀ var ∈ next.guardVars, SameSwitch values values' var := fun var hvar =>
      hguards var (List.mem_cons_of_mem _ (List.mem_append_right _ hvar))
    rw [prepare_guarded, ← hholds] at h'
    rw [prepare_guarded] at h
    split at h
    · next hon =>
      rw [if_pos hon] at h'
      obtain ⟨mid, hmid, h⟩ := bind_eq_ok.mp h
      obtain ⟨mid', hmid', h'⟩ := bind_eq_ok.mp h'
      exact ihn hnext (ihb hbody hout hmid hmid') h h'
    · next hoff =>
      rw [if_neg hoff] at h'
      exact ihn hnext hout h h'

end Block

namespace Token

theorem begins_unmarked {cs rest : List Char} {token : Token} (h : Begins cs token rest)
    (hcs : '#' ∉ cs) :
    '#' ∉ rest ∧ ∀ directive argument, token ≠ opening directive argument := by
  cases h with
  | opening d hbalanced => simp at hcs
  | unclosed d hopen => simp at hcs
  | closing hend => simp at hcs
  | _ => simp_all

theorem not_opening_of_splits {cs : List Char} {tokens : List Token} (h : Splits cs tokens)
    (hcs : '#' ∉ cs) (directive : Directive) (argument : List Char) :
    opening directive argument ∉ tokens := by
  induction h with
  | nil => exact List.not_mem_nil
  | cons hfirst hrest ih =>
    obtain ⟨hbehind, hno⟩ := begins_unmarked hfirst hcs
    rw [List.mem_cons, not_or]
    exact ⟨Ne.symm (hno directive argument), ih hbehind⟩

end Token

namespace Block

theorem guardVars_of_build {registry : Registry} {owner : Mapping} {source : String}
    {depth : Nat} {tokens : List Token} {b : Block} {outer : List Block}
    (h : build registry owner source depth tokens = .ok (b, outer))
    (hno : ∀ directive argument, Token.opening directive argument ∉ tokens) :
    b.guardVars = [] := by
  induction tokens generalizing depth b outer with
  | nil =>
    obtain ⟨-, rfl, -⟩ := build_nil h
    rfl
  | cons token rest ih =>
    have hrest (directive : Directive) (argument : List Char) :
        Token.opening directive argument ∉ rest := fun hm =>
      hno directive argument (List.mem_cons_of_mem _ hm)
    have hcons := build_cons h
    cases token with
    | text cs =>
      obtain ⟨next, rfl, hb⟩ := hcons
      show next.guardVars = []
      exact ih hb hrest
    | param name =>
      obtain ⟨next, rfl, hb⟩ := hcons
      show next.guardVars = []
      exact ih hb hrest
    | table business =>
      obtain ⟨m, next, -, rfl, hb⟩ := hcons
      show next.guardVars = []
      exact ih hb hrest
    | column prop =>
      obtain ⟨c, next, -, rfl, hb⟩ := hcons
      show next.guardVars = []
      exact ih hb hrest
    | opening directive argument => exact absurd (List.mem_cons_self ..) (hno directive argument)
    | unclosed directive rest => exact hcons.elim
    | closing =>
      obtain ⟨below, next, outer', -, rfl, -, -⟩ := hcons
      rfl

end Block

end DataAccess
