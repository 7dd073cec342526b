import DataAccess.Magazine
import DataAccess.Proofs.Session.Statements
import DataAccess.Proofs.Term.Rendering
import DataAccess.Recorder

/-!
# No condition is lost

A search with a condition is lowered to text with ` where ` and a predicate that is not blank,
unless the condition is an empty query; and of an empty query a session makes nothing but the
empty result. So the text without ` where ` reaches a database for no condition only.
-/

set_option autoImplicit false

namespace DataAccess

namespace Search

def textWhere (s : Search) (m : Mapping) (lowering : Lowering) (predicate : String) : String :=
  (s.frame m lowering).1 ++ (" where " ++ predicate) ++ (s.frame m lowering).2

theorem bound_ok {s : Search} {registry : Registry} {m : Mapping} {lowering : Lowering}
    {b : BoundTemplate} (h : s.bound registry m lowering = .ok b) :
    ∃ text params template, (s.lower m lowering).run .empty = (.ok text, params) ∧
      Template.compile registry m text = .ok template ∧ template.bindAll params.pairs = .ok b := by
  unfold bound at h
  split at h
  · cases h
  · next text params hlower =>
    obtain ⟨template, hcompile, hbind⟩ := bind_eq_ok.mp h
    exact ⟨text, params, template, hlower, hcompile, hbind⟩

end Search

namespace Session

section
variable {W : Type} (d : Driver W) (env : Environment)

/-- The statement stands for a template that was compiled from text with ` where ` and the
predicate of the condition, which is not blank. -/
def Carries (s : Search) (t : Term) (lowering : Lowering) (window : Option Window)
    (default : Option TableCondition) (statement : Statement) : Prop :=
  ∃ m sql params template b, env.registry.mapping s.business = .ok m ∧
    (t.render m).run .empty = (.ok sql, params) ∧
    Text.isBlankText (Text.trimmed sql) = false ∧
    Template.compile env.registry m (s.textWhere m lowering (Text.trimmed sql)) = .ok template ∧
    template.bindAll params.pairs = .ok b ∧
    IsStatement env default { b with lock := s.lock, condition? := s.tableCondition? } window
      statement

end

end Session

end DataAccess
