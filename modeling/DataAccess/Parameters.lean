import DataAccess.Value.Order

/-!
# Parameter accumulators

Each value added for a property gets a name: the property with every character that no name
may hold replaced, and the number of values added before under the same base.
-/

set_option autoImplicit false

namespace DataAccess

structure Parameter where
  name : String
  prop : String
  value : Value
  deriving DecidableEq

structure Parameters where
  entries : List Parameter := []
  deriving DecidableEq

namespace Parameters

def base (prop : String) : List Char :=
  match prop.toList.map fun c => if Text.isNamePart c then c else '_' with
  | [] => ['p']
  | cs => cs

def empty : Parameters := {}

def uses (ps : Parameters) (prop : String) : Nat :=
  ps.entries.countP fun e => e.prop == prop || base e.prop == base prop

/-- Equal properties have equal bases, so comparing the bases is enough. -/
theorem uses_eq_countP (ps : Parameters) (prop : String) :
    ps.uses prop = ps.entries.countP fun e => base e.prop == base prop := by
  unfold uses
  congr 1
  funext e
  by_cases h : e.prop = prop <;> simp [h]

def nextName (ps : Parameters) (prop : String) : String :=
  String.ofList (base prop ++ '_' :: Text.digitsOf (ps.uses prop))

def add (ps : Parameters) (prop : String) (v : Value) : String × Parameters :=
  let name := ps.nextName prop
  (name, ⟨ps.entries ++ [⟨name, prop, v⟩]⟩)

def find? (ps : Parameters) (name : String) : Option Parameter :=
  ps.entries.find? (·.name = name)

def value? (ps : Parameters) (name : String) : Option Value := (ps.find? name).map (·.value)

def propOf? (ps : Parameters) (name : String) : Option String := (ps.find? name).map (·.prop)

def pairs (ps : Parameters) : List (String × Value) := ps.entries.map fun e => (e.name, e.value)

end Parameters

end DataAccess
