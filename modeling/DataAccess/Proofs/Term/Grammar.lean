import DataAccess.Proofs.Term.Spelling

/-!
# How SQL reads a predicate

`and` binds tighter than `or`, both group to the left, and parentheses come first. A machine
with one pair of pending operands for each open parenthesis follows every reading, so there is
one reading at most.
-/

set_option autoImplicit false

namespace DataAccess

inductive Formula where
  | atom (leaf : Nat)
  | and (left right : Formula)
  | or (left right : Formula)

namespace Formula

def truth (σ : Nat → Bool) : Formula → Bool
  | atom leaf => σ leaf
  | and l r => l.truth σ && r.truth σ
  | or l r => l.truth σ || r.truth σ

def joined : Joiner → Formula → Formula → Formula
  | .and => and
  | .or => or

inductive Level where
  | factor | conjunction | disjunction

inductive Reads : Level → List Lexeme → Formula → Prop
  | atom (leaf : Nat) (text : String) : Reads .factor [.atom leaf text] (.atom leaf)
  | parentheses {ls : List Lexeme} {φ : Formula} :
      Reads .disjunction ls φ → Reads .factor (.opening :: (ls ++ [.closing])) φ
  | factor {ls : List Lexeme} {φ : Formula} : Reads .factor ls φ → Reads .conjunction ls φ
  | and {ls rs : List Lexeme} {φ ψ : Formula} :
      Reads .conjunction ls φ → Reads .factor rs ψ →
      Reads .conjunction (ls ++ .joiner .and :: rs) (.and φ ψ)
  | conjunction {ls : List Lexeme} {φ : Formula} :
      Reads .conjunction ls φ → Reads .disjunction ls φ
  | or {ls rs : List Lexeme} {φ ψ : Formula} :
      Reads .disjunction ls φ → Reads .conjunction rs ψ →
      Reads .disjunction (ls ++ .joiner .or :: rs) (.or φ ψ)

/-- The operands before the present one, inside the innermost parenthesis. -/
structure Pending where
  disjunct? : Option Formula := none
  conjunct? : Option Formula := none

namespace Pending

def conjunction (p : Pending) (φ : Formula) : Formula :=
  match p.conjunct? with
  | some before => .and before φ
  | none => φ

def disjunction (p : Pending) (φ : Formula) : Formula :=
  match p.disjunct? with
  | some before => .or before (p.conjunction φ)
  | none => p.conjunction φ

end Pending

def machine : List Pending → Pending → Option Formula → List Lexeme → Option Formula
  | [], p, some φ, [] => some (p.disjunction φ)
  | outer, p, none, .atom leaf _ :: rest => machine outer p (some (.atom leaf)) rest
  | outer, p, none, .opening :: rest => machine (p :: outer) {} none rest
  | q :: outer, p, some φ, .closing :: rest => machine outer q (some (p.disjunction φ)) rest
  | outer, p, some φ, .joiner .and :: rest =>
    machine outer { p with conjunct? := some (p.conjunction φ) } none rest
  | outer, p, some φ, .joiner .or :: rest =>
    machine outer { disjunct? := some (p.disjunction φ) } none rest
  | _, _, _, _ => none

theorem machine_and (outer : List Pending) (disjunct? : Option Formula) (φ ψ : Formula)
    (rest : List Lexeme) :
    machine outer ⟨disjunct?, some φ⟩ (some ψ) rest =
      machine outer ⟨disjunct?, none⟩ (some (.and φ ψ)) rest := by
  cases rest with
  | nil => cases outer <;> rfl
  | cons l rest =>
    cases l with
    | joiner j => cases j <;> cases outer <;> rfl
    | _ => cases outer <;> rfl

theorem machine_or (outer : List Pending) (φ ψ : Formula) (rest : List Lexeme)
    (hrest : rest.head? ≠ some (.joiner .and)) :
    machine outer ⟨some φ, none⟩ (some ψ) rest = machine outer {} (some (.or φ ψ)) rest := by
  cases rest with
  | nil => cases outer <;> rfl
  | cons l rest =>
    cases l with
    | joiner j =>
      cases j with
      | and => exact absurd rfl hrest
      | or => cases outer <;> rfl
    | _ => cases outer <;> rfl

/-- The machine at the start of a part reaches the end of the part with its formula. A
disjunction ends where no `and` follows. -/
def Passes (φ : Formula) (ls : List Lexeme) : Level → Prop
  | .factor => ∀ outer p rest, machine outer p none (ls ++ rest) = machine outer p (some φ) rest
  | .conjunction => ∀ outer disjunct? rest,
      machine outer ⟨disjunct?, none⟩ none (ls ++ rest) =
        machine outer ⟨disjunct?, none⟩ (some φ) rest
  | .disjunction => ∀ outer rest, rest.head? ≠ some (.joiner .and) →
      machine outer {} none (ls ++ rest) = machine outer {} (some φ) rest

theorem passes {level : Level} {ls : List Lexeme} {φ : Formula} (h : Reads level ls φ) :
    Passes φ ls level := by
  induction h with
  | atom leaf text =>
    intro outer p rest
    cases outer <;> rfl
  | @parentheses ls φ _ ih =>
    intro outer p rest
    have hopen : machine outer p none (.opening :: (ls ++ [.closing]) ++ rest) =
        machine (p :: outer) {} none (ls ++ .closing :: rest) := by
      rw [List.cons_append, List.append_assoc]
      cases outer <;> rfl
    rw [hopen, ih (p :: outer) (.closing :: rest) (by simp)]
    rfl
  | factor _ ih => exact fun outer disjunct? rest => ih outer ⟨disjunct?, none⟩ rest
  | @and ls rs φ ψ _ _ ihl ihr =>
    intro outer disjunct? rest
    have hand : machine outer ⟨disjunct?, none⟩ (some φ) (.joiner .and :: (rs ++ rest)) =
        machine outer ⟨disjunct?, some φ⟩ none (rs ++ rest) := by cases outer <;> rfl
    rw [List.append_assoc, List.cons_append, ihl, hand, ihr, machine_and]
  | conjunction _ ih => exact fun outer rest _ => ih outer none rest
  | @or ls rs φ ψ _ _ ihl ihr =>
    intro outer rest hrest
    have hor : machine outer {} (some φ) (.joiner .or :: (rs ++ rest)) =
        machine outer ⟨some φ, none⟩ none (rs ++ rest) := by cases outer <;> rfl
    rw [List.append_assoc, List.cons_append, ihl outer _ (by simp), hor, ihr,
      machine_or outer φ ψ rest hrest]

theorem machine_eq {ls : List Lexeme} {φ : Formula} (h : Reads .disjunction ls φ) :
    machine [] {} none ls = some φ := by
  have hpass := passes h [] [] (by simp)
  rw [List.append_nil] at hpass
  rw [hpass]
  rfl

theorem reads_unique {ls : List Lexeme} {φ ψ : Formula} (h : Reads .disjunction ls φ)
    (h' : Reads .disjunction ls ψ) : φ = ψ :=
  Option.some.inj ((machine_eq h).symm.trans (machine_eq h'))

def IsReading (leaves : List (Nat × String)) (sql : String) (φ : Formula) : Prop :=
  ∃ ls, Lexeme.Spells ls sql.toList ∧ Lexeme.atoms ls = leaves ∧ Reads .disjunction ls φ

theorem isReading_unique {leaves : List (Nat × String)} {sql : String} {φ ψ : Formula}
    (hm : Lexeme.Marked leaves) (h : IsReading leaves sql φ) (h' : IsReading leaves sql ψ) :
    φ = ψ := by
  obtain ⟨ls, hls, hatoms, hφ⟩ := h
  obtain ⟨ls', hls', hatoms', hψ⟩ := h'
  have heq : ls = ls' :=
    Lexeme.spells_unique hls hls' (hatoms.trans hatoms'.symm) (hatoms.symm ▸ hm)
  rw [heq] at hφ
  exact reads_unique hφ hψ

end Formula

end DataAccess
