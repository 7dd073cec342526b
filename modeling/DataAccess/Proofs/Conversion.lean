import DataAccess.ColumnType.Conversion
import DataAccess.Proofs.Trimming

/-!
# Values that become null

Text is read as a value of a type or named in the fault. In a column that is not of text, blank
text becomes null. No other value does, apart from null.
-/

set_option autoImplicit false

namespace DataAccess.ColumnType

/-- The type reads the value as null although it is text. -/
def Clears (type : ColumnType) (v : Value) : Prop :=
  type.isTextual = false ∧ ∃ s, v = .text s ∧ Text.isBlankText s = true

theorem ofText_cases (type : ColumnType) (s : String) :
    (∃ v, type.ofText s = .ok v) ∨ type.ofText s = .error (.conversion s type) := by
  unfold ofText
  dsimp only
  split
  · exact .inl ⟨_, rfl⟩
  · split
    · exact .inl ⟨_, rfl⟩
    · exact .inr rfl

theorem read?_ne_null (type : ColumnType) (s : String) (trimmed : List Char) :
    type.read? s trimmed ≠ some .null := by
  cases type <;> simp [read?]

theorem ofText_eq_null {type : ColumnType} {s : String} :
    type.ofText s = .ok .null ↔ type.isTextual = false ∧ Text.isBlankText s = true := by
  rw [ofText, Text.isEmpty_trim, ← Text.isBlankText_eq_allBlank]
  constructor
  · intro h
    split at h
    · next hblank =>
      rw [Bool.and_eq_true, Bool.not_eq_true'] at hblank
      exact ⟨hblank.2, hblank.1⟩
    · split at h
      · next v hv =>
        cases h
        exact absurd hv (read?_ne_null type s _)
      · cases h
  · rintro ⟨htype, hblank⟩
    rw [htype, hblank]
    rfl

theorem convert_eq_null {type : ColumnType} {v : Value} :
    type.convert v = .ok .null ↔ v = .null ∨ type.Clears v := by
  cases v with
  | text s =>
    cases htype : type.isTextual with
    | true => simp [convert, Clears, htype]
    | false => simp [convert, Clears, htype, ofText_eq_null]
  | int n =>
    simp only [convert, Clears]
    split
    · simp
    · split <;> simp
  | _ => simp [convert, Clears]

end DataAccess.ColumnType
