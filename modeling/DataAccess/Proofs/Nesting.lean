/-!
# Nested lists

A list in which every opening item is matched with a closing one behind it. A list that stands
behind some open items is nested between the closing ones that they are matched with.
-/

set_option autoImplicit false

namespace DataAccess

section
variable {α : Type} (alone opens : α → Prop) (close : α)

/-- Items that stand alone, and nested lists between an opening item and a closing one. -/
inductive Nested : List α → Prop
  | nil : Nested []
  | alone {a : α} {l : List α} (ha : alone a) (hl : Nested l) : Nested (a :: l)
  | pair {a : α} {inner l : List α} (ha : opens a) (hinner : Nested inner) (hl : Nested l) :
      Nested (a :: (inner ++ close :: l))

/-- Nested behind `depth` open items: a nested list for each of them, and one behind the last. -/
def NestedUnder : Nat → List α → Prop
  | 0, l => Nested alone opens close l
  | depth + 1, l => ∃ inner rest, l = inner ++ close :: rest ∧
      Nested alone opens close inner ∧ NestedUnder depth rest

variable {alone opens close} {depth : Nat} {a : α} {l : List α}

theorem nestedUnder_alone (ha : alone a) (h : NestedUnder alone opens close depth l) :
    NestedUnder alone opens close depth (a :: l) := by
  cases depth with
  | zero => exact .alone ha h
  | succ depth =>
    obtain ⟨inner, rest, rfl, hinner, hrest⟩ := h
    exact ⟨a :: inner, rest, rfl, .alone ha hinner, hrest⟩

theorem nestedUnder_opens (ha : opens a) (h : NestedUnder alone opens close (depth + 1) l) :
    NestedUnder alone opens close depth (a :: l) := by
  obtain ⟨inner, rest, rfl, hinner, hrest⟩ := h
  cases depth with
  | zero => exact .pair ha hinner hrest
  | succ depth =>
    obtain ⟨next, rest, rfl, hnext, hrest⟩ := hrest
    refine ⟨a :: (inner ++ close :: next), rest, ?_, .pair ha hinner hnext, hrest⟩
    rw [List.cons_append, List.append_assoc, List.cons_append]

theorem nestedUnder_close (h : NestedUnder alone opens close depth l) :
    NestedUnder alone opens close (depth + 1) (close :: l) :=
  ⟨[], l, rfl, .nil, h⟩

end

end DataAccess
