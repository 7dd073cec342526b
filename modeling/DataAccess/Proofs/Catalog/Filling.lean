import DataAccess.Proofs.Search.Lowering

/-!
# Parts of a statement with their placeholders

A statement is put together from parts: fixed words, names of columns, parameters, and lists of
these. Each part has the names of its parameters and the text that it becomes behind the
placeholders before it, and so has the whole.
-/

set_option autoImplicit false

namespace DataAccess

namespace Text

/-- The text has parameters of these names, and becomes `filled` where the first `used`
placeholders are taken. -/
structure Fills (flavor : Flavor) (used : Nat) (text : String) (names : List String)
    (filled : String) : Prop where
  written : Written text.toList names
  filled : ∀ table, substituted flavor table used text.toList = filled.toList

variable {flavor : Flavor} {used : Nat} {text text' filled filled' : String}
  {names names' : List String}

theorem fills_append (h : Fills flavor used text names filled)
    (h' : Fills flavor (used + names.length) text' names' filled') (hend : EndsName text'.toList) :
    Fills flavor used (text ++ text') (names ++ names') (filled ++ filled') where
  written := by
    rw [String.toList_append]
    exact written_append h.written h'.written hend
  filled table := by
    rw [String.toList_append, substituted_written h.written hend, h.filled, h'.filled,
      String.toList_append]

theorem silent_of_written {cs : List Char} (h : Written cs []) : ∀ c ∈ cs, Silent c := by
  generalize hnone : ([] : List String) = none at h
  induction h with
  | nil => exact fun c hc => absurd hc List.not_mem_nil
  | plain hc hcs ih =>
    rw [List.forall_mem_cons]
    exact ⟨silent_of_isPlain hc, ih hnone⟩
  | quoted hname hcs ih =>
    rw [quoted_append]
    intro c hc
    rcases List.mem_append.mp hc with hc | hc
    · exact silent_quoted hname c hc
    · exact ih hnone c hc
  | param => cases hnone

theorem fills_unnamed (h : Written text.toList []) : Fills flavor used text [] text where
  written := h
  filled table := by
    have hsilent : substituted flavor table used (text.toList ++ []) =
        text.toList ++ substituted flavor table used [] :=
      substituted_silent (silent_of_written h) []
    rwa [List.append_nil, substituted, List.append_nil] at hsilent

theorem fills_plain (text : String) (h : text.toList.all isPlain = true) :
    Fills flavor used text [] text :=
  fills_unnamed (written_of_all h)

theorem fills_behind (words : String) (hwords : words.toList.all isPlain = true)
    (h : Fills flavor used text names filled) :
    Fills flavor used (words ++ text) names (words ++ filled) where
  written := by
    rw [String.toList_append]
    exact written_plain_append hwords h.written
  filled table := by
    rw [String.toList_append, substituted_silent (silent_of_written (written_of_all hwords)),
      h.filled, String.toList_append]

theorem endsName_words {words : String}
    (h : (words.toList.head?.any fun c => !isNamePart c) = true) (text : String) :
    EndsName (words ++ text).toList := by
  rw [String.toList_append]
  cases hwords : words.toList with
  | nil => simp [hwords] at h
  | cons c rest => simpa [EndsName, hwords] using h

theorem fills_column {column : Column} (h : column.IsPlain) :
    Fills flavor used column.sqlName [] column.sqlName := by
  have hwritten := h.written_append .nil
  rw [List.append_nil] at hwritten
  exact fills_unnamed hwritten

theorem fills_param {name : String} (h : isName name.toList = true) :
    Fills flavor used (":" ++ name) [name] (flavor.placeholder (used + 1)) := by
  have hend : EndsName [] := rfl
  have htext : (":" ++ name).toList = ':' :: (name.toList ++ []) := by simp
  constructor
  · rw [htext]
    exact .param h hend .nil
  · intro table
    rw [htext, substituted_param h hend, substituted, List.append_nil]

inductive FillsEach (flavor : Flavor) : Nat → List String → List String → List String → Prop
  | nil {used : Nat} : FillsEach flavor used [] [] []
  | cons {used : Nat} {text filled : String} {texts names names' filleds : List String}
      (hfirst : Fills flavor used text names filled)
      (hrest : FillsEach flavor (used + names.length) texts names' filleds) :
      FillsEach flavor used (text :: texts) (names ++ names') (filled :: filleds)

theorem fills_joined {texts filleds : List String} (h : FillsEach flavor used texts names filleds) :
    Fills flavor used (joined ", " texts) names (joined ", " filleds) := by
  induction h with
  | nil => exact fills_plain _ rfl
  | @cons used text filled texts names names' filleds hfirst hrest ih =>
    cases hrest with
    | nil => simpa [joined] using hfirst
    | cons hnext hlater =>
      have hwhole := fills_append hfirst (fills_behind ", " (by decide) ih)
        (endsName_words (by decide) _)
      simpa only [joined, String.append_assoc] using hwhole

def placeholders (flavor : Flavor) (used count : Nat) : List String :=
  (List.range' (used + 1) count).map flavor.placeholder

theorem fillsEach_columns {columns : List Column} (h : ∀ column ∈ columns, column.IsPlain) :
    FillsEach flavor used (columns.map (·.sqlName)) [] (columns.map (·.sqlName)) := by
  induction columns with
  | nil => exact .nil
  | cons column columns ih =>
    rw [List.forall_mem_cons] at h
    exact .cons (fills_column h.1) (ih h.2)

theorem fillsEach_params {columns : List Column} (h : ∀ column ∈ columns, column.IsPlain) :
    FillsEach flavor used (columns.map fun c => ":" ++ c.prop) (columns.map (·.prop))
      (placeholders flavor used columns.length) := by
  induction columns generalizing used with
  | nil => exact .nil
  | cons column columns ih =>
    rw [List.forall_mem_cons] at h
    exact .cons (fills_param h.1.prop) (ih h.2)

end Text

end DataAccess
