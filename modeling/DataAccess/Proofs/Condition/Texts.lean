import DataAccess.Condition
import DataAccess.Proofs.Conversion
import DataAccess.Proofs.Operator.Tokens

/-!
# Conditions read from text and shown

A text is read as a condition where some token begins in it, and split around the leftmost one.
Shown and read again, a condition is the same as long as its own token is the one that is found.
-/

set_option autoImplicit false

namespace DataAccess.Condition

open Operator

theorem parse_eq_some {text : String} {c : Condition} :
    parse? text = some c ↔ ∃ before token behind, FirstToken text.toList before token behind ∧
      ofToken? token = some c.op ∧ c.field = textOf before ∧
      c.value = some (.text (textOf behind)) := by
  rw [parse?, Option.map_eq_some_iff]
  constructor
  · rintro ⟨⟨before, op, behind⟩, hsplit, rfl⟩
    obtain ⟨token, htoken, hfirst⟩ := split_eq_some.mp hsplit
    exact ⟨before, token, behind, hfirst, htoken, rfl, rfl⟩
  · rintro ⟨before, token, behind, hfirst, htoken, hfield, hvalue⟩
    refine ⟨(before, c.op, behind), split_eq_some.mpr ⟨token, htoken, hfirst⟩, ?_⟩
    obtain ⟨field, op, value⟩ := c
    cases hfield
    cases hvalue
    rfl

/-- What reading the value in the type of the property comes to. -/
inductive Typed (m : Mapping) (field : String) (op : Operator) (value : String) :
    Except Fault (Option Condition) → Prop
  | unknown (hcolumn : m.column? field = none) :
    Typed m field op value (.error (.unknownProperty m.business field))
  | read {column : Column} {v : Value} (hcolumn : m.column? field = some column)
      (hvalue : column.type.ofText value = .ok v) :
    Typed m field op value (.ok (some ⟨field, op, some v⟩))
  | unread {column : Column} (hcolumn : m.column? field = some column)
      (hvalue : column.type.ofText value = .error (.conversion value column.type)) :
    Typed m field op value (.error (.conversion value column.type))

theorem typed_of_split {m : Mapping} {text : String} {before behind : List Char} {op : Operator}
    (h : split? text.toList = some (before, op, behind)) :
    Typed m (textOf before) op (textOf behind) (parseTyped m text) := by
  rw [parseTyped, h]
  dsimp only
  cases hcolumn : m.column? (textOf before) with
  | none =>
    rw [Mapping.column, hcolumn]
    exact .unknown hcolumn
  | some column =>
    rw [Mapping.column, hcolumn]
    rcases column.type.ofText_cases (textOf behind) with ⟨v, hvalue⟩ | hvalue
    · simp only [bind, Except.bind, hvalue]
      exact .read hcolumn hvalue
    · simp only [bind, Except.bind, hvalue]
      exact .unread hcolumn hvalue

theorem parseTyped_eq_none {m : Mapping} {text : String} :
    parseTyped m text = .ok none ↔ parse? text = none := by
  cases hsplit : split? text.toList with
  | none =>
    rw [parseTyped, parse?, hsplit]
    exact ⟨fun _ => rfl, fun _ => rfl⟩
  | some found =>
    obtain ⟨before, op, behind⟩ := found
    rw [parse?, hsplit]
    refine ⟨fun h => ?_, fun h => (nomatch h)⟩
    have htyped := typed_of_split (m := m) hsplit
    rw [h] at htyped
    cases htyped

theorem textOf_eq_iff {cs : List Char} {s : String} :
    s = textOf cs ↔ Text.TrimsTo cs s.toList := by
  rw [Text.trimsTo_iff, textOf, ← String.toList_inj, String.toList_ofList, eq_comm]

/-- A text is a condition iff a token begins in it. It is split around the longest token at the
leftmost place where one begins; the operator is that of the token, the property and the value
are the trimmed texts on both sides. In the types of a mapping the split is the same one, and the
value is converted, or the property is unknown, or the value is none of its type. -/
theorem parse_splits (text : String) :
    ((parse? text).isSome ↔ ∃ place token, Begins token (text.toList.drop place)) ∧
    (∀ c, parse? text = some c ↔
      ∃ before token behind value, FirstToken text.toList before token behind ∧
        ofToken? token = some c.op ∧ Text.TrimsTo before c.field.toList ∧
        c.value = some (.text value) ∧ Text.TrimsTo behind value.toList) ∧
    ∀ m, (parseTyped m text = .ok none ↔ parse? text = none) ∧
      ∀ before token behind op, FirstToken text.toList before token behind →
        ofToken? token = some op →
        ∃ field value, Text.TrimsTo before field.toList ∧ Text.TrimsTo behind value.toList ∧
          Typed m field op value (parseTyped m text) := by
  refine ⟨?_, fun c => ?_, fun m => ⟨parseTyped_eq_none, ?_⟩⟩
  · rw [parse?, Option.isSome_map]
    exact split_isSome
  · rw [parse_eq_some]
    simp only [← textOf_eq_iff]
    constructor
    · rintro ⟨before, token, behind, hfirst, htoken, hfield, hvalue⟩
      exact ⟨before, token, behind, _, hfirst, htoken, hfield, hvalue, rfl⟩
    · rintro ⟨before, token, behind, value, hfirst, htoken, hfield, hvalue, rfl⟩
      exact ⟨before, token, behind, hfirst, htoken, hfield, hvalue⟩
  · intro before token behind op hfirst htoken
    exact ⟨_, _, textOf_eq_iff.mp rfl, textOf_eq_iff.mp rfl,
      typed_of_split (split_eq_some.mpr ⟨token, htoken, hfirst⟩)⟩

def marks : List Char := ['!', '>', '<', '=', '~']

theorem not_begins_of_not_mark {c : Char} (h : c ∉ marks) (rest : List Char) (token : String) :
    ¬ Begins token (c :: rest) := by
  rintro ⟨hmem, hfront, -⟩
  have hall : ∀ token ∈ spellings,
      (marks.any fun mark => [mark].isPrefixOf token.toList) = true := by
    decide
  obtain ⟨mark, hmark, hhead⟩ := List.any_eq_true.mp (hall token hmem)
  obtain ⟨back, hback⟩ := (List.isPrefixOf_iff_prefix.mp hhead).trans hfront
  cases hback
  exact h hmark

theorem token_mem_tokens (op : Operator) : op.token ∈ op.tokens := by
  cases op <;> decide

theorem firstToken_of_unmarked {before behind : List Char} {op : Operator}
    (hmarks : ∀ c ∈ before, c ∉ marks) (hends : Ends op.token behind) :
    FirstToken (before ++ (op.token.toList ++ behind)) before op.token behind := by
  refine firstToken_of_ends (mem_spellings (token_mem_tokens op)) rfl hends ?_
  intro place hplace other
  have hlong : place < (before ++ (op.token.toList ++ behind)).length := by
    rw [List.length_append]
    omega
  rw [List.drop_eq_getElem_cons hlong, List.getElem_append_left hplace]
  exact not_begins_of_not_mark (hmarks _ (List.getElem_mem hplace)) _ other

/-- Shown and read again, a condition on trimmed text is the same: there is no mark in its
property, and its value does not begin with one that makes a longer token of the operator's.
Marks further behind do no harm. -/
theorem parse_display {c : Condition} {value : String} (hvalue : c.value = some (.text value))
    (hfield : Text.trimmed c.field = c.field) (htrim : Text.trimmed value = value)
    (hmarks : ∀ mark ∈ c.field.toList, mark ∉ marks) (hends : Ends c.op.token value.toList) :
    parse? c.display = some c := by
  have hshown : c.display.toList = c.field.toList ++ (c.op.token.toList ++ value.toList) := by
    rw [display, hvalue, String.toList_append, String.toList_append, List.append_assoc]
    rfl
  have hfirst := firstToken_of_unmarked hmarks hends
  rw [← hshown] at hfirst
  rw [Text.trimmed_eq] at hfield htrim
  exact parse_eq_some.mpr ⟨_, _, _, hfirst, ofToken?_of_mem (token_mem_tokens c.op), hfield.symm,
    by rw [hvalue, textOf, htrim]⟩

/-- A value full of operators. -/
theorem parse_display_marks :
    let c : Condition := ⟨"url", .equal, some (.text "http://a.com/?b=c<>d=~=e")⟩
    parse? c.display = some c := by
  intro c
  refine parse_display rfl ?_ ?_ ?_ ?_
  · rw [Text.trimmed_eq]
    decide +kernel
  · rw [Text.trimmed_eq]
    decide +kernel
  · simp [c, marks]
  · simp [c, Ends, extending, token]

end DataAccess.Condition
