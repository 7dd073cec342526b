import DataAccess.Magazine
import DataAccess.Proofs.Parameters.Names
import DataAccess.Proofs.Session.Routing
import DataAccess.Proofs.Value.Integers

/-!
# Tables with a suffix

The suffix of a table is the text of a value, put behind an underscore and written as it is. A text
has to be made of letters, digits and underscores, so that the name stays one identifier; but any
integer will do, and a negative one brings its sign along.
-/

set_option autoImplicit false

namespace DataAccess

namespace Text

theorem isName_append {front : List Char} (h : isName front = true) (back : List Char) :
    isName (front ++ back) = back.all isNamePart := by
  cases front with
  | nil => cases h
  | cons c cs =>
    rw [isName, Bool.and_eq_true] at h
    rw [List.cons_append, isName, List.all_append, h.1, h.2, Bool.true_and, Bool.true_and]

theorem ofNat_ne_empty (n : Nat) : ofNat n ≠ "" := by
  rw [ofNat, Ne, String.ofList_eq_empty_iff]
  exact Nat.toDigits_ne_nil

theorem ofNat_all (n : Nat) : (ofNat n).toList.all isNamePart = true := by
  rw [ofNat, String.toList_ofList]
  exact digitsOf_all n

theorem ofInt_ne_empty (k : Int) : ofInt k ≠ "" := by
  rw [ofInt]
  split
  · exact fun h => ofNat_ne_empty _ (String.append_eq_empty_iff.mp h).2
  · exact ofNat_ne_empty _

theorem ofInt_all (k : Int) : (ofInt k).toList.all isNamePart = !decide (k < 0) := by
  rw [ofInt]
  split
  · next h =>
    rw [decide_eq_true h, String.toList_append]
    rfl
  · next h => rw [decide_eq_false h, ofNat_all, Bool.not_false]

end Text

namespace Value

/-- A suffix is made of an integer, or of text in letters, digits and underscores. -/
inductive MakesSuffix : Value → Prop
  | integer {v : Value} {k : Int} (h : v.integer? = some k) : MakesSuffix v
  | text {s : String} (hne : s ≠ "") (hparts : s.toList.all Text.isNamePart = true) :
      MakesSuffix (.text s)

def isNegative (v : Value) : Bool := v.integer?.any (· < 0)

theorem isSuffix_iff (v : Value) : Table.isSuffix v = true ↔ v.MakesSuffix := by
  constructor
  · intro h
    cases v with
    | int i => exact .integer (k := i.toInt) rfl
    | uint n => exact .integer (k := n.toNat) rfl
    | text s =>
      rw [Table.isSuffix, Bool.and_eq_true, bne_iff_ne] at h
      exact .text h.1 h.2
    | _ => cases h
  · intro h
    cases h with
    | @integer v k h =>
      cases v with
      | int i | uint n => rfl
      | _ => cases h
    | @text s hne hparts =>
      rw [Table.isSuffix, Bool.and_eq_true, bne_iff_ne]
      exact ⟨hne, hparts⟩

theorem display_integer {v : Value} {k : Int} (h : v.integer? = some k) :
    v.display = Text.ofInt k := by
  cases v with
  | int i =>
    cases h
    rfl
  | uint n =>
    cases h
    rw [Text.ofInt, if_neg (by omega)]
    rfl
  | _ => cases h

theorem display_ne_empty {v : Value} (h : v.MakesSuffix) : v.display ≠ "" := by
  cases h with
  | integer h =>
    rw [display_integer h]
    exact Text.ofInt_ne_empty _
  | text hne hparts => exact hne

theorem display_all {v : Value} (h : v.MakesSuffix) :
    v.display.toList.all Text.isNamePart = !v.isNegative := by
  cases h with
  | integer h =>
    rw [display_integer h, Text.ofInt_all, isNegative, h, Option.any_some]
  | text hne hparts => exact hparts

end Value

namespace Table

variable {t : Table} {key : String}

structure Suffixed (t : Table) (v : Value) (real : String) : Prop where
  made : v.MakesSuffix
  name : real = t.name ++ "_" ++ v.display
  nonempty : v.display ≠ ""
  parts : v.display.toList.all Text.isNamePart = !v.isNegative
  isName : Text.isName real.toList = !v.isNegative

theorem suffixed_of_makesSuffix (hname : Text.isName t.name.toList = true) {v : Value}
    (h : v.MakesSuffix) : t.Suffixed v (t.name ++ "_" ++ v.display) where
  made := h
  name := rfl
  nonempty := Value.display_ne_empty h
  parts := Value.display_all h
  isName := by
    rw [String.append_assoc, String.toList_append, Text.isName_append hname, String.toList_append,
      List.all_append, Value.display_all h]
    rfl

theorem realName_eq_ok (hkey : t.suffixKey = some key) {condition : Option TableCondition}
    {real : String} : t.realName condition = .ok real ↔
      ∃ v, condition.bind (·.get? key) = some v ∧ v.MakesSuffix ∧
        real = t.name ++ "_" ++ v.display := by
  rw [realName, hkey]
  dsimp only
  rw [suffixed]
  cases hv : condition.bind (·.get? key) with
  | none => simp
  | some v =>
    have hvalue (P : Value → Prop) : (∃ w, some v = some w ∧ P w) ↔ P v := by simp
    rw [hvalue, ← Value.isSuffix_iff]
    cases v with
    | null => simp [isSuffix]
    | _ =>
      dsimp only
      split
      · next h => simp [h, eq_comm]
      · next h => simp [h]

/-- A table whose name is an identifier has a name under a condition exactly if the condition has an
integer or a text of name characters for it. That name is the table's own, an underscore and the
value's text, which is never empty; it is an identifier again, and the text has only letters, digits
and underscores, unless the value is a negative integer. Different texts make different names. And
every statement that is prepared under the condition has that name, as it is, where the table
stands. -/
theorem realName_suffixed (hkey : t.suffixKey = some key)
    (hname : Text.isName t.name.toList = true) :
    (∀ condition real, t.realName condition = .ok real ↔
      ∃ v, condition.bind (·.get? key) = some v ∧ t.Suffixed v real) ∧
    (∀ v w real other, t.Suffixed v real → t.Suffixed w other →
      (real = other ↔ v.display = w.display)) ∧
    ∀ (b : BoundTemplate) (default : Option TableCondition) (prepared : Prepared),
      b.prepare default = .ok prepared → ∀ (front back : List Part) (m : Mapping),
      b.template.body.parts b.values = front ++ .table m :: back → m.table = t →
      ∃ real es fs, t.realName (b.condition default) = .ok real ∧
        List.Forall₂ (Part.Writes (b.condition default) b.values) front es ∧
        List.Forall₂ (Part.Writes (b.condition default) b.values) back fs ∧
        prepared.sql = Emission.sql b.mapping.flavor 0 es ++ real ++
          Emission.sql b.mapping.flavor (Emission.params es).length fs := by
  refine ⟨fun condition real => ?_, fun v w real other hv hw => ?_, ?_⟩
  · rw [realName_eq_ok hkey]
    refine exists_congr fun v => and_congr_right fun _ => ⟨?_, fun h => ⟨h.made, h.name⟩⟩
    rintro ⟨hmade, rfl⟩
    exact suffixed_of_makesSuffix hname hmade
  · rw [hv.name, hw.name, String.append_right_inj]
  · rintro b default prepared hprepared front back m hparts rfl
    obtain ⟨all, hall, rfl⟩ := Block.prepare_writes hprepared
    rw [hparts] at hall
    obtain ⟨es, fs, rfl, hfront, hback⟩ := Part.writes_append hall
    cases hback with
    | cons hwrites hback =>
      obtain ⟨real, hreal, rfl⟩ := Part.writes_table hwrites
      refine ⟨real, es, _, hreal, hfront, hback, ?_⟩
      show "" ++ Emission.sql _ 0 _ = _
      rw [String.empty_append, Emission.sql_append, Emission.sql, String.append_assoc]

/-- The comments of a quarter. -/
theorem realName_suffixed_quarter :
    (Magazine.comment .mySQL).table.realName (some (Dict.ofList [("userId", .text "2024_q1")])) =
        .ok "TB_COMMENT_2024_q1" ∧
      Text.isName "TB_COMMENT_2024_q1".toList = true := by
  have hkey : (Magazine.comment .mySQL).table.suffixKey = some "userId" := rfl
  have hname : Text.isName (Magazine.comment .mySQL).table.name.toList = true := by decide
  obtain ⟨hreal, -, -⟩ := realName_suffixed hkey hname
  have hmade : (Value.text "2024_q1").MakesSuffix := .text (by decide) (by decide)
  have hsuffixed := suffixed_of_makesSuffix hname hmade
  exact ⟨(hreal _ _).mpr ⟨_, rfl, hsuffixed⟩, hsuffixed.isName⟩

/-- A negative integer is taken as a suffix, and the name is no identifier; the same text is not
taken. -/
theorem negative_suffix :
    let t := (Magazine.comment .mySQL).table
    Text.isName t.name.toList = true ∧
      t.realName (some (Dict.ofList [("userId", .int (-5))])) = .ok "TB_COMMENT_-5" ∧
      Text.isName "TB_COMMENT_-5".toList = false ∧
      t.realName (some (Dict.ofList [("userId", .text "-5")])) =
        .error (.invalidTableCondition "TB_COMMENT" "userId" "-5") := by
  decide +kernel

end Table

end DataAccess
