import DataAccess.Parameters
import DataAccess.Proofs.Template.Parsing

/-!
# The names of parameters

A name is a base and a number behind an underscore. The number has no underscore in it, so a
name determines both; and the number counts the values that were added under the base before,
so no two values get one name.
-/

set_option autoImplicit false

namespace DataAccess

namespace Text

theorem isDigit_of_mem_digitsOf {c : Char} {n : Nat} (h : c ∈ digitsOf n) : c.isDigit = true :=
  Nat.isDigit_of_mem_toDigits (by decide) (by decide) h

theorem digitsOf_all (n : Nat) : (digitsOf n).all isNamePart = true := by
  rw [List.all_eq_true]
  intro c hc
  simp [isNamePart, Char.isAlphanum, isDigit_of_mem_digitsOf hc]

theorem digitsOf_injective {n k : Nat} (h : digitsOf n = digitsOf k) : n = k := by
  have hnumber := congrArg (fun ds => Nat.ofDigitChars 10 ds 0) h
  simpa [digitsOf] using hnumber

end Text

namespace Parameters

theorem base_all (prop : String) : (base prop).all Text.isNamePart = true := by
  rw [base]
  split
  · rfl
  · rw [List.all_map, List.all_eq_true]
    intro c hc
    show Text.isNamePart (if Text.isNamePart c then c else '_') = true
    split
    · next h => exact h
    · rfl

def numbered (prop : String) (n : Nat) : String :=
  String.ofList (base prop ++ '_' :: Text.digitsOf n)

theorem numbered_all (prop : String) (n : Nat) :
    (numbered prop n).toList.all Text.isNamePart = true := by
  have hmark : Text.isNamePart '_' = true := by decide
  rw [numbered, String.toList_ofList, List.all_append, List.all_cons, base_all, hmark,
    Text.digitsOf_all]
  rfl

def beginsWithDigit (prop : String) : Bool := prop.toList.head?.any Char.isDigit

theorem not_isAlpha_of_isDigit {c : Char} (h : c.isDigit = true) : c.isAlpha = false := by
  have hle : c.val ≤ 57 := by
    rw [Char.isDigit, Bool.and_eq_true] at h
    exact of_decide_eq_true h.2
  have hbelow (d : UInt32) (hd : 57 < d) : ¬ d ≤ c.val :=
    UInt32.not_le.mpr (UInt32.lt_of_le_of_lt hle hd)
  have hupper : c.isUpper = false := decide_eq_false fun h => hbelow 65 (by decide) h.1
  have hlower : c.isLower = false :=
    Bool.and_eq_false_imp.mpr fun h => absurd (of_decide_eq_true h) (hbelow 97 (by decide))
  exact Bool.or_eq_false_iff.mpr ⟨hupper, hlower⟩

theorem isNameStart_replaced (c : Char) :
    Text.isNameStart (if Text.isNamePart c then c else '_') = !c.isDigit := by
  cases hdigit : c.isDigit with
  | true =>
    have hpart : Text.isNamePart c = true := by simp [Text.isNamePart, Char.isAlphanum, hdigit]
    have hmark : c ≠ '_' := by
      rintro rfl
      cases hdigit
    simp [hpart, Text.isNameStart, not_isAlpha_of_isDigit hdigit, hmark]
  | false =>
    split
    · next hpart => simpa [Text.isNamePart, Text.isNameStart, Char.isAlphanum, hdigit] using hpart
    · rfl

theorem exists_base (prop : String) :
    ∃ c cs, base prop = c :: cs ∧ Text.isNameStart c = !beginsWithDigit prop := by
  rw [base, beginsWithDigit]
  cases prop.toList with
  | nil => exact ⟨'p', [], rfl, rfl⟩
  | cons c cs => exact ⟨_, _, rfl, isNameStart_replaced c⟩

theorem isName_numbered_eq (prop : String) (n : Nat) :
    Text.isName (numbered prop n).toList = !beginsWithDigit prop := by
  have hall := numbered_all prop n
  obtain ⟨c, cs, hbase, hstart⟩ := exists_base prop
  rw [numbered, String.toList_ofList, hbase, List.cons_append] at hall ⊢
  rw [List.all_cons, Bool.and_eq_true] at hall
  rw [Text.isName, hall.2, hstart, Bool.and_true]

theorem isName_numbered {prop : String} (h : Text.isName prop.toList = true) (n : Nat) :
    Text.isName (numbered prop n).toList = true := by
  rw [isName_numbered_eq, beginsWithDigit]
  cases hprop : prop.toList with
  | nil => rfl
  | cons c cs =>
    rw [hprop, Text.isName, Bool.and_eq_true] at h
    rw [List.head?_cons, Option.any_some, ← isNameStart_replaced, if_pos, h.1]
    exact Text.isNamePart_of_isNameStart h.1

theorem append_cons_injective {c : Char} {front front' back back' : List Char} (hback : c ∉ back)
    (hback' : c ∉ back') (h : front ++ c :: back = front' ++ c :: back') :
    front = front' ∧ back = back' := by
  rcases List.append_eq_append_iff.mp h with ⟨mid, hfront, hrest⟩ | ⟨mid, hfront, hrest⟩
  all_goals cases mid with
    | nil => simp_all
    | cons d mid => simp_all

theorem numbered_injective {p q : String} {n k : Nat} (h : numbered p n = numbered q k) :
    base p = base q ∧ n = k := by
  have hno (i : Nat) : '_' ∉ Text.digitsOf i := by
    intro hm
    have hdigit := Text.isDigit_of_mem_digitsOf hm
    cases hdigit
  have hlist : base p ++ '_' :: Text.digitsOf n = base q ++ '_' :: Text.digitsOf k := by
    simpa [numbered] using congrArg String.toList h
  obtain ⟨hbase, hdigits⟩ := append_cons_injective (hno n) (hno k) hlist
  exact ⟨hbase, Text.digitsOf_injective hdigits⟩

/-- The parameters were named one after the other, each by the number of those before it. -/
structure Named (ps : Parameters) : Prop where
  numbered : ∀ e ∈ ps.entries, ∃ n < ps.uses e.prop, e.name = numbered e.prop n
  nodup : (ps.entries.map (·.name)).Nodup

theorem named_empty : Named empty where
  numbered e he := by cases he
  nodup := List.nodup_nil

theorem uses_add (ps : Parameters) (prop other : String) (v : Value) :
    (ps.add prop v).2.uses other =
      ps.uses other + if base prop = base other then 1 else 0 := by
  rw [uses_eq_countP, uses_eq_countP, add, List.countP_append]
  simp

theorem uses_congr {p q : String} (h : base p = base q) (ps : Parameters) :
    ps.uses p = ps.uses q := by
  rw [uses_eq_countP, uses_eq_countP, h]

theorem add_named {ps : Parameters} (h : Named ps) (prop : String) (v : Value) :
    Named (ps.add prop v).2 := by
  have hfresh : ps.nextName prop ∉ ps.entries.map (·.name) := by
    intro hm
    obtain ⟨e, he, hname⟩ := List.mem_map.mp hm
    obtain ⟨n, hn, heq⟩ := h.numbered e he
    obtain ⟨hbase, rfl⟩ := numbered_injective (heq.symm.trans hname)
    rw [uses_congr hbase] at hn
    exact Nat.lt_irrefl _ hn
  constructor
  · intro e he
    rw [uses_add]
    rcases List.mem_append.mp he with he | he
    · obtain ⟨n, hn, heq⟩ := h.numbered e he
      exact ⟨n, Nat.lt_add_right _ hn, heq⟩
    · obtain rfl := List.mem_singleton.mp he
      exact ⟨ps.uses prop, by simp, rfl⟩
  · rw [add, List.map_append, List.nodup_append]
    refine ⟨h.nodup, by simp, ?_⟩
    intro a ha b hb
    obtain rfl := List.mem_singleton.mp hb
    rintro rfl
    exact hfresh ha

end Parameters

end DataAccess
