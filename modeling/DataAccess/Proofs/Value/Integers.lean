import DataAccess.Condition
import DataAccess.Proofs.Double.Integers

/-!
# Integers as values

Integers of one kind are compared as integers. A signed and an unsigned one are compared as
doubles, which never turns their order around, but takes neighbours with one double for equal. A
condition holds of an integer where the comparison has what its operator asks for.
-/

set_option autoImplicit false

namespace DataAccess

namespace Value

def integer? : Value → Option Int
  | int v => some v.toInt
  | uint v => some v.toNat
  | _ => none

def isSigned : Value → Bool
  | int _ => true
  | _ => false

/-- The two are of one kind, or where their doubles are the same they are the same integer. -/
def Separates (a b : Value) : Prop :=
  a.isSigned = b.isSigned ∨ (a.toDouble? = b.toDouble? → a.integer? = b.integer?)

theorem compare_int64 (v w : Int64) : compare v w = compare v.toInt w.toInt := by
  have hlt := Int64.lt_iff_toInt_lt (x := v) (y := w)
  have heq := Int64.toInt_inj (x := v) (y := w)
  show compareOfLessAndEq v w = compareOfLessAndEq v.toInt w.toInt
  unfold compareOfLessAndEq
  simp only [hlt, heq]

theorem compare_uint64 (v w : UInt64) : compare v w = compare (v.toNat : Int) w.toNat := by
  have hlt := UInt64.lt_iff_toNat_lt (a := v) (b := w)
  have heq := UInt64.toNat_inj (a := v) (b := w)
  show compareOfLessAndEq v w = compareOfLessAndEq (v.toNat : Int) w.toNat
  unfold compareOfLessAndEq
  simp only [hlt, heq, Int.ofNat_lt, Int.ofNat_inj]

section
variable {a b : Value} {m n : Int} (ha : a.integer? = some m) (hb : b.integer? = some n)
include ha

theorem toDouble?_integer : a.toDouble? = some (Double.ofInt m) := by
  cases a with
  | int v | uint v =>
    cases ha
    rfl
  | _ => cases ha

theorem natAbs_integer : m.natAbs < 2 ^ 64 := by
  cases a with
  | int v =>
    cases ha
    have hlow := Int64.le_toInt v
    have hhigh := Int64.toInt_lt v
    omega
  | uint v =>
    cases ha
    have hhigh := UInt64.toNat_lt v
    omega
  | _ => cases ha

include hb

theorem order_sameKind (h : a.isSigned = b.isSigned) : a.order b = some (compare m n) := by
  cases a with
  | int v =>
    cases b with
    | int w =>
      cases ha
      cases hb
      exact congrArg some (compare_int64 v w)
    | uint w => cases h
    | _ => cases hb
  | uint v =>
    cases b with
    | uint w =>
      cases ha
      cases hb
      exact congrArg some (compare_uint64 v w)
    | int w => cases h
    | _ => cases hb
  | _ => cases ha

theorem order_otherKind (h : a.isSigned ≠ b.isSigned) :
    a.order b = some (compare (Double.ofInt m).place (Double.ofInt n).place) := by
  rw [← Double.order_ofInt]
  cases a with
  | int v =>
    cases b with
    | int w => exact absurd rfl h
    | uint w =>
      cases ha
      cases hb
      rfl
    | _ => cases hb
  | uint v =>
    cases b with
    | uint w => exact absurd rfl h
    | int w =>
      cases ha
      cases hb
      rfl
    | _ => cases hb
  | _ => cases ha

theorem separates_iff :
    a.Separates b ↔ a.isSigned = b.isSigned ∨ (Double.ofInt m = Double.ofInt n → m = n) := by
  rw [Separates, toDouble?_integer ha, toDouble?_integer hb, ha, hb, Option.some_inj,
    Option.some_inj]

theorem order_separates (h : a.Separates b) : a.order b = some (compare m n) := by
  rw [separates_iff ha hb] at h
  by_cases hkind : a.isSigned = b.isSigned
  · exact order_sameKind ha hb hkind
  · rw [order_otherKind ha hb hkind]
    have hdoubles := h.resolve_left hkind
    rw [Double.ofInt_eq_iff] at hdoubles
    rcases Int.lt_trichotomy m n with hlt | rfl | hlt
    · have hplace := Double.place_mono (Int.le_of_lt hlt)
      have hne : (Double.ofInt m).place ≠ (Double.ofInt n).place :=
        fun he => Int.ne_of_lt hlt (hdoubles he)
      rw [compare_lt_iff_lt.mpr hlt, compare_lt_iff_lt.mpr (lt_of_le_of_ne hplace hne)]
    · rw [compare_eq_iff_eq.mpr rfl, compare_eq_iff_eq.mpr rfl]
    · have hplace := Double.place_mono (Int.le_of_lt hlt)
      have hne : (Double.ofInt n).place ≠ (Double.ofInt m).place :=
        fun he => Int.ne_of_lt hlt (hdoubles he.symm).symm
      rw [compare_gt_iff_gt.mpr hlt, compare_gt_iff_gt.mpr (lt_of_le_of_ne hplace hne)]

theorem order_not_separates (h : ¬ a.Separates b) : m ≠ n ∧ a.order b = some .eq := by
  rw [separates_iff ha hb, not_or, Classical.not_imp] at h
  obtain ⟨hkind, hdoubles, hne⟩ := h
  rw [order_otherKind ha hb hkind, hdoubles, compare_eq_iff_eq.mpr rfl]
  exact ⟨hne, rfl⟩

theorem separates_of_apart
    (happart : m.natAbs ≤ 2 ^ 53 ∧ n.natAbs ≤ 2 ^ 53 ∨ 2 ^ 11 < (m - n).natAbs) :
    a.Separates b := by
  rw [separates_iff ha hb, Double.ofInt_eq_iff]
  refine .inr fun hplace => ?_
  have hm := natAbs_integer ha
  have hn := natAbs_integer hb
  rcases Int.lt_trichotomy m n with hlt | heq | hlt
  · have hplaces := Double.place_lt hlt hm hn (by omega)
    omega
  · exact heq
  · have hplaces := Double.place_lt hlt hn hm (by omega)
    omega

end

end Value

def Operator.Relates (m n : Int) : Operator → Prop
  | equal | equalIgnoreCase => m = n
  | notEqual => m ≠ n
  | bigger => n < m
  | biggerOrEqual => n ≤ m
  | smaller => m < n
  | smallerOrEqual => m ≤ n
  | like | likeIgnoreCase => False

namespace Condition

theorem compares_iff {op : Operator} {a b : Value} {m n : Int} (ha : a.text? = none)
    (h : a.order b = some (compare m n)) : compares op a b = true ↔ op.Relates m n := by
  unfold compares
  cases op with
  | like | likeIgnoreCase =>
    cases a with
    | text s => cases ha
    | _ => simp [Operator.Relates]
  | equalIgnoreCase =>
    cases a with
    | text s => cases ha
    | _ => simp [h, Operator.Relates]
  | equal | notEqual => simp [h, Operator.Relates]
  | bigger => simp [h, Operator.Relates, compare_gt_iff_gt]
  | smaller => simp [h, Operator.Relates, compare_lt_iff_lt]
  | biggerOrEqual =>
    simp [h, Operator.Relates, compare_gt_iff_gt]
    omega
  | smallerOrEqual =>
    simp [h, Operator.Relates, compare_lt_iff_lt]
    omega

theorem text?_integer {a : Value} {m : Int} (ha : a.integer? = some m) : a.text? = none := by
  cases a with
  | text s => cases ha
  | _ => rfl

/-- A bean and a condition hold integers. Where these are of one kind or their doubles differ, as
they do up to `2 ^ 53` in size and wherever the integers differ by more than `2 ^ 11`, the values
have the order of the integers, and the condition holds exactly where the operator relates them.
Else the values are compared as equal although the integers are not, and the condition holds as if
they were the same. -/
theorem holds_integers {β : Type} [Bean β] {c : Condition} {bean : β} {a b : Value} {m n : Int}
    (hvalue : c.value = some b) (hbean : Bean.value? bean c.field = some a)
    (ha : a.integer? = some m) (hb : b.integer? = some n) :
    (a.Separates b →
      a.order b = some (compare m n) ∧ (c.holds bean = true ↔ c.op.Relates m n)) ∧
    (¬ a.Separates b →
      m ≠ n ∧ a.order b = some .eq ∧ (c.holds bean = true ↔ c.op.Relates m m)) ∧
    (m.natAbs ≤ 2 ^ 53 ∧ n.natAbs ≤ 2 ^ 53 ∨ 2 ^ 11 < (m - n).natAbs → a.Separates b) := by
  have htext := text?_integer ha
  have hholds : c.holds bean = compares c.op a b := by
    rw [holds, hvalue]
    dsimp only
    rw [hbean]
    rfl
  rw [hholds]
  refine ⟨fun h => ?_, fun h => ?_, Value.separates_of_apart ha hb⟩
  · have horder := Value.order_separates ha hb h
    exact ⟨horder, compares_iff htext horder⟩
  · obtain ⟨hne, horder⟩ := Value.order_not_separates ha hb h
    have hself : compare m m = .eq := compare_eq_iff_eq.mpr rfl
    exact ⟨hne, horder, compares_iff htext (hself ▸ horder)⟩

/-- A signed and an unsigned integer that no double tells apart from its neighbours. -/
theorem holds_integers_far :
    let c : Condition := ⟨"id", .bigger, some (.int (2 ^ 53 + 1))⟩
    let bean : Record := Dict.ofList [("id", .uint (2 ^ 53 + 4096))]
    c.holds bean = true ∧
      (Value.uint (2 ^ 53 + 4096)).order (.int (2 ^ 53 + 1)) = some .gt := by
  intro c bean
  have hbean : Bean.value? bean c.field = some (.uint (2 ^ 53 + 4096)) := by decide +kernel
  have ha : (Value.uint (2 ^ 53 + 4096)).integer? = some (2 ^ 53 + 4096) := by decide +kernel
  have hb : (Value.int (2 ^ 53 + 1)).integer? = some (2 ^ 53 + 1) := by decide +kernel
  obtain ⟨hexact, -, hfar⟩ := holds_integers (c := c) rfl hbean ha hb
  obtain ⟨horder, hholds⟩ := hexact (hfar (.inr (by decide)))
  exact ⟨hholds.mpr (by unfold Operator.Relates; decide), horder⟩

/-- A signed integer and the unsigned one above it have one double and are compared as equal, which
is no equality: an unsigned integer equal to the first is less than the second. -/
theorem neighbours_equal :
    let c : Condition := ⟨"id", .equal, some (.uint (2 ^ 53 + 1))⟩
    let bean : Record := Dict.ofList [("id", .int (2 ^ 53))]
    (Value.int (2 ^ 53)).integer? ≠ (Value.uint (2 ^ 53 + 1)).integer? ∧
      (Value.int (2 ^ 53)).order (.uint (2 ^ 53 + 1)) = some .eq ∧ c.holds bean = true ∧
      (Value.uint (2 ^ 53)).order (.int (2 ^ 53)) = some .eq ∧
      (Value.uint (2 ^ 53)).order (.uint (2 ^ 53 + 1)) = some .lt := by
  decide +kernel

end Condition

end DataAccess
