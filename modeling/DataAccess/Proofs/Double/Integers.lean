import DataAccess.Double
import Mathlib

/-!
# Integers as doubles

The double nearest to an integer keeps its first 53 binary digits and rounds the rest to even. This
keeps the order of integers and loses nothing up to `2 ^ 53`. Above, two integers can come to one
double; they are then no farther apart than the last digit of the greater one that is kept.
-/

set_option autoImplicit false

namespace DataAccess.Double

theorem roundHalfEven_near {n d : Nat} (hd : 0 < d) :
    2 * (d * roundHalfEven n d) ≤ 2 * n + d ∧ 2 * n ≤ 2 * (d * roundHalfEven n d) + d := by
  have hsplit := Nat.div_add_mod n d
  have hmod := Nat.mod_lt n hd
  unfold roundHalfEven
  dsimp only
  split
  · next hup =>
    rw [Bool.or_eq_true, Bool.and_eq_true, decide_eq_true_iff, beq_iff_eq] at hup
    rw [Nat.mul_add, Nat.mul_one]
    omega
  · next hdown =>
    rw [Bool.or_eq_true, Bool.and_eq_true, decide_eq_true_iff, beq_iff_eq] at hdown
    omega

theorem roundHalfEven_mono {n m d : Nat} (hd : 0 < d) (h : n ≤ m) :
    roundHalfEven n d ≤ roundHalfEven m d := by
  refine Nat.le_of_not_lt fun hlt => ?_
  have hn := (roundHalfEven_near (n := n) hd).1
  have hm := (roundHalfEven_near (n := m) hd).2
  have hstep := Nat.mul_le_mul_left d hlt
  rw [Nat.mul_succ] at hstep
  -- both would be rounded over the same half, so they are one integer
  obtain rfl : n = m := by omega
  exact Nat.lt_irrefl _ hlt

theorem roundHalfEven_one (n : Nat) : roundHalfEven n 1 = n := by
  simp [roundHalfEven, Nat.mod_one]

theorem le_roundHalfEven {n d k : Nat} (hd : 0 < d) (h : d * k ≤ n) : k ≤ roundHalfEven n d := by
  have hnear := (roundHalfEven_near (n := n) hd).2
  refine Nat.le_of_not_lt fun hlt => ?_
  have hstep := Nat.mul_le_mul_left d hlt
  rw [Nat.mul_succ] at hstep
  omega

theorem roundHalfEven_le {n d k : Nat} (hd : 0 < d) (h : n ≤ d * k) : roundHalfEven n d ≤ k := by
  have hnear := (roundHalfEven_near (n := n) hd).1
  refine Nat.le_of_not_lt fun hlt => ?_
  have hstep := Nat.mul_le_mul_left d hlt
  rw [Nat.mul_succ] at hstep
  omega

def lastUnit (n : Nat) : Nat := 2 ^ (n.log2 - 52)

def significand (n : Nat) : Nat :=
  if n.log2 ≤ 52 then n * 2 ^ (52 - n.log2) else roundHalfEven n (lastUnit n)

theorem lastUnit_pos (n : Nat) : 0 < lastUnit n := Nat.two_pow_pos _

theorem le_significand {n : Nat} (hn : n ≠ 0) : 2 ^ 52 ≤ significand n := by
  have hlog := Nat.log2_self_le hn
  unfold significand
  split
  · next hshort =>
    calc 2 ^ 52 = 2 ^ n.log2 * 2 ^ (52 - n.log2) := by rw [← Nat.pow_add]; congr 1; omega
      _ ≤ n * 2 ^ (52 - n.log2) := Nat.mul_le_mul_right _ hlog
  · next hlong =>
    apply le_roundHalfEven (lastUnit_pos n)
    rw [lastUnit, ← Nat.pow_add]
    rwa [Nat.sub_add_cancel (by omega)]

theorem significand_le (n : Nat) : significand n ≤ 2 ^ 53 := by
  have hlog := Nat.lt_log2_self (n := n)
  unfold significand
  split
  · next hshort =>
    calc n * 2 ^ (52 - n.log2) ≤ 2 ^ (n.log2 + 1) * 2 ^ (52 - n.log2) :=
          Nat.mul_le_mul_right _ (Nat.le_of_lt hlog)
      _ = 2 ^ 53 := by rw [← Nat.pow_add]; congr 1; omega
  · next hlong =>
    apply roundHalfEven_le (lastUnit_pos n)
    rw [lastUnit, ← Nat.pow_add]
    have hexponent : n.log2 - 52 + 53 = n.log2 + 1 := by omega
    rw [hexponent]
    exact Nat.le_of_lt hlog

theorem nearest_one {n : Nat} (hn : n ≠ 0) :
    nearest n 1 = min infiniteBits ((n.log2 + 1022) * 2 ^ 52 + significand n) := by
  have hlog := Nat.log2_self_le hn
  have hone : (1 : Nat).log2 = 0 := by decide
  have hguess : (n.log2 : Int) - (1 : Nat).log2 = n.log2 := by rw [hone]; omega
  have hscaled : scaled n 1 n.log2 = (n, 2 ^ n.log2) := by
    simp [scaled]
  rw [nearest, if_neg hn]
  dsimp only
  rw [hguess, hscaled]
  dsimp only
  rw [if_pos hlog]
  have hexponent : max (-1074) ((n.log2 : Int) - 52) = n.log2 - 52 := by omega
  have hbits : ((n.log2 : Int) - 52 + 1074).toNat = n.log2 + 1022 := by omega
  rw [hexponent, hbits]
  unfold scaled significand
  by_cases hshort : n.log2 ≤ 52
  · rw [if_pos hshort]
    by_cases hexact : n.log2 = 52
    · rw [if_pos (by omega), hexact]
      simp [roundHalfEven_one]
    · rw [if_neg (by omega)]
      have hshift : (-((n.log2 : Int) - 52)).toNat = 52 - n.log2 := by omega
      dsimp only
      rw [roundHalfEven_one, hshift]
      rfl
  · rw [if_neg hshort, if_pos (by omega)]
    have hshift : ((n.log2 : Int) - 52).toNat = n.log2 - 52 := by omega
    dsimp only
    rw [hshift, Nat.one_mul]
    rfl

theorem significand_mono {n m : Nat} (hlog : n.log2 = m.log2) (h : n ≤ m) :
    significand n ≤ significand m := by
  unfold significand lastUnit
  rw [hlog]
  split
  · exact Nat.mul_le_mul_right _ h
  · exact roundHalfEven_mono (Nat.two_pow_pos _) h

theorem log2_le_of_le {n m : Nat} (h : n ≤ m) : n.log2 ≤ m.log2 := by
  rw [Nat.log2_eq_log_two, Nat.log2_eq_log_two]
  exact Nat.log_mono_right h

theorem nearest_mono {n m : Nat} (h : n ≤ m) : nearest n 1 ≤ nearest m 1 := by
  rcases Nat.eq_zero_or_pos n with rfl | hn
  · exact Nat.zero_le _
  · have hm : m ≠ 0 := by omega
    rw [nearest_one (Nat.ne_of_gt hn), nearest_one hm]
    refine Nat.le_min.mpr ⟨Nat.min_le_left _ _, Nat.le_trans (Nat.min_le_right _ _) ?_⟩
    have hnsig := significand_le n
    have hmsig := le_significand hm
    rcases Nat.eq_or_lt_of_le (log2_le_of_le h) with hlog | hlog
    · rw [hlog]
      exact Nat.add_le_add_left (significand_mono hlog h) _
    · omega

/-- The numbers are kept whole, or they differ by more than the last digit that is kept. -/
def Apart (n m : Nat) : Prop := m ≤ 2 ^ 53 ∨ n + lastUnit m < m

theorem significand_lt {n m : Nat} (hn : n ≠ 0) (hlog : n.log2 = m.log2) (h : n < m)
    (happart : Apart n m) : significand n < significand m := by
  unfold significand
  rw [hlog]
  split
  · exact Nat.mul_lt_mul_of_pos_right h (Nat.two_pow_pos _)
  · next hlong =>
    have hpow : 2 ^ 53 ≤ n := by
      rw [← Nat.le_log2 hn]
      omega
    have hfar := happart.resolve_left (by omega)
    have hunit : lastUnit n = lastUnit m := by rw [lastUnit, lastUnit, hlog]
    have hnear := (roundHalfEven_near (n := n) (lastUnit_pos m)).1
    have hmear := (roundHalfEven_near (n := m) (lastUnit_pos m)).2
    rw [hunit]
    refine Nat.lt_of_not_le fun hle => ?_
    have hstep := Nat.mul_le_mul_left (lastUnit m) hle
    omega

theorem significand_or {n m : Nat} (hlog : n.log2 + 1 = m.log2) (h : n < m)
    (happart : Apart n m) : significand n < 2 ^ 53 ∨ 2 ^ 52 < significand m := by
  have hself := Nat.lt_log2_self (n := n)
  by_cases hshort : n.log2 ≤ 52
  · refine .inl ?_
    rw [significand, if_pos hshort]
    calc n * 2 ^ (52 - n.log2) < 2 ^ (n.log2 + 1) * 2 ^ (52 - n.log2) :=
          Nat.mul_lt_mul_of_pos_right hself (Nat.two_pow_pos _)
      _ = 2 ^ 53 := by rw [← Nat.pow_add]; congr 1; omega
  · refine or_iff_not_imp_left.mpr fun hfull => ?_
    have hm : m ≠ 0 := by omega
    have hpow : 2 ^ 54 ≤ m := by
      rw [← Nat.le_log2 hm]
      omega
    have hfar := happart.resolve_left (by omega)
    have hunit : lastUnit m = 2 * lastUnit n := by
      rw [lastUnit, lastUnit, ← hlog, Nat.mul_comm, ← Nat.pow_succ]
      congr 1
      omega
    rw [significand, if_neg (by omega)] at hfull ⊢
    have hnear := (roundHalfEven_near (n := n) (lastUnit_pos n)).1
    have hmear := (roundHalfEven_near (n := m) (lastUnit_pos m)).2
    have hstep := Nat.mul_le_mul_left (lastUnit n) (Nat.not_lt.mp hfull)
    refine Nat.lt_of_not_le fun hle => ?_
    have hback := Nat.mul_le_mul_left (lastUnit m) hle
    omega

theorem nearest_pos {n : Nat} (hn : n ≠ 0) : 0 < nearest n 1 := by
  rw [nearest_one hn]
  have hsig := le_significand hn
  have hinfinite : 0 < infiniteBits := by decide
  omega

/-- Numbers that lie apart are still told apart. -/
theorem nearest_lt {n m : Nat} (h : n < m) (hm : m < 2 ^ 64) (happart : Apart n m) :
    nearest n 1 < nearest m 1 := by
  have hpos : m ≠ 0 := by omega
  rcases Nat.eq_zero_or_pos n with rfl | hn
  · exact nearest_pos hpos
  · have hlog63 : m.log2 < 64 := (Nat.log2_lt hpos).mpr hm
    have hinfinite : infiniteBits = 2047 * 2 ^ 52 := by decide
    have hnsig := significand_le n
    have hmsig := significand_le m
    have hmlow := le_significand hpos
    have hlt : (n.log2 + 1022) * 2 ^ 52 + significand n <
        (m.log2 + 1022) * 2 ^ 52 + significand m := by
      rcases Nat.eq_or_lt_of_le (log2_le_of_le (Nat.le_of_lt h)) with hlog | hlog
      · rw [hlog]
        exact Nat.add_lt_add_left (significand_lt (Nat.ne_of_gt hn) hlog h happart) _
      · by_cases hnext : n.log2 + 1 = m.log2
        · have hor := significand_or hnext h happart
          omega
        · omega
    rw [nearest_one (Nat.ne_of_gt hn), nearest_one hpos]
    omega

theorem nearest_le (num den : Nat) : nearest num den ≤ infiniteBits := by
  unfold nearest
  split
  · exact Nat.zero_le _
  · exact Nat.min_le_left _ _

theorem magnitude_ofMagnitude {negative : Bool} {n : Nat} (h : n ≤ infiniteBits) :
    (ofMagnitude negative n).magnitude = n := by
  have hinfinite : infiniteBits < 2 ^ 63 := by decide
  unfold magnitude ofMagnitude
  dsimp only
  cases negative <;> simp [UInt64.toNat_ofNat'] <;> omega

theorem negative_ofMagnitude {negative : Bool} {n : Nat} (h : n ≤ infiniteBits) :
    (ofMagnitude negative n).negative = negative := by
  have hinfinite : infiniteBits < 2 ^ 63 := by decide
  unfold Double.negative ofMagnitude
  dsimp only
  cases negative <;> simp [UInt64.toNat_ofNat'] <;> omega

section
variable (v w : Int)

theorem isNaN_ofInt : (ofInt v).isNaN = false := by
  have hle := nearest_le v.natAbs 1
  rw [isNaN, ofInt, ofRatio, magnitude_ofMagnitude hle]
  exact decide_eq_false (Nat.not_lt.mpr hle)

theorem place_ofInt : (ofInt v).place =
    if v < 0 then -(nearest v.natAbs 1 : Int) else nearest v.natAbs 1 := by
  have hle := nearest_le v.natAbs 1
  rw [place, ofInt, ofRatio, magnitude_ofMagnitude hle, negative_ofMagnitude hle]
  simp only [decide_eq_true_eq]

theorem order_ofInt :
    (ofInt v).order (ofInt w) = some (compare (ofInt v).place (ofInt w).place) := by
  rw [order, isNaN_ofInt, isNaN_ofInt]
  rfl

end

variable {v w : Int}

theorem place_mono (h : v ≤ w) : (ofInt v).place ≤ (ofInt w).place := by
  rw [place_ofInt, place_ofInt]
  split
  · split
    · have hnear := nearest_mono (show w.natAbs ≤ v.natAbs by omega)
      omega
    · omega
  · have hnear := nearest_mono (show v.natAbs ≤ w.natAbs by omega)
    rw [if_neg (by omega)]
    omega

theorem lastUnit_le {n : Nat} (h : n < 2 ^ 64) : lastUnit n ≤ 2 ^ 11 := by
  refine Nat.pow_le_pow_right (by omega) ?_
  rcases Nat.eq_zero_or_pos n with rfl | hn
  · simp
  · have hlog := (Nat.log2_lt (Nat.ne_of_gt hn)).mpr h
    omega

theorem place_lt (h : v < w) (hv : v.natAbs < 2 ^ 64) (hw : w.natAbs < 2 ^ 64)
    (happart : v.natAbs ≤ 2 ^ 53 ∧ w.natAbs ≤ 2 ^ 53 ∨ v + 2 ^ 11 < w) :
    (ofInt v).place < (ofInt w).place := by
  have hvunit := lastUnit_le hv
  have hwunit := lastUnit_le hw
  rw [place_ofInt, place_ofInt]
  split
  · have hpos := nearest_pos (show v.natAbs ≠ 0 by omega)
    split
    · have hapart : Apart w.natAbs v.natAbs := by
        unfold Apart
        omega
      have hnear := nearest_lt (show w.natAbs < v.natAbs by omega) hv hapart
      omega
    · omega
  · have hapart : Apart v.natAbs w.natAbs := by
      unfold Apart
      omega
    have hnear := nearest_lt (show v.natAbs < w.natAbs by omega) hw hapart
    rw [if_neg (by omega)]
    omega

theorem ofInt_eq_iff : ofInt v = ofInt w ↔ (ofInt v).place = (ofInt w).place := by
  refine ⟨fun h => by rw [h], fun h => ?_⟩
  rw [place_ofInt, place_ofInt] at h
  have hpos (u : Int) (hu : u < 0) : 0 < nearest u.natAbs 1 := nearest_pos (by omega)
  rw [ofInt, ofRatio, ofInt, ofRatio]
  by_cases hv : v < 0
  · have hvpos := hpos v hv
    rw [if_pos hv] at h
    have hw : w < 0 := by
      refine Int.not_le.mp fun hw => ?_
      rw [if_neg (by omega)] at h
      omega
    rw [if_pos hw] at h
    have hnear : nearest v.natAbs 1 = nearest w.natAbs 1 := by omega
    simp only [hv, hw, hnear]
  · rw [if_neg hv] at h
    have hw : ¬ w < 0 := by
      intro hw
      have hwpos := hpos w hw
      rw [if_pos hw] at h
      omega
    rw [if_neg hw] at h
    have hnear : nearest v.natAbs 1 = nearest w.natAbs 1 := by omega
    simp only [hv, hw, hnear]

end DataAccess.Double
