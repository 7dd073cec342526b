import DataAccess.Double

/-!
# The shortest decimal that reads back

The reals that round to a magnitude form an interval around it, whose ends belong to it
where the mantissa is even. Of the decimal grids `10 ^ p`, from coarse to fine, the first one
that has a point in the interval is taken, and on it the point nearest to the value; of two
equally near points the upper one.
-/

set_option autoImplicit false

namespace DataAccess.Double

structure Interval where
  low : Nat
  value : Nat
  high : Nat
  closed : Bool
  num : Nat
  den : Nat

/-- The interval of a magnitude in quarters of its last unit. Below a power of two the
neighbours are twice as near. -/
def interval (magnitude : Nat) : Interval :=
  let (m, e) := parts magnitude
  let low := if m = Nat.pow 2 52 ∧ -1074 < e then 4 * m - 1 else 4 * m - 2
  let (num, den) := scaled 1 1 (2 - e)
  ⟨low, 4 * m, 4 * m + 2, m % 2 == 0, num, den⟩

def Interval.onGrid (i : Interval) (p : Int) : Interval :=
  if 0 ≤ p then { i with den := i.den * Nat.pow 10 p.toNat }
  else { i with num := i.num * Nat.pow 10 (-p).toNat }

def Interval.holds (i : Interval) (point : Nat) : Bool :=
  let x := point * i.den
  if i.closed then i.low * i.num ≤ x && x ≤ i.high * i.num
  else i.low * i.num < x && x < i.high * i.num

def Interval.point? (i : Interval) : Option Nat :=
  let x := i.value * i.num
  let below := x / i.den
  match i.holds below, i.holds (below + 1) with
  | false, false => none
  | true, false => some below
  | false, true => some (below + 1)
  | true, true => if 2 * (x % i.den) < i.den then some below else some (below + 1)

def firstPoint (i : Interval) (p : Int) : Nat → Nat × Int
  | 0 => (0, p)
  | steps + 1 =>
    match (i.onGrid p).point? with
    | some digits => (digits, p)
    | none => firstPoint i (p - 1) steps

/-- Digits and exponent: the magnitude prints as `digits * 10 ^ exponent`. The first grid
tried is coarser than the value, and seventeen digits always suffice. -/
def shortest (magnitude : Nat) : Nat × Int :=
  let (m, e) := parts magnitude
  firstPoint (interval magnitude) (((m.log2 : Int) + e + 1) * 30103 / 100000 + 1) 24

example : shortest 0x3FB999999999999A = (1, -1) := by decide +kernel
example : shortest 1 = (5, -324) := by decide +kernel
example : shortest 0x7FEFFFFFFFFFFFFF = (17976931348623157, 292) := by decide +kernel
example : shortest 0x3E60000000000000 = (29802322387695313, -24) := by decide +kernel
example : shortest 0x4340000000000000 = (9007199254740992, 0) := by decide +kernel

end DataAccess.Double
