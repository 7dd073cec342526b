/-!
# Doubles as bit patterns

A double is its 64 bits. Order, rounding of a ratio and widening of a single are exact
integer arithmetic on the sign, the exponent field and the fraction.
-/

set_option autoImplicit false

namespace DataAccess

structure Double where
  bits : UInt64
  deriving DecidableEq

namespace Double

def magnitude (d : Double) : Nat := d.bits.toNat % Nat.pow 2 63

def negative (d : Double) : Bool := Nat.pow 2 63 ≤ d.bits.toNat

def infiniteBits : Nat := 0x7FF * Nat.pow 2 52

def isNaN (d : Double) : Bool := infiniteBits < d.magnitude

def isInfinite (d : Double) : Bool := d.magnitude == infiniteBits

def isZero (d : Double) : Bool := d.magnitude == 0

def ofMagnitude (negative : Bool) (magnitude : Nat) : Double :=
  ⟨UInt64.ofNat (magnitude + if negative then Nat.pow 2 63 else 0)⟩

def zero (negative : Bool) : Double := ofMagnitude negative 0

def infinity (negative : Bool) : Double := ofMagnitude negative infiniteBits

def nan : Double := ofMagnitude false (infiniteBits + Nat.pow 2 51)

/-- The place of a number in the order of the numbers; both zeros have one place. -/
def place (d : Double) : Int := if d.negative then -(d.magnitude : Int) else d.magnitude

def order (a b : Double) : Option Ordering :=
  if a.isNaN || b.isNaN then none else some (compare a.place b.place)

def same (a b : Double) : Bool := a.order b == some .eq

def parts (magnitude : Nat) : Nat × Int :=
  let field : Nat := magnitude / Nat.pow 2 52
  let fraction : Nat := magnitude % Nat.pow 2 52
  if field = 0 then (fraction, -1074) else (fraction + Nat.pow 2 52, (field : Int) - 1075)

def scaled (num den : Nat) (e : Int) : Nat × Nat :=
  if 0 ≤ e then (num, den * Nat.pow 2 e.toNat) else (num * Nat.pow 2 (-e).toNat, den)

def roundHalfEven (num den : Nat) : Nat :=
  let q := num / den
  let r := num % den
  if den < 2 * r || (2 * r == den && q % 2 == 1) then q + 1 else q

/-- The magnitude nearest to `num / den`. The last unit is `2 ^ e`: 53 binary digits, or
fewer where the exponent has reached its least value. -/
def nearest (num den : Nat) : Nat :=
  if num = 0 then 0
  else
    let guess : Int := (num.log2 : Int) - den.log2
    let (a, b) := scaled num den guess
    let e := max (-1074) ((if b ≤ a then guess else guess - 1) - 52)
    let (n, d) := scaled num den e
    min infiniteBits ((e + 1074).toNat * Nat.pow 2 52 + roundHalfEven n d)

def ofRatio (negative : Bool) (num den : Nat) : Double := ofMagnitude negative (nearest num den)

def ofInt (v : Int) : Double := ofRatio (v < 0) v.natAbs 1

def ofSingle (bits : UInt32) : Double :=
  let n := bits.toNat
  let negative : Bool := Nat.pow 2 31 ≤ n
  let field := n / Nat.pow 2 23 % Nat.pow 2 8
  let fraction := n % Nat.pow 2 23
  if field = 255 then
    if fraction = 0 then infinity negative else nan
  else if field = 0 then ofRatio negative fraction (Nat.pow 2 149)
  else if 150 ≤ field then ofRatio negative ((fraction + Nat.pow 2 23) * Nat.pow 2 (field - 150)) 1
  else ofRatio negative (fraction + Nat.pow 2 23) (Nat.pow 2 (150 - field))

example : (ofInt 1).bits = 0x3FF0000000000000 := by decide +kernel
example : (ofInt (2 ^ 53 + 1)).bits = 0x4340000000000000 := by decide +kernel
example : (ofInt (-3)).bits = 0xC008000000000000 := by decide +kernel
example : (ofRatio false 1 10).bits = 0x3FB999999999999A := by decide +kernel
example : (ofRatio false 5 (10 ^ 324)).bits = 1 := by decide +kernel
example : (ofSingle 0x3DCCCCCD).bits = 0x3FB99999A0000000 := by decide +kernel

end Double

end DataAccess
