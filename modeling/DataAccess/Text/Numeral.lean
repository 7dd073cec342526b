/-!
# Decimal numerals

Integers are written in ASCII digits without padding, and read with an optional sign.
-/

set_option autoImplicit false

namespace DataAccess.Text

def digitsOf (n : Nat) : List Char := Nat.toDigits 10 n

def digitValue (c : Char) : Nat := c.toNat - '0'.toNat

def natOfDigits (ds : List Char) : Nat := ds.foldl (fun n c => 10 * n + digitValue c) 0

def ofNat (n : Nat) : String := String.ofList (digitsOf n)

def ofInt (v : Int) : String := if v < 0 then "-" ++ ofNat v.natAbs else ofNat v.natAbs

def padded (width n : Nat) : List Char :=
  let ds := digitsOf n
  List.replicate (width - ds.length) '0' ++ ds

def splitSign : List Char → Bool × List Char
  | '-' :: rest => (true, rest)
  | '+' :: rest => (false, rest)
  | rest => (false, rest)

def isNumeral (ds : List Char) : Bool := !ds.isEmpty && ds.all Char.isDigit

def signed? (v : Int) : Option Int64 :=
  if -0x8000000000000000 ≤ v ∧ v < 0x8000000000000000 then some (Int64.ofInt v) else none

def unsigned? (v : Int) : Option UInt64 :=
  if 0 ≤ v ∧ v < 0x10000000000000000 then some (UInt64.ofNat v.toNat) else none

def readInt? (cs : List Char) : Option Int64 :=
  let (negative, ds) := splitSign cs
  if isNumeral ds then
    let n := natOfDigits ds
    signed? (if negative then -(n : Int) else n)
  else none

end DataAccess.Text
