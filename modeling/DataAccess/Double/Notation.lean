import DataAccess.Double.Shortest
import DataAccess.Text.Numeral

/-!
# Decimal notation of doubles

Written numbers are positional, never with an exponent, and carry no point where nothing
follows it. Numbers are read with an optional sign, point and exponent, or as the words
for infinity and not-a-number in any letter case.
-/

set_option autoImplicit false

namespace DataAccess.Double

open Text (digitsOf natOfDigits splitSign isNumeral)

def positional (digits : Nat) (exponent : Int) : List Char :=
  let ds := digitsOf digits
  if 0 ≤ exponent then ds ++ List.replicate exponent.toNat '0'
  else
    let places := (-exponent).toNat
    if places < ds.length then
      ds.take (ds.length - places) ++ '.' :: ds.drop (ds.length - places)
    else '0' :: '.' :: (List.replicate (places - ds.length) '0' ++ ds)

def display (d : Double) : String :=
  if d.isNaN then "NaN"
  else
    let sign := if d.negative then "-" else ""
    let body :=
      if d.isInfinite then "inf"
      else if d.isZero then "0"
      else
        let (digits, exponent) := shortest d.magnitude
        String.ofList (positional digits exponent)
    sign ++ body

/-- The double nearest to `mantissa * 10 ^ exponent`. Far outside the range of doubles the
answer is known without the power. -/
def ofScientific (negative : Bool) (mantissa : Nat) (exponent : Int) : Double :=
  let top := (digitsOf mantissa).length + exponent
  if mantissa = 0 ∨ top < -400 then zero negative
  else if 400 < top then infinity negative
  else if 0 ≤ exponent then ofRatio negative (mantissa * Nat.pow 10 exponent.toNat) 1
  else ofRatio negative mantissa (Nat.pow 10 (-exponent).toNat)

def readExponent? : List Char → Option Int
  | [] => some 0
  | c :: rest =>
    if c == 'e' || c == 'E' then
      let (negative, ds) := splitSign rest
      if isNumeral ds then some (if negative then -(natOfDigits ds : Int) else natOfDigits ds)
      else none
    else none

def readNumber? (negative : Bool) (cs : List Char) : Option Double :=
  let whole := cs.takeWhile Char.isDigit
  let rest := cs.dropWhile Char.isDigit
  let (fraction, rest) := match rest with
    | '.' :: r => (r.takeWhile Char.isDigit, r.dropWhile Char.isDigit)
    | r => ([], r)
  if whole.isEmpty && fraction.isEmpty then none
  else (readExponent? rest).map fun exponent =>
    ofScientific negative (natOfDigits (whole ++ fraction)) (exponent - fraction.length)

def readWord? (negative : Bool) (cs : List Char) : Option Double :=
  let word := cs.map Char.toLower
  if word = "nan".toList then some nan
  else if word = "inf".toList ∨ word = "infinity".toList then some (infinity negative)
  else none

def read? (cs : List Char) : Option Double :=
  let (negative, rest) := splitSign cs
  (readNumber? negative rest).or (readWord? negative rest)

example : (ofInt (10 ^ 21)).display = "1000000000000000000000" := by decide +kernel
example : (ofRatio true 1 (10 ^ 7)).display = "-0.0000001" := by decide +kernel
example : (zero true).display = "-0" := by decide +kernel
example : read? "-.5e-3".toList = some ⟨0xBF40624DD2F1A9FC⟩ := by decide +kernel
example : read? "2.2250738585072011e-308".toList = some ⟨0x000FFFFFFFFFFFFF⟩ := by decide +kernel
example : read? "1_0".toList = none := by decide +kernel

end DataAccess.Double
