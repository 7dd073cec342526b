import DataAccess.Text.Numeral

/-!
# Dates and times of day

Dates of the proleptic Gregorian calendar with years of at most four digits, and times of day
to the nanosecond. Both carry the proof that they exist, so reading is the only test.
-/

set_option autoImplicit false

namespace DataAccess

open Text (padded digitsOf natOfDigits splitSign)

def isLeapYear (year : Int) : Bool := year % 4 == 0 && (year % 100 != 0 || year % 400 == 0)

def daysIn (year : Int) (month : Nat) : Nat :=
  if month = 2 then (if isLeapYear year then 29 else 28)
  else if month ∈ [4, 6, 9, 11] then 30 else 31

abbrev CalendarDay (year : Int) (month day : Nat) : Prop :=
  -9999 ≤ year ∧ year ≤ 9999 ∧ 1 ≤ month ∧ month ≤ 12 ∧
    1 ≤ day ∧ day ≤ daysIn year month

structure Date where
  year : Int
  month : Nat
  day : Nat
  exists_day : CalendarDay year month day
  deriving DecidableEq

abbrev ClockTime (hour minute second nanosecond : Nat) : Prop :=
  hour < 24 ∧ minute < 60 ∧ second < 60 ∧ nanosecond < 1000000000

structure TimeOfDay where
  hour : Nat
  minute : Nat
  second : Nat
  nanosecond : Nat
  exists_time : ClockTime hour minute second nanosecond
  deriving DecidableEq

structure DateTime where
  date : Date
  time : TimeOfDay
  deriving DecidableEq

def Date.ofParts? (year : Int) (month day : Nat) : Option Date :=
  if h : CalendarDay year month day then some ⟨year, month, day, h⟩ else none

def TimeOfDay.ofParts? (hour minute second nanosecond : Nat) : Option TimeOfDay :=
  if h : ClockTime hour minute second nanosecond then some ⟨hour, minute, second, nanosecond, h⟩
  else none

def TimeOfDay.midnight : TimeOfDay := ⟨0, 0, 0, 0, by decide⟩

def Date.order (a b : Date) : Ordering :=
  (compare a.year b.year).then ((compare a.month b.month).then (compare a.day b.day))

def TimeOfDay.order (a b : TimeOfDay) : Ordering :=
  (compare a.hour b.hour).then ((compare a.minute b.minute).then
    ((compare a.second b.second).then (compare a.nanosecond b.nanosecond)))

def DateTime.order (a b : DateTime) : Ordering := (a.date.order b.date).then (a.time.order b.time)

def Date.text (d : Date) : List Char :=
  (if d.year < 0 then ['-'] else []) ++ padded 4 d.year.natAbs ++ '-' :: padded 2 d.month ++
    '-' :: padded 2 d.day

def fractionText (nanosecond : Nat) : List Char :=
  match ((padded 9 nanosecond).reverse.dropWhile (· == '0')).reverse with
  | [] => ['0']
  | ds => ds

def TimeOfDay.text (t : TimeOfDay) : List Char :=
  digitsOf t.hour ++ ':' :: padded 2 t.minute ++ ':' :: padded 2 t.second ++
    '.' :: fractionText t.nanosecond

def Date.display (d : Date) : String := String.ofList d.text

def DateTime.display (t : DateTime) : String := String.ofList (t.date.text ++ ' ' :: t.time.text)

def readDigits? (width : Nat) (cs : List Char) : Option (Nat × List Char) :=
  let ds := cs.take width
  if ds.length = width ∧ ds.all Char.isDigit then some (natOfDigits ds, cs.drop width)
  else none

def readMark? (mark : Char) : List Char → Option (List Char)
  | [] => none
  | c :: rest => if c = mark then some rest else none

def Date.take? (cs : List Char) : Option (Date × List Char) := do
  let (negative, cs) := splitSign cs
  let (year, cs) ← readDigits? 4 cs
  let cs ← readMark? '-' cs
  let (month, cs) ← readDigits? 2 cs
  let cs ← readMark? '-' cs
  let (day, cs) ← readDigits? 2 cs
  let date ← Date.ofParts? (if negative then -(year : Int) else year) month day
  return (date, cs)

def Date.read? (cs : List Char) : Option Date :=
  match Date.take? cs with
  | some (d, []) => some d
  | _ => none

def TimeOfDay.read? (cs : List Char) : Option TimeOfDay := do
  let (hour, cs) ← readDigits? 2 cs
  let cs ← readMark? ':' cs
  let (minute, cs) ← readDigits? 2 cs
  let cs ← readMark? ':' cs
  let (second, cs) ← readDigits? 2 cs
  if cs.isEmpty then TimeOfDay.ofParts? hour minute second 0 else none

def DateTime.read? (cs : List Char) : Option DateTime :=
  match Date.take? cs with
  | none => none
  | some (d, []) => some ⟨d, TimeOfDay.midnight⟩
  | some (d, c :: rest) =>
    if c = ' ' ∨ c = 'T' then (TimeOfDay.read? rest).map fun t => ⟨d, t⟩ else none

end DataAccess
