import DataAccess.Text.Numeral

/-!
# Hexadecimal digits

Bytes are two digits each, the high half first; words are written in a fixed number of lower
case digits. Either case is read. Bytes that are written read back.
-/

set_option autoImplicit false

namespace DataAccess.Text

def hexChar (n : Nat) : Char :=
  if n < 10 then Char.ofNat ('0'.toNat + n) else Char.ofNat ('a'.toNat + (n - 10))

def hexValue? (c : Char) : Option Nat :=
  if c.isDigit then some (digitValue c)
  else if 'a' ≤ c.toLower ∧ c.toLower ≤ 'f' then some (c.toLower.toNat - 'a'.toNat + 10)
  else none

def natOfHex? (cs : List Char) : Option Nat :=
  cs.foldlM (fun n c => (hexValue? c).map (16 * n + ·)) 0

def hexOfByte (b : UInt8) : List Char := [hexChar (b.toNat / 16), hexChar (b.toNat % 16)]

def hexOfBytes (bs : List UInt8) : List Char := bs.flatMap hexOfByte

def bytesOfHex? : List Char → Option (List UInt8)
  | [] => some []
  | high :: low :: rest => do
    let byte := UInt8.ofNat (16 * (← hexValue? high) + (← hexValue? low))
    return byte :: (← bytesOfHex? rest)
  | [_] => none

def hexOfNat (width n : Nat) : List Char :=
  match width with
  | 0 => []
  | width + 1 => hexOfNat width (n / 16) ++ [hexChar (n % 16)]

theorem hexValue?_hexChar : ∀ n < 16, hexValue? (hexChar n) = some n := by decide

theorem bytesOfHex?_hexOfBytes (bs : List UInt8) : bytesOfHex? (hexOfBytes bs) = some bs := by
  induction bs with
  | nil => rfl
  | cons b rest ih =>
    have hb := b.toNat_lt
    have high := hexValue?_hexChar (b.toNat / 16) (by omega)
    have low := hexValue?_hexChar (b.toNat % 16) (by omega)
    have whole : 16 * (b.toNat / 16) + b.toNat % 16 = b.toNat := Nat.div_add_mod ..
    have split : hexOfBytes (b :: rest) =
        hexChar (b.toNat / 16) :: hexChar (b.toNat % 16) :: hexOfBytes rest := rfl
    simp only [split, bytesOfHex?, high, low, ih, whole, Option.bind_eq_bind, Option.bind_some,
      Option.pure_def, UInt8.ofNat_toNat]

end DataAccess.Text
