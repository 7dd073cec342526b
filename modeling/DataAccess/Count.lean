/-!
# Counts

Rows, pages and places are counted in 64 bits. Adding and multiplying stop at the greatest count.
-/

set_option autoImplicit false

namespace DataAccess.Count

def greatest : Nat := 0xFFFFFFFFFFFFFFFF

def add (a b : Nat) : Nat := min (a + b) greatest

def mul (a b : Nat) : Nat := min (a * b) greatest

theorem add_eq {a b : Nat} (h : a + b ≤ greatest) : add a b = a + b := Nat.min_eq_left h

theorem min_mul {a b bound : Nat} (h : bound ≤ greatest) :
    min (mul a b) bound = min (a * b) bound := by
  rw [mul, Nat.min_assoc, Nat.min_eq_right h]

end DataAccess.Count
