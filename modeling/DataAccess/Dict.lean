/-!
# Dictionaries in key order

Entries are kept in the order of their keys, which is the order of their bytes. A later
entry for a key takes the place of the earlier one.
-/

set_option autoImplicit false

namespace DataAccess

structure Dict (α : Type) where
  entries : List (String × α) := []
  deriving DecidableEq

namespace Dict

variable {α β : Type}

def find (key : String) : List (String × α) → Option α
  | [] => none
  | (k, a) :: rest => if k = key then some a else find key rest

def put (key : String) (a : α) : List (String × α) → List (String × α)
  | [] => [(key, a)]
  | (k, b) :: rest =>
    if k = key then (key, a) :: rest
    else if key < k then (key, a) :: (k, b) :: rest
    else (k, b) :: put key a rest

def empty : Dict α := ⟨[]⟩

def get? (d : Dict α) (key : String) : Option α := find key d.entries

def insert (d : Dict α) (key : String) (a : α) : Dict α := ⟨put key a d.entries⟩

def erase (d : Dict α) (key : String) : Dict α := ⟨d.entries.filter (·.1 ≠ key)⟩

def contains (d : Dict α) (key : String) : Bool := (d.get? key).isSome

def keys (d : Dict α) : List String := d.entries.map Prod.fst

def size (d : Dict α) : Nat := d.entries.length

def isEmpty (d : Dict α) : Bool := d.entries.isEmpty

/-- Entries are taken in order, so the last one for a key stays. -/
def ofList (entries : List (String × α)) : Dict α :=
  entries.foldl (fun d (k, a) => d.insert k a) empty

theorem find_put_self (key : String) (a : α) (l : List (String × α)) :
    find key (put key a l) = some a := by
  induction l with
  | nil => simp [put, find]
  | cons e rest ih =>
    obtain ⟨k, b⟩ := e
    by_cases h : k = key
    · simp [put, find, h]
    · by_cases hlt : key < k <;> simp [put, find, h, hlt, ih]

theorem find_put_ne (key other : String) (a : α) (l : List (String × α)) (h : other ≠ key) :
    find other (put key a l) = find other l := by
  induction l with
  | nil => simp [put, find, Ne.symm h]
  | cons e rest ih =>
    obtain ⟨k, b⟩ := e
    by_cases hk : k = key
    · subst hk; simp [put, find, Ne.symm h]
    · simp only [put, if_neg hk]
      split <;> simp [find, ih, Ne.symm h]

theorem get?_insert (d : Dict α) (key other : String) (a : α) :
    (d.insert key a).get? other = if other = key then some a else d.get? other := by
  by_cases h : other = key
  · subst h; simp [get?, insert, find_put_self]
  · simp [get?, insert, find_put_ne key other a d.entries h, h]

theorem find_filter_ne (key other : String) (l : List (String × α)) :
    find other (l.filter (·.1 ≠ key)) = if other = key then none else find other l := by
  induction l with
  | nil => simp [find]
  | cons e rest ih =>
    obtain ⟨k, b⟩ := e
    by_cases hk : k = key <;> by_cases ho : k = other <;> simp_all [find]

theorem get?_erase (d : Dict α) (key other : String) :
    (d.erase key).get? other = if other = key then none else d.get? other :=
  find_filter_ne key other d.entries

theorem get?_empty (key : String) : (empty : Dict α).get? key = none := rfl

end Dict

end DataAccess
