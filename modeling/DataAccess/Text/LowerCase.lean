import DataAccess.Text.CaseTables

/-!
# Full lower case

Every character is mapped on its own, with two exceptions of the standard: the capital I with
a dot above becomes two characters, and a capital sigma is written in its final form where a
cased letter stands before it and none after it, characters that case ignores left aside.
-/

set_option autoImplicit false

namespace DataAccess.Text

def inRanges (ranges : List (Nat × Nat)) (c : Char) : Bool :=
  ranges.any fun (first, last) => first ≤ c.toNat && c.toNat ≤ last

def isCased (c : Char) : Bool := inRanges casedRanges c

def isCaseIgnorable (c : Char) : Bool := inRanges caseIgnorableRanges c

def meetsCased (cs : List Char) : Bool :=
  ((cs.dropWhile isCaseIgnorable).head?).any isCased

def lowerChar (c : Char) : Char :=
  let n := c.toNat
  match lowerRuns.find? fun (first, last, step, _) =>
      first ≤ n && n ≤ last && (n - first) % step == 0 with
  | some (_, _, _, shift) => Char.ofNat (Int.toNat (n + shift))
  | none => c

/-- Lower case of `rest`, of which `before` holds the characters passed so far, last first. -/
def lowerFrom (before : List Char) : List Char → List Char
  | [] => []
  | c :: rest =>
    let here :=
      if c == 'Σ' then
        if meetsCased before && !meetsCased rest then ['ς'] else ['σ']
      else if c == 'İ' then ['i', '\u0307']
      else [lowerChar c]
    here ++ lowerFrom (c :: before) rest

def lowerCase (cs : List Char) : List Char := lowerFrom [] cs

example : lowerCase "ΟΔΟΣ Σ İÀ".toList = "οδος σ i̇à".toList := by decide +kernel

end DataAccess.Text
