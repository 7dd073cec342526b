import DataAccess.Condition
import DataAccess.Proofs.Text.Bytes
import DataAccess.Proofs.Trimming

/-!
# Reading a condition by its bytes

The operator is looked for byte by byte, and the property and the value are cut out of the text
around it. A byte of a wide character begins no operator, so the cuts are around whole characters,
and the condition is the one that is read from the characters.
-/

set_option autoImplicit false

namespace DataAccess

open Text

namespace Operator

def byteToken? (s : String) (pos : Nat) (b : Char) : Option (Nat × Operator) :=
  let next := byteAt? s (pos + 1)
  if b = '!' then
    if next = some '=' then some (2, notEqual) else none
  else if b = '>' then
    if next = some '=' then some (2, biggerOrEqual) else some (1, bigger)
  else if b = '<' then
    if next = some '>' then some (2, notEqual)
    else if next = some '=' then some (2, smallerOrEqual)
    else some (1, smaller)
  else if b = '=' then
    if next = some '=' then some (2, equal)
    else if next = some '~' then
      if byteAt? s (pos + 2) = some '=' then some (3, equalIgnoreCase) else none
    else some (1, equal)
  else if b = '~' then
    if next = some '~' then some (2, likeIgnoreCase)
    else if next = some '=' then some (2, like)
    else none
  else none

def scan? (s : String) (pos : Nat) : Option (Nat × Nat × Operator) :=
  match h : byteAt? s pos with
  | none => none
  | some b =>
    match byteToken? s pos b with
    | some (width, op) => some (pos, pos + width, op)
    | none =>
      have := lt_of_byteAt? h
      scan? s (pos + 1)
termination_by s.utf8ByteSize - pos

/-- The same operator is found at the offset, up to the same characters, or none both times. -/
inductive Agree (s : String) (pos : Nat) :
    Option (Nat × Operator) → Option (Operator × List Char) → Prop
  | neither : Agree s pos none none
  | both {width : Nat} (op : Operator) {behind : List Char} (h : Behind s (pos + width) behind) :
      Agree s pos (some (width, op)) (some (op, behind))

variable {s : String} {pos : Nat} {c : Char} {rest : List Char}

theorem leading?_cons (c : Char) (rest : List Char) : leading? (c :: rest) =
    if c = '!' then
      if rest.head? = some '=' then some (notEqual, rest.tail) else none
    else if c = '>' then
      if rest.head? = some '=' then some (biggerOrEqual, rest.tail) else some (bigger, rest)
    else if c = '<' then
      if rest.head? = some '>' then some (notEqual, rest.tail)
      else if rest.head? = some '=' then some (smallerOrEqual, rest.tail)
      else some (smaller, rest)
    else if c = '=' then
      if rest.head? = some '=' then some (equal, rest.tail)
      else if rest.head? = some '~' then
        if rest.tail.head? = some '=' then some (equalIgnoreCase, rest.tail.tail) else none
      else some (equal, rest)
    else if c = '~' then
      if rest.head? = some '~' then some (likeIgnoreCase, rest.tail)
      else if rest.head? = some '=' then some (like, rest.tail)
      else none
    else none := by
  unfold leading?
  split <;> simp_all [List.head?_eq_some_iff]

theorem byteToken?_agree (hc : c.toNat < 128) (h : Behind s pos (c :: rest)) :
    Agree s pos (byteToken? s pos c) (leading? (c :: rest)) := by
  have hbehind := h.cons
  rw [utf8Size_of_toNat_lt hc] at hbehind
  have hequal := hbehind.byteAt_iff (d := '=') (by decide)
  have hbigger := hbehind.byteAt_iff (d := '>') (by decide)
  have htilde := hbehind.byteAt_iff (d := '~') (by decide)
  have htail {d : Char} (hd : d.toNat < 128) (hhead : rest.head? = some d) :
      Behind s (pos + 2) rest.tail := by
    obtain ⟨tail, rfl⟩ := List.head?_eq_some_iff.mp hhead
    have htail : Behind s (pos + 1) ([d] ++ tail) := hbehind
    exact htail.ascii (List.forall_mem_singleton.mpr hd)
  rw [leading?_cons]
  simp only [byteToken?, hequal, hbigger, htilde]
  split
  · split
    · next hhead => exact .both _ (htail (by decide) hhead)
    · exact .neither
  split
  · split
    · next hhead => exact .both _ (htail (by decide) hhead)
    · exact .both _ hbehind
  split
  · split
    · next hhead => exact .both _ (htail (by decide) hhead)
    split
    · next hhead => exact .both _ (htail (by decide) hhead)
    · exact .both _ hbehind
  split
  · split
    · next hhead => exact .both _ (htail (by decide) hhead)
    split
    · next hhead =>
      have hthird := htail (by decide) hhead
      simp only [hthird.byteAt_iff (d := '=') (by decide)]
      split
      · next hlast =>
        obtain ⟨behind, htail⟩ := List.head?_eq_some_iff.mp hlast
        rw [htail] at hthird ⊢
        exact .both _ hthird.cons
      · exact .neither
    · exact .both _ hbehind
  split
  · split
    · next hhead => exact .both _ (htail (by decide) hhead)
    split
    · next hhead => exact .both _ (htail (by decide) hhead)
    · exact .neither
  · exact .neither

theorem byteToken?_of_wide {b : Char} (h : 128 ≤ b.toNat) : byteToken? s pos b = none := by
  have hne (mark : Char) (hmark : mark.toNat < 128) : b ≠ mark := ne_of_wide h hmark
  rw [byteToken?, if_neg (hne '!' (by decide)), if_neg (hne '>' (by decide)),
    if_neg (hne '<' (by decide)), if_neg (hne '=' (by decide)), if_neg (hne '~' (by decide))]

theorem leading?_of_wide (h : 128 ≤ c.toNat) : leading? (c :: rest) = none := by
  have hne (mark : Char) (hmark : mark.toNat < 128) : c ≠ mark := ne_of_wide h hmark
  rw [leading?_cons, if_neg (hne '!' (by decide)), if_neg (hne '>' (by decide)),
    if_neg (hne '<' (by decide)), if_neg (hne '=' (by decide)), if_neg (hne '~' (by decide))]

theorem scan?_none (hb : byteAt? s pos = none) : scan? s pos = none := by
  rw [scan?]
  split
  · rfl
  · next b hsome => rw [hb] at hsome; cases hsome

theorem scan?_some {b : Char} (hb : byteAt? s pos = some b) : scan? s pos =
    match byteToken? s pos b with
    | some (width, op) => some (pos, pos + width, op)
    | none => scan? s (pos + 1) := by
  rw [scan?]
  split
  · next hnone => rw [hb] at hnone; cases hnone
  · next b' hsome =>
    obtain rfl : b = b' := Option.some.inj (hb.symm.trans hsome)
    rfl

inductive Split (s : String) (pos : Nat) (cs : List Char) :
    Option (Nat × Nat × Operator) → Option (List Char × Operator × List Char) → Prop
  | neither : Split s pos cs none none
  | both {before tail behind : List Char} {start : Nat} (op : Operator) (hcs : cs = before ++ tail)
      (hbehind : Behind s start behind) :
      Split s pos cs (some (pos + byteLength before, start, op)) (some (before, op, behind))

theorem Split.cons {found : Option (Nat × Nat × Operator)}
    {split : Option (List Char × Operator × List Char)} (h : Split s (pos + c.utf8Size) rest found split) :
    Split s pos (c :: rest) found
      (split.map fun (before, op, behind) => (c :: before, op, behind)) := by
  cases h with
  | neither => exact .neither
  | both op hcs hbehind =>
    rw [Nat.add_assoc, ← byteLength_cons, hcs]
    exact .both op rfl hbehind

theorem scan?_split {cs : List Char} (h : Behind s pos cs) :
    Split s pos cs (scan? s pos) (split? cs) := by
  induction cs generalizing pos with
  | nil =>
    rw [scan?_none h.byteAt_nil]
    exact .neither
  | cons c rest ih =>
    have hrest := (ih h.cons).cons
    rw [split?]
    rcases Nat.lt_or_ge c.toNat 128 with hc | hc
    · have hagree := byteToken?_agree hc h
      rw [scan?_some (h.byteAt_cons hc)]
      generalize byteToken? s pos c = found at hagree
      generalize leading? (c :: rest) = leading at hagree
      cases hagree with
      | neither => rwa [utf8Size_of_toNat_lt hc] at hrest
      | both op hbehind => exact .both op (show c :: rest = [] ++ (c :: rest) from rfl) hbehind
    · -- No byte of the character begins an operator, and neither does the character.
      have hskip := h.skip hc (f := scan? s) fun n d hd hwide => by
        rw [scan?_some hd, byteToken?_of_wide hwide]
      rw [leading?_of_wide hc, hskip]
      exact hrest

end Operator

namespace Condition

def parseBytes (s : String) : Option (Option Condition) :=
  match Operator.scan? s 0 with
  | none => some none
  | some (stop, start, op) => do
    let field := trimmed (← between? s 0 stop)
    let value := trimmed (← between? s start s.utf8ByteSize)
    return some ⟨field, op, some (.text value)⟩

def parseTypedBytes (m : Mapping) (s : String) : Checked (Option Condition) :=
  match Operator.scan? s 0 with
  | none => return none
  | some (stop, start, op) => do
    let field := trimmed (← between? s 0 stop)
    let column ← m.column field
    let value ← column.type.ofText (trimmed (← between? s start s.utf8ByteSize))
    return some ⟨field, op, some value⟩

theorem trimmed_ofList (cs : List Char) : trimmed (String.ofList cs) = textOf cs := by
  rw [trimmed_eq, String.toList_ofList, textOf]

theorem exists_cuts {before tail behind : List Char} {s : String} {start : Nat}
    (hs : s.toList = before ++ tail) (hbehind : Behind s start behind) :
    between? s 0 (0 + byteLength before) = some (String.ofList before) ∧
      between? s start s.utf8ByteSize = some (String.ofList behind) :=
  ⟨(hs ▸ Behind.start s).between, hbehind.through⟩

theorem parseBytes_eq (s : String) : parseBytes s = some (parse? s) := by
  have hsplit := Operator.scan?_split (Behind.start s)
  rw [parseBytes, parse?]
  generalize Operator.scan? s 0 = found at hsplit
  generalize Operator.split? s.toList = split at hsplit
  cases hsplit with
  | neither => rfl
  | both op hs hbehind =>
    obtain ⟨hfield, hvalue⟩ := exists_cuts hs hbehind
    dsimp only
    rw [hfield, hvalue]
    simp only [Option.bind_eq_bind, Option.bind_some, trimmed_ofList]
    rfl

theorem parseTypedBytes_eq (m : Mapping) (s : String) :
    parseTypedBytes m s = some (parseTyped m s) := by
  have hsplit := Operator.scan?_split (Behind.start s)
  rw [parseTypedBytes, parseTyped]
  generalize Operator.scan? s 0 = found at hsplit
  generalize Operator.split? s.toList = split at hsplit
  cases hsplit with
  | neither => rfl
  | both op hs hbehind =>
    obtain ⟨hfield, hvalue⟩ := exists_cuts hs hbehind
    dsimp only
    rw [Checked.bind_some hfield, trimmed_ofList]
    cases m.column _ with
    | error e => rfl
    | ok column =>
      rw [Checked.bind_result, Checked.bind_some hvalue, trimmed_ofList]
      cases hread : column.type.ofText (textOf _) with
      | error e => simp only [bind, Except.bind, hread]; rfl
      | ok v => simp only [bind, Except.bind, hread]; rfl

end Condition

end DataAccess
