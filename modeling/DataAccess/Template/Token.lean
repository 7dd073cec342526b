import DataAccess.Text

/-!
# Tokens of a template

A template's text is split from left to right. Quoted text up to its matching quote, doubled
colons and every character that starts no marker stay as they are; markers name parameters,
tables and columns, and open or close the parts that a directive guards.
-/

set_option autoImplicit false

namespace DataAccess

inductive Directive where
  | ifTrue | notEmpty
  deriving DecidableEq

def Directive.opening : Directive → List Char
  | ifTrue => "if(".toList
  | notEmpty => "notEmpty(".toList

inductive Token where
  | text (cs : List Char)
  | param (name : List Char)
  | table (business : List Char)
  | column (prop : List Char)
  | opening (directive : Directive) (argument : List Char)
  /-- A directive whose parenthesis has no partner, with the rest of the text. -/
  | unclosed (directive : Directive) (rest : List Char)
  | closing
  deriving DecidableEq

namespace Token

def throughQuote (quote : Char) : List Char → List Char × List Char
  | [] => ([], [])
  | c :: rest =>
    if c = quote then ([c], rest)
    else ((c :: (throughQuote quote rest).1), (throughQuote quote rest).2)

def throughParen? (depth : Nat) : List Char → Option (List Char × List Char)
  | [] => none
  | c :: rest =>
    if c = ')' ∧ depth = 0 then some ([], rest)
    else
      let inner := if c = '(' then depth + 1 else if c = ')' then depth - 1 else depth
      (throughParen? inner rest).map fun (argument, behind) => (c :: argument, behind)

def name (cs : List Char) : List Char := cs.takeWhile Text.isNamePart

def behindName (cs : List Char) : List Char := cs.dropWhile Text.isNamePart

def startsName (cs : List Char) : Bool := cs.head?.any Text.isNameStart

def directive (d : Directive) (rest : List Char) : Token × List Char :=
  match throughParen? 0 rest with
  | some (argument, behind) => (opening d argument, behind)
  | none => (unclosed d rest, [])

def next (c : Char) (rest : List Char) : Token × List Char :=
  if c = '\'' ∨ c = '"' then
    (text (c :: (throughQuote c rest).1), (throughQuote c rest).2)
  else if c = ':' then
    if rest.head? = some ':' then (text [':', ':'], rest.tail)
    else if startsName rest then (param (name rest), behindName rest)
    else (text [c], rest)
  else if c = '@' then
    if rest.head? = some '@' ∧ startsName rest.tail then
      (table (name rest.tail), behindName rest.tail)
    else if startsName rest then (column (name rest), behindName rest)
    else (text [c], rest)
  else if c = '#' then
    match Text.stripStart? Directive.ifTrue.opening rest with
    | some behind => directive .ifTrue behind
    | none =>
      match Text.stripStart? Directive.notEmpty.opening rest with
      | some behind => directive .notEmpty behind
      | none =>
        match Text.stripStart? "end".toList rest with
        | some behind =>
          if behind.head?.any Text.isNamePart then (text [c], rest) else (closing, behind)
        | none => (text [c], rest)
  else (text [c], rest)

theorem throughQuote_length (quote : Char) (cs : List Char) :
    (throughQuote quote cs).2.length ≤ cs.length := by
  induction cs with
  | nil => simp [throughQuote]
  | cons c rest ih =>
    simp only [throughQuote]
    split
    · simp
    · exact Nat.le_succ_of_le ih

theorem throughParen?_length {depth : Nat} {cs argument behind : List Char}
    (h : throughParen? depth cs = some (argument, behind)) : behind.length ≤ cs.length := by
  induction cs generalizing depth argument with
  | nil => simp [throughParen?] at h
  | cons c rest ih =>
    simp only [throughParen?] at h
    split at h
    · cases h; simp
    · obtain ⟨p, hp, he⟩ := Option.map_eq_some_iff.1 h
      cases he
      exact Nat.le_succ_of_le (ih hp)

theorem behindName_length (cs : List Char) : (behindName cs).length ≤ cs.length := by
  induction cs with
  | nil => simp [behindName]
  | cons c rest ih =>
    simp only [behindName, List.dropWhile_cons]
    split
    · exact Nat.le_succ_of_le ih
    · exact Nat.le_refl _

theorem stripStart?_length {pattern cs behind : List Char}
    (h : Text.stripStart? pattern cs = some behind) : behind.length ≤ cs.length := by
  unfold Text.stripStart? at h
  split at h
  · cases h; simp
  · simp at h

theorem directive_length (d : Directive) (rest : List Char) :
    (directive d rest).2.length ≤ rest.length := by
  unfold directive
  split
  · next h => exact throughParen?_length h
  · simp

theorem next_length (c : Char) (rest : List Char) : (next c rest).2.length ≤ rest.length := by
  have hname := behindName_length rest
  have htable : (behindName rest.tail).length ≤ rest.length :=
    Nat.le_trans (behindName_length _) (by simp)
  unfold next
  split
  · exact throughQuote_length c rest
  split
  · split
    · simp
    · split <;> simp [hname]
  split
  · split
    · exact htable
    · split <;> simp [hname]
  split
  · split
    · next h => exact Nat.le_trans (directive_length _ _) (stripStart?_length h)
    · split
      · next h => exact Nat.le_trans (directive_length _ _) (stripStart?_length h)
      · split
        · next h =>
          split
          · simp
          · exact stripStart?_length h
        · simp
  · simp

def scan : List Char → List Token
  | [] => []
  | c :: rest => (next c rest).1 :: scan (next c rest).2
termination_by cs => cs.length
decreasing_by exact Nat.lt_succ_of_le (next_length c rest)

end Token

end DataAccess
