import DataAccess.Template
import Mathlib.Data.List.Forall2

/-!
# Reading a template once

A reader goes through the characters of a template with a stack of switches, one for each
directive that is open. It knows no tokens and no blocks: every marker is recognized where it
stands, and what it writes is a flat list. The main result is that a compiled template is
prepared to what the reader writes, with the same first fault.
-/

set_option autoImplicit false

namespace DataAccess

/-- What a reader writes: text, or the value that a name is bound to. -/
inductive Emission where
  | text (s : String)
  | value (name : String) (v : Value)

namespace Emission

def sql (flavor : Flavor) : Nat → List Emission → String
  | _, [] => ""
  | used, text s :: rest => s ++ sql flavor used rest
  | used, value .. :: rest => flavor.placeholder (used + 1) ++ sql flavor (used + 1) rest

def params : List Emission → List Value
  | [] => []
  | text _ :: rest => params rest
  | value _ v :: rest => v :: params rest

def names : List Emission → List String
  | [] => []
  | text _ :: rest => names rest
  | value name _ :: rest => name :: names rest

def prepared (flavor : Flavor) (es : List Emission) : Prepared := ⟨sql flavor 0 es, params es⟩

def behind (flavor : Flavor) (out : Prepared) (es : List Emission) : Prepared :=
  ⟨out.sql ++ sql flavor out.params.length es, out.params ++ params es⟩

theorem behind_nil (flavor : Flavor) (out : Prepared) : behind flavor out [] = out := by
  simp [behind, sql, params]

theorem behind_text (flavor : Flavor) (out : Prepared) (s : String) (es : List Emission) :
    behind flavor { out with sql := out.sql ++ s } es = behind flavor out (text s :: es) := by
  simp [behind, sql, params, String.append_assoc]

theorem behind_value (flavor : Flavor) (out : Prepared) (name : String) (v : Value)
    (es : List Emission) :
    behind flavor ⟨out.sql ++ flavor.placeholder (out.params ++ [v]).length, out.params ++ [v]⟩ es =
      behind flavor out (value name v :: es) := by
  simp [behind, sql, params, String.append_assoc]

theorem behind_append (flavor : Flavor) (out : Prepared) (es fs : List Emission) :
    behind flavor (behind flavor out es) fs = behind flavor out (es ++ fs) := by
  induction es generalizing out with
  | nil => rw [behind_nil, List.nil_append]
  | cons e es ih =>
    cases e with
    | text s => rw [List.cons_append, ← behind_text, ← behind_text, ih]
    | value name v => rw [List.cons_append, ← behind_value, ← behind_value, ih]

theorem sql_append (flavor : Flavor) (es fs : List Emission) :
    sql flavor 0 (es ++ fs) = sql flavor 0 es ++ sql flavor (params es).length fs := by
  have h := congrArg Prepared.sql (behind_append flavor ⟨"", []⟩ es fs)
  simpa [behind] using h.symm

def Bound (values : Dict Value) : Emission → Prop
  | text _ => True
  | value name v => values.get? name = some v

end Emission

/-- What the reading of a template depends on. -/
structure Reader where
  registry : Registry
  owner : Mapping
  values : Dict Value
  condition? : Option TableCondition

namespace Reader

def isTrue (r : Reader) (var : String) : Bool :=
  match r.values.get? var with
  | some v => v.isTruthy
  | none => false

def isFilled (r : Reader) (var : String) : Bool :=
  match r.values.get? var with
  | some v => !v.isEmpty
  | none => false

def switch? (r : Reader) (directive : Directive) (argument : List Char) : Option Bool :=
  match directive, Guard.readVar? argument with
  | .ifTrue, some (var, true) => some (!r.isTrue var)
  | .ifTrue, some (var, false) => some (r.isTrue var)
  | .notEmpty, some (var, false) => some (r.isFilled var)
  | _, _ => none

def argumentLength? (cs : List Char) : Option Nat :=
  (List.range cs.length).find? fun n =>
    cs[n]? = some ')' ∧ (cs.take n).count '(' = (cs.take n).count ')'

def directiveAt? (r : Reader) (directive : Directive) (cs : List Char) : Option (Bool × Nat) :=
  let word := '#' :: directive.opening
  if word <+: cs then
    match argumentLength? (cs.drop word.length) with
    | some n =>
      (r.switch? directive ((cs.drop word.length).take n)).map (·, directive.opening.length + n + 1)
    | none => none
  else none

def isEnd (cs : List Char) : Bool :=
  "#end".toList.isPrefixOf cs && !(cs.drop 4).head?.any Text.isNamePart

def nameLength (cs : List Char) : Nat :=
  if cs.head?.any Text.isNameStart then cs.findIdx fun c => !Text.isNamePart c else 0

def column (r : Reader) (prop : String) : Except Fault Emission := do
  return .text (← r.owner.column prop).sqlName

def tableName (r : Reader) (m : Mapping) : Except Fault Emission := do
  return .text (← m.table.realName r.condition?)

def table (r : Reader) (business : String) : Except Fault Emission := do
  r.tableName (← r.registry.mapping business)

def parameter (r : Reader) (name : String) : Except Fault Emission :=
  match r.values.get? name with
  | some v => .ok (.value name v)
  | none => .error (.parameterNotBound name)

/-- Where a switch is off, a marker has no effect and is at no fault. -/
def emit (switches : List Bool) (e : Except Fault Emission)
    (rest : Except Fault (List Emission)) : Except Fault (List Emission) :=
  if switches.all id then do return (← e) :: (← rest) else rest

def verbatim (cs : List Char) : Except Fault Emission := .ok (.text (String.ofList cs))

/-- One pass over the text. The latest switch comes first; all of them have to be on. -/
def read (r : Reader) (switches : List Bool) : List Char → Except Fault (List Emission)
  | [] => .ok []
  | c :: rest =>
    if c = '\'' ∨ c = '"' then
      let n := rest.idxOf c + 1
      emit switches (verbatim (c :: rest.take n)) (r.read switches (rest.drop n))
    else if c = ':' ∧ rest.head? = some ':' then
      emit switches (verbatim [':', ':']) (r.read switches (rest.drop 1))
    else if c = ':' ∧ 0 < nameLength rest then
      let n := nameLength rest
      emit switches (r.parameter (String.ofList (rest.take n))) (r.read switches (rest.drop n))
    else if c = '@' ∧ rest.head? = some '@' ∧ 0 < nameLength (rest.drop 1) then
      let n := nameLength (rest.drop 1)
      emit switches (r.table (String.ofList ((rest.drop 1).take n)))
        (r.read switches (rest.drop (n + 1)))
    else if c = '@' ∧ 0 < nameLength rest then
      let n := nameLength rest
      emit switches (r.column (String.ofList (rest.take n))) (r.read switches (rest.drop n))
    else
      match (r.directiveAt? .ifTrue (c :: rest)).or (r.directiveAt? .notEmpty (c :: rest)) with
      | some (switch, n) => r.read (switch :: switches) (rest.drop n)
      | none =>
        if isEnd (c :: rest) then r.read switches.tail (rest.drop 3)
        else emit switches (verbatim [c]) (r.read switches rest)
termination_by cs => cs.length
decreasing_by all_goals simp only [List.length_drop, List.length_cons]; omega

end Reader

end DataAccess
