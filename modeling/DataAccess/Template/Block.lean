import DataAccess.Mapping
import DataAccess.Template.Token

/-!
# Blocks

A block is the tree of a template: text, tables and parameters in order, and parts that a
guard switches on or off. It is built from the tokens in one pass, in which the first token
that is at fault decides the fault; a directive without an end is found last.
-/

set_option autoImplicit false

namespace DataAccess

inductive Guard where
  | ifTrue (var : String) (negated : Bool)
  | notEmpty (var : String)
  deriving DecidableEq

inductive Block where
  | done
  | text (s : String) (next : Block)
  | table (mapping : Mapping) (next : Block)
  | param (name : String) (next : Block)
  | guarded (guard : Guard) (body next : Block)

namespace Guard

def var : Guard → String
  | ifTrue var _ => var
  | notEmpty var => var

def bareVar (cs : List Char) : List Char :=
  match (Text.stripStart? ['$', '\x7b'] cs).bind (Text.stripEnd? ['\x7d']) with
  | some inner => Text.trim inner
  | none => (Text.stripStart? ['$'] cs).getD cs

def readVar? (argument : List Char) : Option (String × Bool) :=
  let cs := Text.trim argument
  let negated := cs.head? == some '!'
  let var := bareVar (if negated then Text.trimStart cs.tail else cs)
  if var.isEmpty || !var.all Text.isNamePart then none else some (String.ofList var, negated)

def read (source : String) (directive : Directive) (argument : List Char) : Except Fault Guard :=
  match directive, readVar? argument with
  | _, none =>
    .error (.unbalancedDirective
      ("invalid directive variable [" ++ String.ofList argument ++ "]"))
  | .ifTrue, some (var, negated) => .ok (.ifTrue var negated)
  | .notEmpty, some (var, false) => .ok (.notEmpty var)
  | .notEmpty, some (_, true) =>
    .error (.unbalancedDirective ("#notEmpty does not accept negation: " ++ source))

/-- Whether the guarded part is on. A variable without a value is neither true nor filled. -/
def holds (values : Dict Value) : Guard → Bool
  | ifTrue var negated => (values.get? var).any Value.isTruthy != negated
  | notEmpty var => (values.get? var).any fun v => !v.isEmpty

end Guard

namespace Block

/-- The block of the tokens, and for each of the `depth` open directives what follows its end. -/
def build (registry : Registry) (owner : Mapping) (source : String) (depth : Nat) :
    List Token → Except Fault (Block × List Block)
  | [] => if depth = 0 then .ok (done, []) else .error (.unbalancedDirective source)
  | .text cs :: rest => do
    let (b, outer) ← build registry owner source depth rest
    return (text (String.ofList cs) b, outer)
  | .param name :: rest => do
    let (b, outer) ← build registry owner source depth rest
    return (param (String.ofList name) b, outer)
  | .table business :: rest => do
    let m ← registry.mapping (String.ofList business)
    let (b, outer) ← build registry owner source depth rest
    return (table m b, outer)
  | .column prop :: rest => do
    let column ← owner.column (String.ofList prop)
    let (b, outer) ← build registry owner source depth rest
    return (text column.sqlName b, outer)
  | .opening directive argument :: rest => do
    let guard ← Guard.read source directive argument
    match ← build registry owner source (depth + 1) rest with
    | (body, next :: outer) => return (guarded guard body next, outer)
    | (_, []) => throw (.unbalancedDirective source)
  | .unclosed .. :: _ => .error (.unbalancedDirective source)
  | .closing :: rest =>
    match depth with
    | 0 => .error (.unbalancedDirective source)
    | depth + 1 => do
      let (b, outer) ← build registry owner source depth rest
      return (done, b :: outer)

def ofText (registry : Registry) (owner : Mapping) (source : String) : Except Fault Block := do
  let (b, _) ← build registry owner source 0 (Token.scan source.toList)
  return b

def paramNames : Block → List String
  | done => []
  | text _ next => next.paramNames
  | table _ next => next.paramNames
  | param name next => name :: next.paramNames
  | guarded _ body next => body.paramNames ++ next.paramNames

def guardVars : Block → List String
  | done => []
  | text _ next => next.guardVars
  | table _ next => next.guardVars
  | param _ next => next.guardVars
  | guarded guard body next => guard.var :: (body.guardVars ++ next.guardVars)

end Block

end DataAccess
