import DataAccess.Text

/-!
# Comparison operators

Nine operators, the tokens they are read from, the token each is shown by and its SQL symbol.
A token is the longest one at its place; an equals sign and a tilde without a second equals
sign begin no token.
-/

set_option autoImplicit false

namespace DataAccess

inductive Operator where
  | equal | notEqual | bigger | biggerOrEqual | smaller | smallerOrEqual
  | like | likeIgnoreCase | equalIgnoreCase
  deriving DecidableEq

namespace Operator

def all : List Operator :=
  [equal, notEqual, bigger, biggerOrEqual, smaller, smallerOrEqual, like, likeIgnoreCase,
    equalIgnoreCase]

def name : Operator → String
  | equal => "Equal"
  | notEqual => "NotEqual"
  | bigger => "Bigger"
  | biggerOrEqual => "BiggerOrEqual"
  | smaller => "Smaller"
  | smallerOrEqual => "SmallerOrEqual"
  | like => "Like"
  | likeIgnoreCase => "LikeIgnoreCase"
  | equalIgnoreCase => "EqualIgnoreCase"

def tokens : Operator → List String
  | equal => ["==", "="]
  | notEqual => ["!=", "<>"]
  | bigger => [">"]
  | biggerOrEqual => [">="]
  | smaller => ["<"]
  | smallerOrEqual => ["<="]
  | like => ["~="]
  | likeIgnoreCase => ["~~"]
  | equalIgnoreCase => ["=~="]

def ofToken? (token : String) : Option Operator :=
  let key := Text.trimmed token
  all.find? fun op => op.tokens.contains key

def token : Operator → String
  | equal => "="
  | notEqual => "!="
  | bigger => ">"
  | biggerOrEqual => ">="
  | smaller => "<"
  | smallerOrEqual => "<="
  | like => "~="
  | likeIgnoreCase => "~~"
  | equalIgnoreCase => "=~="

def sqlSymbol : Operator → String
  | equal | equalIgnoreCase => "="
  | notEqual => "<>"
  | bigger => ">"
  | biggerOrEqual => ">="
  | smaller => "<"
  | smallerOrEqual => "<="
  | like | likeIgnoreCase => "like"

/-- The operator whose token begins the text, and the rest. -/
def leading? : List Char → Option (Operator × List Char)
  | '!' :: '=' :: rest => some (notEqual, rest)
  | '>' :: '=' :: rest => some (biggerOrEqual, rest)
  | '>' :: rest => some (bigger, rest)
  | '<' :: '>' :: rest => some (notEqual, rest)
  | '<' :: '=' :: rest => some (smallerOrEqual, rest)
  | '<' :: rest => some (smaller, rest)
  | '=' :: '=' :: rest => some (equal, rest)
  | '=' :: '~' :: '=' :: rest => some (equalIgnoreCase, rest)
  | '=' :: '~' :: _ => none
  | '=' :: rest => some (equal, rest)
  | '~' :: '~' :: rest => some (likeIgnoreCase, rest)
  | '~' :: '=' :: rest => some (like, rest)
  | _ => none

/-- The text before the leftmost operator, the operator, and the text behind it. -/
def split? : List Char → Option (List Char × Operator × List Char)
  | [] => none
  | c :: rest =>
    match leading? (c :: rest) with
    | some (op, behind) => some ([], op, behind)
    | none => (split? rest).map fun (before, op, behind) => (c :: before, op, behind)

end Operator

end DataAccess
