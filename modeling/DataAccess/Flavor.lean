import DataAccess.Count
import DataAccess.Text
import DataAccess.Text.Numeral

/-!
# SQL flavors

How each flavor quotes names, numbers placeholders, cuts a window of rows, locks them and
makes keys. Paging leaves a lock clause at the end of the text last.
-/

set_option autoImplicit false

namespace DataAccess

inductive Flavor where
  | mySQL | postgreSQL | sqLite | oracle | h2
  deriving DecidableEq

inductive LockMode where
  | none | upgrade | upgradeNowait
  deriving DecidableEq

namespace LockMode

def all : List LockMode := [none, upgrade, upgradeNowait]

def name : LockMode → String
  | none => "None"
  | upgrade => "Upgrade"
  | upgradeNowait => "UpgradeNowait"

end LockMode

namespace Flavor

def all : List Flavor := [mySQL, postgreSQL, sqLite, oracle, h2]

def name : Flavor → String
  | mySQL => "MySQL"
  | postgreSQL => "PostgreSQL"
  | sqLite => "SQLite"
  | oracle => "Oracle"
  | h2 => "H2"

def quote (f : Flavor) (name : String) : String :=
  match f with
  | mySQL => "`" ++ name ++ "`"
  | _ => "\"" ++ name ++ "\""

def placeholder (f : Flavor) (index : Nat) : String :=
  match f with
  | postgreSQL => "$" ++ Text.ofNat index
  | oracle => ":" ++ Text.ofNat index
  | _ => "?"

def forUpdate : String := " for update"

def forUpdateNowait : String := " for update nowait"

/-- The text without blanks around it, cut before a lock clause at its end. -/
def splitLock (sql : String) : String × String :=
  let cs := Text.trim sql.toList
  let cutBefore (clause : String) : Option (String × String) :=
    if clause.toList.isSuffixOf (Text.asciiLower cs) then
      let at_ := cs.length - clause.length
      some (String.ofList (cs.take at_), String.ofList (cs.drop at_))
    else Option.none
  ((cutBefore forUpdateNowait).or (cutBefore forUpdate)).getD (String.ofList cs, "")

/-- The rows from `offset` on, at most `limit` of them. -/
def window (f : Flavor) (body : String) (offset limit : Nat) : String :=
  match f with
  | mySQL =>
    if 0 < offset then body ++ " limit " ++ Text.ofNat offset ++ ", " ++ Text.ofNat limit
    else body ++ " limit " ++ Text.ofNat limit
  | oracle =>
    if 0 < offset then
      "select * from ( select row_.*, rownum rownum_ from ( " ++ body ++
        " ) row_ ) where rownum_ <= " ++ Text.ofNat (Count.add limit offset) ++
        " and rownum_ > " ++ Text.ofNat offset
    else "select * from ( " ++ body ++ " ) where rownum <= " ++ Text.ofNat limit
  | _ =>
    if 0 < offset then
      body ++ " limit " ++ Text.ofNat limit ++ " offset " ++ Text.ofNat offset
    else body ++ " limit " ++ Text.ofNat limit

def limited (f : Flavor) (sql : String) (offset limit : Nat) : String :=
  let (body, lock) := splitLock sql
  f.window body offset limit ++ lock

def lockClause : Flavor → LockMode → String
  | _, .none => ""
  | sqLite, _ => ""
  | _, .upgrade => forUpdate
  | h2, .upgradeNowait => forUpdate
  | _, .upgradeNowait => forUpdateNowait

def locked (f : Flavor) (mode : LockMode) (sql : String) : String := sql ++ f.lockClause mode

def nativeIdGenerator : Flavor → String
  | postgreSQL | oracle => "sequence"
  | _ => "identity"

def supportsSequence : Flavor → Bool
  | postgreSQL | oracle | h2 => true
  | _ => false

def sequenceQuery? (f : Flavor) (sequence : String) : Option String :=
  match f with
  | postgreSQL => some ("select nextval('" ++ sequence ++ "')")
  | oracle => some ("select " ++ sequence ++ ".nextval from dual")
  | h2 => some ("call next value for " ++ sequence)
  | _ => Option.none

def insertedIdQuery? : Flavor → Option String
  | mySQL => some "select last_insert_id()"
  | sqLite => some "select last_insert_rowid()"
  | h2 => some "call identity()"
  | _ => Option.none

def batchSize : Flavor → Nat
  | oracle => 10
  | _ => 20

def likeIgnoringCase (f : Flavor) (column param : String) : String :=
  match f with
  | postgreSQL => column ++ " ilike :" ++ param
  | _ => "lower(" ++ column ++ ") like lower(:" ++ param ++ ")"

end Flavor

end DataAccess
