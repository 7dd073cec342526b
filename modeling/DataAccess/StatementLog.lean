import DataAccess.Settings
import DataAccess.Value

/-!
# The statement log

A line for each statement: a warning if it took at least as long as the slow threshold, else
a debug line.
-/

set_option autoImplicit false

namespace DataAccess

structure LogPolicy where
  logSql : Bool
  measureTime : Bool
  slowMillis : Nat
  deriving DecidableEq

inductive LogLevel where
  | debug | warn
  deriving DecidableEq

structure LogLine where
  level : LogLevel
  message : String
  params : String
  elapsedMillis : Option Nat
  deriving DecidableEq

namespace LogPolicy

def ofSettings (s : SessionSettings) : LogPolicy := ⟨s.logSql, s.measureTime, s.slowMillis⟩

def default : LogPolicy := ofSettings SessionSettings.default

def isSlow (p : LogPolicy) (elapsed : Nat) : Bool := p.slowMillis ≤ elapsed

def line (p : LogPolicy) (sql : String) (params : List Value) (elapsed : Option Nat) : LogLine :=
  if elapsed.any p.isSlow then
    ⟨.warn, "slow sql: " ++ sql, Value.displayList params, elapsed⟩
  else ⟨.debug, "sql: " ++ sql, Value.displayList params, elapsed⟩

end LogPolicy

end DataAccess
