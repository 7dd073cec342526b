import DataAccess.ColumnType
import DataAccess.Text.Numeral

/-!
# Faults

One constructor for each cause; `kind` names it and `message` words it.
-/

set_option autoImplicit false

namespace DataAccess

structure DriverFault where
  message : String
  code : Int := 0
  state : String := ""
  sql : String := ""
  deriving DecidableEq

def DriverFault.withSql (f : DriverFault) (sql : String) : DriverFault :=
  if f.sql = "" then { f with sql := sql } else f

inductive Fault where
  | unknownGroup (name : String)
  | wrongGroupKind (name expected : String)
  | noShardMatch (group condition : String)
  | mappingNotFound (business : String)
  | masterUnavailable (group : String)
  | statementNotFound (id : String)
  | missingTableCondition (table key : String)
  | invalidTableCondition (table key value : String)
  | noPrimaryKey (business : String)
  | unknownDataSource (name : String)
  | invalidConfiguration (reason : String)
  | unknownProperty (business prop : String)
  | unknownParameter (name : String)
  | parameterNotBound (name : String)
  | invalidOperator (token : String)
  | unbalancedDirective (detail : String)
  | conversion (value : String) (type : ColumnType)
  | execution (fault : DriverFault)
  | unknownBeanProperty (prop : String)
  | rejectedValue (prop reason : String)
  | recordNotFound (sql params : String)
  deriving DecidableEq

def DriverFault.display (f : DriverFault) : String :=
  "sql execution failed (code: " ++ Text.ofInt f.code ++ ", state: " ++ f.state ++ "): " ++
    f.message ++ ". sql: " ++ f.sql

def Fault.message : Fault → String
  | .unknownGroup name => "unknown db group: " ++ name
  | .wrongGroupKind name expected => "db group [" ++ name ++ "] is not a " ++ expected ++ " group"
  | .noShardMatch group condition =>
    "virtual db group [" ++ group ++ "] has no physical group for table condition " ++ condition
  | .mappingNotFound business => "mapping not found: " ++ business
  | .masterUnavailable group => "master database of group [" ++ group ++ "] is not available"
  | .statementNotFound id => "compiled sql not found: " ++ id
  | .missingTableCondition table key =>
    "table [" ++ table ++ "] requires table condition key [" ++ key ++ "]"
  | .invalidTableCondition table key value =>
    "table condition key [" ++ key ++ "] of table [" ++ table ++ "] has an invalid value [" ++
      value ++ "]"
  | .noPrimaryKey business => "business [" ++ business ++ "] has no primary key"
  | .unknownDataSource name => "unknown data source: " ++ name
  | .invalidConfiguration reason => "invalid configuration: " ++ reason
  | .unknownProperty business prop =>
    "business [" ++ business ++ "] has no property [" ++ prop ++ "]"
  | .unknownParameter name => "unknown parameter: " ++ name
  | .parameterNotBound name => "parameter [" ++ name ++ "] is not bound"
  | .invalidOperator token =>
    "invalid operator:[" ++ token ++
      "]. operator must be one of the [!=, ~~, =~=, ~=, <>, ==, =, >, <, >=, <=]"
  | .unbalancedDirective detail => "unbalanced directive in sql: " ++ detail
  | .conversion value type => "cannot convert [" ++ value ++ "] to sql type " ++ type.name
  | .execution fault => fault.display
  | .unknownBeanProperty prop => "unknown property: " ++ prop
  | .rejectedValue prop reason => "property [" ++ prop ++ "] rejects value: " ++ reason
  | .recordNotFound sql params => "record not found. sql: " ++ sql ++ ", params: " ++ params

def Fault.kind : Fault → String
  | .unknownGroup .. => "Config.UnknownGroup"
  | .wrongGroupKind .. => "Config.WrongGroupKind"
  | .noShardMatch .. => "Config.NoShardMatch"
  | .mappingNotFound .. => "Config.MappingNotFound"
  | .masterUnavailable .. => "Config.MasterUnavailable"
  | .statementNotFound .. => "Config.SqlNotFound"
  | .missingTableCondition .. => "Config.MissingTableCondition"
  | .invalidTableCondition .. => "Config.InvalidTableCondition"
  | .noPrimaryKey .. => "Config.NoPrimaryKey"
  | .unknownDataSource .. => "Config.UnknownDataSource"
  | .invalidConfiguration .. => "Config.Invalid"
  | .unknownProperty .. => "Compile.UnknownProperty"
  | .unknownParameter .. => "Compile.UnknownParam"
  | .parameterNotBound .. => "Compile.ParamNotBound"
  | .invalidOperator .. => "Compile.InvalidOperator"
  | .unbalancedDirective .. => "Compile.UnbalancedDirective"
  | .conversion .. => "Compile.Conversion"
  | .execution .. => "Execution"
  | .unknownBeanProperty .. => "Bean.UnknownProperty"
  | .rejectedValue .. => "Bean.InvalidValue"
  | .recordNotFound .. => "NotFound"

end DataAccess
