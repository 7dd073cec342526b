import DataAccess.Text

/-!
# Column types

The declared types of columns and the names they go by, in any ASCII letter case.
-/

set_option autoImplicit false

namespace DataAccess

inductive ColumnType where
  | int | bigInt | double | decimal | bool | string | clob | bytes | blob | date | dateTime
  deriving DecidableEq

namespace ColumnType

def name : ColumnType → String
  | int => "Int"
  | bigInt => "BigInt"
  | double => "Double"
  | decimal => "Decimal"
  | bool => "Bool"
  | string => "String"
  | clob => "Clob"
  | bytes => "Bytes"
  | blob => "Blob"
  | date => "Date"
  | dateTime => "DateTime"

def all : List ColumnType :=
  [int, bigInt, double, decimal, bool, string, clob, bytes, blob, date, dateTime]

def aliases : ColumnType → List String
  | int => ["int", "integer", "smallint", "tinyint", "short", "byte"]
  | bigInt => ["bigint", "long"]
  | double => ["double", "float", "real"]
  | decimal => ["decimal", "numeric", "bigdecimal"]
  | bool => ["bool", "boolean", "bit"]
  | string => ["string", "varchar", "char", "text"]
  | clob => ["clob"]
  | bytes => ["bytes", "binary", "varbinary"]
  | blob => ["blob"]
  | date => ["date"]
  | dateTime => ["datetime", "timestamp"]

def declared? (declaration : String) : Option ColumnType :=
  let key := Text.lowered (Text.trimmed declaration)
  all.find? fun t => t.aliases.contains key

def isNumeric (t : ColumnType) : Bool := [int, bigInt, double, decimal].contains t

def isLargeObject (t : ColumnType) : Bool := [clob, blob].contains t

def isTextual (t : ColumnType) : Bool := [string, clob].contains t

end ColumnType

end DataAccess
