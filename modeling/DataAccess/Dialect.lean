import DataAccess.ColumnType
import DataAccess.Dict
import DataAccess.Flavor

/-!
# Dialects

A flavor together with the type names it knows beyond the common ones. Names are kept in
lower case.
-/

set_option autoImplicit false

namespace DataAccess

structure Dialect where
  flavor : Flavor
  customTypes : Dict ColumnType
  deriving DecidableEq

namespace Dialect

def withType (d : Dialect) (name : String) (type : ColumnType) : Dialect :=
  { d with customTypes := d.customTypes.insert (Text.lowered name) type }

def vendorTypes : Flavor → List (String × ColumnType)
  | .oracle =>
    [("Oracle.Long", .string), ("varchar2", .string), ("nclob", .clob), ("raw", .bytes),
      ("number", .decimal)]
  | .postgreSQL => [("bytea", .bytes), ("int8", .bigInt), ("serial", .int)]
  | .mySQL => [("mediumtext", .clob), ("longtext", .clob), ("longblob", .blob)]
  | _ => []

def ofFlavor (f : Flavor) : Dialect :=
  (vendorTypes f).foldl (fun d (name, type) => d.withType name type) ⟨f, Dict.empty⟩

/-- The names of the dialect come before the common ones. -/
def type? (d : Dialect) (name : String) : Option ColumnType :=
  (d.customTypes.get? (Text.lowered (Text.trimmed name))).or (ColumnType.declared? name)

end Dialect

end DataAccess
