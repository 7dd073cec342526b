import DataAccess.Mapping
import DataAccess.Settings

/-!
# A magazine's schema

Articles and users in one group, the users with a version, and comments in tables by user that
two groups share.
-/

set_option autoImplicit false

namespace DataAccess.Magazine

section
variable (f : Flavor)

def column (prop name : String) (type : ColumnType) : Column :=
  .declare f prop name type true true

def table (name : String) (columns : List Column) : Table where
  name := name
  dialect := .ofFlavor f
  columns := columns
  pkProp := some "id"

def article : Mapping where
  business := "article"
  group := "default"
  table := table f "TB_ARTICLE" [column f "id" "id" .int, column f "title" "NAME" .string,
    column f "content" "DESCRIPTION" .string, column f "createdTime" "createdTime" .dateTime]

def user : Mapping where
  business := "user"
  group := "default"
  table := { table f "TB_USER" [column f "id" "pk" .int,
    column f "userName" "userName" .string, column f "vipPoints" "VIP_POINTS" .int,
    column f "version" "version" .int] with versionProp := some "version" }

def comment : Mapping where
  business := "comment"
  group := "comments"
  table := { table f "TB_COMMENT" [column f "id" "id" .int, column f "userId" "userId" .int,
    column f "content" "DESCRIPTION" .string] with suffixKey := some "userId" }

def mappings : List Mapping := [article f, user f, comment f]

end

def groups : List GroupSettings :=
  [.physical "default" "master" (some "slave"), .physical "comment1" "c1" none,
    .physical "comment2" "c2" none,
    .sharded "comments" (.modulo "userId" ["comment1", "comment2"])]

end DataAccess.Magazine
