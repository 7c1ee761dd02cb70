import PolyglotSql.Failure
import PolyglotSql.Schema.Catalog
import PolyglotSql.Sql.Script

/-!
# PolyglotSql.Schema.Declaration

What `CREATE TABLE` statements tell about tables. Of a column only its type counts, whether it is
declared a primary key, and whether it rejects `NULL`; constraints on the table as a whole do not
count. Other statements declare nothing.
-/

namespace PolyglotSql

namespace Sql

def ColumnDeclaration.attribute (c : ColumnDeclaration) : Attribute :=
  let primaryKey := c.options.any (·.kind = .primaryKey)
  { Attribute.ofDeclared c.name.value c.type with
    primaryKey
    mandatory := primaryKey || c.options.any (·.kind = .notNull) }

def TableDeclaration.entity (t : TableDeclaration) : Entity :=
  { name := pathText t.name, attributes := t.columns.map (·.attribute) }

end Sql

namespace Catalog

/-- Adds the table that a statement declares, if it declares one. -/
def declare (c : Catalog) : Sql.Statement → Catalog
  | .createTable t => c.insert t.entity
  | _ => c

def ofStatements (statements : List Sql.Statement) : Catalog :=
  statements.foldl declare empty

/-- The tables that a script declares. -/
def parse (script : String) : Except Failure Catalog :=
  match Sql.Script.parse script with
  | .ok statements => .ok (ofStatements statements)
  | .error e => .error (.ofScript .ofSchema e)

end Catalog
end PolyglotSql
