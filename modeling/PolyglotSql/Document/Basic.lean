import PolyglotSql.Value

/-!
# PolyglotSql.Document.Basic

Structured data as data formats know it: scalars, lists, and records of named fields in order.
-/

namespace PolyglotSql

/-- Structured data. -/
inductive Document where
  | null
  | boolean (b : Bool)
  | integer (n : Int)
  | float (x : Binary64)
  | text (s : String)
  | list (items : List Document)
  | record (fields : List (String × Document))
deriving Inhabited

/-- A literal value as structured data. -/
def Value.document : Value → Document
  | .null => .null
  | .boolean b => .boolean b
  | .integer n => .integer n.toInt
  | .float x => .float x
  | .text s => .text s
  | .list items => .list (items.map document)

end PolyglotSql
