import PolyglotSql.Rendering.Quoting
import PolyglotSql.Schema.Attribute
import PolyglotSql.Value

/-!
# PolyglotSql.Rendering.Sink

Rendered SQL: a text and the values bound to its placeholders. Values never reach the text; a
placeholder and its binding are appended together, so bindings follow the order of placeholders.
-/

namespace PolyglotSql

/-- A value bound to the placeholder at a position counted from one. -/
structure Binding where
  position : Nat
  value : Value
  sqlType : Option SqlType
deriving DecidableEq, Inhabited

namespace Binding

/-- A binding as it is shown to people. -/
def describe (b : Binding) : String :=
  let shown := toString b.position ++ " = " ++ b.value.literal
  match b.sqlType with
  | some t => shown ++ " (" ++ t.name ++ ")"
  | none => shown

end Binding

/-- SQL text with its bindings in the order of placeholders. -/
structure RenderedSql where
  sql : String
  bindings : List Binding
deriving DecidableEq, Inhabited

/-- Rendered SQL under construction. -/
structure Sink where
  style : QuoteStyle
  sql : String
  bindings : List Binding
deriving Inhabited

namespace Sink

def new (style : QuoteStyle) : Sink :=
  { style, sql := "", bindings := [] }

def text (s : Sink) (t : String) : Sink :=
  { s with sql := s.sql ++ t }

def char (s : Sink) (c : Char) : Sink :=
  { s with sql := s.sql.push c }

def number (s : Sink) (n : Nat) : Sink :=
  s.text (toString n)

/-- Appends a table, column or schema name. -/
def identifier (s : Sink) (name : String) : Sink :=
  s.text (s.style.quoteName name)

def alias_ (s : Sink) (name : String) : Sink :=
  s.text (s.style.quoteAlias name)

/-- Appends a placeholder bound to a scalar value; `NULL` and lists have no placeholder. -/
def bind? (s : Sink) (value : Value) (column : Option Attribute) : Option Sink :=
  if value.isScalar then
    some { s with
      sql := s.sql.push '?'
      bindings := s.bindings ++ [⟨s.bindings.length + 1, value, column.map (·.sqlType)⟩] }
  else none

def finish (s : Sink) : RenderedSql :=
  { sql := s.sql, bindings := s.bindings }

end Sink
end PolyglotSql
