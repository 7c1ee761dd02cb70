import PolyglotSql.Schema.Catalog
import PolyglotSql.Sql.Literal
import PolyglotSql.Sql.Syntax
import PolyglotSql.Term.Basic

/-!
# PolyglotSql.Canonical.Scope

The tables in whose reach a column reference stands. A select adds its tables in front of those of
the selects around it; a column belongs to the first of them that has one of its name. A reference
that is qualified is looked up in tables of that alias only, or of that name where there is no
alias.
-/

namespace PolyglotSql

/-- A table that a column reference can mean. -/
structure VisibleTable where
  /-- The upper-case alias, or the upper-case name of a table without alias. -/
  key : String
  /-- What is known about the table. -/
  entity : Option Entity
deriving DecidableEq, Inhabited

/-- The tables that column references can mean, select by select, the innermost select first. -/
structure Scope where
  catalog : Catalog
  frames : List (List VisibleTable)
deriving Inhabited

namespace Scope

/-- What is known about a column among the tables of one select. -/
def resolveIn (table : Option String) (column : String) (frame : List VisibleTable) :
    Option Attribute :=
  frame.findSome? fun visible =>
    if table.all (Text.sameIgnoringCase visible.key) then
      visible.entity.bind (·.attribute? column)
    else none

/-- What is known about a column. -/
def resolve (s : Scope) (table : Option String) (column : String) : Option Attribute :=
  s.frames.findSome? (resolveIn table column)

/-- A table as column references see it; whatever is no plain table has no columns to refer to. -/
def visible? (catalog : Catalog) : Sql.TableFactor → Option VisibleTable
  | .table path alias_ _ =>
    let written := Sql.pathText path
    let key := match alias_ with
      | some a => a.name.value
      | none => written
    let name := match Text.cutLastDot written with
      | some (_, last) => last
      | none => written
    some { key := Text.upper key, entity := catalog.entity? name }
  | _ => none

/-- The scope inside a select that reads from given sources. -/
def enter (s : Scope) (sources : List Sql.Source) : Scope :=
  let factors := sources.flatMap fun source => source.table :: source.joins.map (·.table)
  { s with frames := factors.filterMap (visible? s.catalog) :: s.frames }

/-- A column reference with what is known about the column. Its parts are taken as they are, dots
included. -/
def columnTerm (s : Scope) (table : Option String) (column : String) : Term :=
  Term.leaf (.column ⟨table, column, s.resolve table column⟩)

end Scope
end PolyglotSql
