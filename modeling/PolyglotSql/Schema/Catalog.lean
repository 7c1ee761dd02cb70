import PolyglotSql.Schema.Attribute

/-!
# PolyglotSql.Schema.Catalog

Tables and the collection of them that columns are looked up in. Tables are found by name and
columns by name within their table, both up to the case of ASCII letters; the collection is kept
in the order of the upper-case table names, and a later table replaces an earlier one.
-/

namespace PolyglotSql

/-- A table with its columns in declaration order. -/
structure Entity where
  name : String
  attributes : List Attribute
deriving DecidableEq, Inhabited

namespace Entity

/-- The first column of a given name. -/
def attribute? (e : Entity) (column : String) : Option Attribute :=
  e.attributes.find? fun a => Text.sameIgnoringCase a.name column

/-- The columns of the primary key, in declaration order. -/
def primaryKeys (e : Entity) : List Attribute :=
  e.attributes.filter (·.primaryKey)

end Entity

/-- Tables under their upper-case names, in the order of these names. -/
structure Catalog where
  entries : List (String × Entity)
deriving DecidableEq, Inhabited

namespace Catalog

def empty : Catalog := ⟨[]⟩

/-- Puts an entry into a sorted list, in place of one with the same key. -/
def insertEntry (key : String) (e : Entity) : List (String × Entity) → List (String × Entity)
  | [] => [(key, e)]
  | (k, d) :: rest =>
    if key = k then (key, e) :: rest
    else if key < k then (key, e) :: (k, d) :: rest
    else (k, d) :: insertEntry key e rest

/-- Adds a table, in place of one whose name differs in case only. -/
def insert (c : Catalog) (e : Entity) : Catalog :=
  ⟨insertEntry (Text.upper e.name) e c.entries⟩

def entity? (c : Catalog) (name : String) : Option Entity :=
  (c.entries.find? fun entry => entry.1 == Text.upper name).map (·.2)

/-- The tables in the order of their upper-case names. -/
def entities (c : Catalog) : List Entity :=
  c.entries.map (·.2)

def isEmpty (c : Catalog) : Bool :=
  c.entries.isEmpty

/-- The items whose hash tells a catalog apart when answers are kept for reuse: the upper-case table
names in order, each followed by those of the table's columns. -/
def fingerprint (c : Catalog) : List Value.HashItem :=
  c.entries.flatMap fun entry => .text entry.1 :: entry.2.attributes.flatMap Attribute.hashItems

end Catalog
end PolyglotSql
