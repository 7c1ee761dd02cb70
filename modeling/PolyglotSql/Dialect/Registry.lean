import PolyglotSql.Dialect.Basic
import PolyglotSql.Text.Quoted

/-!
# PolyglotSql.Dialect.Registry

The dialects that can be asked for by identifier, in the order in which they were registered.
Identifiers are kept and looked up in lower case.
-/

namespace PolyglotSql

/-- Identifiers with their dialects, in order of registration. -/
structure Registry where
  entries : List (String × Dialect)
deriving DecidableEq, Inhabited

namespace Registry

def empty : Registry := ⟨[]⟩

/-- Puts an entry in place of one with the same identifier, or at the end. -/
def put (id : String) (d : Dialect) : List (String × Dialect) → List (String × Dialect)
  | [] => [(id, d)]
  | (k, e) :: rest => if k = id then (id, d) :: rest else (k, e) :: put id d rest

/-- Registers a dialect; an identifier registered before keeps its place. -/
def register (r : Registry) (id : String) (d : Dialect) : Registry :=
  ⟨put (Text.lower id) d r.entries⟩

/-- Every dialect under its own identifier. -/
def standard : Registry :=
  Dialect.all.foldl (fun r d => r.register d.id d) empty

def get? (r : Registry) (id : String) : Option Dialect :=
  (r.entries.find? fun entry => entry.1 == Text.lower id).map (·.2)

/-- The identifiers in order of registration. -/
def ids (r : Registry) : List String :=
  r.entries.map (·.1)

/-- The identifiers as programmers are shown them. -/
def describe (r : Registry) : String :=
  "[" ++ Text.join ", " (r.ids.map Text.quoted) ++ "]"

end Registry
end PolyglotSql
