/-!
# PolyglotSql.Rendering.Placeholder

Which question marks of a text are placeholders: those outside of string literals and of delimited
identifiers. A delimiter written twice inside closes and opens again, so it needs no look ahead.
-/

namespace PolyglotSql
namespace Placeholder

/-- A scan: the delimiter that it is inside of, if any, and the placeholders met so far. -/
structure Scan where
  inside : Option Char
  count : Nat
deriving DecidableEq

/-- Reads one more character, `quote` being the delimiter of identifiers. -/
def Scan.step (quote : Char) (s : Scan) (c : Char) : Scan :=
  match s.inside with
  | some delimiter => if c = delimiter then { s with inside := none } else s
  | none =>
    if c = '\'' ∨ c = quote then { s with inside := some c }
    else if c = '?' then { s with count := s.count + 1 }
    else s

def count (sql : String) (quote : Char) : Nat :=
  (sql.toList.foldl (Scan.step quote) ⟨none, 0⟩).count

end Placeholder
end PolyglotSql
