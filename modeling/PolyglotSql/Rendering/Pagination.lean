import PolyglotSql.Rendering.Sink
import PolyglotSql.Tree.Node

/-!
# PolyglotSql.Rendering.Pagination

The written form of each row limiting clause. A limit of zero asks for every row and an offset of
zero skips none; a clause that can neither be left out nor left open writes the absence of a limit
in its own way. Sums of limit and offset stop at the largest 64-bit number.
-/

namespace PolyglotSql

/-- The sum of two 64-bit numbers, or the largest 64-bit number where the sum is beyond it. -/
def saturatingAdd (a b : UInt64) : UInt64 :=
  UInt64.ofNat (min (a.toNat + b.toNat) (Nat.pow 2 64 - 1))

/-- The largest row number that `ROWS m TO n` accepts. -/
def lastRowNumber : UInt64 := 0x7FFFFFFFFFFFFFFF

/-- Text that is written only when a number is not zero. -/
def unlessZero (n : UInt64) (s : String) : String :=
  if 0 < n then s else ""

def digitsOf (n : UInt64) : String :=
  toString n.toNat

namespace PageClause

/-- The canonical clause: `LIMIT n OFFSET m`, each part left out when its number is zero. -/
def canonical (limit offset : UInt64) : String :=
  unlessZero limit (" LIMIT " ++ digitsOf limit) ++ unlessZero offset (" OFFSET " ++ digitsOf offset)

/-- `LIMIT n OFFSET m` with a spelling for the limit that an offset alone must be given. -/
def withUnbounded (unbounded : String) (limit offset : UInt64) : String :=
  (if 0 < limit then " LIMIT " ++ digitsOf limit else unlessZero offset (" LIMIT " ++ unbounded))
    ++ unlessZero offset (" OFFSET " ++ digitsOf offset)

def sql (clause : PageClause) (limit offset : UInt64) : String :=
  match clause with
  | .offsetFetchNext =>
    unlessZero offset (" OFFSET " ++ digitsOf offset ++ " ROWS")
      ++ unlessZero limit (" FETCH NEXT " ++ digitsOf limit ++ " ROWS ONLY")
  | .offsetRowsFetchFirst =>
    unlessZero offset (" OFFSET " ++ digitsOf offset ++ " ROWS")
      ++ unlessZero limit (" FETCH FIRST " ++ digitsOf limit ++ " ROWS ONLY")
  | .offsetFetchFirst =>
    unlessZero offset (" OFFSET " ++ digitsOf offset)
      ++ unlessZero limit (" FETCH FIRST " ++ digitsOf limit ++ " ROWS ONLY")
  | .rowsTo =>
    if limit = 0 ∧ offset = 0 then ""
    else
      let last := if 0 < limit then saturatingAdd offset limit else lastRowNumber
      " ROWS " ++ digitsOf (saturatingAdd offset 1) ++ " TO " ++ digitsOf last
  | .limitMaxRows => withUnbounded "18446744073709551615" limit offset
  | .limitNegativeOne => withUnbounded "-1" limit offset
  | .limitZero => withUnbounded "0" limit offset

end PageClause
end PolyglotSql
