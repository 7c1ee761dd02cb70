import PolyglotSql.Rendering.Pagination
import PolyglotSql.Tree.Edit

/-!
# PolyglotSql.Dialect.RowNumbers

Row limits for a database without a clause for them. A select with a limit or an offset is enclosed
in a select that filters on row numbers:

    SELECT * FROM (q) WHERE ROWNUM <= n
    SELECT * FROM (SELECT tid.*, ROWNUM rnum FROM (q) tid) WHERE rnum > m
    SELECT * FROM (SELECT tid.*, ROWNUM rnum FROM (q) tid WHERE ROWNUM <= m+n) WHERE rnum > m
-/

namespace PolyglotSql
namespace RowNumbers

/-- What is written in front of the enclosed select, after `SELECT`. -/
def head (offset : UInt64) : String :=
  if offset = 0 then " * FROM " else " * FROM (SELECT tid.*, ROWNUM rnum FROM "

/-- What is written after the enclosed select. -/
def tail (limit offset : UInt64) : String :=
  if offset = 0 then " WHERE ROWNUM <= " ++ digitsOf limit
  else if limit = 0 then " tid) WHERE rnum > " ++ digitsOf offset
  else
    " tid WHERE ROWNUM <= " ++ digitsOf (saturatingAdd offset limit) ++ ") WHERE rnum > "
      ++ digitsOf offset

/-- The limit and offset of a row limiting node that limits anything. -/
def limits? : Node → Option (UInt64 × UInt64)
  | .limitOffset limit offset => if 0 < limit ∨ 0 < offset then some (limit, offset) else none
  | _ => none

/-- The first of some children that limits anything, with its index. -/
def firstLimit? (t : Tree) : (index : Nat) → List NodeId →
    Except Defect (Option (Nat × UInt64 × UInt64))
  | _, [] => .ok none
  | index, id :: ids =>
    match t.node id with
    | .error d => .error d
    | .ok node =>
      match limits? node with
      | some (limit, offset) => .ok (some (index, limit, offset))
      | none => firstLimit? t (index + 1) ids

/-- Puts a select in the place of another, at the root or below its parent, where the parent still
holds it. -/
def takePlace (select wrapper : NodeId) : Edit Unit := do
  match ← Edit.read (·.parent select) with
  | none => pure ()
  | some parent =>
    match ← Edit.read (·.indexOf parent select) with
    | none => pure ()
    | some position =>
      let _ ← Edit.replaceChild parent position wrapper

/-- Encloses a select that limits its rows; the limiting node becomes empty and the alias moves to
the enclosing select. -/
def enclose (select : NodeId) : Edit Unit := do
  let children ← Edit.read (·.children select)
  match ← Edit.read fun t => firstLimit? t 0 children with
  | none => pure ()
  | some (index, limit, offset) =>
    let empty ← Edit.add .empty
    let _ ← Edit.replaceChild select index empty
    let wrapper ← Edit.add .select
    let alias_ ← Edit.takeAlias select
    Edit.setAlias wrapper alias_
    let wasRoot := decide ((← get).root = select)
    takePlace select wrapper
    let head ← Edit.add (.text (head offset))
    let tail ← Edit.add (.text (tail limit offset))
    Edit.appendChild wrapper head
    Edit.appendChild wrapper select
    Edit.appendChild wrapper tail
    if wasRoot then Edit.setRoot wrapper

/-- The selects at or below a node, each before those inside it. -/
def selectsBelow (t : Tree) (id : NodeId) : Except Defect (List NodeId) := do
  (← t.descendants id).filterM fun id => do
    .ok ((← t.kind id) == .select)

/-- Encloses every select of the tree that limits its rows. -/
def encloseAll : Edit Unit := do
  let root := (← get).root
  let selects ← Edit.read fun t => selectsBelow t root
  selects.forM enclose

end RowNumbers
end PolyglotSql
