import PolyglotSql.Term.Basic
import PolyglotSql.Tree.Edit

/-!
# PolyglotSql.Term.Build

Putting terms into trees and reading them back. A term takes one fresh slot per node, each node
before the nodes below it.
-/

namespace PolyglotSql
namespace Term

mutual

/-- Adds a term to a tree and returns the slot of its top, which is detached. -/
def buildInto : Term → Edit NodeId
  | .mk node alias_ children => do
    let id ← Edit.add node
    Edit.setAlias id alias_
    buildChildren id children
    pure id

/-- Adds terms to a tree as the last children of a node. -/
def buildChildren (parent : NodeId) : List Term → Edit Unit
  | [] => pure ()
  | t :: ts => do
    let child ← buildInto t
    Edit.appendChild parent child
    buildChildren parent ts

end

/-- A term as a tree of its own. Slot 0 holds an unused empty node. -/
def build (t : Term) : Tree :=
  let edit : Edit Unit := do
    let root ← buildInto t
    Edit.setRoot root
  (edit.run.run (Tree.new .empty)).2

end Term

namespace Tree

/-- The term below a node, to a bounded depth. -/
def termBelow (t : Tree) : (depth : Nat) → NodeId → Except Defect Term
  | 0, id => .error (.endless id)
  | depth + 1, id =>
    match t.slot id with
    | .error d => .error d
    | .ok s =>
      match s.children.mapM (termBelow t depth) with
      | .error d => .error d
      | .ok children => .ok (.mk s.node s.alias_ children)

/-- The term below a node. No path is longer than the arena. -/
def term (t : Tree) (id : NodeId) : Except Defect Term :=
  t.termBelow (t.size + 1) id

end Tree
end PolyglotSql
