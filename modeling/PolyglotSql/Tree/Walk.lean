import PolyglotSql.Tree.Edit

/-!
# PolyglotSql.Tree.Walk

A depth-first walk that calls back at each node and around each child. The callbacks may edit the
tree: the list of children is read anew around every callback, so a child may be replaced before it
is entered, and siblings may come and go. A visitor remembers what it likes in a memory of its own.
-/

namespace PolyglotSql

/-- What a walk carries: the tree and the visitor's memory. -/
structure WalkState (σ : Type) where
  tree : Tree
  memory : σ

/-- A step of a walk: its result or a defect, and in either case what the walk carries then. -/
abbrev Walk (σ α : Type) := ExceptT Defect (StateM (WalkState σ)) α

namespace Walk

variable {σ α : Type}

/-- An edit as a step of a walk. -/
def edit (e : Edit α) : Walk σ α := do
  let s ← get
  match e.run.run s.tree with
  | (result, tree) =>
    set { s with tree }
    match result with
    | .ok a => pure a
    | .error d => throw d

def read (look : Tree → Except Defect α) : Walk σ α :=
  edit (Edit.read look)

def memory : Walk σ σ := do
  pure (← get).memory

/-- Changes the visitor's memory. -/
def remember (change : σ → σ) : Walk σ Unit :=
  modify fun s => { s with memory := change s.memory }

end Walk

/-- The callbacks of a walk. A false answer at the start of a node skips its children; at the start
of a child, the child's subtree. -/
structure Visitor (σ : Type) where
  onNodeStart : (node : NodeId) → Walk σ Bool
  onChildStart : (parent child : NodeId) → (index : Nat) → (hasMore : Bool) → Walk σ Bool
  onChildEnd : (parent child : NodeId) → (index : Nat) → (hasMore : Bool) → Walk σ Unit
  onNodeEnd : (node : NodeId) → Walk σ Unit

namespace Visitor

variable {σ : Type}

mutual

/-- Visits a node and what is below it. -/
def visitNode (v : Visitor σ) : (steps : Nat) → NodeId → Walk σ Unit
  | 0, node => throw (.endless node)
  | steps + 1, node => do
    if ← v.onNodeStart node then visitChildren v steps node 0
    v.onNodeEnd node

def visitChildren (v : Visitor σ) : (steps : Nat) → NodeId → (index : Nat) → Walk σ Unit
  | 0, node, _ => throw (.endless node)
  | steps + 1, node, index => do
    let count ← Walk.read (·.childCount node)
    if index < count then
      let child ← Walk.read (·.child node index)
      let descend ← v.onChildStart node child index (index + 1 < count)
      let count ← Walk.read (·.childCount node)
      if index < count then
        let child ← Walk.read (·.child node index)
        if descend then visitNode v steps child
        let count ← Walk.read (·.childCount node)
        v.onChildEnd node child index (index + 1 < count)
        visitChildren v steps node (index + 1)

end

/-- Walks the tree from its root. A walk in which callbacks edit the tree need not end, so the
number of steps that may be nested is stated. -/
def visit (v : Visitor σ) (steps : Nat) : Walk σ Unit := do
  visitNode v steps (← get).tree.root

end Visitor
end PolyglotSql
