import PolyglotSql.Tree.Node

/-!
# PolyglotSql.Tree.Basic

A query as an arena of slots. A slot holds a node, the slot of its parent, the slots of its
children in order, and an alias; nodes are named by their position in the arena and are never
removed from it. Structural edits keep both directions of the links in step.

An edit that is asked for something impossible stops with a `Defect`; the tree is then as it was at
that moment, which is why an edit is a state transformer whose failures keep the state.
-/

namespace PolyglotSql

/-- A node's position in its arena. -/
abbrev NodeId := Nat

/-- A node with its links. -/
structure Slot where
  node : Node
  parent : Option NodeId
  children : List NodeId
  alias_ : Option String
deriving DecidableEq, Inhabited

/-- An arena of slots and the root among them. -/
structure Tree where
  slots : Array Slot
  root : NodeId
deriving Inhabited

/-- Why an operation on a tree was impossible. -/
inductive Defect where
  /-- The arena has no such slot. -/
  | foreignNode (id : NodeId)
  | noChild (kind : NodeKind) (id : NodeId) (count index : Nat)
  /-- A node with a parent was to become the root. -/
  | attachedRoot (id : NodeId)
  | insertOutOfRange (index count : Nat)
  /-- A node was to be attached below itself. -/
  | cycle (child parent : NodeId)
  | swapOutOfRange (a b count : Nat)
  /-- A child was gone from its parent in the middle of a replacement. -/
  | vanished (child parent : NodeId)
  /-- A node of fixed arity was met with another number of children. -/
  | wrongArity (kind : NodeKind) (id : NodeId) (expected found : Nat)
  /-- `NULL` or a list was to be bound to a placeholder. -/
  | unboundable (value : Value)
  /-- A walk went on longer than any walk over a tree of that size can. -/
  | endless (id : NodeId)
deriving DecidableEq, Inhabited

namespace Defect

/-- A node as messages show it. -/
def shown (id : NodeId) : String :=
  "NodeId(" ++ toString id ++ ")"

def message : Defect → String
  | .foreignNode id => "node " ++ shown id ++ " does not belong to this tree"
  | .noChild kind id count index =>
    kind.name ++ " node " ++ shown id ++ " has " ++ toString count ++ " children, no child at index "
      ++ toString index
  | .attachedRoot id => "node " ++ shown id ++ " cannot become root while attached"
  | .insertOutOfRange index count =>
    "insert index " ++ toString index ++ " out of range for " ++ toString count ++ " children"
  | .cycle child parent =>
    "attaching " ++ shown child ++ " under " ++ shown parent ++ " would create a cycle"
  | .swapOutOfRange a b count =>
    "cannot swap children " ++ toString a ++ " and " ++ toString b ++ " of a node with "
      ++ toString count ++ " children"
  | .vanished child parent => "child " ++ shown child ++ " vanished from " ++ shown parent
  | .wrongArity kind id expected found =>
    kind.name ++ " node " ++ shown id ++ " expects " ++ toString expected ++ " children, found "
      ++ toString found
  | .unboundable value =>
    "value " ++ value.literal ++ " cannot be bound to a single placeholder"
  | .endless id => "no end below " ++ shown id

end Defect

namespace Tree

def slot (t : Tree) (id : NodeId) : Except Defect Slot :=
  match t.slots[id]? with
  | some s => .ok s
  | none => .error (.foreignNode id)

def new (root : Node) : Tree :=
  { slots := #[{ node := root, parent := none, children := [], alias_ := none }], root := 0 }

/-- Number of nodes ever added, attached or not. -/
def size (t : Tree) : Nat :=
  t.slots.size

def node (t : Tree) (id : NodeId) : Except Defect Node :=
  (t.slot id).map (·.node)

def kind (t : Tree) (id : NodeId) : Except Defect NodeKind :=
  (t.slot id).map (·.node.kind)

/-- The parent of a node; none for a root or a detached node. -/
def parent (t : Tree) (id : NodeId) : Except Defect (Option NodeId) :=
  (t.slot id).map (·.parent)

def children (t : Tree) (id : NodeId) : Except Defect (List NodeId) :=
  (t.slot id).map (·.children)

def child (t : Tree) (id : NodeId) (index : Nat) : Except Defect NodeId :=
  match t.slot id with
  | .error d => .error d
  | .ok s =>
    match s.children[index]? with
    | some c => .ok c
    | none => .error (.noChild s.node.kind id s.children.length index)

def childCount (t : Tree) (id : NodeId) : Except Defect Nat :=
  (t.slot id).map (·.children.length)

/-- Where a node stands among the children of another. -/
def indexOf (t : Tree) (parent child : NodeId) : Except Defect (Option Nat) :=
  (t.slot parent).map (·.children.idxOf? child)

def alias_ (t : Tree) (id : NodeId) : Except Defect (Option String) :=
  (t.slot id).map (·.alias_)

/-- Follows parents from `current` and stops with a defect on meeting `child`; `parent` is where
`child` is to be attached. Links that agree form no cycle, so the size of the arena bounds the
number of steps. -/
def checkNotAbove (t : Tree) (child parent : NodeId) : (steps : Nat) → (current : NodeId) →
    Except Defect Unit
  | 0, _ => .ok ()
  | steps + 1, current =>
    if current = child then .error (.cycle child parent)
    else
      match t.slot current with
      | .error d => .error d
      | .ok s =>
        match s.parent with
        | none => .ok ()
        | some above => checkNotAbove t child parent steps above

/-- Pops nodes off a stack, pushing their children in their place, and lists them in the order in
which they are popped. -/
def popAll (t : Tree) : (steps : Nat) → (stack : List NodeId) → Except Defect (List NodeId)
  | _, [] => .ok []
  | 0, id :: _ => .error (.endless id)
  | steps + 1, id :: stack =>
    match t.slot id with
    | .error d => .error d
    | .ok s =>
      match popAll t steps (s.children ++ stack) with
      | .error d => .error d
      | .ok rest => .ok (id :: rest)

/-- The nodes reachable from a node, in depth-first order, each before its children. -/
def descendants (t : Tree) (id : NodeId) : Except Defect (List NodeId) :=
  t.popAll (t.size + 1) [id]

end Tree

/-- An edit of a tree: its result or a defect, and in either case the tree it leaves. -/
abbrev Edit (α : Type) := ExceptT Defect (StateM Tree) α

namespace Edit

def read {α : Type} (look : Tree → Except Defect α) : Edit α := do
  match look (← get) with
  | .ok a => pure a
  | .error d => throw d

def update (id : NodeId) (change : Slot → Slot) : Edit Unit := do
  let t ← get
  if id < t.slots.size then set { t with slots := t.slots.modify id change }
  else throw (.foreignNode id)

end Edit
end PolyglotSql
