import PolyglotSql.Tree.Basic

/-!
# PolyglotSql.Tree.Edit

The structural edits of a tree: adding, attaching, replacing, removing and moving nodes. Attaching
detaches the node from wherever it was; no edit attaches a node below itself.
-/

namespace PolyglotSql
namespace Edit

def setRoot (id : NodeId) : Edit Unit := do
  match ← read (·.parent id) with
  | some _ => throw (.attachedRoot id)
  | none => modify fun t => { t with root := id }

def add (node : Node) : Edit NodeId := do
  let t ← get
  set { t with slots := t.slots.push { node, parent := none, children := [], alias_ := none } }
  pure t.slots.size

def setNode (id : NodeId) (node : Node) : Edit Unit :=
  update id fun s => { s with node }

def setAlias (id : NodeId) (alias_ : Option String) : Edit Unit :=
  update id fun s => { s with alias_ }

def takeAlias (id : NodeId) : Edit (Option String) := do
  let alias_ ← read (·.alias_ id)
  setAlias id none
  pure alias_

/-- Detaches a node from its parent, if it has one. -/
def detach (child : NodeId) : Edit Unit := do
  match ← read (·.parent child) with
  | none => pure ()
  | some parent =>
    update child fun s => { s with parent := none }
    update parent fun s => { s with children := s.children.filter (· ≠ child) }

/-- Stops with a defect if `child` is `parent` or above it. -/
def assertNotAbove (child parent : NodeId) : Edit Unit :=
  read fun t => t.checkNotAbove child parent (t.size + 1) parent

/-- Attaches a node as the child at an index; the index counts the children that remain once the
node has left its former place. -/
def insertChild (parent : NodeId) (index : Nat) (child : NodeId) : Edit Unit := do
  assertNotAbove child parent
  detach child
  let count ← read (·.childCount parent)
  if index ≤ count then
    update parent fun s => { s with children := s.children.insertIdx index child }
    update child fun s => { s with parent := some parent }
  else throw (.insertOutOfRange index count)

/-- Attaches a node as the last child; the index is taken before the node leaves its former
place. -/
def appendChild (parent child : NodeId) : Edit Unit := do
  let index ← read (·.childCount parent)
  insertChild parent index child

/-- Puts a node in the place of the child at an index and returns that child, which keeps its own
children and is now detached. -/
def replaceChild (parent : NodeId) (index : Nat) (new : NodeId) : Edit NodeId := do
  let old ← read (·.child parent index)
  if old = new then pure old
  else
    assertNotAbove new parent
    detach new
    match ← read (·.indexOf parent old) with
    | none => throw (.vanished old parent)
    | some place =>
      update parent fun s => { s with children := s.children.set place new }
      update new fun s => { s with parent := some parent }
      update old fun s => { s with parent := none }
      pure old

def removeChild (parent : NodeId) (index : Nat) : Edit NodeId := do
  let child ← read (·.child parent index)
  update parent fun s => { s with children := s.children.eraseIdx index }
  update child fun s => { s with parent := none }
  pure child

/-- Moves every child of one node to the end of another's children, in order. -/
def transferChildren (source target : NodeId) : Edit Unit := do
  let moved ← read (·.children source)
  update source fun s => { s with children := [] }
  moved.forM fun child => update child fun s => { s with parent := none }
  moved.forM fun child => appendChild target child

/-- Exchanges two entries of a list. -/
def exchange {α : Type} (xs : List α) (a b : Nat) : List α :=
  match xs[a]?, xs[b]? with
  | some x, some y => (xs.set a y).set b x
  | _, _ => xs

def swapChildren (parent : NodeId) (a b : Nat) : Edit Unit := do
  let count ← read (·.childCount parent)
  if a < count ∧ b < count then
    update parent fun s => { s with children := exchange s.children a b }
  else throw (.swapOutOfRange a b count)

/-- Copies a subtree of bounded depth into fresh slots; the copy is detached. -/
def copyBelow : (depth : Nat) → NodeId → Edit NodeId
  | 0, id => throw (.endless id)
  | depth + 1, id => do
    let s ← read (·.slot id)
    let copy ← add s.node
    setAlias copy s.alias_
    s.children.forM fun child => do
      let childCopy ← copyBelow depth child
      appendChild copy childCopy
    pure copy

/-- Copies the subtree of a node into fresh slots and returns the detached copy. No path is longer
than the arena. -/
def copySubtree (id : NodeId) : Edit NodeId := do
  copyBelow ((← get).size + 1) id

end Edit
end PolyglotSql
