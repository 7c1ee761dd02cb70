import PolyglotSql.Dialect.Replacement
import PolyglotSql.Dialect.RowNumbers
import PolyglotSql.Tree.Walk

/-!
# PolyglotSql.Dialect.Adapt

Adapting a canonical query to a dialect, in place. One walk meets every child before what is below
it and applies the dialect's rule for its kind; the walk then goes on below whatever took its
place. What the rules put into the tree is not canonical any more, so no rule matches it again.
The first refusal ends the walk and leaves the tree adapted up to there.
-/

namespace PolyglotSql
namespace Dialect

/-! ## Rules for one place -/

/-- Columns of fixed width are trimmed where the dialect does so. -/
def adaptColumn (d : Dialect) (place : Place) : Edit Unit :=
  match d.trimKind? with
  | some strip => place.trimFixed strip
  | none => pure ()

/-- Values for character large objects are cast where the dialect does so. -/
def adaptValue (d : Dialect) (place : Place) : Edit Unit :=
  match d.clobLength? with
  | some length => place.castClob length
  | none => pure ()

/-- The canonical row limiting clause gives way to the dialect's. -/
def adaptLimit (d : Dialect) (place : Place) : Edit Unit :=
  match d.pageClause? with
  | some clause => place.paginate clause
  | none => pure ()

/-- Pattern matches get the dialect's operators. -/
def adaptLike (d : Dialect) (place : Place) : Edit Unit :=
  match d.likeOperators? with
  | some (sensitive, insensitive) => do
    let _ ← Place.setLikeOperator place.node sensitive insensitive
  | none => pure ()

/-- Carries out a rule on the function in a place; tells whether the dialect has something for
it. -/
def applyRule (place : Place) : FunctionRule → Edit Bool
  | .keep => pure true
  | .rename name parentheses => do
    let _ ← place.rename name parentheses
    pure true
  | .renameSwapped name => do
    let call ← place.rename name true
    Place.swapArguments call
    pure true
  | .operator operator => do
    let _ ← place.toOperator operator
    pure true
  | .keywords name keywords => do
    let _ ← place.toKeywordCall name keywords
    pure true
  | .keywordsSwapped name keywords => do
    let call ← place.toKeywordCall name keywords
    Place.swapArguments call
    pure true
  | .extract part => do
    let _ ← place.toExtract part
    pure true
  | .nested outer inner => do
    let _ ← place.nest outer inner
    pure true
  | .nestedFormat outer inner format => do
    place.nestFormat outer inner format
    pure true
  | .formattedCast format => do
    place.toFormattedCast format
    pure true
  | .refuse => pure false

/-- Canonical functions follow the dialect's rule for them. -/
def adaptFunction (d : Dialect) (place : Place) : Edit (Except Refusal Unit) := do
  match ← place.function? with
  | none => pure (.ok ())
  | some name =>
    if ← applyRule place (d.functionRule name) then pure (.ok ())
    else pure (.error (.function name d))

/-- The number of arguments of a function; the marker of distinct values is none. -/
def argumentCount (t : Tree) (function : NodeId) : Except Defect Nat := do
  let args ← (← t.children function).filterM fun id => do
    .ok ((← t.kind id) != .distinct)
  .ok args.length

/-- Refuses a canonical function with a number of arguments that it does not take. -/
def checkCall (function : NodeId) : Edit (Except Refusal Unit) := do
  match (← Edit.read (·.node function)).canonicalFunction? with
  | none => pure (.ok ())
  | some name =>
    let args ← Edit.read fun t => argumentCount t function
    pure (FunctionCatalogue.checkArity name args)

/-- Applies the dialect's rule for the kind of a child. -/
def adaptPlace (d : Dialect) (place : Place) : Edit (Except Refusal Unit) := do
  match ← Edit.read (·.kind place.node) with
  | .column => do d.adaptColumn place; pure (.ok ())
  | .value => do d.adaptValue place; pure (.ok ())
  | .limitOffset => do d.adaptLimit place; pure (.ok ())
  | .function => do
    match ← checkCall place.node with
    | .error refusal => pure (.error refusal)
    | .ok () => d.adaptFunction place
  | .like => do d.adaptLike place; pure (.ok ())
  | _ => pure (.ok ())

/-! ## The walk -/

/-- The visitor that adapts children as it meets them and remembers the first refusal. -/
def adaptor (d : Dialect) : Visitor (Option Refusal) where
  onNodeStart _ := do
    pure (← Walk.memory).isNone
  onChildStart parent child index _ := do
    if (← Walk.memory).isSome then pure false
    else
      match ← Walk.edit (d.adaptPlace { parent, index, node := child }) with
      | .error refusal =>
        Walk.remember fun _ => some refusal
        pure false
      | .ok () =>
        let _ ← Walk.read (·.child parent index)
        pure true
  onChildEnd _ _ _ _ := pure ()
  onNodeEnd _ := pure ()

/-- Nesting of a walk that adapts a tree of a given size: rules put at most four nodes in the place
of one. -/
def walkSteps (size : Nat) : Nat :=
  16 * size + 16

/-- Walks the tree from its root and returns the first refusal. -/
def adaptBelowRoot (d : Dialect) : Edit (Option Refusal) := do
  let t ← get
  match (d.adaptor.visit (walkSteps t.size)).run.run { tree := t, memory := none } with
  | (result, s) =>
    set s.tree
    match result with
    | .ok () => pure s.memory
    | .error defect => throw defect

/-- One walk over the tree. Rules see children only, so the root gets a holder for the time of the
walk, unless it is an empty node and could be none of theirs. -/
def adaptOnce (d : Dialect) : Edit (Option Refusal) := do
  let root := (← get).root
  if (← Edit.read (·.kind root)) = .empty then d.adaptBelowRoot
  else
    let holder ← Edit.add .empty
    Edit.appendChild holder root
    Edit.setRoot holder
    let refusal ← d.adaptBelowRoot
    let root ← Edit.removeChild holder 0
    Edit.setRoot root
    pure refusal

/-- The root of the adapted tree, or the refusal that a walk ended with. -/
def outcome : Option Refusal → Edit (Except Refusal NodeId)
  | some refusal => pure (.error refusal)
  | none => do
    pure (.ok (← get).root)

/-- Adapts the tree by one walk alone, without enclosing paginated selects. -/
def adaptRules (d : Dialect) : Edit (Except Refusal NodeId) := do
  outcome (← d.adaptOnce)

/-- Adapts the tree to a dialect: its root afterwards, or a refusal. -/
def adapt (d : Dialect) : Edit (Except Refusal NodeId) := do
  if d.filtersRowNumbers then RowNumbers.encloseAll
  d.adaptRules

end Dialect
end PolyglotSql
