import PolyglotSql.Dialect.Rules
import PolyglotSql.Tree.Edit

/-!
# PolyglotSql.Dialect.Replacement

The edits that dialects are made of. Each works on a child seen from its parent, puts another node
in the child's place and moves the child's alias and its own children to it, so that nothing below
is lost; the child itself stays behind in the arena, detached and bare.
-/

namespace PolyglotSql

/-- A child as its parent holds it. -/
structure Place where
  parent : NodeId
  index : Nat
  node : NodeId
deriving DecidableEq, Inhabited

namespace Place

def ofChild (parent : NodeId) (index : Nat) : Edit Place := do
  let node ← Edit.read (·.child parent index)
  pure { parent, index, node }

/-- Puts a node in place of a child; alias and children move to it. -/
def replace (place : Place) (node : Node) : Edit NodeId := do
  let new ← Edit.add node
  let alias_ ← Edit.takeAlias place.node
  Edit.setAlias new alias_
  Edit.transferChildren place.node new
  let _ ← Edit.replaceChild place.parent place.index new
  pure new

/-- Gives a function another name. -/
def rename (place : Place) (name : String) (parentheses : Bool) : Edit NodeId :=
  place.replace (.dialectCall name parentheses)

/-- Writes an infix operator between a function's arguments. -/
def toOperator (place : Place) (operator : String) : Edit NodeId :=
  place.replace (.operation operator)

/-- Turns a function into a call with keywords between the arguments. -/
def toKeywordCall (place : Place) (name : String) (keywords : List String) : Edit NodeId :=
  place.replace (.keywordCall name keywords)

/-- Turns a function into `EXTRACT(part FROM argument)`. -/
def toExtract (place : Place) (part : String) : Edit NodeId := do
  let extract ← place.toKeywordCall "EXTRACT" ["FROM"]
  let text ← Edit.add (.text part)
  Edit.insertChild extract 0 text
  pure extract

/-- Turns a function into `outer(inner(arguments))` and returns the inner call. -/
def nest (place : Place) (outer inner : String) : Edit NodeId := do
  let outer ← place.rename outer true
  let inner ← Edit.add (.dialectCall inner true)
  Edit.transferChildren outer inner
  Edit.appendChild outer inner
  pure inner

/-- Turns a function into `outer(inner(arguments, 'format'))`. -/
def nestFormat (place : Place) (outer inner format : String) : Edit Unit := do
  let inner ← place.nest outer inner
  let format ← Edit.add (.text ("'" ++ format ++ "'"))
  Edit.appendChild inner format

/-- Turns a function into `cast(strftime('format', arguments) as integer)`. -/
def toFormattedCast (place : Place) (format : String) : Edit Unit := do
  let cast ← place.toKeywordCall "cast" ["as"]
  let call ← Edit.add (.dialectCall "strftime" true)
  Edit.transferChildren cast call
  let pattern ← Edit.add (.text ("'" ++ format ++ "'"))
  Edit.insertChild call 0 pattern
  Edit.appendChild cast call
  let target ← Edit.add (.text "integer")
  Edit.appendChild cast target

/-- Exchanges the first two arguments of a function. -/
def swapArguments (function : NodeId) : Edit Unit :=
  Edit.swapChildren function 0 1

/-- Writes a function of the present date or time without parentheses; tells whether `name` is
one. -/
def stripCurrent (place : Place) (name : String) : Edit Bool := do
  if FunctionCatalogue.isCurrent name then
    let _ ← place.rename name false
    pure true
  else pure false

/-- Puts a dialect's row limiting clause in place of the canonical one. -/
def paginate (place : Place) (clause : PageClause) : Edit Unit := do
  match ← Edit.read (·.node place.node) with
  | .limitOffset limit offset =>
    let _ ← place.replace (.page clause limit offset)
  | _ => pure ()

/-- The parents below which a column of fixed width is trimmed: result lists and comparisons. -/
def trimsBelow : NodeKind → Bool
  | .result | .equality | .like | .in_ | .between => true
  | _ => false

/-- Wraps a column of fixed width in a trim function. -/
def trimFixed (place : Place) (strip : TrimKind) : Edit Unit := do
  if trimsBelow (← Edit.read (·.kind place.parent)) then
    match ← Edit.read (·.node place.node) with
    | .column ref =>
      if (ref.column.map (·.sqlType.isFixedChar)).getD false then
        let _ ← place.replace (.trimmedColumn ref strip)
    | _ => pure ()

/-- Casts the value bound for a character large object to a bounded text type. -/
def castClob (place : Place) (defaultLength : Nat) : Edit Unit := do
  match ← Edit.read (·.node place.node) with
  | .value value (some column) =>
    if column.sqlType.isClob && value.isScalar then
      let length := column.maxLength.getD defaultLength
      let _ ← place.replace (.castValue value (some column) "VARCHAR" length)
  | _ => pure ()

/-- Takes the child at an index out of its `UPPER`, if it is such a call of one argument. -/
def unwrapUpperAt (match_ : NodeId) (index : Nat) : Edit Unit := do
  let operand ← Edit.read (·.child match_ index)
  if (← Edit.read (·.node operand)).canonicalFunction? = some "UPPER"
      ∧ (← Edit.read (·.childCount operand)) = 1 then
    let inner ← Edit.read (·.child operand 0)
    let _ ← Edit.replaceChild match_ index inner

/-- Takes the operands of a pattern match out of their `UPPER` calls. -/
def unwrapUpper (match_ : NodeId) : Edit Unit := do
  let count ← Edit.read (·.childCount match_)
  (List.range count).forM (unwrapUpperAt match_)

/-- Gives a canonical pattern match its operator and tells whether it ignores case; one that
ignores case loses the `UPPER` calls around its operands. -/
def setLikeOperator (match_ : NodeId) (sensitive insensitive : LikeOperator) :
    Edit (Option Bool) := do
  match ← Edit.read (·.node match_) with
  | .like .like ignoreCase negated escape =>
    let operator := if ignoreCase then insensitive else sensitive
    Edit.setNode match_ (.like operator ignoreCase negated escape)
    if ignoreCase then unwrapUpper match_
    pure (some ignoreCase)
  | _ => pure none

/-- The name of a canonical function in a place. -/
def function? (place : Place) : Edit (Option String) := do
  pure (← Edit.read (·.node place.node)).canonicalFunction?

end Place
end PolyglotSql
