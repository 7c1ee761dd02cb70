import PolyglotSql.Rendering.Pagination
import PolyglotSql.Tree.Basic

/-!
# PolyglotSql.Tree.Render

The SQL text of a tree. Rendering only reads the tree: a node writes its opening text, its children
with the separator it owns, and its closing text. Some texts depend on the parent's kind: a select
is parenthesised anywhere but at the top, connectives are parenthesised inside one another, and a
result column writes its alias.
-/

namespace PolyglotSql
namespace Tree

def parentKind (t : Tree) (s : Slot) : Except Defect (Option NodeKind) :=
  match s.parent with
  | none => .ok none
  | some p => (t.kind p).map some

/-- Whether a `FROM` clause, or something in it, is a table with a given alias; subqueries are not
looked into. -/
def declaresAlias (t : Tree) (qualifier : String) : (depth : Nat) → NodeId → Bool
  | 0, _ => false
  | depth + 1, id =>
    match t.slot id with
    | .error _ => false
    | .ok s =>
      match s.node with
      | .table _ _ (some alias_) => alias_ == qualifier
      | .select => false
      | _ => s.children.any (declaresAlias t qualifier depth)

/-- Whether a node is a `FROM` clause that declares an alias. -/
def isFromDeclaring (t : Tree) (qualifier : String) (id : NodeId) : Bool :=
  match t.slot id with
  | .error _ => false
  | .ok s => s.node.kind == .fromClause && t.declaresAlias qualifier (t.size + 1) id

/-- Whether a select at or above a node declares an alias in its `FROM` clause. -/
def aliasInScope (t : Tree) (qualifier : String) : (steps : Nat) → (current : Option NodeId) → Bool
  | 0, _ | _, none => false
  | steps + 1, some id =>
    match t.slot id with
    | .error _ => false
    | .ok s =>
      if s.node.kind == .select && s.children.any (t.isFromDeclaring qualifier) then true
      else aliasInScope t qualifier steps s.parent

/-- Writes a column's qualifier: as an alias if a select around it declares it as one, as a table
name otherwise. -/
def renderQualifier (t : Tree) (s : Slot) (qualifier : String) (sink : Sink) : Sink :=
  let written :=
    if t.aliasInScope qualifier (t.size + 1) s.parent then sink.alias_ qualifier
    else sink.identifier qualifier
  written.text "."

def renderColumn (t : Tree) (s : Slot) (ref : ColumnRef) (sink : Sink) : Sink :=
  match ref.table with
  | some qualifier => (t.renderQualifier s qualifier sink).identifier ref.name
  | none => sink.identifier ref.name

/-- Writes children one after another; `between` gives the text in front of each but the first,
from its index, the child before it and the child itself. -/
def renderSeparated (between : Nat → NodeId → NodeId → Except Defect String)
    (render : NodeId → Sink → Except Defect Sink) :
    (index : Nat) → (before : Option NodeId) → List NodeId → Sink → Except Defect Sink
  | _, _, [], sink => .ok sink
  | index, none, id :: ids, sink => do
    renderSeparated between render (index + 1) (some id) ids (← render id sink)
  | index, some before, id :: ids, sink => do
    let separator ← between index before id
    renderSeparated between render (index + 1) (some id) ids (← render id (sink.text separator))

/-- Writes children with the same text between any two. -/
def renderAll (separator : String) (render : NodeId → Sink → Except Defect Sink)
    (ids : List NodeId) (sink : Sink) : Except Defect Sink :=
  renderSeparated (fun _ _ _ => .ok separator) render 0 none ids sink

mutual

/-- Writes a value: scalars as placeholders, `NULL` as a keyword, lists in parentheses. -/
def renderValue (column : Option Attribute) : Value → Sink → Except Defect Sink
  | .null, sink => .ok (sink.text "NULL")
  | .list items, sink => do
    let sink ← renderItems column true items (sink.text "(")
    .ok (sink.text ")")
  | scalar, sink =>
    match sink.bind? scalar column with
    | some sink => .ok sink
    | none => .error (.unboundable scalar)

/-- Writes the items of a list with commas between them. -/
def renderItems (column : Option Attribute) : (first : Bool) → List Value → Sink →
    Except Defect Sink
  | _, [], sink => .ok sink
  | first, item :: items, sink => do
    let sink ← renderValue column item (if first then sink else sink.text ", ")
    renderItems column false items sink

end

def twoChildren (id : NodeId) (s : Slot) : Except Defect (NodeId × NodeId) :=
  match s.children with
  | [a, b] => .ok (a, b)
  | cs => .error (.wrongArity s.node.kind id 2 cs.length)

def threeChildren (id : NodeId) (s : Slot) : Except Defect (NodeId × NodeId × NodeId) :=
  match s.children with
  | [a, b, c] => .ok (a, b, c)
  | cs => .error (.wrongArity s.node.kind id 3 cs.length)

/-- The keyword of a join, with the blanks around it. -/
def joinKeyword : JoinKind → String
  | .inner => " JOIN "
  | .left => " LEFT JOIN "
  | .right => " RIGHT JOIN "
  | .full => " FULL JOIN "

def renderEscape (escape : Option Char) (sink : Sink) : Sink :=
  match escape with
  | none => sink
  | some c =>
    let sink := (sink.text " ESCAPE '").char c
    (if c = '\'' then sink.char c else sink).text "'"

/-- Writes what a node is, its children by `render`; the alias is left out. -/
def renderShape (t : Tree) (render : NodeId → Sink → Except Defect Sink) (id : NodeId) (s : Slot)
    (sink : Sink) : Except Defect Sink := do
  match s.node with
  | .select =>
    let nested := match ← t.parentKind s with
      | none | some .empty => false
      | some _ => true
    let sink := (if nested then sink.text "(" else sink).text "SELECT"
    let sink ← renderAll "" render s.children sink
    .ok (if nested then sink.text ")" else sink)
  | .distinct =>
    .ok (sink.text (if (← t.parentKind s) = some .function then "DISTINCT " else " DISTINCT"))
  | .result => renderAll ", " render s.children (sink.text " ")
  | .fromClause =>
    let between := fun (_ : Nat) (_ next : NodeId) => do
      .ok (if (← t.kind next) = .join then "" else ", ")
    renderSeparated between render 0 none s.children (sink.text " FROM ")
  | .table name schema alias_ =>
    let sink := match schema with
      | some schema => (sink.identifier schema).text "."
      | none => sink
    let sink := sink.identifier name
    .ok (match alias_ with
      | some alias_ => (sink.text " ").alias_ alias_
      | none => sink)
  | .join kind =>
    let sink := sink.text (joinKeyword kind)
    match s.children with
    | [] => .ok sink
    | [table] => render table sink
    | table :: condition :: _ =>
      let sink ← render table sink
      render condition (sink.text " ON ")
  | .whereClause => renderAll " " render s.children (sink.text " WHERE ")
  | .having => renderAll " " render s.children (sink.text " HAVING ")
  | .groupBy => renderAll ", " render s.children (sink.text " GROUP BY ")
  | .orderBy => renderAll ", " render s.children (sink.text " ORDER BY ")
  | .ordering direction =>
    let sink ← renderAll " " render s.children sink
    .ok (match direction with
      | .ascending => sink
      | .descending => sink.text " DESC")
  | .limitOffset limit offset => .ok (sink.text (PageClause.canonical limit offset))
  | .page clause limit offset => .ok (sink.text (clause.sql limit offset))
  | .column ref => .ok (t.renderColumn s ref sink)
  | .trimmedColumn ref strip =>
    .ok ((t.renderColumn s ref ((sink.text strip.function).text "(")).text ")")
  | .value value column => renderValue column value sink
  | .castValue value column target length =>
    let sink ← renderValue column value (sink.text "CAST(")
    .ok ((((sink.text " AS ").text target).text "(").number length |>.text "))")
  | .function name parentheses _ =>
    let sink := sink.text name
    if parentheses then
      let between := fun (_ : Nat) (before _ : NodeId) => do
        .ok (if (← t.kind before) = .distinct then "" else ", ")
      let sink ← renderSeparated between render 0 none s.children (sink.text "(")
      .ok (sink.text ")")
    else .ok sink
  | .keywordCall name keywords =>
    let between := fun (index : Nat) (_ _ : NodeId) =>
      .ok (match keywords[index - 1]? with
        | some keyword => " " ++ keyword ++ " "
        | none => ", ")
    let sink ← renderSeparated between render 0 none s.children ((sink.text name).text "(")
    .ok (sink.text ")")
  | .operation operator => renderAll (" " ++ operator ++ " ") render s.children sink
  | .group =>
    let sink ← renderAll ", " render s.children (sink.text "(")
    .ok (sink.text ")")
  | .boolean op =>
    let nested := match ← t.parentKind s with
      | some .and | some .or => true
      | _ => false
    let separator := match op with
      | .and => " AND "
      | .or => " OR "
    let sink ← renderAll separator render s.children (if nested then sink.text "(" else sink)
    .ok (if nested then sink.text ")" else sink)
  | .not =>
    let sink ← renderAll " " render s.children (sink.text "NOT (")
    .ok (sink.text ")")
  | .equality op =>
    let (left, right) ← twoChildren id s
    let sink ← render left sink
    if (← t.node right).isNullValue then
      .ok (sink.text (if op = .ne then " IS NOT NULL" else " IS NULL"))
    else render right (((sink.text " ").text op.symbol).text " ")
  | .like operator _ negated escape =>
    let (left, right) ← twoChildren id s
    let sink ← render left sink
    let sink := ((sink.text (if negated then " NOT " else " ")).text operator.keyword).text " "
    let sink ← render right sink
    .ok (renderEscape escape sink)
  | .in_ negated =>
    let (left, right) ← twoChildren id s
    let sink ← render left sink
    render right (sink.text (if negated then " NOT IN " else " IN "))
  | .between negated =>
    let (subject, low, high) ← threeChildren id s
    let sink ← render subject sink
    let sink ← render low (sink.text (if negated then " NOT BETWEEN " else " BETWEEN "))
    render high (sink.text " AND ")
  | .exists_ negated =>
    renderAll " " render s.children (sink.text (if negated then "NOT EXISTS " else "EXISTS "))
  | .text text => .ok (sink.text text)
  | .empty => renderAll "" render s.children sink

def renderAlias (t : Tree) (s : Slot) (sink : Sink) : Except Defect Sink := do
  match s.alias_ with
  | none => .ok sink
  | some alias_ =>
    if (← t.parentKind s) = some .result then .ok ((sink.text " AS ").identifier alias_)
    else .ok sink

/-- Writes a subtree of bounded depth. -/
def renderBelow (t : Tree) : (depth : Nat) → NodeId → Sink → Except Defect Sink
  | 0, id, _ => .error (.endless id)
  | depth + 1, id, sink => do
    let s ← t.slot id
    let sink ← t.renderShape (renderBelow t depth) id s sink
    t.renderAlias s sink

/-- Writes the whole tree. No path is longer than the arena. -/
def renderInto (t : Tree) (sink : Sink) : Except Defect Sink :=
  t.renderBelow (t.size + 1) t.root sink

/-- The SQL text of a tree with its bindings. -/
def render (t : Tree) (style : QuoteStyle) : Except Defect RenderedSql :=
  (t.renderInto (Sink.new style)).map Sink.finish

end Tree
end PolyglotSql
