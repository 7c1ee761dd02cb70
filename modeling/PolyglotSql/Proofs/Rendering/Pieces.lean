import PolyglotSql.Term.Basic
import PolyglotSql.Tree.Render

/-!
# PolyglotSql.Proofs.Rendering.Pieces

What is written of a term, piece by piece and before any quoting. `Term.pieces` depends on the term
and on what is around it: the kind of the node above, and the table aliases that the selects around
it declare. A node of fixed arity with another number of terms below it has no pieces.
-/

namespace PolyglotSql

/-- What is written at a time. -/
inductive Piece where
  | raw (s : String)
  /-- A table, column or schema name. -/
  | name (s : String)
  /-- A table alias. -/
  | alias_ (s : String)
  /-- The placeholder of a value. -/
  | bound (value : Value) (column : Option Attribute)

namespace Sink

def put (s : Sink) : Piece → Sink
  | .raw t => s.text t
  | .name t => s.identifier t
  | .alias_ t => s.alias_ t
  | .bound value column =>
    { s with
      sql := s.sql.push '?'
      bindings := s.bindings ++ [⟨s.bindings.length + 1, value, column.map (·.sqlType)⟩] }

def putAll (s : Sink) (ps : List Piece) : Sink :=
  ps.foldl put s

@[simp] theorem putAll_nil (s : Sink) : s.putAll [] = s := rfl

@[simp] theorem putAll_cons (s : Sink) (p : Piece) (ps : List Piece) :
    s.putAll (p :: ps) = (s.put p).putAll ps := rfl

@[simp] theorem putAll_append (s : Sink) (ps qs : List Piece) :
    s.putAll (ps ++ qs) = (s.putAll ps).putAll qs :=
  List.foldl_append

end Sink

/-! ## Values -/

mutual

def Value.pieces (column : Option Attribute) : Value → List Piece
  | .null => [.raw "NULL"]
  | .list items => .raw "(" :: (Value.itemPieces column true items ++ [.raw ")"])
  | scalar => [.bound scalar column]

def Value.itemPieces (column : Option Attribute) : (first : Bool) → List Value → List Piece
  | _, [] => []
  | first, item :: items =>
    (if first then [] else [.raw ", "]) ++ Value.pieces column item
      ++ Value.itemPieces column false items

end

/-! ## Terms -/

namespace Term

mutual

/-- Whether a term is a table with a given alias, or holds one; selects inside are not looked
into. -/
def declares (qualifier : String) : Term → Bool
  | .mk (.table _ _ (some alias_)) _ _ => alias_ == qualifier
  | .mk .select _ _ => false
  | .mk _ _ children => declaresAny qualifier children

def declaresAny (qualifier : String) : List Term → Bool
  | [] => false
  | t :: ts => declares qualifier t || declaresAny qualifier ts

end

@[simp] theorem declaresAny_eq (qualifier : String) (ts : List Term) :
    declaresAny qualifier ts = ts.any (declares qualifier) := by
  induction ts with
  | nil => rw [declaresAny]; rfl
  | cons t ts ih => rw [declaresAny, ih, List.any_cons]

/-- Whether a term is a `FROM` clause that declares an alias. -/
def isFromDeclaring (qualifier : String) (t : Term) : Bool :=
  t.node.kind == .fromClause && t.declares qualifier

end Term

/-- What is around a term: the kind of the node above, and the aliases that the selects around it
declare. -/
structure Around where
  above : Option NodeKind
  aliases : String → Bool

namespace Around

/-- Around a whole query. -/
def outermost : Around :=
  { above := none, aliases := fun _ => false }

def below (around : Around) (node : Node) (children : List Term) : Around where
  above := some node.kind
  aliases qualifier :=
    (node.kind == .select && children.any (Term.isFromDeclaring qualifier))
      || around.aliases qualifier

end Around

structure Part where
  term : Term
  pieces : Option (List Piece)

namespace Part

/-- Parts one after another; `between` gives the text in front of each but the first. -/
def separated (between : Nat → Term → Term → String) :
    (index : Nat) → (before : Option Term) → List Part → Option (List Piece)
  | _, _, [] => some []
  | index, none, p :: ps => do
    let first ← p.pieces
    let rest ← separated between (index + 1) (some p.term) ps
    some (first ++ rest)
  | index, some before, p :: ps => do
    let next ← p.pieces
    let rest ← separated between (index + 1) (some p.term) ps
    some (.raw (between index before p.term) :: (next ++ rest))

/-- What stands in front of a part. -/
def lead (between : Nat → Term → Term → String) (index : Nat) (before : Option Term) (t : Term) :
    List Piece :=
  match before with
  | none => []
  | some b => [.raw (between index b t)]

theorem separated_cons {between : Nat → Term → Term → String} {index : Nat} {before : Option Term}
    {p : Part} {parts : List Part} {ps : List Piece} :
    separated between index before (p :: parts) = some ps ↔
      ∃ first rest, p.pieces = some first ∧
        separated between (index + 1) (some p.term) parts = some rest ∧
        lead between index before p.term ++ (first ++ rest) = ps := by
  cases before <;> simp [separated, Option.bind_eq_some_iff, lead]

end Part

namespace Node

def columnPieces (around : Around) (ref : ColumnRef) : List Piece :=
  match ref.table with
  | some qualifier =>
    [if around.aliases qualifier then .alias_ qualifier else .name qualifier, .raw ".",
      .name ref.name]
  | none => [.name ref.name]

def tablePieces (name : String) (schema alias_ : Option String) : List Piece :=
  (match schema with
    | some schema => [.name schema, .raw "."]
    | none => [])
  ++ .name name
  :: match alias_ with
    | some alias_ => [.raw " ", .alias_ alias_]
    | none => []

def escapeText (c : Char) : String :=
  "'" ++ String.ofList (if c = '\'' then [c, c] else [c]) ++ "'"

def escapePieces : Option Char → List Piece
  | none => []
  | some c => [.raw " ESCAPE ", .raw (escapeText c)]

/-- The same text between any two parts. -/
def sameText (separator : String) (_ : Nat) (_ _ : Term) : String :=
  separator

/-- Between the sources of a `FROM` clause; a join brings its own text. -/
def sourceText (_ : Nat) (_ next : Term) : String :=
  if next.node.kind = .join then "" else ", "

/-- Between the arguments of a call; the marker of distinct values brings its own text. -/
def argumentText (_ : Nat) (before _ : Term) : String :=
  if before.node.kind = .distinct then "" else ", "

/-- Between the arguments of a call with keywords. -/
def keywordText (keywords : List String) (index : Nat) (_ _ : Term) : String :=
  match keywords[index - 1]? with
  | some keyword => " " ++ keyword ++ " "
  | none => ", "

/-- How a node writes the parts below it. -/
inductive Form where
  /-- Not at all. -/
  | alone (ps : List Piece)
  /-- One after another, between other pieces and with a text in front of each but the first. -/
  | listed (before : List Piece) (between : Nat → Term → Term → String) (after : List Piece)
  /-- Each at a place of its own. -/
  | placed

/-- A bracket, if it is asked for. -/
def bracket (wanted : Bool) (s : String) : List Piece :=
  if wanted then [.raw s] else []

/-- How each node writes its parts. -/
def form (around : Around) : Node → Form
  | .select =>
    let nested := around.above != none && around.above != some .empty
    .listed (bracket nested "(" ++ [.raw "SELECT"]) (sameText "") (bracket nested ")")
  | .distinct =>
    .alone [.raw (if around.above = some .function then "DISTINCT " else " DISTINCT")]
  | .result => .listed [.raw " "] (sameText ", ") []
  | .fromClause => .listed [.raw " FROM "] sourceText []
  | .table name schema alias_ => .alone (tablePieces name schema alias_)
  | .whereClause => .listed [.raw " WHERE "] (sameText " ") []
  | .having => .listed [.raw " HAVING "] (sameText " ") []
  | .groupBy => .listed [.raw " GROUP BY "] (sameText ", ") []
  | .orderBy => .listed [.raw " ORDER BY "] (sameText ", ") []
  | .ordering direction =>
    .listed [] (sameText " ") (if direction = .descending then [.raw " DESC"] else [])
  | .limitOffset limit offset => .alone [.raw (PageClause.canonical limit offset)]
  | .page clause limit offset => .alone [.raw (clause.sql limit offset)]
  | .column ref => .alone (columnPieces around ref)
  | .trimmedColumn ref strip =>
    .alone (.raw strip.function :: .raw "(" :: (columnPieces around ref ++ [.raw ")"]))
  | .value v known => .alone (v.pieces known)
  | .castValue v known target length =>
    .alone (.raw "CAST(" :: (v.pieces known
      ++ [.raw " AS ", .raw target, .raw "(", .raw (toString length), .raw "))"]))
  | .function name true _ => .listed [.raw name, .raw "("] argumentText [.raw ")"]
  | .function name false _ => .alone [.raw name]
  | .keywordCall name keywords =>
    .listed [.raw name, .raw "("] (keywordText keywords) [.raw ")"]
  | .operation operator => .listed [] (sameText (" " ++ operator ++ " ")) []
  | .group => .listed [.raw "("] (sameText ", ") [.raw ")"]
  | .boolean op =>
    let nested := around.above == some .and || around.above == some .or
    .listed (bracket nested "(") (sameText (if op = .and then " AND " else " OR "))
      (bracket nested ")")
  | .not => .listed [.raw "NOT ("] (sameText " ") [.raw ")"]
  | .exists_ negated =>
    .listed [.raw (if negated then "NOT EXISTS " else "EXISTS ")] (sameText " ") []
  | .text s => .alone [.raw s]
  | .empty => .listed [] (sameText "") []
  | .join _ | .equality _ | .like .. | .in_ _ | .between _ => .placed

/-- What a node writes whose parts have places of their own. -/
def place : Node → List Part → Option (List Piece)
  | .join kind, [] => some [.raw (Tree.joinKeyword kind)]
  | .join kind, [only] => only.pieces.map (.raw (Tree.joinKeyword kind) :: ·)
  | .join kind, first :: second :: _ => do
    let source ← first.pieces
    let condition ← second.pieces
    some (.raw (Tree.joinKeyword kind) :: (source ++ .raw " ON " :: condition))
  | .equality op, [left, right] => do
    let subject ← left.pieces
    if right.term.node.isNullValue then
      some (subject ++ [.raw (if op = .ne then " IS NOT NULL" else " IS NULL")])
    else
      let other ← right.pieces
      some (subject ++ .raw " " :: .raw op.symbol :: .raw " " :: other)
  | .like operator _ negated escape, [left, right] => do
    let subject ← left.pieces
    let pattern ← right.pieces
    some (subject ++ .raw (if negated then " NOT " else " ") :: .raw operator.keyword :: .raw " "
      :: (pattern ++ escapePieces escape))
  | .in_ negated, [left, right] => do
    let subject ← left.pieces
    let list ← right.pieces
    some (subject ++ .raw (if negated then " NOT IN " else " IN ") :: list)
  | .between negated, [first, second, third] => do
    let subject ← first.pieces
    let low ← second.pieces
    let high ← third.pieces
    some (subject ++ .raw (if negated then " NOT BETWEEN " else " BETWEEN ")
      :: (low ++ .raw " AND " :: high))
  | _, _ => none

/-- What a node writes around its parts; the alias is left out. -/
def shape (around : Around) (node : Node) (parts : List Part) : Option (List Piece) :=
  match node.form around with
  | .alone ps => some ps
  | .listed before separator after =>
    (Part.separated separator 0 none parts).map fun inner => before ++ inner ++ after
  | .placed => node.place parts

def aliasPieces (around : Around) : Option String → List Piece
  | none => []
  | some alias_ => if around.above = some .result then [.raw " AS ", .name alias_] else []

@[simp] theorem aliasPieces_none (around : Around) : aliasPieces around none = [] := rfl

end Node

namespace Term

mutual

def pieces (around : Around) : Term → Option (List Piece)
  | .mk node alias_ children =>
    (node.shape around (parts (around.below node children) children)).map
      (· ++ Node.aliasPieces around alias_)

def parts (around : Around) : List Term → List Part
  | [] => []
  | t :: ts => ⟨t, t.pieces around⟩ :: parts around ts

end

@[simp] theorem parts_eq (around : Around) (ts : List Term) :
    parts around ts = ts.map fun t => ⟨t, t.pieces around⟩ := by
  induction ts with
  | nil => rw [parts]; rfl
  | cons t ts ih => rw [parts, ih]; rfl

theorem pieces_mk (around : Around) (node : Node) (alias_ : Option String)
    (children : List Term) :
    pieces around (.mk node alias_ children) =
      (node.shape around (children.map fun t => ⟨t, t.pieces (around.below node children)⟩)).map
        (· ++ Node.aliasPieces around alias_) := by
  rw [pieces, parts_eq]

end Term
end PolyglotSql
