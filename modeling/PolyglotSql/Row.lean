import PolyglotSql.Schema.Catalog
import PolyglotSql.Value

/-!
# PolyglotSql.Row

Pending changes to rows of a database, and the identity of the rows they change. A row that is not
in the database yet has a temporary key; values for its future key may be attached to it. Two
changes concern the same row when they hold the same identity object; when both keys are
permanent and equal; when both are temporary, nothing is attached and they are equal; or when both
are temporary, of one entity, and equal values are attached for the primary key.
-/

namespace PolyglotSql

/-- A map in insertion order. -/
abbrev Columns := List (String × Value)

namespace Columns

def get? (cs : Columns) (name : String) : Option Value :=
  (cs.find? (·.1 == name)).map (·.2)

/-- Puts a value in place of a column's value, or at the end. -/
def put (name : String) (v : Value) : Columns → Columns
  | [] => [(name, v)]
  | (k, w) :: rest => if k = name then (name, v) :: rest else (k, w) :: put name v rest

def putSorted (name : String) (v : Value) : Columns → Columns
  | [] => [(name, v)]
  | (k, w) :: rest =>
    if name = k then (name, v) :: rest
    else if name < k then (name, v) :: (k, w) :: rest
    else (k, w) :: putSorted name v rest

end Columns

/-- The key of a row: the values of its key columns, sorted by name, or a number that no other row
has. -/
inductive RowKey where
  | permanent (columns : Columns)
  | temporary (number : Nat)
deriving DecidableEq

structure RowId where
  entity : String
  key : RowKey
  /-- Values attached for the key that the row will have. -/
  replacement : Option Columns
deriving DecidableEq

namespace RowId

/-- The identity of a row with known key values. -/
def permanent (entity : String) (columns : Columns) : RowId :=
  let sorted := columns.foldl (fun cs (name, v) => Columns.putSorted name v cs) []
  { entity, key := .permanent sorted, replacement := none }

/-- The identity of a row that has no key yet. -/
def temporary (entity : String) (number : Nat) : RowId :=
  { entity, key := .temporary number, replacement := none }

def isTemporary (id : RowId) : Bool :=
  match id.key with
  | .permanent _ => false
  | .temporary _ => true

/-- The value of a key column; none for a temporary key. -/
def keyValue? (id : RowId) (column : String) : Option Value :=
  match id.key with
  | .permanent columns => columns.get? column
  | .temporary _ => none

/-- Attaches values for the future key. -/
def attach (id : RowId) (columns : Columns) : RowId :=
  { id with
    replacement := some (columns.foldl (fun cs (name, v) => Columns.put name v cs)
      (id.replacement.getD [])) }

def isAttached (id : RowId) : Bool :=
  (id.replacement.map fun cs => !cs.isEmpty).getD false

def attachedValue? (id : RowId) (column : String) : Option Value :=
  id.replacement.bind (·.get? column)

/-- Equality of entity and key; what is attached does not matter. -/
def same (a b : RowId) : Bool :=
  a.entity == b.entity && decide (a.key = b.key)

/-- The items that an identity feeds to a hash. -/
def hashItems (id : RowId) : List Value.HashItem :=
  .text id.entity :: match id.key with
    | .permanent columns =>
      .word 0 :: .word (UInt64.ofNat columns.length)
        :: columns.flatMap fun (name, v) => .text name :: v.hashItems
    | .temporary number => [.word 1, .word (UInt64.ofNat number)]

/-- An identity as messages show it. -/
def describe (id : RowId) : String :=
  match id.key with
  | .temporary number => "<ObjectId:" ++ id.entity ++ ", TEMP:" ++ toString number ++ ">"
  | .permanent columns =>
    "<ObjectId:" ++ id.entity
      ++ Text.join "" (columns.map fun (name, v) => ", " ++ name ++ "=" ++ v.literal) ++ ">"

end RowId

/-- What is done to a row. -/
inductive RowChangeKind where
  | insert | update | delete
deriving DecidableEq

namespace RowChangeKind

def name : RowChangeKind → String
  | .insert => "insert"
  | .update => "update"
  | .delete => "delete"

end RowChangeKind

structure RowChange where
  kind : RowChangeKind
  entity : Entity
  id : RowId
  /-- Tells identity objects apart; changes made through one object share it. -/
  holder : Nat
  values : Columns

namespace RowChange

/-- The values attached for the primary key, in the entity's order. -/
def attachedKey (c : RowChange) : List (Option Value) :=
  c.entity.primaryKeys.map fun key => c.id.attachedValue? key.name

/-- Whether two changes concern the same row. -/
def same (a b : RowChange) : Bool :=
  if a.holder = b.holder then true
  else
    match a.id.isTemporary, b.id.isTemporary with
    | true, true =>
      a.id.entity == b.id.entity &&
        match a.id.isAttached, b.id.isAttached with
        | false, false => a.id.same b.id
        | true, true => decide (a.attachedKey = b.attachedKey)
        | _, _ => false
    | false, false => a.id.same b.id
    | _, _ => false

/-- What a value that may be missing feeds to a hash. -/
def optionalItems : Option Value → List Value.HashItem
  | none => [.word 0]
  | some v => .word 1 :: v.hashItems

/-- The items that a change feeds to a hash. -/
def hashItems (c : RowChange) : List Value.HashItem :=
  if c.id.isTemporary && c.id.isAttached then
    .text c.id.entity :: c.attachedKey.flatMap optionalItems
  else c.id.hashItems

end RowChange
end PolyglotSql
