import PolyglotSql.Batch.Outcome
import PolyglotSql.Document.JsonReader

/-!
# PolyglotSql.Batch.Document

Reports as structured data, in both directions. Parts that are missing are left out when a report
is written; when one is read, a record may also be given as the list of its parts in order.
-/

namespace PolyglotSql

/-- A field that is left out when there is nothing to write. -/
def optionalField (name : String) (value : Option Document) : List (String × Document) :=
  (value.map fun d => (name, d)).toList

namespace Binding

def document (b : Binding) : Document :=
  .record ([("position", .integer b.position), ("value", b.value.document)]
    ++ optionalField "sql_type" (b.sqlType.map fun t => .text t.name))

end Binding

namespace RenderedSql

def document (r : RenderedSql) : Document :=
  .record [("sql", .text r.sql), ("bindings", .list (r.bindings.map Binding.document))]

end RenderedSql

namespace Outcome

def document (o : Outcome) : Document :=
  let bindings := if o.bindings.isEmpty then none else some (o.bindings.map Binding.document)
  .record ([("index", .integer o.index), ("source", .text o.source)]
    ++ optionalField "sql" (o.sql.map .text)
    ++ optionalField "bindings" (bindings.map .list)
    ++ optionalField "error" (o.error.map .text))

end Outcome

namespace BatchReport

def document (r : BatchReport) : Document :=
  .record [("dialect", .text r.dialect.id),
    ("statements", .list (r.statements.map Outcome.document))]

end BatchReport

/-! ## Reading -/

namespace Document

/-- The values of named parts: from a record, where other fields are ignored and none of these may
occur twice, or from a list, where none may be missing. -/
def parts? (names : List String) : Document → Option (List (Option Document))
  | .record fields =>
    names.mapM fun name =>
      match fields.filter (·.1 == name) with
      | [] => some none
      | [(_, d)] => some (some d)
      | _ => none
  | .list items => if items.length = names.length then some (items.map some) else none
  | _ => none

/-- A natural number of 64 bits. -/
def natural? : Document → Option Nat
  | .integer n => if 0 ≤ n ∧ n < Nat.pow 2 64 then some n.toNat else none
  | _ => none

def text? : Document → Option String
  | .text s => some s
  | _ => none

/-- A part that may be missing or null. -/
def optional? {α : Type} (read : Document → Option α) : Option Document → Option (Option α)
  | none | some .null => some none
  | some d => (read d).map some

/-- The name of a choice: a text, or a record with that name as its only field and nothing in
it. -/
def choice? : Document → Option String
  | .text s => some s
  | .record [(name, .null)] => some name
  | _ => none

def binding? (d : Document) : Option Binding := do
  match ← d.parts? ["position", "value", "sql_type"] with
  | [some position, some value, sqlType] =>
    let position ← position.natural?
    let value ← value.value?
    let sqlType ← optional? (fun d => d.choice?.bind SqlType.ofName?) sqlType
    some { position, value, sqlType }
  | _ => none

def items? {α : Type} (read : Document → Option α) : Document → Option (List α)
  | .list items => items.mapM read
  | _ => none

def outcome? (d : Document) : Option Outcome := do
  match ← d.parts? ["index", "source", "sql", "bindings", "error"] with
  | [some index, some source, sql, bindings, error] =>
    let index ← index.natural?
    let source ← source.text?
    let sql ← optional? text? sql
    let bindings ← match bindings with
      | some d => items? binding? d
      | none => some []
    let error ← optional? text? error
    some { index, source, sql, bindings, error }
  | _ => none

def dialect? (d : Document) : Option Dialect := do
  let id ← d.choice?
  Dialect.all.find? fun d => d.id == id

def batchReport? (d : Document) : Option BatchReport := do
  match ← d.parts? ["dialect", "statements"] with
  | [some dialect, some statements] =>
    let dialect ← dialect.dialect?
    let statements ← items? outcome? statements
    some { dialect, statements }
  | _ => none

end Document
end PolyglotSql
