import PolyglotSql.Proofs.Canonical.Shapes

/-!
# PolyglotSql.Proofs.Canonical.Gathering

What is gathered from the columns and values of a term. The nodes that canonical queries put around
them have nothing of their own, and no way of putting terms together changes their order: so each
gives what is gathered from its parts, one behind the other.
-/

namespace PolyglotSql

/-- What is gathered from a column, and from a value. -/
structure Gathering (β : Type) where
  column : ColumnRef → List β
  value : Value → List β

namespace Gathering

def node {β : Type} (g : Gathering β) : Node → List β
  | .column ref => g.column ref
  | .value v _ | .castValue v _ _ _ => g.value v
  | _ => []

def columns : Gathering ColumnRef where
  column ref := [ref]
  value _ := []

def values : Gathering Value where
  column _ := []
  value v := [v]

end Gathering

variable {β : Type}

namespace Term

mutual

/-- What is gathered from a term, from each node before those below it. -/
def gather (g : Gathering β) : Term → List β
  | .mk node _ children => g.node node ++ gatherAll g children

def gatherAll (g : Gathering β) : List Term → List β
  | [] => []
  | t :: ts => gather g t ++ gatherAll g ts

end

variable (g : Gathering β)

theorem gatherAll_eq (ts : List Term) : gatherAll g ts = ts.flatMap (gather g) := by
  induction ts with
  | nil => rw [gatherAll]; rfl
  | cons t ts ih => rw [gatherAll, ih, List.flatMap_cons]

@[simp] theorem gather_mk (node : Node) (alias_ : Option String) (children : List Term) :
    (Term.mk node alias_ children).gather g = g.node node ++ children.flatMap (gather g) := by
  rw [gather, gatherAll_eq]

@[simp] theorem gather_of (node : Node) (children : List Term) :
    (of node children).gather g = g.node node ++ children.flatMap (gather g) :=
  gather_mk g node none children

@[simp] theorem gather_leaf (node : Node) : (leaf node).gather g = g.node node := by
  simp [leaf]

@[simp] theorem gather_value (v : Value) : (value v).gather g = g.value v := by
  simp [value, Gathering.node]

@[simp] theorem gather_call (name : String) (args : List Term) :
    (call name args).gather g = args.flatMap (gather g) := by
  simp [call, Node.call, Gathering.node]

@[simp] theorem gather_tableOf (name : String) (alias_ : Option String) :
    (tableOf name alias_).gather g = [] := by
  unfold tableOf
  split <;> simp [Gathering.node]

@[simp] theorem gather_withAlias (t : Term) (alias_ : String) :
    (t.withAlias alias_).gather g = t.gather g := by
  obtain ⟨node, alias', children⟩ := t
  simp [withAlias, Term.node, Term.children]

/-- Only values take over what is known about a column, and they stay the same values. -/
@[simp] theorem gather_inherit (t source : Term) : (t.inherit source).gather g = t.gather g := by
  obtain ⟨node, alias_, children⟩ := t
  unfold inherit
  split
  · rename_i hnode _
    rw [Term.node] at hnode
    subst hnode
    simp [withColumn, Gathering.node]
  · rfl

@[simp] theorem gather_withEscape (t : Term) (c : Char) :
    (t.withEscape c).gather g = t.gather g := by
  unfold withEscape
  split <;> simp [Gathering.node]

@[simp] theorem gather_ordered (direction : Direction) (t : Term) :
    (t.ordered direction).gather g = t.gather g := by
  simp [ordered, Gathering.node]

@[simp] theorem gather_toList (t? : Option Term) :
    t?.toList.flatMap (gather g) = (t?.map (gather g)).getD [] := by
  cases t? <;> simp

section Conditions

variable (negated : Bool) (left right : Term)

@[simp] theorem gather_compare (op : Comparison) :
    (compare op left right).gather g = left.gather g ++ right.gather g := by
  simp [compare, Gathering.node]

@[simp] theorem gather_matching (ignoreCase : Bool) :
    (matching ignoreCase negated left right).gather g = left.gather g ++ right.gather g := by
  cases ignoreCase <;> simp [matching, Gathering.node]

@[simp] theorem gather_member :
    (member negated left right).gather g = left.gather g ++ right.gather g := by
  simp [member, Gathering.node]

@[simp] theorem gather_inRange (t low high : Term) :
    (inRange negated t low high).gather g = t.gather g ++ (low.gather g ++ high.gather g) := by
  simp [inRange, Gathering.node]

/-- The operands of a connective that is continued keep their order. -/
@[simp] theorem gather_operands (op : BooleanOp) (t : Term) :
    (operands op t).flatMap (gather g) = t.gather g := by
  unfold operands
  split
  · split <;> simp [Gathering.node]
  · simp

@[simp] theorem gather_connect (op : BooleanOp) :
    (connect op left right).gather g = left.gather g ++ right.gather g := by
  simp [connect, Gathering.node]

@[simp] theorem gather_concat :
    (Canonical.concat left right).gather g = left.gather g ++ right.gather g := by
  unfold Canonical.concat
  split
  · rename_i hcall
    obtain ⟨node, alias_, children⟩ := left
    have hnode : g.node node = [] := by cases node <;> first | rfl | cases hcall
    simp [Term.children, hnode]
  · simp

end Conditions

end Term

/-! ## Selects -/

namespace Selection

variable (g : Gathering β)

/-- What is gathered from all clauses, in the order in which the clauses are written. -/
def gather (s : Selection) : List β :=
  (s.results ++ s.sources ++ s.condition.toList ++ s.groups ++ s.having.toList
    ++ s.orders).flatMap (Term.gather g)

theorem gather_clause {node : Node} (h : g.node node = []) (terms : List Term) :
    (clause node terms).flatMap (Term.gather g) = terms.flatMap (Term.gather g) := by
  unfold clause
  split
  · rename_i hempty
    rw [List.isEmpty_iff.1 hempty]
  · simp [h]

@[simp] theorem gather_toTerm (s : Selection) : s.toTerm.gather g = s.gather g := by
  have hdistinct :
      (if s.distinct then [Term.leaf .distinct] else []).flatMap (Term.gather g) = [] := by
    split <;> simp [Gathering.node]
  simp only [toTerm, Term.gather_of, List.flatMap_append, hdistinct,
    @gather_clause _ g .fromClause rfl, @gather_clause _ g .whereClause rfl,
    @gather_clause _ g .groupBy rfl, @gather_clause _ g .having rfl,
    @gather_clause _ g .orderBy rfl, gather]
  simp [Gathering.node]

@[simp] theorem gather_addOrders (s : Selection) (orders : List Term) :
    (orders.foldl addOrder s).gather g = s.gather g ++ orders.flatMap (Term.gather g) := by
  induction orders generalizing s with
  | nil => simp
  | cons order orders ih =>
    have hadd : (s.addOrder order).gather g = s.gather g ++ order.gather g := by
      simp only [addOrder, gather, List.flatMap_append, List.flatMap_singleton, List.append_assoc]
      split <;> simp
    rw [List.foldl_cons, ih, hadd, List.flatMap_cons, List.append_assoc]

end Selection

/-! ## Conversions -/

namespace Canonical

variable (g : Gathering β)

theorem binary_gather (op : Sql.BinaryOperator) (left right : Term) :
    Gives (fun t => t.gather g = left.gather g ++ right.gather g) (binary op left right) := by
  cases op with
  | eq | ne | lt | le | gt | ge | and | or | concat => exact gives_ok (by simp)
  | plus | minus | times | divide => exact gives_ok (by simp [Term.operation, Gathering.node])
  | remainder => exact gives_ok (by simp)
  | other shown => exact gives_refused _

theorem withEscape_gather (t : Term) (escape : Option Sql.Literal) :
    Gives (fun t' => t'.gather g = t.gather g) (withEscape t escape) := by
  cases escape with
  | none => exact gives_ok rfl
  | some l => exact (gives_any _).map fun c _ => t.gather_withEscape g c

theorem tableTerm_gather (f : Sql.TableFactor) :
    Gives (fun t => t.gather g = []) (tableTerm f) := by
  cases f with
  | table path alias_ clauses => exact gives_ok (by simp)
  | _ => exact gives_refused _

theorem rowLimit_gather (s : Selection) (limit : Option Sql.LimitClause) :
    Gives (fun s' => s'.gather g = s.gather g) (rowLimit s limit) := by
  cases limit with
  | none => exact gives_ok rfl
  | some l =>
    cases l with
    | limitOffset limit offset by_ =>
      exact (gives_any _).bind fun _ _ => (gives_any _).map fun _ _ => rfl
    | offsetComma offset limit =>
      exact (gives_any _).bind fun _ _ => (gives_any _).map fun _ _ => rfl

end Canonical
end PolyglotSql
