import PolyglotSql.Canonical.Query
import PolyglotSql.Proofs.Schema.Fingerprint

/-!
# PolyglotSql.Proofs.Canonical.Schemas

What the conversion takes from a catalog: the columns under each table's upper-case name, and
nothing else (`tree_columns`). Scopes are compared by what references are looked up in (`Alike`);
each part of a query has one term, or one refusal, in scopes that are alike.
-/

namespace PolyglotSql

namespace VisibleTable

/-- What references to the columns of a table are looked up in. -/
def lookup (v : VisibleTable) : String × Option (List Attribute) :=
  (v.key, v.entity.map (·.attributes))

end VisibleTable

namespace Scope

/-- Scopes in which the same columns are found under the same names. -/
structure Alike (s s' : Scope) : Prop where
  catalog : s.catalog.columns = s'.catalog.columns
  frames : s.frames.map (·.map VisibleTable.lookup) = s'.frames.map (·.map VisibleTable.lookup)

/-- What is known about a column, among the lookups of one select. -/
def find (table : Option String) (column : String)
    (frame : List (String × Option (List Attribute))) : Option Attribute :=
  frame.findSome? fun (key, attributes) =>
    if table.all (Text.sameIgnoringCase key) then
      attributes.bind fun as => as.find? fun a => Text.sameIgnoringCase a.name column
    else none

theorem resolveIn_eq (table : Option String) (column : String) (frame : List VisibleTable) :
    resolveIn table column frame = find table column (frame.map VisibleTable.lookup) := by
  simp only [resolveIn, find, List.findSome?_map]
  congr 1
  funext v
  simp only [Function.comp_apply, VisibleTable.lookup, Option.bind_map]
  rfl

theorem visible_lookup {c d : Catalog} (h : c.columns = d.columns) (f : Sql.TableFactor) :
    (visible? c f).map VisibleTable.lookup = (visible? d f).map VisibleTable.lookup := by
  cases f with
  | table path alias_ clauses =>
    simp only [visible?, Option.map_some, VisibleTable.lookup, Catalog.attributes_entity?, h]
  | _ => rfl

namespace Alike

variable {s s' : Scope}

theorem resolve (h : s.Alike s') (table : Option String) (column : String) :
    s.resolve table column = s'.resolve table column := by
  have hfind (frames : List (List VisibleTable)) : frames.findSome? (resolveIn table column) =
      (frames.map (·.map VisibleTable.lookup)).findSome? (find table column) := by
    rw [List.findSome?_map]
    exact congrArg (List.findSome? · frames) (funext (resolveIn_eq table column))
  rw [Scope.resolve, Scope.resolve, hfind, hfind, h.frames]

theorem columnTerm (h : s.Alike s') (table : Option String) (column : String) :
    s.columnTerm table column = s'.columnTerm table column := by
  rw [Scope.columnTerm, Scope.columnTerm, h.resolve]

theorem enter (h : s.Alike s') (sources : List Sql.Source) :
    (s.enter sources).Alike (s'.enter sources) where
  catalog := h.catalog
  frames := by
    simp only [Scope.enter, List.map_cons, h.frames, List.map_filterMap, visible_lookup h.catalog]

end Alike
end Scope

namespace Canonical

theorem columnTerm_alike {s s' : Scope} (h : s.Alike s') (path : Sql.Path) :
    columnTerm s path = columnTerm s' path := by
  unfold columnTerm
  split <;> simp only [h.columnTerm]

/-- The selects of two bodies are one, and what they are sorted by stands in scopes that are alike;
or both bodies are refused for one reason. -/
inductive AlikeBodies :
    Except Refusal (Selection × Scope) → Except Refusal (Selection × Scope) → Prop
  | ok (selection : Selection) {inner inner' : Scope} (h : inner.Alike inner') :
    AlikeBodies (.ok (selection, inner)) (.ok (selection, inner'))
  | refused (refusal : Refusal) : AlikeBodies (.error refusal) (.error refusal)

mutual

theorem exprTerm_alike {s s' : Scope} (h : s.Alike s') (e : Sql.Expr) :
    exprTerm s e = exprTerm s' e := by
  cases e with
  | identifier name => simp only [exprTerm, h.columnTerm]
  | compound path => exact columnTerm_alike h path
  | literal l span => rfl
  | nested e =>
    cases e with
    | subquery q => simp only [exprTerm, querySelection_alike h q]
    | _ => exact congrArg (· >>= fun t => pure t.group) (exprTerm_alike h _)
  | subquery q => simp only [exprTerm, querySelection_alike h q]
  | unary op e =>
    cases op with
    | plus => exact exprTerm_alike h e
    | minus => cases e <;> rfl
    | not =>
      cases e with
      | nested e => simp only [exprTerm, exprTerm_alike h e]
      | _ => exact congrArg (· >>= fun t => pure t.not) (exprTerm_alike h _)
    | complement => rfl
  | binary left op right => simp only [exprTerm, exprTerm_alike h left, exprTerm_alike h right]
  | isNull negated e => cases negated <;> simp only [exprTerm, exprTerm_alike h e]
  | like ignoreCase negated any subject pattern escape =>
    cases any with
    | true => rfl
    | false => simp only [exprTerm, exprTerm_alike h subject, exprTerm_alike h pattern]
  | inList negated subject list => simp only [exprTerm, exprTerm_alike h subject]
  | inSubquery negated subject q =>
    simp only [exprTerm, exprTerm_alike h subject, querySelection_alike h q]
  | between negated subject low high =>
    simp only [exprTerm, exprTerm_alike h subject, exprTerm_alike h low, exprTerm_alike h high]
  | exists_ negated q => simp only [exprTerm, querySelection_alike h q]
  | call c => exact callTerm_alike h c
  | extract field comma e => simp only [exprTerm, exprTerm_alike h e]
  | substring form short e start length =>
    simp only [exprTerm, exprTerm_alike h e, optionalTerm_alike h start,
      optionalTerm_alike h length]
  | position needle haystack =>
    simp only [exprTerm, exprTerm_alike h haystack, exprTerm_alike h needle]
  | trim e => simp only [exprTerm, exprTerm_alike h e]
  | access root steps => rfl
  | other shown => rfl

theorem optionalTerm_alike {s s' : Scope} (h : s.Alike s') (e : Option Sql.Expr) :
    optionalTerm s e = optionalTerm s' e := by
  cases e with
  | none => rfl
  | some e => simp only [optionalTerm, exprTerm_alike h e]

theorem exprTerms_alike {s s' : Scope} (h : s.Alike s') (es : List Sql.Expr) :
    exprTerms s es = exprTerms s' es := by
  cases es with
  | nil => rfl
  | cons e es => simp only [exprTerms, exprTerm_alike h e, exprTerms_alike h es]

theorem callTerm_alike {s s' : Scope} (h : s.Alike s') (c : Sql.Call) :
    callTerm s c = callTerm s' c := by
  obtain ⟨name, parameters, arguments, withinGroup, filter, nullTreatment, overClause, braced⟩ := c
  cases arguments with
  | list duplicates args clauses => simp only [callTerm, argumentTerms_alike h args]
  | _ => rfl

theorem argumentTerms_alike {s s' : Scope} (h : s.Alike s') (as : List Sql.Argument) :
    argumentTerms s as = argumentTerms s' as := by
  cases as with
  | nil => rfl
  | cons a as => simp only [argumentTerms, argumentTerm_alike h a, argumentTerms_alike h as]

theorem argumentTerm_alike {s s' : Scope} (h : s.Alike s') (a : Sql.Argument) :
    argumentTerm s a = argumentTerm s' a := by
  cases a with
  | expr e => exact exprTerm_alike h e
  | _ => rfl

theorem querySelection_alike {s s' : Scope} (h : s.Alike s') (q : Sql.Query) :
    querySelection s q = querySelection s' q := by
  obtain ⟨withClause, body, orderBy, interpolate, limit, settings, fetch, locks, answer, format,
    steps⟩ := q
  cases withClause with
  | some shown => rfl
  | none =>
    have hbody := bodySelection_alike h body
    simp only [querySelection]
    generalize bodySelection s body = b, bodySelection s' body = b' at hbody
    cases hbody with
    | ok selection hinner =>
      show orderTerms _ orderBy >>= _ = orderTerms _ orderBy >>= _
      rw [orderTerms_alike hinner orderBy]
    | refused refusal => rfl

theorem bodySelection_alike {s s' : Scope} (h : s.Alike s') (body : Sql.QueryBody) :
    AlikeBodies (bodySelection s body) (bodySelection s' body) := by
  cases body with
  | select select =>
    have hinner := h.enter select.sources
    simp only [bodySelection, selectSelection_alike hinner select]
    cases selectSelection (s'.enter select.sources) select with
    | ok selection => exact .ok selection hinner
    | error refusal => exact .refused refusal
  | nested q =>
    simp only [bodySelection, querySelection_alike h q]
    cases querySelection s' q with
    | ok selection => exact .ok selection h
    | error refusal => exact .refused refusal
  | combined left op quantifier right => exact .refused _
  | other shown => exact .refused _

theorem orderTerms_alike {s s' : Scope} (h : s.Alike s') (orders : List Sql.OrderTerm) :
    orderTerms s orders = orderTerms s' orders := by
  cases orders with
  | nil => rfl
  | cons o os =>
    obtain ⟨e, ascending, nullsFirst, fill⟩ := o
    simp only [orderTerms, exprTerm_alike h e, orderTerms_alike h os]

theorem selectSelection_alike {s s' : Scope} (h : s.Alike s') (select : Sql.Select) :
    selectSelection s select = selectSelection s' select := by
  obtain ⟨token, flavor, distinct, top, items, into, sources, lateralViews, prewhere, condition,
    groupBy, clusterBy, distributeBy, sortBy, having, windows, qualify, windowsFirst,
    connectBy⟩ := select
  simp only [selectSelection, itemTerms_alike h items, sourceTerms_alike h sources,
    optionalTerm_alike h condition, groupTerms_alike h groupBy, optionalTerm_alike h having]

theorem itemTerms_alike {s s' : Scope} (h : s.Alike s') (items : List Sql.SelectItem) :
    itemTerms s items = itemTerms s' items := by
  cases items with
  | nil => rfl
  | cons item items => simp only [itemTerms, itemTerm_alike h item, itemTerms_alike h items]

theorem itemTerm_alike {s s' : Scope} (h : s.Alike s') (item : Sql.SelectItem) :
    itemTerm s item = itemTerm s' item := by
  cases item with
  | expr e => exact exprTerm_alike h e
  | aliased e alias_ => simp only [itemTerm, exprTerm_alike h e]
  | _ => rfl

theorem sourceTerms_alike {s s' : Scope} (h : s.Alike s') (sources : List Sql.Source) :
    sourceTerms s sources = sourceTerms s' sources := by
  cases sources with
  | nil => rfl
  | cons source sources =>
    simp only [sourceTerms, sourceTerm_alike h source, sourceTerms_alike h sources]

theorem sourceTerm_alike {s s' : Scope} (h : s.Alike s') (source : Sql.Source) :
    sourceTerm s source = sourceTerm s' source := by
  obtain ⟨table, joins⟩ := source
  simp only [sourceTerm, joinTerms_alike h joins]

theorem joinTerms_alike {s s' : Scope} (h : s.Alike s') (joins : List Sql.Join) :
    joinTerms s joins = joinTerms s' joins := by
  cases joins with
  | nil => rfl
  | cons join joins => simp only [joinTerms, joinTerm_alike h join, joinTerms_alike h joins]

theorem joinTerm_alike {s s' : Scope} (h : s.Alike s') (join : Sql.Join) :
    joinTerm s join = joinTerm s' join := by
  obtain ⟨global, operator, table, matching, constraint⟩ := join
  simp only [joinTerm, constraintTerm_alike h constraint]

theorem constraintTerm_alike {s s' : Scope} (h : s.Alike s') (constraint : Sql.JoinConstraint) :
    constraintTerm s constraint = constraintTerm s' constraint := by
  cases constraint with
  | on e => simp only [constraintTerm, exprTerm_alike h e]
  | _ => rfl

theorem groupTerms_alike {s s' : Scope} (h : s.Alike s') (groupBy : Sql.GroupBy) :
    groupTerms s groupBy = groupTerms s' groupBy := by
  cases groupBy with
  | exprs keys modifiers => simp only [groupTerms, exprTerms_alike h keys]
  | all modifiers => rfl

end

theorem tree_columns {c d : Catalog} (h : c.columns = d.columns) (statement : Sql.Statement) :
    tree c statement = tree d statement := by
  cases statement with
  | query q =>
    have hscopes : Scope.Alike { catalog := c, frames := [] } { catalog := d, frames := [] } :=
      ⟨h, rfl⟩
    simp only [tree, querySelection_alike hscopes q]
  | _ => rfl

end Canonical
end PolyglotSql
