import PolyglotSql.Canonical.Query

/-!
# PolyglotSql.Proofs.Canonical.Erasure

What canonical queries have no place for. `bare` takes it out of a parsed query, at any depth. The
conversion does not look at it: a query and its bare form are accepted alike and have one tree, and
where one is refused as unsupported, so is the other (`tree_bare`).
-/

namespace PolyglotSql
namespace Sql

/-! ## Bare queries -/

/-- A table alias without names for the columns. -/
def TableAlias.bare (a : TableAlias) : TableAlias :=
  { a with columns := [] }

/-- An asterisk that leaves nothing out and changes nothing. -/
def WildcardOptions.bare (o : WildcardOptions) : WildcardOptions :=
  { o with pattern := none, exclude := none, except := none, replace := none, rename := none }

/-- A table of which only the name is written. -/
def TableClauses.bare : TableClauses :=
  { partitions := [], arguments := none, ordinality := false, hints := [], sample := none }

mutual

/-- An expression with bare calls and queries inside of it. -/
def Expr.bare : Expr → Expr
  | .nested e => .nested e.bare
  | .subquery q => .subquery q.bare
  | .unary op e => .unary op e.bare
  | .binary left op right => .binary left.bare op right.bare
  | .isNull negated e => .isNull negated e.bare
  | .like ignoreCase negated any subject pattern escape =>
    .like ignoreCase negated any subject.bare pattern.bare escape
  | .inList negated subject list => .inList negated subject.bare (bareExprs list)
  | .inSubquery negated subject q => .inSubquery negated subject.bare q.bare
  | .between negated subject low high => .between negated subject.bare low.bare high.bare
  | .exists_ negated q => .exists_ negated q.bare
  | .call c => .call c.bare
  | .extract field comma e => .extract field comma e.bare
  | .substring form short e start length =>
    .substring form short e.bare (bareOption start) (bareOption length)
  | .position needle haystack => .position needle.bare haystack.bare
  | .trim e => .trim e.bare
  | .access root steps => .access root.bare steps
  | e => e

def bareExprs : List Expr → List Expr
  | [] => []
  | e :: es => e.bare :: bareExprs es

def bareOption : Option Expr → Option Expr
  | none => none
  | some e => some e.bare

/-- A call with no parameters, no word on `NULL` and no clauses behind its arguments. -/
def Call.bare : Call → Call
  | ⟨name, _, arguments, withinGroup, filter, _, overClause, braced⟩ =>
    ⟨name, .none, arguments.bare, bareOrders withinGroup, bareOption filter, none, overClause,
      braced⟩

def Arguments.bare : Arguments → Arguments
  | .none => .none
  | .subquery q => .subquery q.bare
  | .list duplicates args _ => .list duplicates (bareArguments args) []

def bareArguments : List Argument → List Argument
  | [] => []
  | a :: as => a.bare :: bareArguments as

def Argument.bare : Argument → Argument
  | .expr e => .expr e.bare
  | .wildcard => .wildcard
  | .other shown => .other shown

def bareOrders : List OrderTerm → List OrderTerm
  | [] => []
  | o :: os => o.bare :: bareOrders os

/-- A sorting term that does not say where `NULL` goes, nor what gaps are filled with. -/
def OrderTerm.bare : OrderTerm → OrderTerm
  | ⟨e, ascending, _, _⟩ => ⟨e.bare, ascending, none, none⟩

/-- A query of which nothing is left but what it takes its rows from, how they are sorted, and how
many of all rows it gives. -/
def Query.bare : Query → Query
  | ⟨withClause, body, orderBy, _, limit, _, _, _, _, _, _⟩ =>
    ⟨withClause, body.bare, bareOrders orderBy, none, bareLimit limit, none, none, [], none, none,
      []⟩

def QueryBody.bare : QueryBody → QueryBody
  | .select s => .select s.bare
  | .nested q => .nested q.bare
  | .combined left op quantifier right => .combined left.bare op quantifier right.bare
  | .other shown => .other shown

def bareLimit : Option LimitClause → Option LimitClause
  | none => none
  | some l => some l.bare

/-- Bounds for all rows, not for those of each group. -/
def LimitClause.bare : LimitClause → LimitClause
  | .limitOffset limit offset _ => .limitOffset (bareOption limit) (bareOffset offset) []
  | .offsetComma offset limit => .offsetComma offset.bare limit.bare

def bareOffset : Option Offset → Option Offset
  | none => none
  | some ⟨value, word⟩ => some ⟨value.bare, word⟩

/-- A select of results, tables, conditions and groups. -/
def Select.bare : Select → Select
  | ⟨token, flavor, distinct, _, items, _, sources, _, _, condition, groupBy, _, _, _, having, _, _,
      windowsFirst, _⟩ =>
    ⟨token, flavor, distinct.bare, none, bareItems items, none, bareSources sources, [], none,
      bareOption condition, groupBy.bare, [], [], [], bareOption having, [], none, windowsFirst,
      none⟩

def Distinct.bare : Distinct → Distinct
  | .none => .none
  | .rows => .rows
  | .on keys => .on (bareExprs keys)

def bareItems : List SelectItem → List SelectItem
  | [] => []
  | item :: items => item.bare :: bareItems items

/-- A result. What is written behind a qualified asterisk stays: a tree has it as raw text. -/
def SelectItem.bare : SelectItem → SelectItem
  | .expr e => .expr e.bare
  | .aliased e alias_ => .aliased e.bare alias_
  | .wildcard options => .wildcard options.bare
  | .qualifiedWildcard table options => .qualifiedWildcard table options

def bareSources : List Source → List Source
  | [] => []
  | source :: sources => source.bare :: bareSources sources

def Source.bare : Source → Source
  | ⟨table, joins⟩ => ⟨table.bare, bareJoins joins⟩

def bareJoins : List Join → List Join
  | [] => []
  | join :: joins => join.bare :: bareJoins joins

def Join.bare : Join → Join
  | ⟨_, operator, table, _, constraint⟩ => ⟨false, operator, table.bare, none, constraint.bare⟩

def JoinConstraint.bare : JoinConstraint → JoinConstraint
  | .on e => .on e.bare
  | .using columns => .using columns
  | .natural => .natural
  | .none => .none

def TableFactor.bare : TableFactor → TableFactor
  | .table name alias_ _ => .table name (alias_.map TableAlias.bare) TableClauses.bare
  | .derived lateral q alias_ => .derived lateral q.bare alias_
  | .nested source alias_ => .nested source.bare alias_
  | .other written alias_ afterAlias kind fields => .other written alias_ afterAlias kind fields

def GroupBy.bare : GroupBy → GroupBy
  | .exprs keys modifiers => .exprs (bareExprs keys) modifiers
  | .all modifiers => .all modifiers

end

/-! Taking out once is enough. -/

mutual

theorem Expr.bare_bare (e : Expr) : e.bare.bare = e.bare := by
  cases e with
  | nested e => simp only [Expr.bare, Expr.bare_bare e]
  | subquery q => simp only [Expr.bare, Query.bare_bare q]
  | unary op e => simp only [Expr.bare, Expr.bare_bare e]
  | binary left op right => simp only [Expr.bare, Expr.bare_bare left, Expr.bare_bare right]
  | isNull negated e => simp only [Expr.bare, Expr.bare_bare e]
  | like ignoreCase negated any subject pattern escape =>
    simp only [Expr.bare, Expr.bare_bare subject, Expr.bare_bare pattern]
  | inList negated subject list =>
    simp only [Expr.bare, Expr.bare_bare subject, bareExprs_bare list]
  | inSubquery negated subject q =>
    simp only [Expr.bare, Expr.bare_bare subject, Query.bare_bare q]
  | between negated subject low high =>
    simp only [Expr.bare, Expr.bare_bare subject, Expr.bare_bare low, Expr.bare_bare high]
  | exists_ negated q => simp only [Expr.bare, Query.bare_bare q]
  | call c => simp only [Expr.bare, Call.bare_bare c]
  | extract field comma e => simp only [Expr.bare, Expr.bare_bare e]
  | substring form short e start length =>
    simp only [Expr.bare, Expr.bare_bare e, bareOption_bare start, bareOption_bare length]
  | position needle haystack =>
    simp only [Expr.bare, Expr.bare_bare needle, Expr.bare_bare haystack]
  | trim e => simp only [Expr.bare, Expr.bare_bare e]
  | access root steps => simp only [Expr.bare, Expr.bare_bare root]
  | _ => rfl

theorem bareExprs_bare (es : List Expr) : bareExprs (bareExprs es) = bareExprs es := by
  cases es with
  | nil => rfl
  | cons e es => simp only [bareExprs, Expr.bare_bare e, bareExprs_bare es]

theorem bareOption_bare (e : Option Expr) : bareOption (bareOption e) = bareOption e := by
  cases e with
  | none => rfl
  | some e => simp only [bareOption, Expr.bare_bare e]

theorem Call.bare_bare (c : Call) : c.bare.bare = c.bare := by
  obtain ⟨_, _, arguments, withinGroup, filter, _, _, _⟩ := c
  simp only [Call.bare, Arguments.bare_bare arguments, bareOrders_bare withinGroup,
    bareOption_bare filter]

theorem Arguments.bare_bare (arguments : Arguments) : arguments.bare.bare = arguments.bare := by
  cases arguments with
  | none => rfl
  | subquery q => simp only [Arguments.bare, Query.bare_bare q]
  | list duplicates args clauses => simp only [Arguments.bare, bareArguments_bare args]

theorem bareArguments_bare (args : List Argument) :
    bareArguments (bareArguments args) = bareArguments args := by
  cases args with
  | nil => rfl
  | cons a as => simp only [bareArguments, Argument.bare_bare a, bareArguments_bare as]

theorem Argument.bare_bare (a : Argument) : a.bare.bare = a.bare := by
  cases a with
  | expr e => simp only [Argument.bare, Expr.bare_bare e]
  | _ => rfl

theorem bareOrders_bare (orders : List OrderTerm) :
    bareOrders (bareOrders orders) = bareOrders orders := by
  cases orders with
  | nil => rfl
  | cons o os => simp only [bareOrders, OrderTerm.bare_bare o, bareOrders_bare os]

theorem OrderTerm.bare_bare (o : OrderTerm) : o.bare.bare = o.bare := by
  obtain ⟨e, _, _, _⟩ := o
  simp only [OrderTerm.bare, Expr.bare_bare e]

theorem Query.bare_bare (q : Query) : q.bare.bare = q.bare := by
  obtain ⟨_, body, orderBy, _, limit, _, _, _, _, _, _⟩ := q
  simp only [Query.bare, QueryBody.bare_bare body, bareOrders_bare orderBy, bareLimit_bare limit]

theorem QueryBody.bare_bare (body : QueryBody) : body.bare.bare = body.bare := by
  cases body with
  | select s => simp only [QueryBody.bare, Select.bare_bare s]
  | nested q => simp only [QueryBody.bare, Query.bare_bare q]
  | combined left op quantifier right =>
    simp only [QueryBody.bare, QueryBody.bare_bare left, QueryBody.bare_bare right]
  | other shown => rfl

theorem bareLimit_bare (limit : Option LimitClause) :
    bareLimit (bareLimit limit) = bareLimit limit := by
  cases limit with
  | none => rfl
  | some l => simp only [bareLimit, LimitClause.bare_bare l]

theorem LimitClause.bare_bare (l : LimitClause) : l.bare.bare = l.bare := by
  cases l with
  | limitOffset limit offset by_ =>
    simp only [LimitClause.bare, bareOption_bare limit, bareOffset_bare offset]
  | offsetComma offset limit =>
    simp only [LimitClause.bare, Expr.bare_bare offset, Expr.bare_bare limit]

theorem bareOffset_bare (offset : Option Offset) :
    bareOffset (bareOffset offset) = bareOffset offset := by
  cases offset with
  | none => rfl
  | some o =>
    obtain ⟨value, word⟩ := o
    simp only [bareOffset, Expr.bare_bare value]

theorem Select.bare_bare (s : Select) : s.bare.bare = s.bare := by
  obtain ⟨_, _, distinct, _, items, _, sources, _, _, condition, groupBy, _, _, _, having, _, _, _,
    _⟩ := s
  simp only [Select.bare, Distinct.bare_bare distinct, bareItems_bare items,
    bareSources_bare sources, bareOption_bare condition, GroupBy.bare_bare groupBy,
    bareOption_bare having]

theorem Distinct.bare_bare (d : Distinct) : d.bare.bare = d.bare := by
  cases d with
  | on keys => simp only [Distinct.bare, bareExprs_bare keys]
  | _ => rfl

theorem bareItems_bare (items : List SelectItem) :
    bareItems (bareItems items) = bareItems items := by
  cases items with
  | nil => rfl
  | cons item items => simp only [bareItems, SelectItem.bare_bare item, bareItems_bare items]

theorem SelectItem.bare_bare (item : SelectItem) : item.bare.bare = item.bare := by
  cases item with
  | expr e => simp only [SelectItem.bare, Expr.bare_bare e]
  | aliased e alias_ => simp only [SelectItem.bare, Expr.bare_bare e]
  | _ => rfl

theorem bareSources_bare (sources : List Source) :
    bareSources (bareSources sources) = bareSources sources := by
  cases sources with
  | nil => rfl
  | cons source sources =>
    simp only [bareSources, Source.bare_bare source, bareSources_bare sources]

theorem Source.bare_bare (source : Source) : source.bare.bare = source.bare := by
  obtain ⟨table, joins⟩ := source
  simp only [Source.bare, TableFactor.bare_bare table, bareJoins_bare joins]

theorem bareJoins_bare (joins : List Join) : bareJoins (bareJoins joins) = bareJoins joins := by
  cases joins with
  | nil => rfl
  | cons join joins => simp only [bareJoins, Join.bare_bare join, bareJoins_bare joins]

theorem Join.bare_bare (join : Join) : join.bare.bare = join.bare := by
  obtain ⟨_, _, table, _, constraint⟩ := join
  simp only [Join.bare, TableFactor.bare_bare table, JoinConstraint.bare_bare constraint]

theorem JoinConstraint.bare_bare (c : JoinConstraint) : c.bare.bare = c.bare := by
  cases c with
  | on e => simp only [JoinConstraint.bare, Expr.bare_bare e]
  | _ => rfl

theorem TableFactor.bare_bare (f : TableFactor) : f.bare.bare = f.bare := by
  cases f with
  | table name alias_ clauses => cases alias_ <;> rfl
  | derived lateral q alias_ => simp only [TableFactor.bare, Query.bare_bare q]
  | nested source alias_ => simp only [TableFactor.bare, Source.bare_bare source]
  | other => rfl

theorem GroupBy.bare_bare (g : GroupBy) : g.bare.bare = g.bare := by
  cases g with
  | exprs keys modifiers => simp only [GroupBy.bare, bareExprs_bare keys]
  | all modifiers => rfl

end

/-- Nothing that a canonical query has no place for is in a query, at any depth. -/
def Query.IsBare (q : Query) : Prop :=
  q.bare = q

end Sql

namespace Canonical

open Sql (bareExprs bareOption bareArguments bareOrders bareLimit bareOffset bareItems bareSources
  bareJoins)

/-! ## Conversions that agree -/

/-- Two conversions have one result, or both refuse what is converted as unsupported SQL. -/
inductive Agree {α : Type} : Except Refusal α → Except Refusal α → Prop
  | ok (a : α) : Agree (.ok a) (.ok a)
  | refused (what what' : String) : Agree (.error (.sql what)) (.error (.sql what'))

namespace Agree

variable {α β : Type}

theorem bind {x y : Except Refusal α} {f g : α → Except Refusal β} (hxy : Agree x y)
    (hfg : ∀ a, Agree (f a) (g a)) : Agree (x >>= f) (y >>= g) := by
  cases hxy with
  | ok a => exact hfg a
  | refused what what' => exact .refused what what'

theorem map {x y : Except Refusal α} (h : Agree x y) (f : α → β) :
    Agree (x >>= fun a => pure (f a)) (y >>= fun a => pure (f a)) :=
  h.bind fun a => .ok (f a)

end Agree

/-! ## What the conversion looks at -/

/-! ## Parts that nothing is taken out of

A conversion agrees with itself exactly if all it refuses is unsupported SQL. -/

theorem agree_value (l : Sql.Literal) : Agree l.value l.value := by
  unfold Sql.Literal.value
  split
  · exact .ok _
  · exact .ok _
  · split
    · exact .ok _
    · exact .refused _ _
  · exact .ok _
  · exact .ok _
  · exact .refused _ _

theorem agree_negated (v : Value) : Agree (Sql.negated v) (Sql.negated v) := by
  cases v with
  | integer | float => exact .ok _
  | _ => exact .refused _ _

theorem agree_scalar (v : Value) : Agree (Sql.scalar v) (Sql.scalar v) := by
  unfold Sql.scalar
  split
  · exact .ok _
  · exact .refused _ _

theorem agree_rowCount (e : Sql.Expr) : Agree e.rowCount e.rowCount := by
  unfold Sql.Expr.rowCount
  dsimp only
  split
  · split
    · split
      · exact .ok _
      · exact .refused _ _
    · exact .refused _ _
  · exact .refused _ _

theorem agree_escapeChar (l : Sql.Literal) : Agree l.escapeChar l.escapeChar := by
  unfold Sql.Literal.escapeChar
  split
  · split
    · exact .ok _
    · exact .refused _ _
  · exact .refused _ _

theorem agree_withEscape (like : Term) (escape : Option Sql.Literal) :
    Agree (withEscape like escape) (withEscape like escape) := by
  cases escape with
  | none => exact .ok _
  | some l => exact (agree_escapeChar l).map _

theorem agree_binary (op : Sql.BinaryOperator) (left right : Term) :
    Agree (binary op left right) (binary op left right) := by
  cases op with
  | other shown => exact .refused _ _
  | _ => exact .ok _

theorem agree_extractor (part : String) : Agree (extractor part) (extractor part) := by
  unfold extractor
  split
  case h_5 =>
    split
    · exact .ok _
    · exact .refused _ _
  all_goals exact .ok _

theorem agree_columnTerm (scope : Scope) (path : Sql.Path) :
    Agree (columnTerm scope path) (columnTerm scope path) := by
  unfold columnTerm
  split
  · exact .ok _
  · exact .ok _
  · exact .refused _ _

theorem agree_checkArity (name : String) (count : Nat) :
    Agree (FunctionCatalogue.checkArity name count) (FunctionCatalogue.checkArity name count) := by
  unfold FunctionCatalogue.checkArity
  split
  · split
    · exact .ok _
    · exact .refused _ _
  · exact .ok _

/-! ## Parts whose form alone counts -/

theorem rowCount_bare (e : Sql.Expr) : Agree e.bare.rowCount e.rowCount := by
  cases e with
  | literal l span => exact agree_rowCount _
  | _ => exact .refused _ _

theorem listValue_bare (e : Sql.Expr) : Agree e.bare.listValue e.listValue := by
  cases e with
  | literal l span => exact (agree_value l).bind agree_scalar
  | unary op operand =>
    cases op with
    | minus =>
      cases operand with
      | literal l span => exact (agree_value l).bind fun v => (agree_negated v).bind agree_scalar
      | _ => exact .refused _ _
    | _ => exact .refused _ _
  | _ => exact .refused _ _

theorem listValues_bare (list : List Sql.Expr) :
    Agree ((bareExprs list).mapM Sql.Expr.listValue) (list.mapM Sql.Expr.listValue) := by
  induction list with
  | nil => exact .ok []
  | cons e es ih =>
    simp only [bareExprs, List.mapM_cons]
    exact (listValue_bare e).bind fun v => ih.map _

theorem checkArity_bare (name : String) (args : List Sql.Argument) :
    Agree (FunctionCatalogue.checkArity name (bareArguments args).length)
      (FunctionCatalogue.checkArity name args.length) := by
  have hlength : (bareArguments args).length = args.length := by
    induction args with
    | nil => rfl
    | cons a as ih => rw [bareArguments, List.length_cons, ih, List.length_cons]
  rw [hlength]
  exact agree_checkArity name args.length

theorem joinKind_bare (join : Sql.Join) : Agree (joinKind join.bare) (joinKind join) := by
  obtain ⟨_, operator, table, matching, constraint⟩ := join
  cases operator with
  | join | inner | left | leftOuter | right | rightOuter | full => exact .ok _
  | _ => exact .refused _ _

theorem tableTerm_bare (f : Sql.TableFactor) : Agree (tableTerm f.bare) (tableTerm f) := by
  cases f with
  | table name alias_ clauses =>
    cases alias_ with
    | none => exact .ok _
    | some a => exact .ok _
  | _ => exact .refused _ _

theorem visible_bare (catalog : Catalog) (f : Sql.TableFactor) :
    Scope.visible? catalog f.bare = Scope.visible? catalog f := by
  cases f with
  | table name alias_ clauses =>
    cases alias_ with
    | none => rfl
    | some a => rfl
  | _ => rfl

theorem joined_bare (joins : List Sql.Join) :
    (bareJoins joins).map (·.table) = joins.map (·.table.bare) := by
  induction joins with
  | nil => rfl
  | cons join joins ih =>
    obtain ⟨_, operator, table, matching, constraint⟩ := join
    simp only [bareJoins, List.map_cons, ih, Sql.Join.bare]

theorem enter_bare (scope : Scope) (sources : List Sql.Source) :
    scope.enter (bareSources sources) = scope.enter sources := by
  have hfactors : ((bareSources sources).flatMap fun source =>
      source.table :: source.joins.map (·.table)).filterMap (Scope.visible? scope.catalog) =
      (sources.flatMap fun source =>
        source.table :: source.joins.map (·.table)).filterMap (Scope.visible? scope.catalog) := by
    induction sources with
    | nil => rfl
    | cons source sources ih =>
      obtain ⟨table, joins⟩ := source
      have hjoins : (joins.map (·.table.bare)).filterMap (Scope.visible? scope.catalog) =
          (joins.map (·.table)).filterMap (Scope.visible? scope.catalog) := by
        rw [List.filterMap_map, List.filterMap_map]
        exact congrArg (List.filterMap · joins) (funext fun join => visible_bare _ join.table)
      simp only [bareSources, Sql.Source.bare, List.flatMap_cons, List.filterMap_append,
        List.filterMap_cons, visible_bare, joined_bare, hjoins, ih]
  simp only [Scope.enter, hfactors]

theorem offset_bare (offset : Option Sql.Offset) :
    Agree ((bareOffset offset).mapM fun o => o.value.rowCount)
      (offset.mapM fun o => o.value.rowCount) := by
  cases offset with
  | none => exact .ok none
  | some o =>
    obtain ⟨value, word⟩ := o
    exact (rowCount_bare value).map _

theorem rowLimit_bare (s : Selection) (limit : Option Sql.LimitClause) :
    Agree (rowLimit s (bareLimit limit)) (rowLimit s limit) := by
  cases limit with
  | none => exact .ok _
  | some l =>
    cases l with
    | limitOffset limit offset by_ =>
      have hlimit : Agree ((bareOption limit).mapM Sql.Expr.rowCount)
          (limit.mapM Sql.Expr.rowCount) := by
        cases limit with
        | none => exact .ok none
        | some e => exact (rowCount_bare e).map _
      exact hlimit.bind fun n => (offset_bare offset).map _
    | offsetComma offset limit =>
      exact (rowCount_bare limit).bind fun n => (rowCount_bare offset).map _

/-! ## Queries -/

mutual

theorem exprTerm_bare (scope : Scope) (e : Sql.Expr) :
    Agree (exprTerm scope e.bare) (exprTerm scope e) := by
  cases e with
  | identifier name => exact .ok _
  | compound path => exact agree_columnTerm scope path
  | literal l span => exact (agree_value l).map _
  | nested e =>
    cases e with
    | subquery q => exact (querySelection_bare scope q).map _
    | _ => exact (exprTerm_bare scope _).map _
  | subquery q => exact (querySelection_bare scope q).map _
  | unary op e =>
    cases op with
    | plus => exact exprTerm_bare scope e
    | minus =>
      cases e with
      | literal l span => exact (agree_value l).bind fun v => (agree_negated v).map _
      | _ => exact .refused _ _
    | not =>
      cases e with
      | nested e => exact (exprTerm_bare scope e).map _
      | _ => exact (exprTerm_bare scope _).map _
    | complement => exact .refused _ _
  | binary left op right =>
    exact (exprTerm_bare scope left).bind fun l =>
      (exprTerm_bare scope right).bind fun r => agree_binary op l r
  | isNull negated e => cases negated <;> exact (exprTerm_bare scope e).map _
  | like ignoreCase negated any subject pattern escape =>
    cases any with
    | true => exact .refused _ _
    | false =>
      exact (exprTerm_bare scope subject).bind fun s =>
        (exprTerm_bare scope pattern).bind fun p => agree_withEscape _ escape
  | inList negated subject list =>
    exact (listValues_bare list).bind fun values => (exprTerm_bare scope subject).map _
  | inSubquery negated subject q =>
    exact (exprTerm_bare scope subject).bind fun s => (querySelection_bare scope q).map _
  | between negated subject low high =>
    exact (exprTerm_bare scope subject).bind fun s => (exprTerm_bare scope low).bind fun l =>
      (exprTerm_bare scope high).map _
  | exists_ negated q => exact (querySelection_bare scope q).map _
  | call c => exact callTerm_bare scope c
  | extract field comma e =>
    exact (agree_extractor field.text).bind fun function => (exprTerm_bare scope e).map _
  | substring form short e start length =>
    exact (exprTerm_bare scope e).bind fun operand =>
      (optionalTerm_bare scope start).bind fun start => (optionalTerm_bare scope length).map _
  | position needle haystack =>
    exact (exprTerm_bare scope haystack).bind fun h => (exprTerm_bare scope needle).map _
  | trim e => exact (exprTerm_bare scope e).map _
  | access root steps => exact .refused _ _
  | other shown => exact .refused _ _

theorem optionalTerm_bare (scope : Scope) (e : Option Sql.Expr) :
    Agree (optionalTerm scope (bareOption e)) (optionalTerm scope e) := by
  cases e with
  | none => exact .ok none
  | some e => exact (exprTerm_bare scope e).map _

theorem exprTerms_bare (scope : Scope) (es : List Sql.Expr) :
    Agree (exprTerms scope (bareExprs es)) (exprTerms scope es) := by
  cases es with
  | nil => exact .ok []
  | cons e es => exact (exprTerm_bare scope e).bind fun t => (exprTerms_bare scope es).map _

theorem callTerm_bare (scope : Scope) (c : Sql.Call) :
    Agree (callTerm scope c.bare) (callTerm scope c) := by
  obtain ⟨name, parameters, arguments, withinGroup, filter, nullTreatment, overClause, braced⟩ := c
  cases overClause with
  | some shown => exact .refused _ _
  | none =>
    cases filter with
    | some condition => exact .refused _ _
    | none =>
      cases withinGroup with
      | cons o os => exact .refused _ _
      | nil =>
        cases arguments with
        | none => exact (agree_checkArity _ 0).map _
        | subquery q => exact .refused _ _
        | list duplicates args clauses =>
          exact (argumentTerms_bare scope args).bind fun terms => (checkArity_bare _ args).map _

theorem argumentTerms_bare (scope : Scope) (as : List Sql.Argument) :
    Agree (argumentTerms scope (bareArguments as)) (argumentTerms scope as) := by
  cases as with
  | nil => exact .ok []
  | cons a as => exact (argumentTerm_bare scope a).bind fun t => (argumentTerms_bare scope as).map _

theorem argumentTerm_bare (scope : Scope) (a : Sql.Argument) :
    Agree (argumentTerm scope a.bare) (argumentTerm scope a) := by
  cases a with
  | expr e => exact exprTerm_bare scope e
  | wildcard => exact .ok _
  | other shown => exact .refused _ _

theorem querySelection_bare (scope : Scope) (q : Sql.Query) :
    Agree (querySelection scope q.bare) (querySelection scope q) := by
  obtain ⟨withClause, body, orderBy, interpolate, limit, settings, fetch, locks, answer, format,
    steps⟩ := q
  cases withClause with
  | some shown => exact .refused _ _
  | none =>
    exact (bodySelection_bare scope body).bind fun ⟨s, inner⟩ =>
      (orderTerms_bare inner orderBy).bind fun orders => rowLimit_bare _ limit

theorem bodySelection_bare (scope : Scope) (body : Sql.QueryBody) :
    Agree (bodySelection scope body.bare) (bodySelection scope body) := by
  cases body with
  | select s =>
    have hinner : scope.enter s.bare.sources = scope.enter s.sources := by
      cases s
      exact enter_bare scope _
    simp only [Sql.QueryBody.bare, bodySelection, hinner]
    exact (selectSelection_bare _ s).map _
  | nested q => exact (querySelection_bare scope q).map _
  | combined left op quantifier right => exact .refused _ _
  | other shown => exact .refused _ _

theorem orderTerms_bare (scope : Scope) (orders : List Sql.OrderTerm) :
    Agree (orderTerms scope (bareOrders orders)) (orderTerms scope orders) := by
  cases orders with
  | nil => exact .ok []
  | cons o os =>
    obtain ⟨e, ascending, nullsFirst, fill⟩ := o
    exact (exprTerm_bare scope e).bind fun t => (orderTerms_bare scope os).map _

theorem selectSelection_bare (scope : Scope) (s : Sql.Select) :
    Agree (selectSelection scope s.bare) (selectSelection scope s) := by
  obtain ⟨token, flavor, distinct, top, items, into, sources, lateralViews, prewhere, condition,
    groupBy, clusterBy, distributeBy, sortBy, having, windows, qualify, windowsFirst,
    connectBy⟩ := s
  have hrest (distinct : Bool) : Agree _ _ :=
    (itemTerms_bare scope items).bind fun results =>
    (sourceTerms_bare scope sources).bind fun sources =>
    (optionalTerm_bare scope condition).bind fun condition =>
    (groupTerms_bare scope groupBy).bind fun groups =>
    (optionalTerm_bare scope having).map fun having =>
      { Selection.empty with distinct, results, sources, condition, groups, having }
  cases distinct with
  | none => exact hrest false
  | rows => exact hrest true
  | on keys => exact .refused _ _

theorem itemTerms_bare (scope : Scope) (items : List Sql.SelectItem) :
    Agree (itemTerms scope (bareItems items)) (itemTerms scope items) := by
  cases items with
  | nil => exact .ok []
  | cons item items =>
    exact (itemTerm_bare scope item).bind fun t => (itemTerms_bare scope items).map _

theorem itemTerm_bare (scope : Scope) (item : Sql.SelectItem) :
    Agree (itemTerm scope item.bare) (itemTerm scope item) := by
  cases item with
  | expr e => exact exprTerm_bare scope e
  | aliased e alias_ => exact (exprTerm_bare scope e).map _
  | wildcard options => exact .ok _
  | qualifiedWildcard table options => exact .ok _

theorem sourceTerms_bare (scope : Scope) (sources : List Sql.Source) :
    Agree (sourceTerms scope (bareSources sources)) (sourceTerms scope sources) := by
  cases sources with
  | nil => exact .ok []
  | cons source sources =>
    exact (sourceTerm_bare scope source).bind fun terms => (sourceTerms_bare scope sources).map _

theorem sourceTerm_bare (scope : Scope) (source : Sql.Source) :
    Agree (sourceTerm scope source.bare) (sourceTerm scope source) := by
  obtain ⟨table, joins⟩ := source
  exact (tableTerm_bare table).bind fun t => (joinTerms_bare scope joins).map _

theorem joinTerms_bare (scope : Scope) (joins : List Sql.Join) :
    Agree (joinTerms scope (bareJoins joins)) (joinTerms scope joins) := by
  cases joins with
  | nil => exact .ok []
  | cons join joins =>
    exact (joinTerm_bare scope join).bind fun t => (joinTerms_bare scope joins).map _

theorem joinTerm_bare (scope : Scope) (join : Sql.Join) :
    Agree (joinTerm scope join.bare) (joinTerm scope join) := by
  have hkind := joinKind_bare join
  obtain ⟨global, operator, table, matching, constraint⟩ := join
  exact hkind.bind fun kind => (constraintTerm_bare scope constraint).bind fun condition =>
    (tableTerm_bare table).map _

theorem constraintTerm_bare (scope : Scope) (constraint : Sql.JoinConstraint) :
    Agree (constraintTerm scope constraint.bare) (constraintTerm scope constraint) := by
  cases constraint with
  | on e => exact (exprTerm_bare scope e).map _
  | none => exact .ok none
  | «using» columns => exact .refused _ _
  | natural => exact .refused _ _

theorem groupTerms_bare (scope : Scope) (groupBy : Sql.GroupBy) :
    Agree (groupTerms scope groupBy.bare) (groupTerms scope groupBy) := by
  cases groupBy with
  | exprs keys modifiers =>
    cases modifiers with
    | nil => exact exprTerms_bare scope keys
    | cons shown rest => exact .refused _ _
  | all modifiers => exact .refused _ _

end

/-- The conversion does not look at what canonical queries have no place for: with every query a
bare one is converted to the same tree, and one is refused, as unsupported SQL, exactly if the other
is. -/
theorem tree_bare (catalog : Catalog) (q : Sql.Query) :
    q.bare.IsBare ∧ Agree (tree catalog (.query q.bare)) (tree catalog (.query q)) :=
  ⟨q.bare_bare, (querySelection_bare _ q).map _⟩

/-- `SELECT a FROM t FETCH FIRST 5 ROWS ONLY`. -/
def fetchFirst : Sql.Query where
  withClause := none
  body := .select {
    token := "", flavor := .standard, distinct := .none, top := none
    items := [.expr (.identifier ⟨"a", none, .empty⟩)]
    into := none
    sources := [⟨.table [⟨"t", none, .empty⟩] none .bare, []⟩]
    lateralViews := [], prewhere := none, selection := none, groupBy := .exprs [] []
    clusterBy := [], distributeBy := [], sortBy := [], having := none, windows := []
    qualify := none, windowsFirst := false, connectBy := none }
  orderBy := []
  interpolate := none
  limit := none
  settings := none
  fetch := some ⟨false, false, some (.literal (.number "5" false) .empty)⟩
  locks := []
  answer := none
  format := none
  steps := []

theorem fetchFirst_accepted : ¬ fetchFirst.IsBare ∧
    ∃ t, tree .empty (.query fetchFirst) = .ok t ∧
      tree .empty (.query { fetchFirst with fetch := none }) = .ok t := by
  refine ⟨?_, _, rfl, rfl⟩
  intro h
  cases congrArg Sql.Query.fetch h

end Canonical
end PolyglotSql
