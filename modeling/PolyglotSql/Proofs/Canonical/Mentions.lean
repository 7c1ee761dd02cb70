import PolyglotSql.Proofs.Canonical.Gathering
import PolyglotSql.Proofs.Canonical.Integers
import PolyglotSql.Proofs.Canonical.Selects

/-!
# PolyglotSql.Proofs.Canonical.Mentions

What a query mentions, and what its tree has for it. A query refers to columns and has constants:
its literals with their signs, the lists of literals, and the values that are not written but meant.
The tree of an accepted query has a column for each reference, with what the tables of the selects
around the reference tell about it, and a value for each constant, all in the order in which the
tree lists them. This is shown once for whatever is collected from the ones and gathered from the
others (`querySelection_collects`).
-/

namespace PolyglotSql

/-! ## References and constants -/

namespace Sql

/-- A reference to a column where it stands. -/
structure Reference where
  /-- The sources of the selects around it, the innermost select first. -/
  around : List (List Source)
  table : Option String
  column : String

/-- Something in a query that its tree has a value for. -/
inductive Constant where
  /-- A literal, with a minus sign or without. -/
  | alone (e : Expr)
  /-- The list that something is looked for in. -/
  | listed (items : List Expr)
  /-- A value that is meant where none is written. -/
  | implied (v : Value)

/-- Where an expression writes a 64-bit integer, a value is what is carried for it. -/
def Expr.CarriedAs (e : Expr) (v : Value) : Prop :=
  ∀ k : Int64, e.Writes k.toInt → v = carried k

/-- What a tree may have for a constant: for a list, a list of as many values. -/
inductive Constant.CarriedAs : Constant → Value → Prop
  | alone {e : Expr} {v : Value} (h : e.CarriedAs v) : CarriedAs (.alone e) v
  | listed {items : List Expr} {vs : List Value} (h : List.Forall₂ Expr.CarriedAs items vs) :
    CarriedAs (.listed items) (.list vs)
  | implied (v : Value) : CarriedAs (.implied v) v

end Sql

namespace Scope

/-- The tables that a select with given sources adds. -/
def tables (catalog : Catalog) (sources : List Sql.Source) : List VisibleTable :=
  (sources.flatMap fun source => source.table :: source.joins.map (·.table)).filterMap
    (visible? catalog)

/-- The scope inside selects with given sources. -/
def inside (catalog : Catalog) (around : List (List Sql.Source)) : Scope where
  catalog := catalog
  frames := around.map (tables catalog)

theorem enter_inside (catalog : Catalog) (around : List (List Sql.Source))
    (sources : List Sql.Source) :
    (inside catalog around).enter sources = inside catalog (sources :: around) := rfl

end Scope

/-- What the tables of the selects around a reference tell about its column. -/
def Sql.Reference.known (catalog : Catalog) (r : Sql.Reference) : Option Attribute :=
  (Scope.inside catalog r.around).resolve r.table r.column

/-- A reference as a column of a tree. -/
def Sql.Reference.columnRef (catalog : Catalog) (r : Sql.Reference) : ColumnRef :=
  ⟨r.table, r.column, r.known catalog⟩

/-! ## What is collected from a query -/

namespace Sql

/-- What is collected from a reference, and from a constant. -/
structure Collection (β : Type) where
  reference : Reference → List β
  constant : Constant → List β

def Collection.references : Collection Reference where
  reference r := [r]
  constant _ := []

def Collection.constants : Collection Constant where
  reference _ := []
  constant k := [k]

variable {β : Type} (c : Collection β)

/-- From the reference that a name of several parts is; its last two parts count. -/
def Path.collect (around : List (List Source)) (path : Path) : List β :=
  match path.reverse with
  | column :: table :: _ => c.reference ⟨around, some table.value, column.value⟩
  | [column] => c.reference ⟨around, none, column.value⟩
  | [] => []

/-- The selects around what the rows of a body are sorted by. -/
def QueryBody.outward (around : List (List Source)) : QueryBody → List (List Source)
  | .select s => s.sources :: around
  | _ => around

mutual

/-- What is collected from an expression, of those forms that are converted, in the order of the
canonical form. A position is looked for in a text that comes first. A test for `NULL` is a
comparison with it, and a part of a text starts at its first character if nothing else is said. -/
def Expr.collect (around : List (List Source)) : Expr → List β
  | .identifier name => c.reference ⟨around, none, name.value⟩
  | .compound path => Path.collect c around path
  | .literal l span => c.constant (.alone (.literal l span))
  | .unary .minus (.literal l span) => c.constant (.alone (.unary .minus (.literal l span)))
  | .nested e | .unary _ e | .extract _ _ e | .trim e => e.collect around
  | .isNull _ e => e.collect around ++ c.constant (.implied .null)
  | .inList _ e items => e.collect around ++ c.constant (.listed items)
  | .subquery q | .exists_ _ q => q.collect around
  | .binary left _ right => left.collect around ++ right.collect around
  | .like _ _ _ subject pattern _ => subject.collect around ++ pattern.collect around
  | .inSubquery _ subject q => subject.collect around ++ q.collect around
  | .between _ subject low high =>
    subject.collect around ++ (low.collect around ++ high.collect around)
  | .call call => call.collect around
  | .substring _ _ operand start length =>
    operand.collect around ++
      (optionalCollect around (c.constant (.implied (.integer 1))) start ++
        optionalCollect around [] length)
  | .position needle haystack => haystack.collect around ++ needle.collect around
  | .access .. | .other _ => []

/-- What is collected from an expression, or something else if it is missing. -/
def optionalCollect (around : List (List Source)) (missing : List β) : Option Expr → List β
  | none => missing
  | some e => e.collect around

def exprsCollect (around : List (List Source)) : List Expr → List β
  | [] => []
  | e :: es => e.collect around ++ exprsCollect around es

def Call.collect (around : List (List Source)) : Call → List β
  | ⟨_, _, arguments, _, _, _, _, _⟩ => arguments.collect around

def Arguments.collect (around : List (List Source)) : Arguments → List β
  | .list _ args _ => argumentsCollect around args
  | .none | .subquery _ => []

def argumentsCollect (around : List (List Source)) : List Argument → List β
  | [] => []
  | a :: as => a.collect around ++ argumentsCollect around as

def Argument.collect (around : List (List Source)) : Argument → List β
  | .expr e => e.collect around
  | .wildcard | .other _ => []

/-- What is collected from a query: from its body, and from what its rows are sorted by. -/
def Query.collect (around : List (List Source)) : Query → List β
  | ⟨_, body, orderBy, _, _, _, _, _, _, _, _⟩ =>
    body.collect around ++ ordersCollect (body.outward around) orderBy

def QueryBody.collect (around : List (List Source)) : QueryBody → List β
  | .select s => s.collect (s.sources :: around)
  | .nested q => q.collect around
  | .combined .. | .other _ => []

def ordersCollect (around : List (List Source)) : List OrderTerm → List β
  | [] => []
  | ⟨e, _, _, _⟩ :: rest => e.collect around ++ ordersCollect around rest

/-- What is collected from a select, which is itself the innermost one around its references. -/
def Select.collect (around : List (List Source)) : Select → List β
  | ⟨_, _, _, _, items, _, sources, _, _, condition, groupBy, _, _, _, having, _, _, _, _⟩ =>
    itemsCollect around items ++ (sourcesCollect around sources
      ++ (optionalCollect around [] condition ++ (groupBy.collect around
        ++ optionalCollect around [] having)))

def itemsCollect (around : List (List Source)) : List SelectItem → List β
  | [] => []
  | item :: items => item.collect around ++ itemsCollect around items

def SelectItem.collect (around : List (List Source)) : SelectItem → List β
  | .expr e | .aliased e _ => e.collect around
  | .wildcard _ | .qualifiedWildcard .. => []

def sourcesCollect (around : List (List Source)) : List Source → List β
  | [] => []
  | source :: sources => source.collect around ++ sourcesCollect around sources

def Source.collect (around : List (List Source)) : Source → List β
  | ⟨_, joins⟩ => joinsCollect around joins

def joinsCollect (around : List (List Source)) : List Join → List β
  | [] => []
  | join :: joins => join.collect around ++ joinsCollect around joins

def Join.collect (around : List (List Source)) : Join → List β
  | ⟨_, _, _, _, constraint⟩ => constraint.collect around

def JoinConstraint.collect (around : List (List Source)) : JoinConstraint → List β
  | .on e => e.collect around
  | .using _ | .natural | .none => []

def GroupBy.collect (around : List (List Source)) : GroupBy → List β
  | .exprs keys _ => exprsCollect around keys
  | .all _ => []

end

end Sql

/-! ## What is gathered from its tree -/

namespace Canonical

open Sql (Collection)

variable {β γ : Type} {catalog : Catalog} {c : Collection β} {g : Gathering γ} {R : β → γ → Prop}

/-- What is gathered from columns and values is related to what is collected from the references
and constants that have them in a tree. -/
structure Represents (catalog : Catalog) (c : Collection β) (g : Gathering γ) (R : β → γ → Prop) :
    Prop where
  reference : ∀ r, List.Forall₂ R (c.reference r) (g.column (r.columnRef catalog))
  constant : ∀ k v, k.CarriedAs v → List.Forall₂ R (c.constant k) (g.value v)

theorem carriedAs_value {scope : Scope} {e : Sql.Expr} {v : Value}
    (h : exprTerm scope e = .ok (.value v)) : e.CarriedAs v := by
  intro k hk
  rw [Sql.exprTerm_integer scope hk] at h
  cases h
  rfl

theorem listValues_carried (items : List Sql.Expr) :
    Gives (List.Forall₂ Sql.Expr.CarriedAs items) (items.mapM Sql.Expr.listValue) := by
  induction items with
  | nil => exact gives_ok .nil
  | cons e items ih =>
    rw [List.mapM_cons]
    refine (gives_self _).bind fun v hv => ih.map fun vs hvs => .cons (fun k hk => ?_) hvs
    rw [Sql.listValue_integer hk] at hv
    exact (Except.ok.inj hv).symm

/-- A column of a scope is gathered as that of the reference. -/
theorem scopeColumn_gather (g : Gathering γ) (r : Sql.Reference) :
    ((Scope.inside catalog r.around).columnTerm r.table r.column).gather g =
      g.column (r.columnRef catalog) := by
  rw [Scope.columnTerm, Term.gather_leaf]
  rfl

theorem columnTerm_collects (h : Represents catalog c g R) (around : List (List Sql.Source))
    (path : Sql.Path) :
    Gives (fun t => List.Forall₂ R (path.collect c around) (t.gather g))
      (columnTerm (.inside catalog around) path) := by
  unfold columnTerm Sql.Path.collect
  rcases path.reverse with _ | ⟨column, _ | ⟨table, rest⟩⟩
  · exact gives_refused _
  · exact gives_ok (scopeColumn_gather g ⟨around, none, column.value⟩ ▸ h.reference _)
  · exact gives_ok (scopeColumn_gather g ⟨around, some table.value, column.value⟩ ▸ h.reference _)

mutual

theorem exprTerm_collects (h : Represents catalog c g R) (around : List (List Sql.Source))
    (e : Sql.Expr) :
    Gives (fun t => List.Forall₂ R (e.collect c around) (t.gather g))
      (exprTerm (.inside catalog around) e) := by
  cases e with
  | identifier name =>
    exact gives_ok (scopeColumn_gather g ⟨around, none, name.value⟩ ▸ h.reference _)
  | compound path => exact columnTerm_collects h around path
  | literal l span =>
    intro t ht
    obtain ⟨v, -, hv⟩ := bind_eq_ok.1 ht
    cases hv
    simpa [Sql.Expr.collect] using h.constant _ v (.alone (carriedAs_value ht))
  | nested e =>
    -- Of a subquery in brackets the brackets are not kept.
    cases e with
    | subquery q =>
      exact (querySelection_collects h around q).map fun s hs => by
        simpa [Sql.Expr.collect] using hs
    | _ =>
      exact (exprTerm_collects h around _).map fun t ht => by
        simpa [Sql.Expr.collect, Term.group, Gathering.node] using ht
  | subquery q =>
    exact (querySelection_collects h around q).map fun s hs => by simpa [Sql.Expr.collect] using hs
  | unary op e =>
    cases op with
    | plus => exact exprTerm_collects h around e
    | minus =>
      cases e with
      | literal l span =>
        intro t ht
        obtain ⟨v, -, hv⟩ := bind_eq_ok.1 ht
        obtain ⟨w, -, hw⟩ := bind_eq_ok.1 hv
        cases hw
        simpa [Sql.Expr.collect] using h.constant _ w (.alone (carriedAs_value ht))
      | _ => exact gives_refused _
    | not =>
      cases e with
      | nested e =>
        exact (exprTerm_collects h around e).map fun t ht => by
          simpa [Sql.Expr.collect, Term.not, Gathering.node] using ht
      | _ =>
        exact (exprTerm_collects h around _).map fun t ht => by
          simpa [Sql.Expr.collect, Term.not, Gathering.node] using ht
    | complement => exact gives_refused _
  | binary left op right =>
    refine (exprTerm_collects h around left).bind fun l hl => ?_
    refine (exprTerm_collects h around right).bind fun r hr => ?_
    intro t ht
    rw [binary_gather g op l r t ht, Sql.Expr.collect]
    exact List.rel_append hl hr
  | isNull negated e =>
    cases negated with
    | false | true =>
      exact (exprTerm_collects h around e).map fun t ht => by
        simpa [Sql.Expr.collect, Term.isNull, Term.isNotNull, Term.null] using
          List.rel_append ht (h.constant _ _ (.implied .null))
  | like ignoreCase negated any subject pattern escape =>
    cases any with
    | true => exact gives_refused _
    | false =>
      refine (exprTerm_collects h around subject).bind fun s hs => ?_
      refine (exprTerm_collects h around pattern).bind fun p hp => ?_
      intro t ht
      rw [withEscape_gather g _ escape t ht, Term.gather_matching, Sql.Expr.collect]
      exact List.rel_append hs hp
  | inList negated subject items =>
    refine (listValues_carried items).bind fun vs hvs => ?_
    exact (exprTerm_collects h around subject).map fun s hs => by
      simpa [Sql.Expr.collect, Term.memberOf] using
        List.rel_append hs (h.constant _ _ (.listed hvs))
  | inSubquery negated subject q =>
    refine (exprTerm_collects h around subject).bind fun s hs => ?_
    exact (querySelection_collects h around q).map fun q hq => by
      simpa [Sql.Expr.collect] using List.rel_append hs hq
  | between negated subject low high =>
    refine (exprTerm_collects h around subject).bind fun s hs => ?_
    refine (exprTerm_collects h around low).bind fun l hl => ?_
    exact (exprTerm_collects h around high).map fun u hu => by
      simpa [Sql.Expr.collect] using List.rel_append hs (List.rel_append hl hu)
  | exists_ negated q =>
    exact (querySelection_collects h around q).map fun s hs => by
      simpa [Sql.Expr.collect, Term.existsIn, Gathering.node] using hs
  | call call => exact callTerm_collects h around call
  | extract field comma e =>
    refine (gives_any _).bind fun function _ => ?_
    exact (exprTerm_collects h around e).map fun t ht => by simpa [Sql.Expr.collect] using ht
  | substring form short e start length =>
    refine (exprTerm_collects h around e).bind fun t ht => ?_
    refine (optionalTerm_collects h around start (h.constant _ _ (.implied (.integer 1)))).bind
      fun start hstart => ?_
    refine (optionalTerm_collects h around length .nil).map fun length hlength => ?_
    have hfirst : (start.getD (.value (.integer 1))).gather g =
        (start.map (Term.gather g)).getD (g.value (.integer 1)) := by
      cases start <;> simp
    simpa [Sql.Expr.collect, hfirst] using List.rel_append ht (List.rel_append hstart hlength)
  | position needle haystack =>
    refine (exprTerm_collects h around haystack).bind fun t ht => ?_
    exact (exprTerm_collects h around needle).map fun n hn => by
      simpa [Sql.Expr.collect] using List.rel_append ht hn
  | trim e =>
    exact (exprTerm_collects h around e).map fun t ht => by simpa [Sql.Expr.collect] using ht
  | access root steps => exact gives_refused _
  | other shown => exact gives_refused _

theorem optionalTerm_collects (h : Represents catalog c g R) (around : List (List Sql.Source))
    (e : Option Sql.Expr)
    {missing : List β} {meant : List γ} (hmissing : List.Forall₂ R missing meant) :
    Gives (fun t? => List.Forall₂ R (Sql.optionalCollect c around missing e)
        ((t?.map (Term.gather g)).getD meant))
      (optionalTerm (.inside catalog around) e) := by
  cases e with
  | none => exact gives_ok hmissing
  | some e => exact (exprTerm_collects h around e).map fun t ht => ht

theorem exprTerms_collects (h : Represents catalog c g R) (around : List (List Sql.Source))
    (es : List Sql.Expr) :
    Gives (fun ts => List.Forall₂ R (Sql.exprsCollect c around es) (ts.flatMap (Term.gather g)))
      (exprTerms (.inside catalog around) es) := by
  cases es with
  | nil => exact gives_ok (by simp [Sql.exprsCollect])
  | cons e es =>
    refine (exprTerm_collects h around e).bind fun t ht => ?_
    exact (exprTerms_collects h around es).map fun ts hts => List.rel_append ht hts

theorem callTerm_collects (h : Represents catalog c g R) (around : List (List Sql.Source))
    (call : Sql.Call) :
    Gives (fun t => List.Forall₂ R (call.collect c around) (t.gather g))
      (callTerm (.inside catalog around) call) := by
  obtain ⟨path, parameters, arguments, withinGroup, filter, nullTreatment, overClause, braced⟩ :=
    call
  cases overClause with
  | some shown => exact gives_refused _
  | none =>
    cases filter with
    | some condition => exact gives_refused _
    | none =>
      cases withinGroup with
      | cons o os => exact gives_refused _
      | nil =>
        cases arguments with
        | none =>
          exact (gives_any _).map fun _ _ => by
            simp [Sql.Call.collect, Sql.Arguments.collect]
        | subquery q => exact gives_refused _
        | list duplicates args clauses =>
          refine (argumentTerms_collects h around args).bind fun terms hterms => ?_
          refine (gives_any _).map fun _ _ => ?_
          have hmark : (if duplicates = some true then [Term.distinct] else []).flatMap
              (Term.gather g) = [] := by
            split <;> simp [Term.distinct, Gathering.node]
          simpa [Sql.Call.collect, Sql.Arguments.collect, hmark] using hterms

theorem argumentTerms_collects (h : Represents catalog c g R) (around : List (List Sql.Source))
    (as : List Sql.Argument) :
    Gives (fun ts => List.Forall₂ R (Sql.argumentsCollect c around as)
        (ts.flatMap (Term.gather g)))
      (argumentTerms (.inside catalog around) as) := by
  cases as with
  | nil => exact gives_ok (by simp [Sql.argumentsCollect])
  | cons a as =>
    refine (argumentTerm_collects h around a).bind fun t ht => ?_
    exact (argumentTerms_collects h around as).map fun ts hts => List.rel_append ht hts

theorem argumentTerm_collects (h : Represents catalog c g R) (around : List (List Sql.Source))
    (a : Sql.Argument) :
    Gives (fun t => List.Forall₂ R (a.collect c around) (t.gather g))
      (argumentTerm (.inside catalog around) a) := by
  cases a with
  | expr e => exact exprTerm_collects h around e
  | wildcard => exact gives_ok (by simp [Term.text, Gathering.node, Sql.Argument.collect])
  | other shown => exact gives_refused _

theorem querySelection_collects (h : Represents catalog c g R) (around : List (List Sql.Source))
    (q : Sql.Query) :
    Gives (fun s => List.Forall₂ R (q.collect c around) (s.gather g))
      (querySelection (.inside catalog around) q) := by
  obtain ⟨withClause, body, orderBy, interpolate, limit, settings, fetch, locks, answer, format,
    steps⟩ := q
  cases withClause with
  | some shown => exact gives_refused _
  | none =>
    refine (bodySelection_collects h around body).bind fun ⟨s, inner⟩ ⟨hs, hinner⟩ => ?_
    subst hinner
    refine (orderTerms_collects h (body.outward around) orderBy).bind fun orders horders => ?_
    intro s' hs'
    rw [rowLimit_gather g _ limit s' hs', Selection.gather_addOrders, Sql.Query.collect]
    exact List.rel_append hs horders

theorem bodySelection_collects (h : Represents catalog c g R) (around : List (List Sql.Source))
    (body : Sql.QueryBody) :
    Gives (fun r => List.Forall₂ R (body.collect c around) (r.1.gather g) ∧
        r.2 = .inside catalog (body.outward around))
      (bodySelection (.inside catalog around) body) := by
  cases body with
  | select s =>
    have hselect := selectSelection_collects h (s.sources :: around) s
    rw [← Scope.enter_inside] at hselect
    exact hselect.map fun s' hs =>
      ⟨by simpa [Sql.QueryBody.collect] using hs, Scope.enter_inside catalog around s.sources⟩
  | nested q =>
    exact (querySelection_collects h around q).map fun s hs => by
      simpa [Sql.QueryBody.collect] using ⟨hs, rfl⟩
  | combined left op quantifier right => exact gives_refused _
  | other shown => exact gives_refused _

theorem orderTerms_collects (h : Represents catalog c g R) (around : List (List Sql.Source))
    (orders : List Sql.OrderTerm) :
    Gives (fun ts => List.Forall₂ R (Sql.ordersCollect c around orders)
        (ts.flatMap (Term.gather g)))
      (orderTerms (.inside catalog around) orders) := by
  cases orders with
  | nil => exact gives_ok (by simp [Sql.ordersCollect])
  | cons o os =>
    obtain ⟨e, ascending, nullsFirst, fill⟩ := o
    refine (exprTerm_collects h around e).bind fun t ht => ?_
    exact (orderTerms_collects h around os).map fun ts hts => by
      simpa [Sql.ordersCollect] using List.rel_append ht hts

theorem selectSelection_collects (h : Represents catalog c g R) (around : List (List Sql.Source))
    (s : Sql.Select) :
    Gives (fun s' => List.Forall₂ R (s.collect c around) (s'.gather g))
      (selectSelection (.inside catalog around) s) := by
  obtain ⟨token, flavor, distinct, top, items, into, sources, lateralViews, prewhere, condition,
    groupBy, clusterBy, distributeBy, sortBy, having, windows, qualify, windowsFirst,
    connectBy⟩ := s
  have hrest (distinct : Bool) : Gives (fun s' => List.Forall₂ R
      (Sql.itemsCollect c around items ++ (Sql.sourcesCollect c around sources
        ++ (Sql.optionalCollect c around [] condition ++ (groupBy.collect c around
          ++ Sql.optionalCollect c around [] having)))) (s'.gather g)) (do
      let results ← itemTerms (.inside catalog around) items
      let sources ← sourceTerms (.inside catalog around) sources
      let condition ← optionalTerm (.inside catalog around) condition
      let groups ← groupTerms (.inside catalog around) groupBy
      let having ← optionalTerm (.inside catalog around) having
      return { Selection.empty with distinct, results, sources, condition, groups, having }) := by
    refine (itemTerms_collects h around items).bind fun results hresults => ?_
    refine (sourceTerms_collects h around sources).bind fun sources hsources => ?_
    refine (optionalTerm_collects h around condition .nil).bind fun condition hcondition => ?_
    refine (groupTerms_collects h around groupBy).bind fun groups hgroups => ?_
    refine (optionalTerm_collects h around having .nil).map fun having hhaving => ?_
    simpa [Selection.gather, Selection.empty] using List.rel_append hresults
      (List.rel_append hsources (List.rel_append hcondition (List.rel_append hgroups hhaving)))
  cases distinct with
  | none => exact hrest false
  | rows => exact hrest true
  | on keys => exact gives_refused _

theorem itemTerms_collects (h : Represents catalog c g R) (around : List (List Sql.Source))
    (items : List Sql.SelectItem) :
    Gives (fun ts => List.Forall₂ R (Sql.itemsCollect c around items)
        (ts.flatMap (Term.gather g)))
      (itemTerms (.inside catalog around) items) := by
  cases items with
  | nil => exact gives_ok (by simp [Sql.itemsCollect])
  | cons item items =>
    refine (itemTerm_collects h around item).bind fun t ht => ?_
    exact (itemTerms_collects h around items).map fun ts hts => List.rel_append ht hts

theorem itemTerm_collects (h : Represents catalog c g R) (around : List (List Sql.Source))
    (item : Sql.SelectItem) :
    Gives (fun t => List.Forall₂ R (item.collect c around) (t.gather g))
      (itemTerm (.inside catalog around) item) := by
  cases item with
  | expr e => exact exprTerm_collects h around e
  | aliased e alias_ =>
    exact (exprTerm_collects h around e).map fun t ht => by
      simpa [Sql.SelectItem.collect] using ht
  | wildcard options =>
    exact gives_ok (by simp [Term.text, Gathering.node, Sql.SelectItem.collect])
  | qualifiedWildcard table options =>
    exact gives_ok (by simp [Term.text, Gathering.node, Sql.SelectItem.collect])

theorem sourceTerms_collects (h : Represents catalog c g R) (around : List (List Sql.Source))
    (sources : List Sql.Source) :
    Gives (fun ts => List.Forall₂ R (Sql.sourcesCollect c around sources)
        (ts.flatMap (Term.gather g)))
      (sourceTerms (.inside catalog around) sources) := by
  cases sources with
  | nil => exact gives_ok (by simp [Sql.sourcesCollect])
  | cons source sources =>
    refine (sourceTerm_collects h around source).bind fun terms hterms => ?_
    exact (sourceTerms_collects h around sources).map fun ts hts => by
      simpa [Sql.sourcesCollect] using List.rel_append hterms hts

theorem sourceTerm_collects (h : Represents catalog c g R) (around : List (List Sql.Source))
    (source : Sql.Source) :
    Gives (fun ts => List.Forall₂ R (source.collect c around) (ts.flatMap (Term.gather g)))
      (sourceTerm (.inside catalog around) source) := by
  obtain ⟨table, joins⟩ := source
  refine (tableTerm_gather g table).bind fun t ht => ?_
  exact (joinTerms_collects h around joins).map fun ts hts => by
    simpa [Sql.Source.collect, ht] using hts

theorem joinTerms_collects (h : Represents catalog c g R) (around : List (List Sql.Source))
    (joins : List Sql.Join) :
    Gives (fun ts => List.Forall₂ R (Sql.joinsCollect c around joins)
        (ts.flatMap (Term.gather g)))
      (joinTerms (.inside catalog around) joins) := by
  cases joins with
  | nil => exact gives_ok (by simp [Sql.joinsCollect])
  | cons join joins =>
    refine (joinTerm_collects h around join).bind fun t ht => ?_
    exact (joinTerms_collects h around joins).map fun ts hts => List.rel_append ht hts

theorem joinTerm_collects (h : Represents catalog c g R) (around : List (List Sql.Source))
    (join : Sql.Join) :
    Gives (fun t => List.Forall₂ R (join.collect c around) (t.gather g))
      (joinTerm (.inside catalog around) join) := by
  obtain ⟨global, operator, table, matching, constraint⟩ := join
  refine (gives_any _).bind fun kind _ => ?_
  refine (constraintTerm_collects h around constraint).bind fun condition hcondition => ?_
  exact (tableTerm_gather g table).map fun t ht => by
    simpa [Sql.Join.collect, Gathering.node, ht] using hcondition

theorem constraintTerm_collects (h : Represents catalog c g R) (around : List (List Sql.Source))
    (constraint : Sql.JoinConstraint) :
    Gives (fun t? => List.Forall₂ R (constraint.collect c around)
        (t?.toList.flatMap (Term.gather g)))
      (constraintTerm (.inside catalog around) constraint) := by
  cases constraint with
  | on e =>
    exact (exprTerm_collects h around e).map fun t ht => by
      simpa [Sql.JoinConstraint.collect] using ht
  | none => exact gives_ok (by simp [Sql.JoinConstraint.collect])
  | «using» columns => exact gives_refused _
  | natural => exact gives_refused _

theorem groupTerms_collects (h : Represents catalog c g R) (around : List (List Sql.Source))
    (groupBy : Sql.GroupBy) :
    Gives (fun ts => List.Forall₂ R (groupBy.collect c around) (ts.flatMap (Term.gather g)))
      (groupTerms (.inside catalog around) groupBy) := by
  cases groupBy with
  | exprs keys modifiers =>
    cases modifiers with
    | nil => exact exprTerms_collects h around keys
    | cons m ms => exact gives_refused _
  | all modifiers => exact gives_refused _

end

end Canonical
end PolyglotSql
