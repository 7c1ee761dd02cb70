import PolyglotSql.Canonical.Query

/-!
# PolyglotSql.Proofs.Canonical.Selects

What is converted of a query that is a select, clause by clause: its tree is that of a selection
that has the terms of the results, the tables and the conditions of the select (`tree_select`).
-/

namespace PolyglotSql

theorem bind_eq_ok {ε α β : Type} {x : Except ε α} {f : α → Except ε β} {b : β} :
    x >>= f = .ok b ↔ ∃ a, x = .ok a ∧ f a = .ok b := by
  cases x with
  | ok a => simp [bind, Except.bind]
  | error e => simp [bind, Except.bind]

/-- A source that is a table, or joins it. -/
inductive Term.ReadsFrom : (source table : Term) → Prop
  | only (table : Term) : ReadsFrom table table
  | joined (kind : JoinKind) (table : Term) (condition : List Term) :
    ReadsFrom (.of (.join kind) (table :: condition)) table

/-- The select that a query is, in brackets or not. -/
inductive Sql.Query.Selects : Sql.Query → Sql.Select → Prop
  | direct {q : Sql.Query} {s : Sql.Select} (hbody : q.body = .select s) : Selects q s
  | nested {q inner : Sql.Query} {s : Sql.Select} (hbody : q.body = .nested inner)
    (h : Selects inner s) : Selects q s

/-- The tables that a select reads from, those that it joins among them. -/
def Sql.Select.tables (s : Sql.Select) : List Sql.TableFactor :=
  s.sources.flatMap fun source => source.table :: source.joins.map (·.table)

/-- The query that selects some results from tables and asks for nothing else. -/
def Sql.Query.selecting (items : List Sql.SelectItem) (sources : List Sql.Source) : Sql.Query where
  withClause := none
  body := .select {
    token := "", flavor := .standard, distinct := .none, top := none, items, into := none, sources
    lateralViews := [], prewhere := none, selection := none, groupBy := .exprs [] []
    clusterBy := [], distributeBy := [], sortBy := [], having := none, windows := []
    qualify := none, windowsFirst := false, connectBy := none }
  orderBy := []
  interpolate := none
  limit := none
  settings := none
  fetch := none
  locks := []
  answer := none
  format := none
  steps := []

/-- A table of which only the name is written. -/
def Sql.TableFactor.named (name : Sql.Path) : Sql.TableFactor :=
  .table name none {
    partitions := [], arguments := none, ordinality := false, hints := [], sample := none }

namespace Canonical

variable {scope : Scope}

/-! ## Clauses -/

theorem itemTerms_mem {items : List Sql.SelectItem} {terms : List Term}
    (h : itemTerms scope items = .ok terms) {item : Sql.SelectItem} (hitem : item ∈ items) :
    ∃ t ∈ terms, itemTerm scope item = .ok t := by
  induction items generalizing terms with
  | nil => cases hitem
  | cons first items ih =>
    rw [itemTerms] at h
    obtain ⟨t, ht, h⟩ := bind_eq_ok.1 h
    obtain ⟨ts, hts, h⟩ := bind_eq_ok.1 h
    cases h
    rcases List.mem_cons.1 hitem with rfl | hitem
    · exact ⟨t, by simp, ht⟩
    · obtain ⟨u, hu, hterm⟩ := ih hts hitem
      exact ⟨u, by simp [hu], hterm⟩

theorem joinTerm_reads {join : Sql.Join} {t : Term} (h : joinTerm scope join = .ok t) :
    ∃ table, tableTerm join.table = .ok table ∧ t.ReadsFrom table := by
  obtain ⟨global, operator, table, matching, constraint⟩ := join
  rw [joinTerm] at h
  obtain ⟨kind, -, h⟩ := bind_eq_ok.1 h
  obtain ⟨condition, -, h⟩ := bind_eq_ok.1 h
  obtain ⟨table', htable, h⟩ := bind_eq_ok.1 h
  cases h
  exact ⟨table', htable, .joined kind table' condition.toList⟩

theorem joinTerms_reads {joins : List Sql.Join} {terms : List Term}
    (h : joinTerms scope joins = .ok terms) {join : Sql.Join} (hjoin : join ∈ joins) :
    ∃ table, tableTerm join.table = .ok table ∧ ∃ t ∈ terms, t.ReadsFrom table := by
  induction joins generalizing terms with
  | nil => cases hjoin
  | cons first joins ih =>
    rw [joinTerms] at h
    obtain ⟨t, ht, h⟩ := bind_eq_ok.1 h
    obtain ⟨ts, hts, h⟩ := bind_eq_ok.1 h
    cases h
    rcases List.mem_cons.1 hjoin with rfl | hjoin
    · obtain ⟨table, htable, hreads⟩ := joinTerm_reads ht
      exact ⟨table, htable, t, by simp, hreads⟩
    · obtain ⟨table, htable, u, hu, hreads⟩ := ih hts hjoin
      exact ⟨table, htable, u, by simp [hu], hreads⟩

/-- Every table of the sources is read from by one of their terms. -/
theorem sourceTerms_reads {sources : List Sql.Source} {terms : List Term}
    (h : sourceTerms scope sources = .ok terms) {factor : Sql.TableFactor}
    (hfactor : factor ∈ sources.flatMap fun source => source.table :: source.joins.map (·.table)) :
    ∃ table, tableTerm factor = .ok table ∧ ∃ t ∈ terms, t.ReadsFrom table := by
  induction sources generalizing terms with
  | nil => cases hfactor
  | cons source sources ih =>
    obtain ⟨first, joins⟩ := source
    rw [sourceTerms] at h
    obtain ⟨ts, hts, h⟩ := bind_eq_ok.1 h
    obtain ⟨rest, hrest, h⟩ := bind_eq_ok.1 h
    cases h
    rw [sourceTerm] at hts
    obtain ⟨table, htable, hts⟩ := bind_eq_ok.1 hts
    obtain ⟨joined, hjoined, hts⟩ := bind_eq_ok.1 hts
    cases hts
    simp only [List.flatMap_cons, List.cons_append, List.mem_cons, List.mem_append] at hfactor
    rcases hfactor with rfl | hfactor | hfactor
    · exact ⟨table, htable, table, by simp, .only table⟩
    · obtain ⟨join, hjoin, rfl⟩ := List.mem_map.1 hfactor
      obtain ⟨table', htable', t, ht, hreads⟩ := joinTerms_reads hjoined hjoin
      exact ⟨table', htable', t, by simp [ht], hreads⟩
    · obtain ⟨table', htable', t, ht, hreads⟩ := ih hrest hfactor
      exact ⟨table', htable', t, by simp [ht], hreads⟩

/-! ## Selects -/

/-- Row limits change nothing else of a selection. -/
theorem rowLimit_same {s s' : Selection} {clause : Option Sql.LimitClause}
    (h : rowLimit s clause = .ok s') : ∃ limit offset, s' = { s with limit, offset } := by
  cases clause with
  | none =>
    cases h
    exact ⟨s.limit, s.offset, rfl⟩
  | some l =>
    cases l with
    | limitOffset limit offset by_ =>
      obtain ⟨n, -, h⟩ := bind_eq_ok.1 h
      obtain ⟨m, -, h⟩ := bind_eq_ok.1 h
      cases h
      exact ⟨_, _, rfl⟩
    | offsetComma offset limit =>
      obtain ⟨n, -, h⟩ := bind_eq_ok.1 h
      obtain ⟨m, -, h⟩ := bind_eq_ok.1 h
      cases h
      exact ⟨_, _, rfl⟩

theorem addOrder_same (s : Selection) (terms : List Term) :
    ∃ orders, terms.foldl Selection.addOrder s = { s with orders } := by
  induction terms generalizing s with
  | nil => exact ⟨s.orders, rfl⟩
  | cons t ts ih =>
    obtain ⟨orders, h⟩ := ih (s.addOrder t)
    exact ⟨orders, by rw [List.foldl_cons, h]; rfl⟩

/-- A selection has the terms of the clauses of a select. -/
structure Converts (scope : Scope) (s : Sql.Select) (sel : Selection) : Prop where
  results : itemTerms scope s.items = .ok sel.results
  sources : sourceTerms scope s.sources = .ok sel.sources
  condition : optionalTerm scope s.selection = .ok sel.condition
  having : optionalTerm scope s.having = .ok sel.having
  distinct : s.distinct = .none → sel.distinct = false

theorem selectSelection_ok {s : Sql.Select} {sel : Selection}
    (h : selectSelection scope s = .ok sel) : Converts scope s sel := by
  obtain ⟨token, flavor, distinct, top, items, into, sources, lateralViews, prewhere, condition,
    groupBy, clusterBy, distributeBy, sortBy, having, windows, qualify, windowsFirst,
    connectBy⟩ := s
  have hclauses (dropped : Bool) (h : (do
        let results ← itemTerms scope items
        let sources ← sourceTerms scope sources
        let condition ← optionalTerm scope condition
        let groups ← groupTerms scope groupBy
        let having ← optionalTerm scope having
        return { Selection.empty with
          distinct := dropped, results, sources, condition, groups, having }) = .ok sel) :
      (itemTerms scope items = .ok sel.results ∧ sourceTerms scope sources = .ok sel.sources) ∧
        (optionalTerm scope condition = .ok sel.condition ∧
          optionalTerm scope having = .ok sel.having) ∧
        sel.distinct = dropped := by
    obtain ⟨results, hresults, h⟩ := bind_eq_ok.1 h
    obtain ⟨tables, htables, h⟩ := bind_eq_ok.1 h
    obtain ⟨rows, hrows, h⟩ := bind_eq_ok.1 h
    obtain ⟨_, -, h⟩ := bind_eq_ok.1 h
    obtain ⟨groups, hgroups, h⟩ := bind_eq_ok.1 h
    cases h
    exact ⟨⟨hresults, htables⟩, ⟨hrows, hgroups⟩, rfl⟩
  cases distinct with
  | none =>
    obtain ⟨⟨hresults, htables⟩, ⟨hrows, hgroups⟩, hdistinct⟩ := hclauses false h
    exact ⟨hresults, htables, hrows, hgroups, fun _ => hdistinct⟩
  | rows =>
    obtain ⟨⟨hresults, htables⟩, ⟨hrows, hgroups⟩, -⟩ := hclauses true h
    exact ⟨hresults, htables, hrows, hgroups, by simp⟩
  | on keys => cases h

/-- The clauses around the body of a query sort and limit its rows and change nothing else. -/
theorem querySelection_body {q : Sql.Query} {sel : Selection}
    (h : querySelection scope q = .ok sel) :
    ∃ sel₀ inner orders limit offset, bodySelection scope q.body = .ok (sel₀, inner) ∧
      sel = { sel₀ with orders, limit, offset } := by
  obtain ⟨withClause, body, orderBy, interpolate, limit, settings, fetch, locks, answer, format,
    steps⟩ := q
  cases withClause with
  | some shown => cases h
  | none =>
    rw [querySelection] at h
    obtain ⟨⟨sel₀, inner⟩, hbody, hrest⟩ := bind_eq_ok.1 h
    obtain ⟨terms, -, hlimit⟩ := bind_eq_ok.1 hrest
    obtain ⟨orders, horders⟩ := addOrder_same sel₀ terms
    rw [horders] at hlimit
    obtain ⟨n, m, rfl⟩ := rowLimit_same hlimit
    exact ⟨sel₀, inner, orders, n, m, hbody, rfl⟩

/-- The clauses of the select that a query is are those of its selection. -/
theorem querySelection_select {q : Sql.Query} {s : Sql.Select} (hselects : q.Selects s)
    {sel : Selection} (h : querySelection scope q = .ok sel) :
    Converts (scope.enter s.sources) s sel := by
  induction hselects generalizing sel with
  | @direct q s hbody =>
    obtain ⟨sel₀, _, orders, n, m, hbody', rfl⟩ := querySelection_body h
    rw [hbody] at hbody'
    obtain ⟨sel₁, hselect, hpair⟩ := bind_eq_ok.1 hbody'
    cases hpair
    exact { selectSelection_ok hselect with }
  | @nested q inner s hbody _ ih =>
    obtain ⟨sel₀, _, orders, n, m, hbody', rfl⟩ := querySelection_body h
    rw [hbody] at hbody'
    obtain ⟨sel₁, hinner, hpair⟩ := bind_eq_ok.1 hbody'
    cases hpair
    exact { ih hinner with }

/-- The tree of a query that is a select. -/
theorem tree_select {catalog : Catalog} {q : Sql.Query} {s : Sql.Select} {t : Tree}
    (hselects : q.Selects s) (h : tree catalog (.query q) = .ok t) :
    ∃ sel : Selection, t = sel.toTerm.build ∧
      Converts (Scope.enter ⟨catalog, []⟩ s.sources) s sel := by
  obtain ⟨sel, hsel, h⟩ := bind_eq_ok.1 h
  cases h
  exact ⟨sel, rfl, querySelection_select hselects hsel⟩

end Canonical
end PolyglotSql
