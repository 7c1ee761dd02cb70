import Mathlib.Data.List.Infix
import PolyglotSql.Proofs.Canonical.Paths
import PolyglotSql.Proofs.Canonical.Selects
import PolyglotSql.Proofs.Dialect.Selects
import PolyglotSql.Proofs.Rendering.Writing
import PolyglotSql.Proofs.Translation
import PolyglotSql.Proofs.Tree.Building

/-!
# PolyglotSql.Proofs.Rendering.Names

Which names a reader finds in the SQL of a select. Nothing that follows a table goes on with its
names: behind it come the condition of a join, another source, another clause, a bracket or the
texts that count rows, and each of these severs (`Severs`). So every table reads back as the names
by which the tree keeps it, in every dialect and mode (`Translator.translateTree_names`); these are
the names of the source for plain tables only.
-/

namespace PolyglotSql

open Piece Lexeme Term

variable {d : Dialect} {style : QuoteStyle}

/-! ## What follows results and tables -/

/-- A clause of a select behind its results. -/
inductive Term.Trailing : Term → Prop
  | fromClause (ts : List Term) : Trailing (.of .fromClause ts)
  | whereClause (ts : List Term) : Trailing (.of .whereClause ts)
  | groupBy (ts : List Term) : Trailing (.of .groupBy ts)
  | having (ts : List Term) : Trailing (.of .having ts)
  | orderBy (ts : List Term) : Trailing (.of .orderBy ts)
  | limit (limit offset : UInt64) : Trailing (.leaf (.limitOffset limit offset))

theorem severs_word {s : String} (h : opens s.toList = true) (rest : String) :
    Severs style.quote (s ++ rest).toList := by
  rw [String.toList_append]
  exact severs_of_opens h _

theorem severs_unlessZero {n : UInt64} {s : String} (h : Severs style.quote s.toList) :
    Severs style.quote (unlessZero n s).toList := by
  unfold unlessZero
  split
  · exact h
  · exact trivial

variable (style) in
theorem severs_page (clause : PageClause) (limit offset : UInt64) :
    Severs style.quote (clause.sql limit offset).toList := by
  have hboth {s s' : String} {n m : UInt64} (h : Severs style.quote s.toList)
      (h' : Severs style.quote s'.toList) :
      Severs style.quote (unlessZero n s ++ unlessZero m s').toList := by
    rw [String.toList_append]
    exact (severs_unlessZero h).append (severs_unlessZero h')
  have hunbounded (unbounded : String) :
      Severs style.quote (PageClause.withUnbounded unbounded limit offset).toList := by
    unfold PageClause.withUnbounded
    rw [String.toList_append]
    refine Severs.append ?_ (severs_unlessZero (severs_word (by decide) _))
    split
    · exact severs_word (by decide) _
    · exact severs_unlessZero (severs_word (by decide) _)
  cases clause with
  | offsetFetchNext | offsetRowsFetchFirst =>
    simp only [PageClause.sql, String.append_assoc]
    exact hboth (severs_word (by decide) _) (severs_word (by decide) _)
  | offsetFetchFirst =>
    simp only [PageClause.sql, String.append_assoc]
    exact hboth (severs_word (by decide) _) (severs_word (by decide) _)
  | rowsTo =>
    simp only [PageClause.sql, String.append_assoc]
    split
    · exact trivial
    · exact severs_word (by decide) _
  | limitMaxRows | limitNegativeOne | limitZero => exact hunbounded _

/-- What a node that lists its parts behind a word writes. -/
theorem severs_listed {node : Node} {around : Around} {ts : List Term} {own : List Piece}
    {s : String} {between : Nat → Term → Term → String}
    (hform : node.form around = .listed [.raw s] between []) (hs : opens s.toList = true)
    (h : pieces around (of node ts) = some own) : Severs style.quote (written style own) := by
  rw [of, pieces_mk] at h
  obtain ⟨qs, hqs, rfl⟩ := Option.map_eq_some_iff.1 h
  simp only [Node.shape, hform] at hqs
  obtain ⟨inner, -, rfl⟩ := Option.map_eq_some_iff.1 hqs
  simpa [chars] using severs_of_opens hs (written style inner)

/-- What becomes of a clause behind the results severs what is in front of it. -/
theorem Term.Trailing.severs {t t' : Term} (h : t.Trailing) (ht : Adapts d .select t t')
    {around : Around} {own : List Piece} (hown : t'.pieces around = some own) :
    Severs style.quote (written style own) := by
  cases h with
  | fromClause ts =>
    obtain ⟨ts', rfl, -⟩ := ht.fixed (fun _ => rfl) (by simp) rfl
    exact severs_listed (s := " FROM ") rfl (by decide) hown
  | whereClause ts =>
    obtain ⟨ts', rfl, -⟩ := ht.fixed (fun _ => rfl) (by simp) rfl
    exact severs_listed (s := " WHERE ") rfl (by decide) hown
  | groupBy ts =>
    obtain ⟨ts', rfl, -⟩ := ht.fixed (fun _ => rfl) (by simp) rfl
    exact severs_listed (s := " GROUP BY ") rfl (by decide) hown
  | having ts =>
    obtain ⟨ts', rfl, -⟩ := ht.fixed (fun _ => rfl) (by simp) rfl
    exact severs_listed (s := " HAVING ") rfl (by decide) hown
  | orderBy ts =>
    obtain ⟨ts', rfl, -⟩ := ht.fixed (fun _ => rfl) (by simp) rfl
    exact severs_listed (s := " ORDER BY ") rfl (by decide) hown
  | limit limit offset =>
    rcases ht.limit with rfl | ⟨clause, rfl⟩ | rfl
    · cases hown
      have hcanonical : Severs style.quote (PageClause.canonical limit offset).toList := by
        rw [PageClause.canonical, String.toList_append]
        exact (severs_unlessZero (severs_word (by decide) _)).append
          (severs_unlessZero (severs_word (by decide) _))
      simpa [chars] using hcanonical
    · cases hown
      simpa [chars] using severs_page style clause limit offset
    · cases hown
      exact trivial

theorem severs_clauses {parts : List Part} {index : Nat} {last : Term} {ps : List Piece}
    (hparts : ∀ p ∈ parts, ∃ t around, t.Trailing ∧ Adapts d .select t p.term ∧
      p.pieces = p.term.pieces around)
    (h : Part.separated (Node.sameText "") index (some last) parts = some ps) :
    Severs style.quote (written style ps) := by
  refine Part.separated_severs (fun p hp own hown i b => ?_) h
  obtain ⟨t, around, ht, hadapts, hpieces⟩ := hparts p hp
  exact ht.severs hadapts (hpieces.symm.trans hown)

theorem severs_bracket (wanted : Bool) :
    Severs style.quote (written style (Node.bracket wanted ")")) := by
  cases wanted with
  | true => exact severs_of_opens (s := ")".toList) (by decide) []
  | false => exact trivial

variable (style) in
/-- A join writes its word, the joined table, and then the condition. -/
theorem place_join {kind : JoinKind} {parts : List Part} {ps : List Piece}
    (h : (Node.join kind).place parts = some ps) :
    ∃ rest, ps = .raw (Tree.joinKeyword kind) :: rest ∧
      ∀ first others, parts = first :: others → ∃ own after, first.pieces = some own ∧
        rest = own ++ after ∧ Severs style.quote (written style after) := by
  cases parts with
  | nil =>
    cases h
    exact ⟨[], rfl, by simp⟩
  | cons first others =>
    cases others with
    | nil =>
      obtain ⟨own, hown, rfl⟩ := Option.map_eq_some_iff.1 h
      refine ⟨own, rfl, fun first' others he => ?_⟩
      cases he
      exact ⟨own, [], hown, by simp, trivial⟩
    | cons second others =>
      simp only [Node.place, Option.bind_eq_bind, Option.bind_eq_some_iff, Option.some.injEq] at h
      obtain ⟨own, hown, condition, -, rfl⟩ := h
      refine ⟨_, rfl, fun first' others' he => ?_⟩
      cases he
      have hon : Severs style.quote (" ON ".toList ++ written style condition) :=
        severs_of_opens (by decide) _
      exact ⟨own, _, hown, rfl, by simpa [chars] using hon⟩

/-- A source, with what stands between it and the source before it. -/
theorem severs_source {around : Around} {t : Term} {own : List Piece}
    (h : t.pieces around = some own) (i : Nat) (b : Term) :
    Severs style.quote ((Node.sourceText i b t).toList ++ written style own) := by
  obtain ⟨node, alias_, children⟩ := t
  by_cases hjoin : node.kind = .join
  · have hjoin' : ∃ kind, node = .join kind := by
      cases node with
      | join kind => exact ⟨kind, rfl⟩
      | boolean op => cases op <;> cases hjoin
      | _ => cases hjoin
    obtain ⟨kind, rfl⟩ := hjoin'
    have hkeyword : opens (Tree.joinKeyword kind).toList = true := by
      cases kind <;> decide
    rw [pieces_mk] at h
    obtain ⟨qs, hqs, rfl⟩ := Option.map_eq_some_iff.1 h
    obtain ⟨rest, rfl, -⟩ := place_join style hqs
    have : Severs style.quote ((Tree.joinKeyword kind).toList ++
        (written style rest ++ written style (Node.aliasPieces around alias_))) :=
      severs_of_opens hkeyword _
    simpa [Node.sourceText, Term.node, Node.kind, chars] using this
  · have : Severs style.quote (", ".toList ++ written style own) := severs_of_opens (by decide) _
    simpa [Node.sourceText, Term.node, hjoin] using this

/-! ## Tables -/

section

variable {name : String} {schema alias_ : Option String}

theorem adapts_table {above : NodeKind} {t' : Term}
    (h : Adapts d above (leaf (.table name schema alias_)) t') :
    t' = leaf (.table name schema alias_) := by
  obtain ⟨children, rfl, hchildren⟩ := h.fixed (fun _ => rfl) (by simp) rfl
  cases hchildren
  rfl

/-- What is adapted of a source reads from the same table. -/
theorem Term.ReadsFrom.adapts {source source' : Term}
    (h : source.ReadsFrom (leaf (.table name schema alias_)))
    (hs : Adapts d .fromClause source source') :
    source'.ReadsFrom (leaf (.table name schema alias_)) := by
  cases h with
  | only =>
    rw [adapts_table hs]
    exact .only _
  | joined kind _ condition =>
    obtain ⟨children, rfl, hchildren⟩ := hs.fixed (fun _ => rfl) (by simp) rfl
    cases hchildren with
    | cons htable hcondition =>
      rw [adapts_table htable]
      exact .joined kind _ _

variable (style) in
/-- A source writes the table that it reads from, and then what severs it from the rest. -/
theorem Term.ReadsFrom.split {source : Term}
    (h : source.ReadsFrom (leaf (.table name schema alias_))) {around : Around} {own : List Piece}
    (hown : source.pieces around = some own) :
    ∃ front back, own = front ++ (Node.tablePieces name schema alias_ ++ back) ∧
      Severs style.quote (written style back) := by
  have htable (around : Around) : (leaf (.table name schema alias_)).pieces around =
      some (Node.tablePieces name schema alias_) := by
    rw [leaf, of, pieces_mk]
    simp [Node.shape, Node.form]
  cases h with
  | only =>
    rw [htable] at hown
    cases hown
    exact ⟨[], [], by simp, trivial⟩
  | joined kind _ condition =>
    rw [of, pieces_mk] at hown
    obtain ⟨qs, hqs, rfl⟩ := Option.map_eq_some_iff.1 hown
    obtain ⟨rest, rfl, hparts⟩ := place_join style hqs
    obtain ⟨own, after, hfirst, rfl, hafter⟩ := hparts _ _ rfl
    cases (htable _).symm.trans hfirst
    exact ⟨[.raw (Tree.joinKeyword kind)], after, by simp, hafter⟩

/-- Whether a select is written in brackets. -/
def isNested (around : Around) : Bool :=
  around.above != none && around.above != some .empty

theorem select_form (around : Around) : Node.select.form around =
    .listed (Node.bracket (isNested around) "(" ++ [.raw "SELECT"]) (Node.sameText "")
      (Node.bracket (isNested around) ")") := rfl

variable (style) in
/-- A select writes each table of its `FROM` clause, and then what severs it from the rest. -/
theorem select_table {around : Around} {before sources after : List Term} {source : Term}
    {ps : List Piece} (hsource : source ∈ sources)
    (hreads : source.ReadsFrom (leaf (.table name schema alias_)))
    (hafter : ∀ t ∈ after, ∃ u, u.Trailing ∧ Adapts d .select u t)
    (h : pieces around (of .select (before ++ of .fromClause sources :: after)) = some ps) :
    ∃ front back, ps = front ++ (Node.tablePieces name schema alias_ ++ back) ∧
      Severs style.quote (written style back) := by
  obtain ⟨earlier, later, rfl⟩ := List.append_of_mem hsource
  obtain ⟨front₁, clause, rest₁, _, hclause, hrest₁, rfl⟩ := listed_split (select_form around) h
  obtain ⟨front₂, own, rest₂, _, hown, hrest₂, rfl⟩ := listed_split rfl hclause
  obtain ⟨front₃, back, rfl, hback⟩ := hreads.split style hown
  -- Behind the table come the rest of its source, the other sources, the other clauses, a bracket.
  have hlater : Severs style.quote (written style rest₂) := by
    refine Part.separated_severs (fun p hp own hown i b => ?_) hrest₂
    obtain ⟨t, -, rfl⟩ := List.mem_map.1 hp
    exact severs_source hown i b
  have hclauses : Severs style.quote (written style rest₁) := by
    refine severs_clauses (d := d) (fun p hp => ?_) hrest₁
    obtain ⟨t, ht, rfl⟩ := List.mem_map.1 hp
    obtain ⟨u, hu, hadapts⟩ := hafter t ht
    exact ⟨u, _, hu, hadapts, rfl⟩
  refine ⟨front₁ ++ (front₂ ++ front₃),
    back ++ (rest₂ ++ (rest₁ ++ Node.bracket (isNested around) ")")), ?_, ?_⟩
  · simp only [List.append_assoc, List.nil_append]
  · simp only [written_append]
    exact hback.append (hlater.append (hclauses.append (severs_bracket _)))

end

/-! ## Adapted selects -/

variable (style) in
theorem severs_rowNumbers (limit offset : UInt64) :
    Severs style.quote (RowNumbers.tail limit offset).toList := by
  unfold RowNumbers.tail
  split
  · exact severs_word (by decide) _
  · split
    · exact severs_word (by decide) _
    · simp only [String.append_assoc]
      exact severs_word (by decide) _

variable (style) in
/-- The text of an adapted select has the select with its adapted clauses in it, and then what
severs it from the rest. -/
theorem adapted_split {children : List Term} {ps : List Piece}
    (hnone : ((of .select children).adapted d).2 = none)
    (hps : ((of .select children).adapted d).1.pieces .outermost = some ps) :
    ∃ children' around own front back, List.Forall₂ (Adapts d .select) children children' ∧
      (of .select children').pieces around = some own ∧ ps = front ++ (own ++ back) ∧
      Severs style.quote (written style back) := by
  obtain ⟨children', hadapts, hterm | ⟨limit, offset, hterm⟩⟩ := adapted_select hnone
  · rw [hterm] at hps
    exact ⟨children', _, ps, [], [], hadapts, hps, by simp, trivial⟩
  · rw [hterm] at hps
    have hps : pieces .outermost (.mk .select none ([text (RowNumbers.head offset)] ++
        of .select children' :: [text (RowNumbers.tail limit offset)])) = some ps := hps
    obtain ⟨front, own, rest, _, hown, hrest, rfl⟩ :=
      listed_split (select_form .outermost) hps
    have hclosing : Node.bracket (isNested .outermost) ")" = [] := rfl
    refine ⟨children', _, own, front, rest, hadapts, hown, by simp [hclosing], ?_⟩
    refine Part.separated_severs (fun p hp own hown i b => ?_) hrest
    obtain ⟨t, ht, rfl⟩ := List.mem_map.1 hp
    obtain rfl := List.mem_singleton.1 ht
    rw [text, leaf, of, pieces_mk] at hown
    cases hown
    simpa [Node.sameText, chars] using severs_rowNumbers style limit offset

namespace Selection

/-- The clauses behind the tables. -/
def trailing (sel : Selection) : List Term :=
  clause .whereClause sel.condition.toList ++ (clause .groupBy sel.groups ++
    (clause .having sel.having.toList ++ (clause .orderBy sel.orders ++
      [leaf (.limitOffset sel.limit sel.offset)])))

theorem toTerm_eq (sel : Selection) :
    sel.toTerm = of .select ((if sel.distinct then [leaf .distinct] else []) ++
      of .result sel.results :: (clause .fromClause sel.sources ++ sel.trailing)) := by
  simp [toTerm, trailing]

theorem trailing_clause {node : Node} {ts : List Term} (hnode : Trailing (of node ts)) :
    ∀ t ∈ clause node ts, t.Trailing := by
  intro t ht
  unfold clause at ht
  split at ht
  · cases ht
  · rw [List.mem_singleton.1 ht]
    exact hnode

theorem trailing_trailing (sel : Selection) : ∀ t ∈ sel.trailing, t.Trailing := by
  simp only [trailing, List.forall_mem_append, List.forall_mem_singleton]
  exact ⟨trailing_clause (.whereClause _), trailing_clause (.groupBy _),
    trailing_clause (.having _), trailing_clause (.orderBy _), .limit _ _⟩

/-- The clauses of a selection around its sources. -/
theorem toTerm_sources (sel : Selection) (h : sel.sources ≠ []) :
    ∃ before, sel.toTerm = of .select (before ++ of .fromClause sel.sources :: sel.trailing) := by
  refine ⟨(if sel.distinct then [leaf .distinct] else []) ++ [of .result sel.results], ?_⟩
  simp [toTerm_eq, clause, h]

/-- The text of an adapted selection has each table that it reads from, and then what severs it from
the rest. -/
theorem table_split {name : String} {schema alias_ : Option String} {sel : Selection}
    {source : Term} {ps : List Piece} (hsource : source ∈ sel.sources)
    (hreads : source.ReadsFrom (leaf (.table name schema alias_)))
    (hnone : (sel.toTerm.adapted d).2 = none)
    (hps : (sel.toTerm.adapted d).1.pieces .outermost = some ps) :
    ∃ front back, ps = front ++ (Node.tablePieces name schema alias_ ++ back) ∧
      Severs style.quote (written style back) := by
  obtain ⟨before, hterm⟩ := sel.toTerm_sources (List.ne_nil_of_mem hsource)
  rw [hterm] at hnone hps
  obtain ⟨children, around, own, front, back, hadapts, hown, rfl, hback⟩ :=
    adapted_split style hnone hps
  obtain ⟨before', clause, after', rfl, -, hclause, hafter'⟩ := forall₂_split hadapts
  obtain ⟨sources, rfl, hsources⟩ := hclause.fixed (fun _ => rfl) (by simp) rfl
  obtain ⟨earlier, later, he⟩ := List.append_of_mem hsource
  rw [he] at hsources
  obtain ⟨earlier', source', later', rfl, -, hsource', -⟩ := forall₂_split hsources
  obtain ⟨front', back', rfl, hback'⟩ := select_table (d := d) style
    (List.mem_append_right earlier' List.mem_cons_self) (hreads.adapts hsource')
    (fun t ht => by
      obtain ⟨u, hu, hadapts⟩ := forall₂_mem_right hafter' t ht
      exact ⟨u, sel.trailing_trailing u hu, hadapts⟩) hown
  refine ⟨front ++ front', back' ++ back, by simp only [List.append_assoc], ?_⟩
  rw [written_append]
  exact hback'.append hback

/-- The text of an adapted selection has each raw text among its results. -/
theorem text_split {sel : Selection} {s : String} {ps : List Piece}
    (hresult : text s ∈ sel.results) (hnone : (sel.toTerm.adapted d).2 = none)
    (hps : (sel.toTerm.adapted d).1.pieces .outermost = some ps) :
    ∃ front back, ps = front ++ .raw s :: back := by
  rw [toTerm_eq] at hnone hps
  obtain ⟨children, around, own, front, back, hadapts, hown, rfl, -⟩ :=
    adapted_split ⟨.never, '"'⟩ hnone hps
  obtain ⟨before, clause, after, rfl, -, hclause, -⟩ := forall₂_split hadapts
  obtain ⟨results, rfl, hresults⟩ := hclause.fixed (fun _ => rfl) (by simp) rfl
  obtain ⟨earlier, later, he⟩ := List.append_of_mem hresult
  rw [he] at hresults
  obtain ⟨earlier', t', later', rfl, -, ht', -⟩ := forall₂_split hresults
  obtain ⟨below, rfl, hbelow⟩ := ht'.fixed (fun _ => rfl) (by simp) rfl
  cases hbelow
  obtain ⟨front₁, list, rest₁, _, hlist, -, rfl⟩ := listed_split (select_form around) hown
  obtain ⟨front₂, item, rest₂, _, hitem, -, rfl⟩ := listed_split rfl hlist
  rw [pieces_mk] at hitem
  cases hitem
  refine ⟨front ++ (front₁ ++ front₂),
    rest₂ ++ (rest₁ ++ (Node.bracket (isNested around) ")" ++ back)), ?_⟩
  simp

end Selection

/-! ## Translated selects -/

namespace Translator

/-- The text of a translated query, by the selection that the query is converted to. -/
theorem translateTree_selection {tr : Translator} {sel : Selection} {t' : Tree}
    {rendered : RenderedSql} (hy : Yields tr.translateTree sel.toTerm.build (.ok rendered) t') :
    (sel.toTerm.adapted tr.dialect).2 = none ∧
      ∃ ps, (sel.toTerm.adapted tr.dialect).1.pieces .outermost = some ps ∧
        ((Sink.new tr.style).putAll ps).finish = rendered := by
  have hwf := sel.toTerm.build_wellFormed
  have hquery := sel.toTerm.build_term
  exact Term.translated_some ((translateTree_iff tr hwf hquery).1 ⟨t', hy⟩)

/-- In the SQL of a select every table that it reads from reads back as the names by which the tree
keeps it, which are those of the source if and only if the table is plain. A qualified asterisk
reads back as its qualifier if that is written as the dialect writes names. -/
theorem translateTree_names (tr : Translator) {catalog : Catalog} {q : Sql.Query} {s : Sql.Select}
    {t t' : Tree} {rendered : RenderedSql} (hselects : q.Selects s)
    (htree : Canonical.tree catalog (.query q) = .ok t)
    (hy : Yields tr.translateTree t (.ok rendered) t') :
    (∀ factor ∈ s.tables, ∃ table alias_ clauses, factor = .table table alias_ clauses ∧
      ∃ before after, rendered.sql.toList = before ++ after ∧
        path (read tr.dialect.quoteChar after) = Sql.tableNames table ∧
        (Sql.tableNames table = table.map (·.value) ↔ Sql.PlainTable table)) ∧
    ∀ table options, .qualifiedWildcard table options ∈ s.items → table ≠ [] →
      (∀ n ∈ table, n.Faithful tr.dialect.quoteChar) →
      ∃ before after, rendered.sql.toList = before ++ after ∧
        path (read tr.dialect.quoteChar after) = table.map (·.value) := by
  have hquote : Placeholder.IsDelimiter tr.style.quote := quoteChar_isDelimiter tr.dialect
  obtain ⟨sel, rfl, hitems, hsources, -⟩ := Canonical.tree_select hselects htree
  obtain ⟨hnone, ps, hps, rfl⟩ := translateTree_selection hy
  rw [Sink.finish_written]
  constructor
  · intro factor hfactor
    obtain ⟨term, hterm, source, hsource, hreads⟩ := Canonical.sourceTerms_reads hsources hfactor
    obtain ⟨table, alias_, clauses, rfl⟩ : ∃ table alias_ clauses,
        factor = .table table alias_ clauses := by
      cases factor with
      | table table alias_ clauses => exact ⟨table, alias_, clauses, rfl⟩
      | _ => cases hterm
    cases hterm
    obtain ⟨name, schema, hleaf, hnames⟩ := Sql.tableOf_names table (alias_.map (·.name.value))
    rw [hleaf] at hreads
    obtain ⟨front, back, rfl, hback⟩ := Selection.table_split hsource hreads hnone hps
    have hpath := path_tablePieces hquote name schema (alias_.map (·.name.value)) hback
    rw [hnames] at hpath
    refine ⟨table, alias_, clauses, rfl, written tr.style front, _, ?_, hpath,
      Sql.tableNames_iff table⟩
    simp only [written_append]
  · intro table options hitem hne hfaithful
    obtain ⟨term, hmem, hterm⟩ := Canonical.itemTerms_mem hitems hitem
    cases hterm
    obtain ⟨front, back, rfl⟩ := Selection.text_split hmem hnone hps
    obtain ⟨n, path, rfl⟩ := List.exists_cons_of_ne_nil hne
    have hsigns : IsSign tr.style.quote '.' ∧ IsSign tr.style.quote '*' := by
      rcases hquote with he | he <;> rw [he] <;> decide
    have hpath := Sql.path_pathText (isPlainPart_quote hquote) hsigns.1 hsigns.2 hfaithful
      (options.written.toList ++ written tr.style back)
    refine ⟨written tr.style front, _, ?_, hpath⟩
    simp [chars, Sql.SelectItem.text]

/-- `SELECT u.* FROM my.u JOIN b ON a`. -/
def joinedTables : Sql.Query :=
  .selecting [.qualifiedWildcard [.bare "u"] ⟨.empty, none, none, none, none, none⟩]
    [⟨.named [.bare "my", .bare "u"],
      [⟨false, .join, .named [.bare "b"], none, .on (.identifier (.bare "a"))⟩]⟩]

theorem translateTree_names_joinedTables : ∃ s t rendered t', joinedTables.Selects s ∧
    Canonical.tree .empty (.query joinedTables) = .ok t ∧
    Yields (translateTree ⟨.mysql, .always⟩) t (.ok rendered) t' ∧
    rendered.sql = "SELECT u.* FROM `my`.`u` JOIN `b` ON `a`" ∧
    ((∀ factor ∈ s.tables, ∃ table alias_ clauses, factor = .table table alias_ clauses ∧
      ∃ before after, rendered.sql.toList = before ++ after ∧
        path (read '`' after) = Sql.tableNames table ∧
        (Sql.tableNames table = table.map (·.value) ↔ Sql.PlainTable table)) ∧
    ∀ table options, .qualifiedWildcard table options ∈ s.items → table ≠ [] →
      (∀ n ∈ table, n.Faithful '`') →
      ∃ before after, rendered.sql.toList = before ++ after ∧
        path (read '`' after) = table.map (·.value)) := by
  let sel : Selection := { Selection.empty with
    results := [.text "u.*"]
    sources := [leaf (.table "u" (some "my") none),
      .of (.join .inner) [leaf (.table "b" none none), leaf (.column ⟨none, "a", none⟩)]] }
  have hselects : joinedTables.Selects _ := .direct rfl
  have htree : Canonical.tree .empty (.query joinedTables) = .ok sel.toTerm.build := by rfl
  have hsql : sel.toTerm.translated ⟨.mysql, .always⟩ =
      some ⟨"SELECT u.* FROM `my`.`u` JOIN `b` ON `a`", []⟩ := by
    rw [Term.translated, Term.adapted_within]
    decide +kernel
  obtain ⟨t', hy⟩ := (translateTree_iff ⟨.mysql, .always⟩ sel.toTerm.build_wellFormed
    sel.toTerm.build_term).2 hsql
  exact ⟨_, _, _, t', hselects, htree, hy, rfl,
    translateTree_names ⟨.mysql, .always⟩ hselects htree hy⟩

/-- `SELECT a FROM "my table"`. -/
def quotedTable : Sql.Query :=
  .selecting [.expr (.identifier (.bare "a"))] [⟨.named [⟨"my table", some '"', .empty⟩], []⟩]

/-- The quotes of a table come to be part of its name. -/
theorem quotedTable_misnamed : ∃ t rendered t',
    Canonical.tree .empty (.query quotedTable) = .ok t ∧
    Yields (translateTree ⟨.postgresql, .whenNeeded⟩) t (.ok rendered) t' ∧
    rendered.sql = "SELECT a FROM \"\"\"my table\"\"\"" ∧
    ∀ before after, rendered.sql.toList = before ++ after →
      path (read '"' after) ≠ ["my table"] := by
  let sel : Selection := { Selection.empty with
    results := [leaf (.column ⟨none, "a", none⟩)]
    sources := [leaf (.table "\"my table\"" none none)] }
  have htree : Canonical.tree .empty (.query quotedTable) = .ok sel.toTerm.build := by rfl
  have hsql : sel.toTerm.translated ⟨.postgresql, .whenNeeded⟩ =
      some ⟨"SELECT a FROM \"\"\"my table\"\"\"", []⟩ := by
    rw [Term.translated, Term.adapted_within]
    decide +kernel
  obtain ⟨t', hy⟩ := (translateTree_iff ⟨.postgresql, .whenNeeded⟩ sel.toTerm.build_wellFormed
    sel.toTerm.build_term).2 hsql
  refine ⟨_, _, t', htree, hy, rfl, fun before after hsplit => ?_⟩
  have htails : ∀ after ∈ "SELECT a FROM \"\"\"my table\"\"\"".toList.tails,
      path (read '"' after) ≠ ["my table"] := by decide
  exact htails after ((List.mem_tails _ _).2 ⟨before, hsplit.symm⟩)

end Translator
end PolyglotSql
