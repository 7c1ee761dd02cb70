import PolyglotSql.Proofs.Canonical.Selects
import PolyglotSql.Proofs.Canonical.Shapes
import PolyglotSql.Proofs.Rendering.Paging

/-!
# PolyglotSql.Proofs.Canonical.Limits

The rows that a query asks for. Its levels of brackets may each state a limit, which applies to the
rows that the level inside of it leaves (`Sql.Query.limits`). The tree of the query has one limit, to
which the outermost that is stated sets both numbers: these are the rows asked for exactly if the
levels inside have left enough (`tree_limit`). A limit of zero is no limit in the tree, so that it
is translated like none (`translateTree_limit`).
-/

namespace PolyglotSql

/-- Rows that follow each other: all behind those skipped, or a number of them. -/
structure Slice where
  skip : Nat
  count : Option Nat
deriving DecidableEq

namespace Slice

def all : Slice := ⟨0, none⟩

/-- The rows of a slice. -/
def rows {α : Type} (s : Slice) (given : List α) : List α :=
  match s.count with
  | none => given.drop s.skip
  | some n => (given.drop s.skip).take n

/-- A slice of a slice. -/
def of (outer inner : Slice) : Slice :=
  ⟨inner.skip + outer.skip,
    match outer.count, inner.count with
    | count, none => count
    | none, some n => some (n - outer.skip)
    | some l, some n => some (min l (n - outer.skip))⟩

/-- The slice leaves every row that another takes. -/
def Spares (s outer : Slice) : Prop :=
  s.skip = 0 ∧ ∀ n ∈ s.count, ∃ l ∈ outer.count, outer.skip + l ≤ n

variable {α : Type}

theorem rows_getElem? (s : Slice) (given : List α) (i : Nat) :
    (s.rows given)[i]? = if s.count.all (i < ·) then given[s.skip + i]? else none := by
  obtain ⟨skip, count⟩ := s
  cases count with
  | none => simp [rows]
  | some n => simp [rows, List.getElem?_take]

theorem rows_all (given : List α) : all.rows given = given := rfl

theorem rows_of (outer inner : Slice) (given : List α) :
    (outer.of inner).rows given = outer.rows (inner.rows given) := by
  obtain ⟨skip, count⟩ := outer
  obtain ⟨skip', count'⟩ := inner
  cases count <;> cases count' <;>
    simp [rows, of, List.drop_take, List.take_take]

theorem rows_foldr (slices : List Slice) (given : List α) :
    (slices.foldr of all).rows given = slices.foldr rows given := by
  induction slices with
  | nil => exact rows_all given
  | cons s slices ih => rw [List.foldr_cons, List.foldr_cons, rows_of, ih]

/-- Slices that have the same rows of any list are the same, unless they have none. -/
theorem rows_injective {s s' : Slice} (hs : s'.count ≠ some 0)
    (h : ∀ given : List Nat, s.rows given = s'.rows given) : s = s' := by
  obtain ⟨skip, count⟩ := s
  obtain ⟨skip', count'⟩ := s'
  -- which rows of a long list of numbers the slices have
  have hget (i : Nat) : (if count.all (i < ·) then some (skip + i) else none) =
      if count'.all (i < ·) then some (skip' + i) else none := by
    have hi := congrArg (·[i]?) (h (List.range (skip + skip' + i + 1)))
    simp only [rows_getElem?, List.getElem?_range (show skip + i < skip + skip' + i + 1 by omega),
      List.getElem?_range (show skip' + i < skip + skip' + i + 1 by omega)] at hi
    exact hi
  have hfirst : count'.all (0 < ·) = true := by
    cases count' with
    | none => rfl
    | some n => simpa [Nat.pos_iff_ne_zero] using hs
  obtain rfl : skip = skip' := by
    have := hget 0
    rw [if_pos hfirst] at this
    split at this <;> simp_all
  have hcount (i : Nat) : count.all (i < ·) = count'.all (i < ·) := by
    have := hget i
    split at this <;> split at this <;> simp_all
  cases count with
  | none =>
    cases count' with
    | none => rfl
    | some n' => simpa using hcount n'
  | some n =>
    cases count' with
    | none => simpa using hcount n
    | some n' =>
      have hn := hcount n
      have hn' := hcount n'
      simp only [Option.all_some, Nat.lt_irrefl, decide_false] at hn hn'
      simp only [eq_comm (a := false), decide_eq_false_iff_not] at hn hn'
      rw [show n = n' by omega]

theorem spares_of {s s' outer : Slice} :
    (s.of s').Spares outer ↔ s.Spares outer ∧ s'.Spares outer := by
  obtain ⟨skip, count⟩ := s
  obtain ⟨skip', count'⟩ := s'
  obtain ⟨skip'', count''⟩ := outer
  cases count <;> cases count' <;> cases count'' <;> simp [Spares, of] <;> omega

theorem spares_foldr {slices : List Slice} {outer : Slice} :
    (slices.foldr of all).Spares outer ↔ ∀ s ∈ slices, s.Spares outer := by
  induction slices with
  | nil => simp [all, Spares]
  | cons s slices ih => rw [List.foldr_cons, spares_of, ih, List.forall_mem_cons]

/-- A slice of what another leaves is the same slice of all rows exactly if it is spared. -/
theorem of_eq_iff {outer s : Slice} (h : outer.count ≠ some 0) :
    outer.of s = outer ↔ s.Spares outer := by
  obtain ⟨skip, count⟩ := outer
  obtain ⟨skip', count'⟩ := s
  cases count <;> cases count' <;> simp [Spares, of] at h ⊢
  omega

/-- The outermost of some slices alone has the rows of all exactly if the others spare it. -/
theorem outermost_rows {slices : List Slice} (h : ∀ s ∈ slices, s.count ≠ some 0) :
    (∀ {α : Type} (given : List α), (slices.headD all).rows given = slices.foldr rows given) ↔
      ∀ s ∈ slices.tail, s.Spares (slices.headD all) := by
  cases slices with
  | nil => simp [rows_all]
  | cons outer slices =>
    have houter := h outer (.head _)
    rw [List.headD_cons, List.tail_cons, ← spares_foldr, ← of_eq_iff houter]
    simp only [List.foldr_cons, ← rows_foldr, ← rows_of]
    constructor
    · exact fun hrows => rows_injective houter fun given => (hrows given).symm
    · exact fun heq _ given => by rw [heq]

end Slice

/-! ## Stated limits -/

namespace Sql

/-- The number that a literal of digits writes. -/
def Expr.natural? : Expr → Option Nat
  | .literal (.number digits _) _ => Text.readDigits? digits.toList
  | _ => none

/-- The rows that a clause asks for. -/
def LimitClause.slice? : LimitClause → Option Slice
  | .limitOffset limit offset _ => do
    let count ← limit.mapM Expr.natural?
    let skip ← offset.mapM fun o => o.value.natural?
    some ⟨skip.getD 0, count⟩
  | .offsetComma offset limit => do
    some ⟨← offset.natural?, some (← limit.natural?)⟩

mutual

/-- The limits that a query in brackets states, the outermost first. -/
def Query.limits : Query → List LimitClause
  | ⟨_, body, _, _, limit, _, _, _, _, _, _⟩ => limit.toList ++ body.limits

def QueryBody.limits : QueryBody → List LimitClause
  | .nested q => q.limits
  | _ => []

end

theorem Query.limits_append (q : Query) : q.limits = q.limit.toList ++ q.body.limits := by
  obtain ⟨_, body, _, _, limit, _, _, _, _, _, _⟩ := q
  rw [Query.limits]

end Sql

/-- The limit of a select is that of a slice; no limit is zero. -/
def Selection.Limits (s : Selection) (slice : Slice) : Prop :=
  s.limit.toNat = slice.count.getD 0 ∧ s.offset.toNat = slice.skip

/-- The clauses of a select but for the row limit. -/
def Selection.clauses (s : Selection) : List Term :=
  (if s.distinct then [Term.leaf .distinct] else [])
    ++ [Term.of .result s.results]
    ++ clause .fromClause s.sources
    ++ clause .whereClause s.condition.toList
    ++ clause .groupBy s.groups
    ++ clause .having s.having.toList
    ++ clause .orderBy s.orders

namespace Selection

theorem toTerm_limiting (s : Selection) :
    s.toTerm = .limiting none s.clauses [] s.limit s.offset := rfl

theorem clauses_sole (s : Selection) : Term.SoleLimit s.clauses [] := by
  intro c hc
  have hclause {node : Node} {terms : List Term} (h : c ∈ clause node terms) : c.node = node := by
    unfold clause at h
    split at h
    · cases h
    · rw [List.mem_singleton.1 h]
      rfl
  simp only [clauses, List.append_nil, List.mem_append] at hc
  rcases hc with (((((hc | hc) | hc) | hc) | hc) | hc) | hc
  · split at hc
    · rw [List.mem_singleton.1 hc]
      rfl
    · cases hc
  · rw [List.mem_singleton.1 hc]
    rfl
  all_goals
    rw [hclause hc]
    rfl

theorem Limits.slice_rows {s : Selection} {slice : Slice} (h : s.Limits slice)
    (hcount : slice.count ≠ some 0) {α : Type} (given : List α) :
    window s.limit s.offset given = slice.rows given := by
  obtain ⟨skip, count⟩ := slice
  obtain ⟨hlimit, rfl⟩ := h
  cases count with
  | none =>
    have hzero : s.limit = 0 := UInt64.toNat_inj.1 hlimit
    rw [window, if_pos hzero, Slice.rows]
  | some n =>
    have hpos : s.limit ≠ 0 := by
      rintro hzero
      rw [hzero] at hlimit
      exact hcount (congrArg some hlimit.symm)
    rw [window, if_neg hpos, hlimit, Slice.rows]
    rfl

theorem Limits.all_rows {s : Selection} {slice : Slice} (h : s.Limits slice)
    (hcount : slice.count = some 0) {α : Type} (given : List α) :
    window s.limit s.offset given = given.drop slice.skip := by
  obtain ⟨hlimit, hoffset⟩ := h
  rw [hcount] at hlimit
  rw [window, if_pos (UInt64.toNat_inj.1 hlimit), hoffset]

end Selection

namespace Canonical

theorem rowCount_natural {e : Sql.Expr} {n : UInt64} (h : e.rowCount = .ok n) :
    e.natural? = some n.toNat := by
  unfold Sql.Expr.rowCount at h
  split at h
  · rename_i digits long span
    rw [Sql.Expr.natural?]
    split at h
    · rename_i m hread
      split at h
      · rename_i hm
        cases h
        rw [hread, UInt64.toNat_ofNat_of_lt' hm]
      · cases h
    · cases h
  · cases h

theorem mapM_natural {α : Type} {count : α → Except Refusal UInt64} {natural? : α → Option Nat}
    (hcount : ∀ {a n}, count a = .ok n → natural? a = some n.toNat) {part : Option α}
    {n? : Option UInt64} (h : part.mapM count = .ok n?) :
    part.mapM natural? = some (n?.map UInt64.toNat) := by
  cases part with
  | none =>
    cases h
    rfl
  | some a =>
    obtain ⟨n, hn, h⟩ := bind_eq_ok.1 h
    cases h
    simp [hcount hn]

theorem rowLimit_limits (s : Selection) (clause : Sql.LimitClause) :
    Gives (fun sel => ∃ slice, clause.slice? = some slice ∧ sel.Limits slice)
      (rowLimit s (some clause)) := by
  intro sel h
  cases clause with
  | limitOffset limit offset by_ =>
    obtain ⟨n, hn, h⟩ := bind_eq_ok.1 h
    obtain ⟨m, hm, h⟩ := bind_eq_ok.1 h
    cases h
    refine ⟨⟨(m.map UInt64.toNat).getD 0, n.map UInt64.toNat⟩, ?_, ?_, ?_⟩
    · rw [Sql.LimitClause.slice?, mapM_natural rowCount_natural hn, mapM_natural rowCount_natural hm]
      rfl
    · cases n <;> rfl
    · cases m <;> rfl
  | offsetComma offset limit =>
    obtain ⟨n, hn, h⟩ := bind_eq_ok.1 h
    obtain ⟨m, hm, h⟩ := bind_eq_ok.1 h
    cases h
    refine ⟨⟨m.toNat, some n.toNat⟩, ?_, rfl, rfl⟩
    rw [Sql.LimitClause.slice?, rowCount_natural hm, rowCount_natural hn]
    rfl

theorem selectSelection_limits (scope : Scope) (s : Sql.Select) :
    Gives (fun sel => sel.Limits .all) (selectSelection scope s) := by
  obtain ⟨token, flavor, distinct, top, items, into, sources, lateralViews, prewhere, condition,
    groupBy, clusterBy, distributeBy, sortBy, having, windows, qualify, windowsFirst,
    connectBy⟩ := s
  have hclauses (distinct : Bool) : Gives (fun sel => sel.Limits .all) (do
      let results ← itemTerms scope items
      let sources ← sourceTerms scope sources
      let condition ← optionalTerm scope condition
      let groups ← groupTerms scope groupBy
      let having ← optionalTerm scope having
      return { Selection.empty with distinct, results, sources, condition, groups, having }) :=
    (gives_any _).bind fun _ _ => (gives_any _).bind fun _ _ => (gives_any _).bind fun _ _ =>
      (gives_any _).bind fun _ _ => (gives_any _).map fun _ _ => ⟨rfl, rfl⟩
  cases distinct with
  | none => exact hclauses false
  | rows => exact hclauses true
  | on keys => exact gives_refused _

mutual

/-- The limit of a query's select is the outermost that the query states. -/
theorem querySelection_limits (scope : Scope) (q : Sql.Query) :
    Gives (fun sel => ∃ slices, q.limits.mapM Sql.LimitClause.slice? = some slices ∧
      sel.Limits (slices.headD .all)) (querySelection scope q) := by
  obtain ⟨withClause, body, orderBy, interpolate, limit, settings, fetch, locks, answer, format,
    steps⟩ := q
  cases withClause with
  | some shown => exact gives_refused _
  | none =>
    refine (bodySelection_limits scope body).bind fun ⟨s, inner⟩ ⟨slices, hslices, hs⟩ => ?_
    refine (gives_any _).bind fun orders _ => ?_
    obtain ⟨sorted, horders⟩ := addOrder_same s orders
    rw [horders, Sql.Query.limits]
    cases limit with
    | none => exact gives_ok ⟨slices, hslices, hs⟩
    | some clause =>
      refine fun sel hsel => ?_
      obtain ⟨slice, hslice, hlimits⟩ := rowLimit_limits _ clause sel hsel
      exact ⟨slice :: slices, by simp [hslice, hslices], hlimits⟩

theorem bodySelection_limits (scope : Scope) (body : Sql.QueryBody) :
    Gives (fun r => ∃ slices, body.limits.mapM Sql.LimitClause.slice? = some slices ∧
      r.1.Limits (slices.headD .all)) (bodySelection scope body) := by
  cases body with
  | select s => exact (selectSelection_limits _ s).map fun sel hsel => ⟨[], rfl, hsel⟩
  | nested q => exact (querySelection_limits scope q).map fun sel hsel => hsel
  | combined left op quantifier right => exact gives_refused _
  | other shown => exact gives_refused _

end

/-- Without the limit of its outermost level a query is the same but for the limit. -/
theorem querySelection_unlimited {scope : Scope} {q : Sql.Query} {sel : Selection}
    (h : querySelection scope q = .ok sel) :
    ∃ sel₀, querySelection scope { q with limit := none } = .ok sel₀ ∧
      sel.clauses = sel₀.clauses := by
  obtain ⟨withClause, body, orderBy, interpolate, limit, settings, fetch, locks, answer, format,
    steps⟩ := q
  cases withClause with
  | some shown => cases h
  | none =>
    obtain ⟨⟨s, inner⟩, hbody, h⟩ := bind_eq_ok.1 h
    obtain ⟨orders, horders, h⟩ := bind_eq_ok.1 h
    obtain ⟨limit, offset, rfl⟩ := rowLimit_same h
    exact ⟨_, bind_eq_ok.2 ⟨_, hbody, bind_eq_ok.2 ⟨_, horders, rfl⟩⟩, rfl⟩

variable {catalog : Catalog} {q : Sql.Query} {t : Tree}

/-- The row limit of a query's tree is the outermost that the query states. If none is zero, it has
the rows that the levels ask for, from the innermost outwards, exactly if the others leave every row
that the outermost takes. -/
theorem tree_limit (h : tree catalog (.query q) = .ok t) :
    ∃ clauses limit offset slices, t = (Term.limiting none clauses [] limit offset).build ∧
      Term.SoleLimit clauses [] ∧ q.limits.mapM Sql.LimitClause.slice? = some slices ∧
      limit.toNat = (slices.headD .all).count.getD 0 ∧ offset.toNat = (slices.headD .all).skip ∧
      ((∀ s ∈ slices, s.count ≠ some 0) →
        ((∀ {α : Type} (given : List α),
            window limit offset given = slices.foldr Slice.rows given) ↔
          ∀ s ∈ slices.tail, s.Spares (slices.headD .all))) := by
  obtain ⟨sel, hsel, h⟩ := bind_eq_ok.1 h
  cases h
  obtain ⟨slices, hslices, hlimits⟩ := querySelection_limits _ q sel hsel
  refine ⟨sel.clauses, sel.limit, sel.offset, slices, rfl, sel.clauses_sole, hslices, hlimits.1,
    hlimits.2, fun hcounts => ?_⟩
  rw [← Slice.outermost_rows hcounts]
  have houter : (slices.headD .all).count ≠ some 0 := by
    cases slices with
    | nil => nofun
    | cons outer slices => exact hcounts outer (.head _)
  simp only [hlimits.slice_rows houter]

/-- `LIMIT n`. -/
def limitOf (digits : String) : Sql.LimitClause :=
  .limitOffset (some (.literal (.number digits false) .empty)) none []

/-- `SELECT a FROM t`, with a limit. -/
def columnRows (limit : Option Sql.LimitClause) : Sql.Query :=
  { Sql.Query.selecting [.expr (.identifier (.bare "a"))] [⟨.named [.bare "t"], []⟩] with limit }

/-- `(q)`, with a limit. -/
def bracketedRows (q : Sql.Query) (limit : Option Sql.LimitClause) : Sql.Query :=
  { Sql.Query.selecting [] [] with body := .nested q, limit }

/-- The clauses of `SELECT a FROM t`. -/
def columnClauses : List Term :=
  [.of .result [.leaf (.column ⟨none, "a", none⟩)], .of .fromClause [.leaf (.table "t" none none)]]

/-- `LIMIT 5, 2`. -/
def twoBehindFive : Sql.LimitClause :=
  .offsetComma (.literal (.number "5" false) .empty) (.literal (.number "2" false) .empty)

/-- `(SELECT a FROM t LIMIT 7) LIMIT 5, 2`. -/
def sparedRows : Sql.Query :=
  bracketedRows (columnRows (some (limitOf "7"))) (some twoBehindFive)

theorem tree_limit_sparedRows : ∃ clauses limit offset slices,
    tree .empty (.query sparedRows) = .ok (Term.limiting none clauses [] limit offset).build ∧
    sparedRows.limits.mapM Sql.LimitClause.slice? = some slices ∧
    slices = [⟨5, some 2⟩, ⟨0, some 7⟩] ∧ limit.toNat = 2 ∧ offset.toNat = 5 ∧
    ∀ {α : Type} (given : List α), window limit offset given = slices.foldr Slice.rows given := by
  have htree : tree .empty (.query sparedRows) =
      .ok (Term.limiting none columnClauses [] 2 5).build := by rfl
  obtain ⟨clauses, limit, offset, slices, ht, -, hslices, hlimit, hoffset, hiff⟩ :=
    tree_limit htree
  obtain rfl : slices = [⟨5, some 2⟩, ⟨0, some 7⟩] :=
    Option.some.inj (hslices.symm.trans (by decide +kernel))
  exact ⟨clauses, limit, offset, _, ht ▸ htree, hslices, rfl, hlimit, hoffset,
    (hiff (by decide)).2 (by simp [Slice.Spares])⟩

/-- `(SELECT a FROM t LIMIT 5) LIMIT 10` gets ten rows, where five are asked for. -/
theorem innerLimit_lost : ∃ q slices,
    q = bracketedRows (columnRows (some (limitOf "5"))) (some (limitOf "10")) ∧
    tree .empty (.query q) = .ok (Term.limiting none columnClauses [] 10 0).build ∧
    q.limits.mapM Sql.LimitClause.slice? = some slices ∧
    slices.foldr Slice.rows (List.range 10) = List.range 5 ∧
    window 10 0 (List.range 10) = List.range 10 := by
  refine ⟨_, [⟨0, some 10⟩, ⟨0, some 5⟩], rfl, by rfl, by decide +kernel, by decide, by decide⟩

/-- A limit that is stated once, on the outside, is translated to one that has the rows asked for, in
every dialect, unless it is zero; then it has all rows behind the offset, and the translation is that
of the query without a limit if there is no offset. No clause is written behind the limit. -/
theorem translateTree_limit (tr : Translator) {clause : Sql.LimitClause} {rendered : RenderedSql}
    (hbody : q.body.limits = []) (hlimit : q.limit = some clause)
    (h : tree catalog (.query q) = .ok t)
    (htr : ∃ t', Yields tr.translateTree t (.ok rendered) t') :
    ∃ slice t₀ rendered₀ page head, clause.slice? = some slice ∧
      tree catalog (.query { q with limit := none }) = .ok t₀ ∧
      (∃ t', Yields tr.translateTree t₀ (.ok rendered₀) t') ∧
      rendered.bindings = rendered₀.bindings ∧
      Term.Paged tr.dialect page head [] rendered₀.sql.toList rendered.sql.toList ∧
      (slice.count ≠ some 0 → ∀ {α : Type} (given : List α), given.length < 2 ^ 63 →
        page.rows given = slice.rows given) ∧
      (slice.count = some 0 → ∀ {α : Type} (given : List α), given.length < 2 ^ 63 →
        page.rows given = given.drop slice.skip) ∧
      (slice = ⟨0, some 0⟩ → t₀ = t) := by
  obtain ⟨sel, hsel, h⟩ := bind_eq_ok.1 h
  cases h
  obtain ⟨sel₀, hsel₀, hclauses⟩ := querySelection_unlimited hsel
  obtain ⟨slices, hslices, hlimits⟩ := querySelection_limits _ q sel hsel
  obtain ⟨slices₀, hslices₀, hlimits₀⟩ := querySelection_limits _ _ sel₀ hsel₀
  rw [q.limits_append, hlimit, hbody] at hslices
  rw [Sql.Query.limits_append, hbody] at hslices₀
  obtain rfl : slices₀ = [] := (Option.some.inj hslices₀).symm
  obtain ⟨slice, hslice, rfl⟩ : ∃ slice, clause.slice? = some slice ∧ slices = [slice] := by
    cases hslice : clause.slice? with
    | none => simp [hslice] at hslices
    | some slice => exact ⟨slice, rfl, by simpa [hslice, eq_comm] using hslices⟩
  rw [List.headD_cons] at hlimits
  -- without its limit, the query has the other clauses and a limit of all rows
  have hunlimited : sel₀.toTerm = .limiting none sel.clauses [] 0 0 := by
    rw [Selection.toTerm_limiting, hclauses, show sel₀.limit = 0 from UInt64.toNat_inj.1 hlimits₀.1,
      show sel₀.offset = 0 from UInt64.toNat_inj.1 hlimits₀.2]
  have hsql := (Translator.translateTree_iff tr sel.toTerm.build_wellFormed
    sel.toTerm.build_term).1 htr
  obtain ⟨hnone, ps, hps, rfl⟩ := Term.translated_some hsql
  obtain ⟨hnone₀, plain, around, head, tail, page, own, own', hplain, -, htail, hown, hown', hpaged,
    hkeeps, hvalues⟩ := Term.limiting_paged tr.style sel.clauses_sole hnone hps
  rw [← hunlimited] at hnone₀ hplain
  -- the limit is the last clause, and no brackets are around a whole query
  obtain rfl : [] = tail := Option.some.inj htail
  obtain rfl : Piece.written tr.style plain = own := hown.trans (List.append_nil own)
  obtain rfl : Piece.written tr.style ps = own' := hown'.trans (List.append_nil own')
  refine ⟨slice, _, _, page, head, hslice, bind_eq_ok.2 ⟨sel₀, hsel₀, rfl⟩,
    (Translator.translateTree_iff tr sel₀.toTerm.build_wellFormed sel₀.toTerm.build_term).2
      (Term.translated_of hnone₀ hplain),
    Sink.finish_bindings hvalues, ?_, fun hcount α given hgiven => ?_,
    fun hcount α given hgiven => ?_, ?_⟩
  · rwa [Sink.finish_written, Sink.finish_written]
  · rw [hkeeps α given hgiven, hlimits.slice_rows hcount]
  · rw [hkeeps α given hgiven, hlimits.all_rows hcount]
  · rintro rfl
    rw [hunlimited, Selection.toTerm_limiting, show sel.limit = 0 from UInt64.toNat_inj.1 hlimits.1,
      show sel.offset = 0 from UInt64.toNat_inj.1 hlimits.2]

theorem translateTree_limit_twoBehindFive : ∃ t rendered t',
    tree .empty (.query (columnRows (some twoBehindFive))) = .ok t ∧
    Yields (Translator.translateTree ⟨.firebird, .whenNeeded⟩) t (.ok rendered) t' ∧
    rendered.sql = "SELECT a FROM t ROWS 6 TO 7" ∧
    ∃ slice t₀ rendered₀ page head, twoBehindFive.slice? = some slice ∧
      tree .empty (.query { columnRows (some twoBehindFive) with limit := none }) = .ok t₀ ∧
      (∃ t', Yields (Translator.translateTree ⟨.firebird, .whenNeeded⟩) t₀ (.ok rendered₀) t') ∧
      rendered.bindings = rendered₀.bindings ∧
      Term.Paged .firebird page head [] rendered₀.sql.toList rendered.sql.toList ∧
      (slice.count ≠ some 0 → ∀ {α : Type} (given : List α), given.length < 2 ^ 63 →
        page.rows given = slice.rows given) ∧
      (slice.count = some 0 → ∀ {α : Type} (given : List α), given.length < 2 ^ 63 →
        page.rows given = given.drop slice.skip) ∧
      (slice = ⟨0, some 0⟩ → t₀ = t) := by
  have htree : tree .empty (.query (columnRows (some twoBehindFive))) =
      .ok (Term.limiting none columnClauses [] 2 5).build := by rfl
  have hsql : (Term.limiting none columnClauses [] 2 5).translated ⟨.firebird, .whenNeeded⟩ =
      some ⟨"SELECT a FROM t ROWS 6 TO 7", []⟩ := by
    rw [Term.translated, Term.adapted_within]
    decide +kernel
  obtain ⟨t', hy⟩ := (Translator.translateTree_iff ⟨.firebird, .whenNeeded⟩
    (Term.build_wellFormed _) (Term.build_term _)).2 hsql
  exact ⟨_, _, t', htree, hy, rfl,
    translateTree_limit ⟨.firebird, .whenNeeded⟩ rfl rfl htree ⟨t', hy⟩⟩

/-- `SELECT a FROM t LIMIT 0` has no rows, but is translated to what has all. -/
theorem zeroLimit_dropped : ∃ t t', tree .empty (.query (columnRows (some (limitOf "0")))) = .ok t ∧
    tree .empty (.query (columnRows none)) = .ok t ∧
    Yields (Translator.translateTree ⟨.postgresql, .whenNeeded⟩) t
      (.ok ⟨"SELECT a FROM t", []⟩) t' ∧
    (limitOf "0").slice? = some ⟨0, some 0⟩ ∧
    ∀ {α : Type} (given : List α), Slice.rows ⟨0, some 0⟩ given = [] := by
  have hsql : (Term.limiting none columnClauses [] 0 0).translated ⟨.postgresql, .whenNeeded⟩ =
      some ⟨"SELECT a FROM t", []⟩ := by
    rw [Term.translated, Term.adapted_within]
    decide +kernel
  obtain ⟨t', hy⟩ := (Translator.translateTree_iff ⟨.postgresql, .whenNeeded⟩
    (Term.build_wellFormed _) (Term.build_term _)).2 hsql
  have htree : tree .empty (.query (columnRows (some (limitOf "0")))) =
      .ok (Term.limiting none columnClauses [] 0 0).build := by rfl
  have htree₀ : tree .empty (.query (columnRows none)) =
      .ok (Term.limiting none columnClauses [] 0 0).build := by rfl
  have hslice : (limitOf "0").slice? = some ⟨0, some 0⟩ := by decide +kernel
  refine ⟨_, t', htree, htree₀, hy, hslice, fun given => ?_⟩
  simp [Slice.rows]

end Canonical
end PolyglotSql
