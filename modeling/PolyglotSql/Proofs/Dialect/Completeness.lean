import PolyglotSql.Proofs.Dialect.Idempotence

/-!
# PolyglotSql.Proofs.Dialect.Completeness

What an adaptation refuses, and that it leaves nothing to do. `Misfit` says which calls a dialect
refuses and with which words; an adaptation is refused exactly if one of them is somewhere in the
query, however deep and whatever else has been moved before it is met (`adapted_refuses`). Where
nothing is refused, no node of the adapted query is one that a rule is for (`rewrite_done`).

Which dialect has a rule for what is listed here apart from the rules (`missing`, `rewritten`,
`paginating`, `trimming`, `bounding`), and each list is shown to be that of its rule.
-/

namespace PolyglotSql

open PolyglotSql.Tree

namespace Dialect

/-- The canonical functions that a dialect has nothing for. -/
def missing : Dialect → List String
  | .derby | .ingres => ["WEEK", "DAY_OF_WEEK", "DAY_OF_YEAR"]
  | .oracle => ["CURRENT_TIME"]
  | _ => []

theorem functionRule_refuse (d : Dialect) (name : String) :
    d.functionRule name = .refuse ↔ name ∈ d.missing := by
  by_cases hname : name ∈ FunctionCatalogue.names
  · have hlisted : ∀ d ∈ all, ∀ name ∈ FunctionCatalogue.names,
        (d.functionRule name = .refuse ↔ name ∈ d.missing) := by
      decide +kernel
    exact hlisted d d.mem_all name hname
  · have hmissing : ∀ d ∈ all, ∀ name ∈ d.missing, name ∈ FunctionCatalogue.names := by
      decide +kernel
    rw [functionRule_unlisted hname]
    constructor
    · intro h
      cases h
    · intro h
      exact absurd (hmissing d d.mem_all name h) hname

/-- The functions without arguments that most dialects write without parentheses. -/
def presents : List String :=
  ["CURRENT_DATE", "CURRENT_TIME", "CURRENT_TIMESTAMP"]

/-- The canonical functions that a dialect writes otherwise. -/
def rewritten : Dialect → List String
  | .generic => []
  | .derby => ["SUBSTRING", "CONCAT", "LOCATE", "DAY_OF_MONTH"] ++ presents
  | .postgresql =>
    ["CONCAT", "LOCATE", "YEAR", "MONTH", "WEEK", "DAY", "HOUR", "MINUTE", "SECOND",
      "DAY_OF_MONTH", "DAY_OF_WEEK", "DAY_OF_YEAR"] ++ presents
  | .mysql => ["LOCATE", "DAY_OF_MONTH", "DAY_OF_WEEK", "DAY_OF_YEAR"]
  | .oracle =>
    ["SUBSTRING", "CONCAT", "LOCATE", "YEAR", "MONTH", "WEEK", "DAY", "HOUR", "MINUTE", "SECOND",
      "DAY_OF_MONTH", "DAY_OF_WEEK", "DAY_OF_YEAR", "CURRENT_DATE", "CURRENT_TIMESTAMP"]
  | .h2 => ["LOCATE"] ++ presents
  | .hsqldb => ["LOCATE", "DAY_OF_MONTH", "DAY_OF_WEEK", "DAY_OF_YEAR"] ++ presents
  | .ingres =>
    ["CONCAT", "TRIM", "YEAR", "MONTH", "DAY", "HOUR", "MINUTE", "SECOND", "DAY_OF_MONTH"]
      ++ presents
  | .firebird =>
    ["SUBSTRING", "CONCAT", "LOCATE", "LENGTH", "YEAR", "MONTH", "WEEK", "DAY", "HOUR", "MINUTE",
      "SECOND", "DAY_OF_MONTH", "DAY_OF_WEEK", "DAY_OF_YEAR"] ++ presents
  | .sqlite =>
    ["SUBSTRING", "CONCAT", "LOCATE", "MOD", "YEAR", "MONTH", "WEEK", "DAY", "HOUR", "MINUTE",
      "SECOND", "DAY_OF_MONTH", "DAY_OF_WEEK", "DAY_OF_YEAR"] ++ presents
  | .db2 =>
    ["SUBSTRING", "CONCAT", "LOCATE", "DAY_OF_MONTH", "DAY_OF_WEEK", "DAY_OF_YEAR"] ++ presents

/-- The dialects with a row limiting clause of their own. -/
def paginating : List Dialect :=
  [.derby, .mysql, .hsqldb, .ingres, .firebird, .sqlite, .db2]

/-- The dialects that strip columns of their padding. -/
def trimming : List Dialect :=
  [.derby, .oracle, .hsqldb, .ingres, .firebird, .db2]

/-- The dialects that bind large texts as bounded ones. -/
def bounding : List Dialect :=
  [.derby, .firebird, .db2]

theorem functionRule_keep (d : Dialect) (name : String) :
    d.functionRule name = .keep ↔ name ∉ d.rewritten ∧ name ∉ d.missing := by
  by_cases hname : name ∈ FunctionCatalogue.names
  · have hlisted : ∀ d ∈ all, ∀ name ∈ FunctionCatalogue.names,
        (d.functionRule name = .keep ↔ name ∉ d.rewritten ∧ name ∉ d.missing) := by
      decide +kernel
    exact hlisted d d.mem_all name hname
  · have hcatalogue : ∀ d ∈ all, ∀ name ∈ d.rewritten ++ d.missing,
        name ∈ FunctionCatalogue.names := by
      decide +kernel
    have hother : name ∉ d.rewritten ++ d.missing := fun h =>
      hname (hcatalogue d d.mem_all name h)
    rw [functionRule_unlisted hname]
    simpa using hother

theorem pageClause?_isSome (d : Dialect) : d.pageClause?.isSome = true ↔ d ∈ paginating := by
  cases d <;> decide

theorem trimKind?_isSome (d : Dialect) : d.trimKind?.isSome = true ↔ d ∈ trimming := by
  cases d <;> decide

theorem clobLength?_isSome (d : Dialect) : d.clobLength?.isSome = true ↔ d ∈ bounding := by
  cases d <;> decide

end Dialect

namespace Term

/-! ## What is refused -/

/-- Why a dialect refuses a node with given terms below it: it is a canonical function with a number
of arguments that it does not take, or one that the dialect has nothing for. -/
inductive Misfit (d : Dialect) : Refusal → Node → List Term → Prop
  | count {name : String} {parentheses : Bool} {args : List Term} {arity : FunctionCatalogue.Arity}
    (hname : FunctionCatalogue.arity? name = some arity)
    (hcount : arity.accepts (argumentCount args) = false) :
    Misfit d (.sql (name ++ "() with " ++ toString (argumentCount args) ++ " argument(s)"))
      (.function name parentheses .canonical) args
  | missing {name : String} {parentheses : Bool} {args : List Term}
    (hname : name ∈ d.missing)
    (hcount : FunctionCatalogue.checkArity name (argumentCount args) = .ok ()) :
    Misfit d (.function name d) (.function name parentheses .canonical) args

/-- Some node of a term, with the terms directly below it, is as `P` says. -/
inductive Somewhere (P : Node → List Term → Prop) : Term → Prop
  | top {node : Node} {alias_ : Option String} {children : List Term} (h : P node children) :
    Somewhere P (.mk node alias_ children)
  | deeper {node : Node} {alias_ : Option String} {children : List Term} {t : Term}
    (ht : t ∈ children) (h : Somewhere P t) : Somewhere P (.mk node alias_ children)

theorem somewhere_mk {P : Node → List Term → Prop} {node : Node} {alias_ : Option String}
    {children : List Term} :
    Somewhere P (.mk node alias_ children) ↔ P node children ∨ ∃ t ∈ children, Somewhere P t := by
  constructor
  · intro h
    cases h with
    | top h => exact .inl h
    | deeper ht h => exact .inr ⟨_, ht, h⟩
  · rintro (h | ⟨t, ht, h⟩)
    · exact .top h
    · exact .deeper ht h

/-- No canonical call has the marker of distinct values as its only argument. -/
def NoBareDistinct : Term → Prop :=
  Every fun node children => node.canonicalFunction?.isSome →
    ∀ t, children = [t] → t.kind ≠ .distinct

variable {d : Dialect} {refusal : Refusal}

theorem misfit_call {node : Node} {children : List Term} (h : Misfit d refusal node children) :
    ∃ name parentheses, node = .function name parentheses .canonical := by
  cases h with
  | count => exact ⟨_, _, rfl⟩
  | missing => exact ⟨_, _, rfl⟩

/-- Whether a node is refused depends on the number of its arguments only. -/
theorem misfit_congr {node : Node} {children children' : List Term}
    (hcount : argumentCount children' = argumentCount children) :
    Misfit d refusal node children' ↔ Misfit d refusal node children := by
  have himp {cs cs' : List Term} (hcs : argumentCount cs' = argumentCount cs)
      (h : Misfit d refusal node cs) : Misfit d refusal node cs' := by
    cases h with
    | count hname hargs =>
      rw [← hcs] at hargs ⊢
      exact .count hname hargs
    | missing hname hargs => exact .missing hname (hcs ▸ hargs)
  exact ⟨himp hcount.symm, himp hcount⟩

/-- The top of a term is refused exactly if it is a misfit. -/
theorem rewriteTop_refuses {above : NodeKind} {node : Node} {alias_ : Option String}
    {children : List Term} :
    rewriteTop d above (.mk node alias_ children) = .error refusal ↔
      Misfit d refusal node children := by
  constructor
  · intro h
    unfold rewriteTop at h
    split at h <;> try cases h
    rename_i name parentheses alias' args he
    obtain ⟨rfl, -, rfl⟩ := Term.mk.inj he
    unfold rewriteCall at h
    cases hcount : FunctionCatalogue.checkArity name (argumentCount children) with
    | error refusal' =>
      rw [hcount] at h
      cases h
      unfold FunctionCatalogue.checkArity at hcount
      split at hcount
      · rename_i arity harity
        split at hcount
        · cases hcount
        · rename_i hno
          cases hcount
          exact .count harity (by simpa using hno)
      · cases hcount
    | ok _ =>
      rw [hcount] at h
      simp only at h
      split at h
      · cases h
      · rename_i hnone
        cases h
        refine .missing ((d.functionRule_refuse name).1 ?_) hcount
        cases hrule : d.functionRule name with
        | refuse => rfl
        | _ =>
          rw [hrule] at hnone
          cases hnone
  · intro h
    cases h with
    | count hname hargs =>
      simp [rewriteTop, rewriteCall, FunctionCatalogue.checkArity, hname, hargs]
    | missing hname hargs =>
      simp [rewriteTop, rewriteCall, hargs, (d.functionRule_refuse _).2 hname, replaceCall]

theorem text_fits (s : String) : ¬ Somewhere (Misfit d refusal) (text s) := by
  intro h
  cases h with
  | top h => cases h
  | deeper ht => cases ht

theorem swapFirst_somewhere {P : Node → List Term → Prop} {args : List Term} :
    (∃ t ∈ swapFirst args, Somewhere P t) ↔ ∃ t ∈ args, Somewhere P t := by
  unfold swapFirst
  split
  · simp [or_left_comm]
  · rfl

theorem withoutUpper_somewhere {P : Node → List Term → Prop} {t : Term}
    (h : Somewhere P t.withoutUpper) : Somewhere P t := by
  obtain ⟨node, alias_, children⟩ := t
  unfold withoutUpper at h
  split at h
  · rename_i inner hchildren
    split at h
    · simp only [Term.children] at hchildren
      exact .deeper (by simp [hchildren]) h
    · exact h
  · exact h

/-- Taking a term out of an `UPPER` call loses no misfit: the call has one argument, as it takes. -/
theorem withoutUpper_misfit {t : Term} (h : t.NoBareDistinct)
    (hs : Somewhere (Misfit d refusal) t) : Somewhere (Misfit d refusal) t.withoutUpper := by
  obtain ⟨node, alias_, children⟩ := t
  unfold withoutUpper
  split
  · rename_i inner hchildren
    simp only [Term.children] at hchildren
    subst hchildren
    split
    · rename_i hupper
      simp only [Term.node] at hupper
      have hinner := (every_mk.1 h).1 (by rw [hupper]; rfl) inner rfl
      have hcount : argumentCount [inner] = 1 := by simp [argumentCount, hinner]
      have hmissing : ∀ d ∈ Dialect.all, "UPPER" ∉ d.missing := by decide
      have htop : ¬ Misfit d refusal node [inner] := by
        intro hm
        cases hm with
        | count hname hargs =>
          cases hupper
          rw [hcount] at hargs
          cases hname
          cases hargs
        | missing hname =>
          cases hupper
          exact hmissing d d.mem_all hname
      rw [somewhere_mk] at hs
      simpa [htop] using hs
    · exact hs
  · exact hs

/-- Replacing a call neither adds nor loses misfits below it. -/
theorem replaceCall_misfits {call : Node} {alias_ : Option String} {args : List Term}
    {rule : FunctionRule} {t : Term} (h : replaceCall call alias_ args rule = some t) :
    (∃ c ∈ t.children, Somewhere (Misfit d refusal) c) ↔
      ∃ c ∈ args, Somewhere (Misfit d refusal) c := by
  have hdialect (name : String) (parentheses : Bool) (children : List Term) :
      ¬ Misfit d refusal (.dialectCall name parentheses) children := by
    intro hm
    cases hm
  cases rule <;> simp only [replaceCall, Option.some.injEq, reduceCtorEq] at h <;> subst h <;>
    simp only [Term.children]
  case renameSwapped | keywordsSwapped => exact swapFirst_somewhere
  case extract => simp [text_fits]
  case nested => simp [of, somewhere_mk, hdialect]
  case nestedFormat => simp [of, somewhere_mk, hdialect, text_fits, or_and_right, exists_or]
  case formattedCast => simp [of, somewhere_mk, hdialect, text_fits]

/-- Rewriting a top adds no misfits below it, -/
theorem rewriteTop_meets {above : NodeKind} {t t' : Term} (h : rewriteTop d above t = .ok t')
    (hs : ∃ c ∈ t'.children, Somewhere (Misfit d refusal) c) :
    ∃ c ∈ t.children, Somewhere (Misfit d refusal) c := by
  cases rewriteTop_ok h with
  | kept | column | value | limit | like => exact hs
  | call harity hcall => exact (replaceCall_misfits hcall).1 hs
  | likeBare =>
    obtain ⟨c, hc, hs⟩ := hs
    obtain ⟨o, ho, rfl⟩ := List.mem_map.1 hc
    exact ⟨o, ho, withoutUpper_somewhere hs⟩

/-- and loses none. -/
theorem rewriteTop_misfits {above : NodeKind} {t t' : Term} (ht : t.NoBareDistinct)
    (h : rewriteTop d above t = .ok t') (hs : ∃ c ∈ t.children, Somewhere (Misfit d refusal) c) :
    ∃ c ∈ t'.children, Somewhere (Misfit d refusal) c := by
  cases rewriteTop_ok h with
  | kept | column | value | limit | like => exact hs
  | call harity hcall => exact (replaceCall_misfits hcall).2 hs
  | likeBare =>
    obtain ⟨o, ho, hs⟩ := hs
    exact ⟨_, List.mem_map_of_mem ho, withoutUpper_misfit ((every_mk.1 ht).2 o ho) hs⟩

theorem rewriteTop_noBareDistinct {above : NodeKind} {t t' : Term} (ht : t.NoBareDistinct)
    (h : rewriteTop d above t = .ok t') : t'.NoBareDistinct := by
  refine rewriteTop_every (fun node children hn hcall => ?_) ht h
  cases hn <;> cases hcall

/-- The refusal of terms is that of one of them. -/
theorem rewriteAll_refusal {above : NodeKind} {ts : List Term}
    (h : (rewriteAll d above ts).2 = some refusal) :
    ∃ t ∈ ts, (rewrite d above t).2 = some refusal := by
  induction ts with
  | nil => simp at h
  | cons t ts ih =>
    cases hr : rewrite d above t with
    | mk t' r =>
      cases r with
      | some refusal' =>
        rw [rewriteAll_refused ts hr] at h
        exact ⟨t, by simp, by rw [hr]; exact h⟩
      | none =>
        rw [rewriteAll_cons ts hr] at h
        obtain ⟨c, hc, hrc⟩ := ih h
        exact ⟨c, by simp [hc], hrc⟩

/-- A rewriting is refused for a misfit of the term only, -/
theorem rewrite_meets (above : NodeKind) {t : Term} (hr : (rewrite d above t).2 = some refusal) :
    Somewhere (Misfit d refusal) t := by
  induction above, t using rewrite_induct (d := d) with
  | refused above t refusal' h =>
    obtain ⟨node, alias_, children⟩ := t
    rw [rewrite_error h] at hr
    cases hr
    exact .top (rewriteTop_refuses.1 h)
  | rewritten above t node alias_ children h ih =>
    rw [rewrite_ok h] at hr
    obtain ⟨c, hc, hrc⟩ := rewriteAll_refusal hr
    obtain ⟨c₀, hc₀, hs⟩ := rewriteTop_meets h ⟨c, hc, ih c hc hrc⟩
    obtain ⟨node₀, alias₀, children₀⟩ := t
    exact .deeper hc₀ hs

/-- and is not refused only if it has none. -/
theorem rewrite_misses (above : NodeKind) {t : Term} (ht : t.NoBareDistinct)
    (hr : (rewrite d above t).2 = none) : ¬ Somewhere (Misfit d refusal) t := by
  intro hs
  induction above, t using rewrite_induct (d := d) with
  | refused above t refusal' h =>
    rw [rewrite_error h] at hr
    cases hr
  | rewritten above t node alias_ children h ih =>
    have hbelow := (every_mk.1 (rewriteTop_noBareDistinct ht h)).2
    rw [rewrite_ok h] at hr
    have hnone := (rewriteAll_none hr).2
    cases hs with
    | top hm =>
      rw [rewriteTop_refuses.2 hm] at h
      cases h
    | deeper hc₀ hs₀ =>
      obtain ⟨c, hc, hs⟩ := rewriteTop_misfits ht h ⟨_, hc₀, hs₀⟩
      exact ih c hc (hbelow c hc) (hnone c hc) hs

/-! ## What is left -/

/-- A node of which a dialect has nothing more to rewrite, below a node of the kind `above`. -/
structure Done (d : Dialect) (above : NodeKind) (node : Node) (children : List Term) : Prop where
  /-- It is no canonical function that the dialect writes otherwise or has nothing for. -/
  call : ∀ name parentheses, node = .function name parentheses .canonical →
    name ∉ d.rewritten ∧ name ∉ d.missing
  /-- It is no canonical row limiting clause where the dialect has one of its own, -/
  limit : d ∈ Dialect.paginating → ∀ limit offset, node ≠ .limitOffset limit offset
  /-- nor a select for Oracle that limits its rows. -/
  select : d = .oracle → node = .select → ∀ t ∈ children, ∀ limit offset,
    t.node = .limitOffset limit offset → limit = 0 ∧ offset = 0
  /-- It is no scalar bound for a character large object where these are cast, -/
  value : d ∈ Dialect.bounding → ∀ v known, node = .value v (some known) →
    known.sqlType = .clob ∨ known.sqlType = .nclob → v.isScalar = false
  /-- nor a column of fixed width, as a result or compared, where such columns are trimmed. -/
  column : d ∈ Dialect.trimming → above ∈ [.result, .equality, .like, .in_, .between] →
    ∀ ref known, node = .column ref → ref.column = some known →
      known.sqlType ≠ .char ∧ known.sqlType ≠ .nchar
  /-- It is no canonical pattern match for MySQL, and none for PostgreSQL that ignores case. -/
  like : ∀ ignoreCase negated escape, node = .like .like ignoreCase negated escape →
    d ≠ .mysql ∧ (d = .postgresql → ignoreCase = false)

/-- Every node of a term, with the kind of the node above and the terms directly below, is as `P`
says; `above` is the kind of the node above the term. -/
inductive Throughout (P : NodeKind → Node → List Term → Prop) : NodeKind → Term → Prop
  | mk {above : NodeKind} {node : Node} {alias_ : Option String} {children : List Term}
    (top : P above node children) (deeper : ∀ t ∈ children, Throughout P node.kind t) :
    Throughout P above (.mk node alias_ children)

/-- A node that the rules leave in place leaves nothing to rewrite, limited selects apart. -/
theorem done_of_fixed {above : NodeKind} {node : Node} {alias_ : Option String}
    {children : List Term}
    (hfixed : rewriteTop d above (.mk node alias_ children) = .ok (.mk node alias_ children))
    (hselect : d.filtersRowNumbers = true → node = .select →
      ∀ t ∈ children, RowNumbers.limits? t.node = none) : Done d above node children where
  call := by
    rintro name parentheses rfl
    rw [← d.functionRule_keep]
    simp only [rewriteTop, rewriteCall] at hfixed
    split at hfixed
    · cases hfixed
    · split at hfixed
      · rename_i hcall
        cases hfixed
        rcases replaceCall_cases hcall with ⟨-, -, hkeep⟩ | hforeign
        · exact hkeep
        · exact absurd hforeign id
      · cases hfixed
  limit := by
    rintro hpage limit offset rfl
    obtain ⟨clause, hclause⟩ := Option.isSome_iff_exists.1 (d.pageClause?_isSome.2 hpage)
    simp [rewriteTop, Dialect.limitNode, hclause] at hfixed
  select := by
    rintro rfl rfl t ht limit offset hlimit
    have hnone := hselect rfl rfl t ht
    rw [hlimit, RowNumbers.limits?] at hnone
    simpa [UInt64.pos_iff_ne_zero] using hnone
  value := by
    rintro hbound v known rfl hlarge
    obtain ⟨length, hlength⟩ := Option.isSome_iff_exists.1 (d.clobLength?_isSome.2 hbound)
    have hclob : known.sqlType.isClob = true := by
      rcases hlarge with h | h <;> rw [h] <;> rfl
    cases hscalar : v.isScalar with
    | false => rfl
    | true => simp [rewriteTop, Dialect.valueNode, hlength, hclob, hscalar] at hfixed
  column := by
    rintro htrim habove ref known rfl hknown
    obtain ⟨strip, hstrip⟩ := Option.isSome_iff_exists.1 (d.trimKind?_isSome.2 htrim)
    have hbelow : Place.trimsBelow above = true := by
      have hall : ∀ kind ∈ [NodeKind.result, .equality, .like, .in_, .between],
          Place.trimsBelow kind = true := by decide
      exact hall above habove
    have hpadded : known.sqlType.isFixedChar ≠ true := by
      intro hfixedWidth
      simp [rewriteTop, Dialect.columnNode, hstrip, hbelow, hknown, hfixedWidth] at hfixed
    constructor <;> intro he <;> rw [he] at hpadded <;> exact hpadded rfl
  like := by
    rintro ignoreCase negated escape rfl
    refine ⟨?_, ?_⟩ <;> rintro rfl <;> cases ignoreCase <;>
      simp [rewriteTop, rewriteLike, Dialect.likeOperators?] at hfixed ⊢

/-- Where nothing is refused, nothing is left to rewrite. -/
theorem rewrite_done (above : NodeKind) {t : Term} (hnone : (rewrite d above t).2 = none)
    (hlimits : d.filtersRowNumbers = true → (rewrite d above t).1.Unlimited) :
    Throughout (Done d) above (rewrite d above t).1 := by
  induction above, t using rewrite_induct (d := d) with
  | refused above t refusal h =>
    rw [rewrite_error h] at hnone
    cases hnone
  | rewritten above t node alias_ children h ih =>
    have hfixed : rewriteTop d above (.mk node alias_ (rewriteAll d node.kind children).1) =
        .ok (.mk node alias_ (rewriteAll d node.kind children).1) := rewriteTop_again h (by simp)
    rw [rewrite_ok h] at hnone hlimits ⊢
    obtain ⟨hmap, hbelow⟩ := rewriteAll_none hnone
    refine .mk (done_of_fixed hfixed fun hrows => (every_mk.1 (hlimits hrows)).1) ?_
    intro c' hc'
    have hc'' := hc'
    rw [hmap] at hc''
    obtain ⟨c, hc, rfl⟩ := List.mem_map.1 hc''
    exact ih c hc (hbelow c hc) fun hrows => (every_mk.1 (hlimits hrows)).2 _ hc'

/-! ## Enclosed selects -/

theorem argumentCount_enclosed (ts : List Term) :
    argumentCount (ts.map enclosed) = argumentCount ts := by
  induction ts with
  | nil => rfl
  | cons t ts ih =>
    rw [List.map_cons, argumentCount_cons, argumentCount_cons, ih, kind, enclosed_node, kind]

theorem leaf_misfit {node : Node} :
    Somewhere (Misfit d refusal) (leaf node) ↔ Misfit d refusal node [] := by
  simp [leaf, of, somewhere_mk]

theorem select_fits {children : List Term} : ¬ Misfit d refusal .select children := by
  intro hm
  cases hm

/-- Enclosing adds no misfits, -/
theorem enclosed_meets {t : Term} (hs : Somewhere (Misfit d refusal) t.enclosed) :
    Somewhere (Misfit d refusal) t := by
  refine enclosed_induct (motive := fun t t' => Somewhere (Misfit d refusal) t' →
    Somewhere (Misfit d refusal) t) ?_ ?_ t hs
  · intro node alias_ children _ ih hs
    cases hs with
    | top hm => exact .top ((misfit_congr (argumentCount_enclosed children)).1 hm)
    | deeper ht hs =>
      obtain ⟨c, hc, rfl⟩ := List.mem_map.1 ht
      exact .deeper hc (ih c hc hs)
  · intro alias_ before c after limit offset _ ih hs
    have hempty : ¬ Misfit d refusal .empty [] := by
      intro hm
      cases hm
    simp only [somewhere_mk, of, select_fits, false_or, List.mem_cons, List.mem_append,
      List.not_mem_nil, or_false, exists_eq_or_imp, exists_eq_left, text_fits, List.mem_map] at hs
    obtain ⟨t, hb | rfl | ha, hs⟩ := hs
    · obtain ⟨b, hb, rfl⟩ := hb
      exact .deeper (by simp [hb]) (ih b (by simp [hb]) hs)
    · exact absurd (leaf_misfit.1 hs) hempty
    · obtain ⟨b, hb, rfl⟩ := ha
      exact .deeper (by simp [hb]) (ih b (by simp [hb]) hs)

/-- and loses none; what it cuts off is a leaf. -/
theorem enclosed_misfit {t : Term} (h : t.LimitsAreLeaves)
    (hs : Somewhere (Misfit d refusal) t) : Somewhere (Misfit d refusal) t.enclosed := by
  refine enclosed_induct (motive := fun t t' => t.LimitsAreLeaves →
    Somewhere (Misfit d refusal) t → Somewhere (Misfit d refusal) t') ?_ ?_ t h hs
  · intro node alias_ children _ ih h hs
    have hbelow := (every_mk.1 h).2
    cases hs with
    | top hm => exact .top ((misfit_congr (argumentCount_enclosed children)).2 hm)
    | deeper hc hs => exact .deeper (List.mem_map_of_mem hc) (ih _ hc (hbelow _ hc) hs)
  · intro alias_ before c after limit offset hlimits ih h hs
    have hbelow := (every_mk.1 h).2
    have hinner {t : Term}
        (ht : t ∈ before.map enclosed ++ leaf .empty :: after.map enclosed)
        (hs : Somewhere (Misfit d refusal) t) :
        Somewhere (Misfit d refusal) (.mk .select alias_ [text (RowNumbers.head offset),
          of .select (before.map enclosed ++ leaf .empty :: after.map enclosed),
          text (RowNumbers.tail limit offset)]) :=
      .deeper (.tail _ (.head _)) (.deeper ht hs)
    cases hs with
    | top hm => exact absurd hm select_fits
    | @deeper _ _ _ t hmem hs =>
      have hs' := ih t hmem (hbelow t hmem) hs
      rcases List.mem_append.1 hmem with hb | ha
      · exact hinner (List.mem_append_left _ (List.mem_map_of_mem hb)) hs'
      rcases List.mem_cons.1 ha with rfl | ha
      · -- The limiting child is a leaf, and no call.
        obtain ⟨node, alias', children⟩ := t
        have hleaf := (every_mk.1 (hbelow _ hmem)).1 (isLimitOffset_of_limits hlimits)
        subst hleaf
        cases hs with
        | top hm =>
          obtain ⟨name, parentheses, rfl⟩ := misfit_call hm
          cases hlimits
        | deeper ht => cases ht
      · exact hinner (List.mem_append_right _ (.tail _ (List.mem_map_of_mem ha))) hs'

theorem enclosed_noBareDistinct {t : Term} (h : t.NoBareDistinct) : t.enclosed.NoBareDistinct := by
  refine enclosed_every_of (fun node children hw hcall => by cases hw <;> cases hcall)
    (fun node children hn hcall t ht => ?_) h
  rw [List.map_eq_singleton_iff] at ht
  obtain ⟨c, hc, rfl⟩ := ht
  rw [kind, enclosed_node]
  exact hn hcall c hc

/-- A query is refused for one of its misfits only. -/
theorem adapted_meets (d : Dialect) {t : Term} (hr : (t.adapted d).2 = some refusal) :
    Somewhere (Misfit d refusal) t := by
  unfold adapted at hr
  have hs := rewrite_meets .empty hr
  split at hs
  · exact enclosed_meets hs
  · exact hs

/-- An adapted query has the refusal of one of its misfits, and has none only if there are none. -/
theorem adapted_refuses (d : Dialect) {t : Term} (hleaves : t.LimitsAreLeaves)
    (hdistinct : t.NoBareDistinct) :
    (∀ refusal, (t.adapted d).2 = some refusal → Somewhere (Misfit d refusal) t) ∧
      ((t.adapted d).2 = none → ∀ refusal, ¬ Somewhere (Misfit d refusal) t) := by
  refine ⟨fun _ hr => adapted_meets d hr, fun hr refusal hs => ?_⟩
  unfold adapted at hr
  split at hr
  · exact rewrite_misses .empty (enclosed_noBareDistinct hdistinct) hr (enclosed_misfit hleaves hs)
  · exact rewrite_misses .empty hdistinct hr hs

/-- Where nothing is refused, nothing is left to rewrite in an adapted query. -/
theorem adapted_done (d : Dialect) {t : Term} (hone : t.SingleLimits)
    (hnone : (t.adapted d).2 = none) : Throughout (Done d) .empty (t.adapted d).1 := by
  have hlimits := (adapted_again d hone).2
  unfold adapted at hnone hlimits ⊢
  exact rewrite_done .empty hnone hlimits

end Term

namespace Dialect

open Term

/-- Adapting a well-formed tree misses nothing. It is refused if and only if some call that can be
reached is one that the dialect refuses, and then with the refusal of such a call; otherwise nothing
is left that the dialect must rewrite. It takes that row limiting clauses are leaves, at most one
for a select, and that no call has the marker of distinct values as its only argument. -/
theorem adapt_complete (d : Dialect) {t : Tree} {query : Term} (h : t.WellFormed)
    (hquery : t.term t.root = .ok query) (hleaves : query.LimitsAreLeaves)
    (hone : query.SingleLimits) (hdistinct : query.NoBareDistinct) :
    ∃ outcome t', Yields d.adapt t outcome t' ∧
      ((∃ refusal, outcome = .error refusal) ↔ ∃ refusal, Somewhere (Misfit d refusal) query) ∧
      (∀ refusal, outcome = .error refusal → Somewhere (Misfit d refusal) query) ∧
      (∀ root, outcome = .ok root → root = t'.root ∧
        ∃ result, t'.term root = .ok result ∧ Throughout (Done d) .empty result) := by
  obtain ⟨t', hy, hresult⟩ := adapt_holds (d := d) h hquery
  obtain ⟨hsome, hnone⟩ := adapted_refuses d hleaves hdistinct
  have hdone := adapted_done d hone
  refine ⟨_, t', hy, ?_⟩
  cases hr : (query.adapted d).2 with
  | some refusal =>
    have hs := hsome refusal hr
    refine ⟨⟨fun _ => ⟨refusal, hs⟩, fun _ => ⟨refusal, rfl⟩⟩, ?_, ?_⟩
    · intro refusal' he
      cases he
      exact hs
    · intro root he
      cases he
  | none =>
    refine ⟨⟨?_, ?_⟩, ?_, ?_⟩
    · rintro ⟨refusal, he⟩
      cases he
    · rintro ⟨refusal, hs⟩
      exact absurd hs (hnone hr refusal)
    · intro refusal he
      cases he
    · intro root he
      cases he
      exact ⟨rfl, _, hresult, hdone hr⟩

/-- `SELECT t.a FROM t WHERE UPPER(LOCATE(t.b)) LIKE UPPER('x') LIMIT 5`, case being ignored: a call
with an argument too few, inside of a call that is taken off before it is met. -/
def shortLocate : Term :=
  .of .select [
    .of .result [.leaf (.column ⟨some "t", "a", none⟩)],
    .of .fromClause [.leaf (.table "t" none none)],
    .of .whereClause [.of (.like .like true false none) [
      .of (.call "UPPER") [.of (.call "LOCATE") [.leaf (.column ⟨some "t", "b", none⟩)]],
      .of (.call "UPPER") [.value (.text "x")]]],
    .leaf (.limitOffset 5 0)]

/-- `SELECT t.name, SUBSTRING(t.name, 2) FROM t WHERE t.body = 'x' LIMIT 5`, where `t.name` has a
fixed width and `t.body` is a large text. -/
def paddedNames : Term :=
  .of .select [
    .of .result [.leaf (.column ⟨some "t", "name", some (.ofType "name" .char)⟩)],
    .of .result [.of (.call "SUBSTRING") [
      .leaf (.column ⟨some "t", "name", some (.ofType "name" .char)⟩), .value (.integer 2)]],
    .of .fromClause [.leaf (.table "t" none none)],
    .of .whereClause [.of (.equality .eq) [
      .leaf (.column ⟨some "t", "body", some (.ofType "body" .clob)⟩),
      .leaf (.value (.text "x") (some (.ofType "body" .clob)))]],
    .leaf (.limitOffset 5 0)]

/-- PostgreSQL refuses the one query; Derby adapts the other and leaves nothing in it. -/
theorem adapt_complete_shortLocate_paddedNames :
    (shortLocate.build.WellFormed ∧
      shortLocate.build.term shortLocate.build.root = .ok shortLocate ∧
      shortLocate.LimitsAreLeaves ∧ shortLocate.SingleLimits ∧ shortLocate.NoBareDistinct ∧
      ∃ refusal t', Yields Dialect.postgresql.adapt shortLocate.build (.error refusal) t' ∧
        Somewhere (Misfit .postgresql refusal) shortLocate) ∧
    (paddedNames.build.WellFormed ∧
      paddedNames.build.term paddedNames.build.root = .ok paddedNames ∧
      paddedNames.LimitsAreLeaves ∧ paddedNames.SingleLimits ∧ paddedNames.NoBareDistinct ∧
      ∃ t' result, Yields Dialect.derby.adapt paddedNames.build (.ok t'.root) t' ∧
        t'.term t'.root = .ok result ∧ Throughout (Done .derby) .empty result) := by
  constructor
  · have hwf := shortLocate.build_wellFormed
    have hquery := shortLocate.build_term
    have hleaves : shortLocate.LimitsAreLeaves := by
      simp [shortLocate, LimitsAreLeaves, every_mk, of, leaf, value, Node.call, Node.isLimitOffset]
    have hone : shortLocate.SingleLimits := by
      simp [shortLocate, SingleLimits, every_mk, of, leaf, value, Term.node, Node.call,
        Node.isLimitOffset]
    have hdistinct : shortLocate.NoBareDistinct := by
      simp [shortLocate, NoBareDistinct, every_mk, of, leaf, value, Term.kind, Term.node,
        Node.kind, Node.call]
    have harity : FunctionCatalogue.arity? "LOCATE" = some ⟨2, some 2⟩ := rfl
    have hlocate : ∃ refusal, Misfit .postgresql refusal (.call "LOCATE")
        [.leaf (.column ⟨some "t", "b", none⟩)] := ⟨_, .count harity rfl⟩
    obtain ⟨refusal₀, hlocate⟩ := hlocate
    -- from the select to its WHERE clause, the comparison, `UPPER` and the call in it
    have hmisfit : Somewhere (Misfit .postgresql refusal₀) shortLocate :=
      .deeper (.tail _ (.tail _ (.head _))) <| .deeper (.head _) <| .deeper (.head _) <|
        .deeper (.head _) <| .top hlocate
    obtain ⟨outcome, t', hy, hiff, herror, -⟩ :=
      adapt_complete .postgresql hwf hquery hleaves hone hdistinct
    obtain ⟨refusal, rfl⟩ := hiff.2 ⟨_, hmisfit⟩
    exact ⟨hwf, hquery, hleaves, hone, hdistinct, refusal, t', hy, herror refusal rfl⟩
  · have hwf := paddedNames.build_wellFormed
    have hquery := paddedNames.build_term
    have hleaves : paddedNames.LimitsAreLeaves := by
      simp [paddedNames, LimitsAreLeaves, every_mk, of, leaf, value, Node.call, Node.isLimitOffset]
    have hone : paddedNames.SingleLimits := by
      simp [paddedNames, SingleLimits, every_mk, of, leaf, value, Term.node, Node.call,
        Node.isLimitOffset]
    have hdistinct : paddedNames.NoBareDistinct := by
      simp [paddedNames, NoBareDistinct, every_mk, of, leaf, value, Term.kind, Term.node,
        Node.kind, Node.call]
    obtain ⟨outcome, t', hy, hiff, -, hdone⟩ :=
      adapt_complete .derby hwf hquery hleaves hone hdistinct
    -- the rewriting of the term meets nothing to refuse
    obtain ⟨t₁, hy₁, -⟩ := adapt_holds (d := .derby) hwf hquery
    have hnone : (paddedNames.adapted .derby).2 = none := by
      rw [Term.adapted_within]
      rfl
    rw [hnone] at hy₁
    obtain ⟨rfl, rfl⟩ := hy.unique hy₁
    obtain ⟨-, result, hterm, hleft⟩ := hdone _ rfl
    exact ⟨hwf, hquery, hleaves, hone, hdistinct, t', result, hy, hterm, hleft⟩

end Dialect
end PolyglotSql
