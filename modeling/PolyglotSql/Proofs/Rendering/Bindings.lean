import Mathlib.Algebra.BigOperators.Group.List.Basic
import Mathlib.Algebra.Order.Group.Multiset
import PolyglotSql.Proofs.Dialect.Preservation
import PolyglotSql.Proofs.Translation

/-!
# PolyglotSql.Proofs.Rendering.Bindings

The bindings of a translated query, in any order, are the literals of the query with their types.
`Term.bound` says which literals a term binds; rendering binds these (`pieces_bound`), and adapting
a term moves them about but keeps them all (`adapted_bound`).
-/

namespace PolyglotSql

/-- Values with the types they are bound with, in any order. -/
abbrev Bound := Multiset (Value × Option SqlType)

/-- The values that are bound in a rendered text. -/
def RenderedSql.bound (r : RenderedSql) : Bound :=
  (r.bindings.map fun b => (b.value, b.sqlType) : List (Value × Option SqlType))

namespace Piece

/-- The value that a piece binds. -/
def boundValue? : Piece → Option (Value × Option SqlType)
  | .bound value column => some (value, column.map (·.sqlType))
  | _ => none

/-- The values that some pieces bind. -/
def boundIn (ps : List Piece) : Bound :=
  (ps.filterMap boundValue? : List (Value × Option SqlType))

@[simp] theorem boundIn_nil : boundIn [] = 0 := rfl

@[simp] theorem boundIn_raw (s : String) (ps : List Piece) :
    boundIn (.raw s :: ps) = boundIn ps := rfl

@[simp] theorem boundIn_name (s : String) (ps : List Piece) :
    boundIn (.name s :: ps) = boundIn ps := rfl

@[simp] theorem boundIn_alias (s : String) (ps : List Piece) :
    boundIn (.alias_ s :: ps) = boundIn ps := rfl

@[simp] theorem boundIn_append (ps qs : List Piece) :
    boundIn (ps ++ qs) = boundIn ps + boundIn qs := by
  simp [boundIn]

@[simp] theorem boundIn_bracket (wanted : Bool) (s : String) :
    boundIn (Node.bracket wanted s) = 0 := by
  cases wanted <;> rfl

end Piece

theorem Sink.putAll_bindings (s : Sink) (ps : List Piece) :
    (s.putAll ps).bindings.map (fun b => (b.value, b.sqlType)) =
      s.bindings.map (fun b => (b.value, b.sqlType)) ++ ps.filterMap Piece.boundValue? := by
  induction ps generalizing s with
  | nil => simp
  | cons p ps ih =>
    rw [putAll_cons, ih]
    cases p <;> simp [put, text, identifier, alias_, List.filterMap_cons, Piece.boundValue?]

/-- Putting pieces into an empty text binds the values of the pieces. -/
theorem Sink.finish_bound (style : QuoteStyle) (ps : List Piece) :
    ((Sink.new style).putAll ps).finish.bound = Piece.boundIn ps := by
  rw [RenderedSql.bound, finish, putAll_bindings]
  rfl

/-- The bindings that pieces add, each at the position of its placeholder. -/
theorem Sink.putAll_numbered (s : Sink) (ps : List Piece) :
    (s.putAll ps).bindings = s.bindings ++ (ps.filterMap Piece.boundValue?).mapIdx
      fun i bound => ⟨s.bindings.length + i + 1, bound.1, bound.2⟩ := by
  induction ps generalizing s with
  | nil => simp
  | cons p ps ih =>
    rw [putAll_cons, ih]
    cases p <;> simp [put, text, identifier, alias_, List.filterMap_cons, Piece.boundValue?,
      Nat.add_comm, Nat.add_left_comm]

/-- What is bound, and in which order, decides on the bindings. -/
theorem Sink.finish_bindings {style : QuoteStyle} {ps qs : List Piece}
    (h : ps.filterMap Piece.boundValue? = qs.filterMap Piece.boundValue?) :
    ((Sink.new style).putAll ps).finish.bindings = ((Sink.new style).putAll qs).finish.bindings := by
  rw [finish, finish, putAll_numbered, putAll_numbered, h]

/-! ## The literals of a term -/

/-- The values that a node binds, given those bound by each of the terms below it. -/
def Node.bound (node : Node) (below : List Bound) : Bound :=
  match node with
  | .value v known | .castValue v known _ _ => Piece.boundIn (v.pieces known)
  | .distinct | .table .. | .limitOffset .. | .page .. | .column _ | .trimmedColumn .. => 0
  | .text _ => 0
  | .function _ false _ => 0
  | .join _ => (below.take 2).sum
  | _ => below.sum

namespace Term

mutual

/-- The values that a term binds. -/
def bound : Term → Bound
  | .mk node _ children => node.bound (boundAll children)

/-- The values that some terms bind, each by itself. -/
def boundAll : List Term → List Bound
  | [] => []
  | t :: ts => bound t :: boundAll ts

end

@[simp] theorem boundAll_eq (ts : List Term) : boundAll ts = ts.map bound := by
  induction ts with
  | nil => rw [boundAll]; rfl
  | cons t ts ih => rw [boundAll, ih]; rfl

@[simp] theorem bound_mk (node : Node) (alias_ : Option String) (children : List Term) :
    bound (.mk node alias_ children) = node.bound (children.map bound) := by
  rw [bound, boundAll_eq]

end Term

/-! ## Rendering -/

open Piece

/-- The pieces of every part bind what its term does. -/
def PartsBind (parts : List Part) : Prop :=
  ∀ part ∈ parts, ∀ ps, part.pieces = some ps → boundIn ps = part.term.bound

theorem separated_bound {between : Nat → Term → Term → String} {parts : List Part}
    (hparts : PartsBind parts) {index : Nat} {before : Option Term} {ps : List Piece}
    (h : Part.separated between index before parts = some ps) :
    boundIn ps = (parts.map fun part => part.term.bound).sum := by
  induction parts generalizing index before ps with
  | nil =>
    simp only [Part.separated, Option.some.injEq] at h
    subst h
    rfl
  | cons part parts ih =>
    obtain ⟨qs, rs, hqs, hrs, rfl⟩ := Part.separated_cons.1 h
    have hlead : boundIn (Part.lead between index before part.term) = 0 := by
      cases before <;> rfl
    rw [List.map_cons, List.sum_cons, boundIn_append, boundIn_append, hlead, zero_add,
      hparts part (by simp) qs hqs, ih (fun p hp => hparts p (by simp [hp])) hrs]

theorem columnPieces_bound (around : Around) (ref : ColumnRef) :
    boundIn (Node.columnPieces around ref) = 0 := by
  unfold Node.columnPieces
  split
  · split <;> rfl
  · rfl

theorem nullValue_bound {t : Term} (h : t.node.isNullValue = true) : t.bound = 0 := by
  obtain ⟨node, alias_, children⟩ := t
  unfold Node.isNullValue at h
  split at h
  · rename_i column hnode
    simp only [Term.node] at hnode
    subst hnode
    rw [Term.bound_mk]
    simp [Node.bound, Value.pieces]
  · cases h

/-- What a node brings in itself binds the values of the node, and those below it if its parts are
listed. -/
def FormBinds (node : Node) : Node.Form → Prop
  | .alone ps => ∀ below, boundIn ps = node.bound below
  | .listed before _ after =>
    boundIn before = 0 ∧ boundIn after = 0 ∧ ∀ below, node.bound below = below.sum
  | .placed => True

theorem form_binds (around : Around) (node : Node) : FormBinds node (node.form around) := by
  have hlisted {before after : List Piece} (hbefore : boundIn before = 0)
      (hafter : boundIn after = 0) {separator : Nat → Term → Term → String} {node : Node}
      (hnode : ∀ below, node.bound below = below.sum) :
      FormBinds node (.listed before separator after) := ⟨hbefore, hafter, hnode⟩
  cases node with
  | select => exact hlisted (by simp) (by simp) fun _ => rfl
  | table name schema alias_ => cases schema <;> cases alias_ <;> exact fun _ => rfl
  | ordering direction => cases direction <;> exact hlisted rfl rfl fun _ => rfl
  | column ref => exact fun _ => columnPieces_bound around ref
  | trimmedColumn ref strip =>
    intro below
    simp [Node.bound, columnPieces_bound]
  | value value column => exact fun _ => rfl
  | castValue value column target length =>
    intro below
    simp [Node.bound]
  | function name parentheses origin =>
    cases parentheses with
    | false => exact fun _ => rfl
    | true => exact hlisted rfl rfl fun _ => rfl
  | boolean op => exact hlisted (by simp) (by simp) fun _ => rfl
  | result | fromClause | whereClause | groupBy | having | orderBy | keywordCall | operation
  | group | not | exists_ | empty => exact hlisted rfl rfl fun _ => rfl
  | distinct | limitOffset | page | text => exact fun _ => rfl
  | join | equality | like | in_ | between => trivial

/-- The same of the nodes whose parts have places of their own. -/
theorem place_bound {node : Node} {parts : List Part} {ps : List Piece} (hparts : PartsBind parts)
    (h : node.place parts = some ps) :
    boundIn ps = node.bound (parts.map fun part => part.term.bound) := by
  unfold Node.place at h
  split at h
  case h_1 kind =>
    cases h
    rfl
  case h_2 kind only =>
    obtain ⟨qs, hqs, rfl⟩ := Option.map_eq_some_iff.1 h
    simp [Node.bound, hparts only (by simp) qs hqs]
  case h_3 kind first second rest =>
    simp only [Option.bind_eq_bind, Option.bind_eq_some_iff, Option.some.injEq] at h
    obtain ⟨qs, hqs, rs, hrs, rfl⟩ := h
    simp [Node.bound, hparts first (by simp) qs hqs, hparts second (by simp) rs hrs]
  case h_4 op left right =>
    simp only [Option.bind_eq_bind, Option.bind_eq_some_iff] at h
    obtain ⟨qs, hqs, h⟩ := h
    have hleft := hparts left (by simp) qs hqs
    split at h
    · rename_i hnull
      cases h
      simp [Node.bound, hleft, nullValue_bound hnull]
    · obtain ⟨rs, hrs, h⟩ := Option.bind_eq_some_iff.1 h
      cases h
      simp [Node.bound, hleft, hparts right (by simp) rs hrs]
  case h_5 operator ignoreCase negated escape left right =>
    simp only [Option.bind_eq_bind, Option.bind_eq_some_iff, Option.some.injEq] at h
    obtain ⟨qs, hqs, rs, hrs, rfl⟩ := h
    cases escape <;>
      simp [Node.bound, Node.escapePieces, hparts left (by simp) qs hqs,
        hparts right (by simp) rs hrs]
  case h_6 negated left right =>
    simp only [Option.bind_eq_bind, Option.bind_eq_some_iff, Option.some.injEq] at h
    obtain ⟨qs, hqs, rs, hrs, rfl⟩ := h
    simp [Node.bound, hparts left (by simp) qs hqs, hparts right (by simp) rs hrs]
  case h_7 negated first second third =>
    simp only [Option.bind_eq_bind, Option.bind_eq_some_iff, Option.some.injEq] at h
    obtain ⟨qs, hqs, rs, hrs, us, hus, rfl⟩ := h
    simp [Node.bound, hparts first (by simp) qs hqs, hparts second (by simp) rs hrs,
      hparts third (by simp) us hus]
  case h_8 => cases h

/-- What a node writes around its parts binds what the node and the parts bind. -/
theorem shape_bound {around : Around} {node : Node} {parts : List Part} {ps : List Piece}
    (hparts : PartsBind parts) (h : node.shape around parts = some ps) :
    boundIn ps = node.bound (parts.map fun part => part.term.bound) := by
  have hform := form_binds around node
  unfold Node.shape at h
  cases hf : node.form around with
  | alone qs =>
    rw [hf] at h hform
    cases h
    exact hform _
  | listed before separator after =>
    rw [hf] at h hform
    obtain ⟨hbefore, hafter, hnode⟩ := hform
    obtain ⟨qs, hqs, rfl⟩ := Option.map_eq_some_iff.1 h
    rw [boundIn_append, boundIn_append, hbefore, hafter, separated_bound hparts hqs, hnode]
    simp
  | placed =>
    rw [hf] at h
    exact place_bound hparts h

/-- The pieces of a term bind its literals. -/
theorem pieces_bound {around : Around} {t : Term} {ps : List Piece}
    (h : t.pieces around = some ps) : boundIn ps = t.bound := by
  induction t using Term.induct generalizing around ps with
  | mk node alias_ children ih =>
    rw [Term.pieces_mk] at h
    obtain ⟨qs, hqs, rfl⟩ := Option.map_eq_some_iff.1 h
    have halias : boundIn (Node.aliasPieces around alias_) = 0 := by
      unfold Node.aliasPieces
      split
      · rfl
      · split <;> rfl
    have hshape := shape_bound (fun part hpart rs hrs => by
      obtain ⟨c, hc, rfl⟩ := List.mem_map.1 hpart
      exact ih c hc hrs) hqs
    rw [boundIn_append, halias, add_zero, hshape, Term.bound_mk, List.map_map]
    rfl

/-! ## Adapting -/

/-- Canonical calls have parentheses. -/
def Node.Parenthesised : Node → Prop
  | .function _ parentheses .canonical => parentheses = true
  | _ => True

namespace Term

theorem brought_parenthesised {node : Node} (h : Brought node) : node.Parenthesised := by
  cases h <;> trivial

theorem wrapping_parenthesised {node : Node} (h : Wrapping node) : node.Parenthesised := by
  cases h <;> trivial

theorem swapFirst_bound (args : List Term) :
    ((swapFirst args).map bound).sum = (args.map bound).sum := by
  unfold swapFirst
  split
  · simp [add_left_comm]
  · rfl

theorem text_bound (s : String) : (text s).bound = 0 := by
  simp [text, leaf, of, Node.bound]

/-- The marker of distinct values binds nothing. -/
theorem distinct_bound {t : Term} (h : t.kind = .distinct) : t.bound = 0 := by
  obtain ⟨node, alias_, children⟩ := t
  have hnode : node = .distinct := by
    cases node with
    | distinct => rfl
    | boolean op => cases op <;> cases h
    | _ => cases h
  rw [bound_mk, hnode]
  rfl

theorem withoutUpper_bound {t : Term} (h : t.EveryNode Node.Parenthesised) :
    t.withoutUpper.bound = t.bound := by
  obtain ⟨node, alias_, children⟩ := t
  obtain ⟨hnode, -⟩ := every_mk.1 h
  unfold withoutUpper
  split
  · rename_i inner hc
    simp only [Term.children] at hc
    subst hc
    split
    · rename_i hupper
      simp only [Term.node] at hupper
      unfold Node.canonicalFunction? at hupper
      split at hupper
      · rename_i name parentheses
        obtain rfl : parentheses = true := hnode
        simp [Node.bound]
      · cases hupper
    · rfl
  · rfl

/-- A call that loses its parentheses has no arguments that bind anything. -/
theorem bare_bound {d : Dialect} {name : String} {args : List Term}
    (h : (d.functionRule name).isBare = true)
    (harity : FunctionCatalogue.checkArity name (argumentCount args) = .ok ()) :
    (args.map bound).sum = 0 := by
  have hnone := Dialect.functionRule_bareArity h harity
  -- Only the marker of distinct values may be left, which is not counted.
  have hdistinct : ∀ a ∈ args, a.bound = 0 := by
    intro a ha
    refine distinct_bound ?_
    unfold argumentCount at hnone
    rw [List.length_eq_zero_iff, List.filter_eq_nil_iff] at hnone
    simpa using hnone a ha
  exact List.sum_eq_zero (by simpa using hdistinct)

/-- What takes the place of a call binds what the call does. -/
theorem replaceCall_bound {name : String} {alias_ : Option String} {args : List Term}
    {rule : FunctionRule} {t : Term} (hbare : rule.isBare = true → (args.map bound).sum = 0)
    (h : replaceCall (.function name true .canonical) alias_ args rule = some t) :
    t.bound = (args.map bound).sum := by
  cases rule <;> simp only [replaceCall, Option.some.injEq, reduceCtorEq] at h <;> subst h
  case keep => simp [Node.bound]
  case rename name parentheses =>
    cases parentheses with
    | true => simp [Node.bound, Node.dialectCall]
    | false => simpa [Node.bound, Node.dialectCall] using (hbare rfl).symm
  case renameSwapped => simp [Node.bound, Node.dialectCall, swapFirst_bound]
  case operator => simp [Node.bound]
  case keywords => simp [Node.bound]
  case keywordsSwapped => simp [Node.bound, swapFirst_bound]
  case extract => simp [Node.bound, text_bound]
  case nested => simp [Node.bound, Node.dialectCall, of]
  case nestedFormat => simp [Node.bound, Node.dialectCall, of, text_bound]
  case formattedCast => simp [Node.bound, Node.dialectCall, of, text_bound]

/-- A rewritten top binds what the term does. -/
theorem rewriteTop_bound {d : Dialect} {above : NodeKind} {t t' : Term}
    (ht : t.EveryNode Node.Parenthesised) (h : rewriteTop d above t = .ok t') :
    t'.bound = t.bound := by
  cases rewriteTop_ok h with
  | kept => rfl
  | call harity hcall =>
    obtain rfl := (every_mk.1 ht).1
    rw [replaceCall_bound (fun hbare => bare_bound hbare harity) hcall]
    simp [Node.bound]
  | column | value | limit | like => simp [Node.bound]
  | likeBare _ _ _ _ _ operands =>
    have hoperands : (operands.map withoutUpper).map bound = operands.map bound := by
      rw [List.map_map]
      exact List.map_congr_left fun c hc => withoutUpper_bound ((every_mk.1 ht).2 c hc)
    simp [Node.bound, ← hoperands]

/-- A term that is rewritten without a refusal binds what it did. -/
theorem rewrite_bound {d : Dialect} {above : NodeKind} {t : Term}
    (ht : t.EveryNode Node.Parenthesised) (h : (rewrite d above t).2 = none) :
    (rewrite d above t).1.bound = t.bound := by
  induction above, t using rewrite_induct (d := d) with
  | refused above t refusal htop =>
    rw [rewrite_error htop] at h
    cases h
  | rewritten above t node alias_ children htop ih =>
    have hbelow := (every_mk.1
      (rewriteTop_every (fun node _ hn => brought_parenthesised hn) ht htop)).2
    rw [rewrite_ok htop] at h ⊢
    obtain ⟨hmap, hnone⟩ := rewriteAll_none h
    have hchildren : (rewriteAll d node.kind children).1.map bound = children.map bound := by
      rw [hmap, List.map_map]
      exact List.map_congr_left fun c hc => ih c hc (hbelow c hc) (hnone c hc)
    rw [← rewriteTop_bound ht htop, bound_mk, bound_mk, hchildren]

theorem limits_bound {t : Term} {limits : UInt64 × UInt64}
    (h : RowNumbers.limits? t.node = some limits) : t.bound = 0 := by
  obtain ⟨node, alias_, children⟩ := t
  cases node <;> first | cases h | exact bound_mk _ alias_ children

/-- An enclosed select binds what the select does. -/
theorem enclosed_bound (t : Term) : t.enclosed.bound = t.bound := by
  refine enclosed_induct (motive := fun t t' => t'.bound = t.bound) ?_ ?_ t
  · intro node alias_ children _ ih
    rw [bound_mk, bound_mk, List.map_map]
    exact congrArg (node.bound ·) (List.map_congr_left ih)
  · intro alias_ before c after limit offset hc ih
    have hbefore : (before.map enclosed).map bound = before.map bound := by
      rw [List.map_map]
      exact List.map_congr_left fun b hb => ih b (by simp [hb])
    have hafter : (after.map enclosed).map bound = after.map bound := by
      rw [List.map_map]
      exact List.map_congr_left fun b hb => ih b (by simp [hb])
    have hempty : (leaf .empty).bound = c.bound := by
      rw [limits_bound hc]
      rfl
    have hinner : (before.map enclosed ++ leaf .empty :: after.map enclosed).map bound =
        (before ++ c :: after).map bound := by
      rw [List.map_append, List.map_append, List.map_cons, List.map_cons, hbefore, hafter, hempty]
    rw [bound_mk, bound_mk, ← hinner]
    simp [Node.bound, of, text_bound]

/-- An adapted query binds what the query does. -/
theorem adapted_bound {d : Dialect} {t : Term} (ht : t.EveryNode Node.Parenthesised)
    (h : (t.adapted d).2 = none) : (t.adapted d).1.bound = t.bound := by
  unfold adapted at *
  split at h
  · rename_i hrows
    rw [if_pos hrows, rewrite_bound (enclosed_every (fun _ => wrapping_parenthesised) ht) h,
      enclosed_bound]
  · rename_i hrows
    rw [if_neg hrows, rewrite_bound ht h]

end Term

/-! ## Translated queries -/

namespace Translator

open PolyglotSql.Tree

theorem translated_bound {tr : Translator} {query : Term} {rendered : RenderedSql}
    (hcalls : query.EveryNode Node.Parenthesised) (h : query.translated tr = some rendered) :
    rendered.bound = query.bound := by
  obtain ⟨hnone, ps, hps, rfl⟩ := Term.translated_some h
  rw [Sink.finish_bound, pieces_bound hps, Term.adapted_bound hcalls hnone]

/-- A dialect binds the values that the canonical query binds, with the same types: of two
well-formed trees that hold the same query, one translated to a dialect and one kept generic, both
with SQL, the bindings are the same up to their order. It takes that canonical calls have
parentheses. -/
theorem translateTree_bound (tr : Translator) (mode : QuoteMode) {t u t' u' : Tree} {query : Term}
    {rendered canonical : RenderedSql} (ht : t.WellFormed) (hu : u.WellFormed)
    (htquery : t.term t.root = .ok query) (huquery : u.term u.root = .ok query)
    (hcalls : query.EveryNode Node.Parenthesised)
    (hrendered : Yields tr.translateTree t (.ok rendered) t')
    (hcanonical : Yields (translateTree ⟨.generic, mode⟩) u (.ok canonical) u') :
    rendered.bound = canonical.bound := by
  have hr := (translateTree_iff tr ht htquery).1 ⟨t', hrendered⟩
  have hc := (translateTree_iff ⟨.generic, mode⟩ hu huquery).1 ⟨u', hcanonical⟩
  rw [translated_bound hcalls hr, translated_bound hcalls hc]

/-- `SELECT LOCATE('a', 'b') FROM t WHERE UPPER(t.b) LIKE UPPER('c')`, case being ignored. -/
def locatedText : Term :=
  .of .select [
    .of .result [.of (.call "LOCATE") [.value (.text "a"), .value (.text "b")]],
    .of .fromClause [.leaf (.table "t" none none)],
    .of .whereClause [.of (.like .like true false none) [
      .of (.call "UPPER") [.leaf (.column ⟨some "t", "b", none⟩)],
      .of (.call "UPPER") [.leaf (.value (.text "c") (some (.ofType "b" .varchar)))]]]]

theorem translateTree_bound_locatedText : locatedText.build.WellFormed ∧
    ∃ rendered canonical t' u',
      Yields (translateTree ⟨.postgresql, .always⟩) locatedText.build (.ok rendered) t' ∧
      Yields (translateTree ⟨.generic, .never⟩) locatedText.build (.ok canonical) u' ∧
      rendered.sql =
        "SELECT POSITION(? IN ?) FROM \"t\" WHERE \"t\".\"b\" ILIKE ?" ∧
      canonical.sql = "SELECT LOCATE(?, ?) FROM t WHERE UPPER(t.b) LIKE UPPER(?)" ∧
      rendered.bound = canonical.bound := by
  have hwf := locatedText.build_wellFormed
  have hquery := locatedText.build_term
  have hcalls : locatedText.EveryNode Node.Parenthesised := by
    simp [locatedText, Term.EveryNode, Term.every_mk, Term.of, Term.leaf, Term.value, Node.call,
      Node.Parenthesised]
  have hrendered : locatedText.translated ⟨.postgresql, .always⟩ =
      some ⟨"SELECT POSITION(? IN ?) FROM \"t\" WHERE \"t\".\"b\" ILIKE ?",
        [⟨1, .text "b", none⟩, ⟨2, .text "a", none⟩, ⟨3, .text "c", some .varchar⟩]⟩ := by
    rw [Term.translated, Term.adapted_within]
    rfl
  have hcanonical : locatedText.translated ⟨.generic, .never⟩ =
      some ⟨"SELECT LOCATE(?, ?) FROM t WHERE UPPER(t.b) LIKE UPPER(?)",
        [⟨1, .text "a", none⟩, ⟨2, .text "b", none⟩, ⟨3, .text "c", some .varchar⟩]⟩ := by
    rw [Term.translated, Term.adapted_within]
    rfl
  obtain ⟨t', ht⟩ := (translateTree_iff ⟨.postgresql, .always⟩ hwf hquery).2 hrendered
  obtain ⟨u', hu⟩ := (translateTree_iff ⟨.generic, .never⟩ hwf hquery).2 hcanonical
  exact ⟨hwf, _, _, t', u', ht, hu, rfl, rfl,
    translateTree_bound ⟨.postgresql, .always⟩ .never hwf hwf hquery hquery hcalls ht hu⟩

end Translator
end PolyglotSql
