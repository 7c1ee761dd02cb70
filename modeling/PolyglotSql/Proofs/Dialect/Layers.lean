import PolyglotSql.Proofs.Dialect.Completeness
import PolyglotSql.Proofs.Dialect.Selects

/-!
# PolyglotSql.Proofs.Dialect.Layers

A term in its surroundings. `within layers t` puts a term where the layers leave room for one; if
the layers are written (`Written`) and the term is no mere appendage of the node above it (`Firm`),
a dialect makes of the whole what it makes of the term, in other layers. Which layers these are
depends on the top of the term alone (`enclosed_within`, `rewrite_within`), so two terms with the
same top stay in the same place.
-/

namespace PolyglotSql

/-- Whether a node writes the term at an index below it. -/
def Node.shows : Node → (index : Nat) → Bool
  | .distinct, _ | .table .., _ | .limitOffset .., _ | .page .., _ | .column _, _ => false
  | .trimmedColumn .., _ | .value .., _ | .castValue .., _ | .text _, _ => false
  | .function _ parentheses _, _ => parentheses
  | .join _, index => index < 2
  | _, _ => true

/-- A node that the nodes above it treat as any other: no marker of distinct values, no row limit,
no `NULL`, and no call of `UPPER`, which a pattern match may lose. -/
def Node.Firm (node : Node) : Prop :=
  node.kind ≠ .distinct ∧ RowNumbers.limits? node = none ∧ node.isNullValue = false ∧
    node.canonicalFunction? ≠ some "UPPER"

instance (node : Node) : Decidable node.Firm :=
  inferInstanceAs (Decidable (_ ∧ _))

namespace Term

/-- A node with all but one of the terms directly below it. -/
structure Layer where
  node : Node
  alias_ : Option String
  before : List Term
  after : List Term

namespace Layer

def fill (l : Layer) (t : Term) : Term :=
  .mk l.node l.alias_ (l.before ++ t :: l.after)

/-- The node writes what stands in the room it leaves. -/
def Shown (l : Layer) : Prop :=
  l.node.shows l.before.length = true

instance (l : Layer) : Decidable l.Shown :=
  inferInstanceAs (Decidable (_ = _))

end Layer

/-- A term in layers, the outermost first. -/
def within : List Layer → Term → Term
  | [], t => t
  | l :: layers, t => l.fill (within layers t)

/-- Layers that all write what is in them. -/
def Written (layers : List Layer) : Prop :=
  ∀ l ∈ layers, l.Shown

instance (layers : List Layer) : Decidable (Written layers) :=
  inferInstanceAs (Decidable (∀ l ∈ layers, l.Shown))

@[simp] theorem within_nil (t : Term) : within [] t = t := rfl

@[simp] theorem within_cons (l : Layer) (layers : List Layer) (t : Term) :
    within (l :: layers) t = l.fill (within layers t) := rfl

@[simp] theorem fill_node (l : Layer) (t : Term) : (l.fill t).node = l.node := rfl

variable {d : Dialect} {above : NodeKind} {node : Node} {layers : List Layer} {l : Layer}

theorem writtenIn_nil : Written [] := by
  simp [Written]

theorem writtenIn_cons : Written (l :: layers) ↔ l.Shown ∧ Written layers := by
  simp [Written]

/-- A node that writes something below it is no appendage, but for a call of `UPPER`. -/
theorem Layer.Shown.firm (h : l.Shown) :
    l.node.kind ≠ .distinct ∧ RowNumbers.limits? l.node = none ∧ l.node.isNullValue = false := by
  obtain ⟨node, alias_, before, after⟩ := l
  unfold Layer.Shown Node.shows at h
  cases node with
  | boolean op => cases op <;> simp [Node.kind, RowNumbers.limits?, Node.isNullValue]
  | _ => simp_all [Node.kind, RowNumbers.limits?, Node.isNullValue]

theorem within_top (hlayers : Written layers) (hnode : node.Firm) :
    ∃ top : Node, top.kind ≠ .distinct ∧ RowNumbers.limits? top = none ∧
      top.isNullValue = false ∧ ∀ w : Term, w.node = node → (within layers w).node = top := by
  cases layers with
  | nil => exact ⟨node, hnode.1, hnode.2.1, hnode.2.2.1, fun w hw => hw⟩
  | cons l layers =>
    obtain ⟨hkind, hlimits, hnull⟩ := (writtenIn_cons.1 hlayers).1.firm
    exact ⟨l.node, hkind, hlimits, hnull, fun w _ => rfl⟩

/-! ## Enclosing -/

theorem firstLimit?_insert {before after : List Term} {t : Term}
    (h : RowNumbers.limits? t.node = none) :
    firstLimit? (before ++ t :: after) =
      match firstLimit? before with
      | some found => some found
      | none => (firstLimit? after).map fun (index, limits) => (index + before.length + 1, limits) := by
  induction before with
  | nil => simp [firstLimit?, h]
  | cons b before ih =>
    rw [List.cons_append, firstLimit?, firstLimit?]
    cases RowNumbers.limits? b.node with
    | some limits => rfl
    | none =>
      rw [ih]
      cases firstLimit? before with
      | some found => rfl
      | none =>
        cases firstLimit? after with
        | none => rfl
        | some found =>
          simp
          omega

theorem firstLimit?_at {before after : List Term} {t : Term} {limits : UInt64 × UInt64}
    (hbefore : ∀ b ∈ before, RowNumbers.limits? b.node = none)
    (h : RowNumbers.limits? t.node = some limits) :
    firstLimit? (before ++ t :: after) = some (before.length, limits) := by
  induction before with
  | nil => simp [firstLimit?, h]
  | cons b before ih =>
    rw [List.forall_mem_cons] at hbefore
    rw [List.cons_append, firstLimit?, hbefore.1, ih hbefore.2]
    rfl

theorem firstLimit?_lt {ts : List Term} {index : Nat} {limits : UInt64 × UInt64}
    (h : firstLimit? ts = some (index, limits)) : index < ts.length := by
  obtain ⟨before, t, after, rfl, rfl, -⟩ := firstLimit?_split h
  simp

/-- The layers around an enclosed select with a term in it. -/
def enclosing (alias_ : Option String) (limit offset : UInt64) (before after : List Term) :
    List Layer :=
  [⟨.select, alias_, [text (RowNumbers.head offset)], [text (RowNumbers.tail limit offset)]⟩,
    ⟨.select, none, before, after⟩]

/-- A layer is enclosed around whatever stands in it. -/
theorem enclosed_fill {top : Node} (hl : l.Shown) (htop : RowNumbers.limits? top = none) :
    ∃ layers, Written layers ∧ ∀ w : Term, w.node = top →
      (l.fill w).enclosed = within layers w.enclosed := by
  have hlimit (w : Term) (hw : w.node = top) : firstLimit? (l.before ++ w :: l.after) = _ :=
    firstLimit?_insert (hw ▸ htop)
  obtain ⟨node, alias_, before, after⟩ := l
  simp only at hlimit
  -- Where the node stays on top, the terms beside the room are enclosed by themselves.
  have hkept (h : node = .select → firstLimit? before = none ∧ firstLimit? after = none) :
      ∃ layers, Written layers ∧ ∀ w : Term, w.node = top →
        (Layer.fill ⟨node, alias_, before, after⟩ w).enclosed = within layers w.enclosed := by
    refine ⟨[⟨node, alias_, before.map enclosed, after.map enclosed⟩],
      writtenIn_cons.2 ⟨by simpa [Layer.Shown] using hl, writtenIn_nil⟩, fun w hw => ?_⟩
    rw [Layer.fill, enclosed_mk, encloseTop_same fun hn => by
      rw [hlimit w hw, (h hn).1, (h hn).2]; rfl]
    simp [Layer.fill]
  by_cases hn : node = .select
  · subst hn
    have hwritten (limit offset : UInt64) (before after : List Term) :
        Written (enclosing alias_ limit offset before after) := by
      simp [enclosing, Written, Layer.Shown, Node.shows]
    cases hbefore : firstLimit? before with
    | some found =>
      obtain ⟨index, limit, offset⟩ := found
      refine ⟨_, hwritten limit offset ((before.map enclosed).set index (leaf .empty))
        (after.map enclosed), fun w hw => ?_⟩
      have hlt := firstLimit?_lt hbefore
      rw [Layer.fill, enclosed_mk, hlimit w hw, hbefore]
      simp [encloseTop, enclosing, Layer.fill, of, List.set_append_left, hlt]
    | none =>
      cases hafter : firstLimit? after with
      | some found =>
        obtain ⟨index, limit, offset⟩ := found
        refine ⟨_, hwritten limit offset (before.map enclosed)
          ((after.map enclosed).set index (leaf .empty)), fun w hw => ?_⟩
        have hset (x : Term) : (before.map enclosed ++ x :: after.map enclosed).set
            (index + before.length + 1) (leaf .empty) =
            before.map enclosed ++ x :: (after.map enclosed).set index (leaf .empty) := by
          rw [List.set_append_right _ _ (by simp; omega), List.length_map,
            show index + before.length + 1 - before.length = index + 1 by omega, List.set_cons_succ]
        rw [Layer.fill, enclosed_mk, hlimit w hw, hbefore, hafter]
        simp only [Option.map_some, List.map_append, List.map_cons, encloseTop, hset]
        simp [enclosing, Layer.fill, of]
      | none => exact hkept fun _ => ⟨hbefore, hafter⟩
  · exact hkept fun he => absurd he hn

theorem writtenIn_append {layers' : List Layer} :
    Written (layers ++ layers') ↔ Written layers ∧ Written layers' := by
  simp [Written, or_imp, forall_and]

theorem within_append (layers layers' : List Layer) (t : Term) :
    within (layers ++ layers') t = within layers (within layers' t) := by
  induction layers with
  | nil => rfl
  | cons l layers ih => rw [List.cons_append, within_cons, ih, within_cons]

theorem enclosed_within (hlayers : Written layers) (hnode : node.Firm) :
    ∃ layers', Written layers' ∧ ∀ w : Term, w.node = node →
      (within layers w).enclosed = within layers' w.enclosed := by
  induction layers with
  | nil => exact ⟨[], writtenIn_nil, fun w _ => rfl⟩
  | cons l layers ih =>
    obtain ⟨hl, hlayers⟩ := writtenIn_cons.1 hlayers
    obtain ⟨inner, hinner, hbelow⟩ := ih hlayers
    obtain ⟨top, -, hlimits, -, htop⟩ := within_top hlayers hnode
    obtain ⟨outer, houter, habove⟩ := enclosed_fill hl hlimits
    refine ⟨outer ++ inner, writtenIn_append.2 ⟨houter, hinner⟩, fun w hw => ?_⟩
    rw [within_cons, habove _ (htop w hw), hbelow w hw, within_append]

/-! ## Rewriting -/

theorem withoutUpper_firm {t : Term} (h : t.node.canonicalFunction? ≠ some "UPPER") :
    t.withoutUpper = t := by
  unfold withoutUpper
  split
  · exact if_neg h
  · rfl

/-- What a layer around a term becomes, with the layers below it, or that it is refused. -/
def Settles (d : Dialect) (above : NodeKind) (node : Node) (l : Layer) (layers : List Layer) :
    Prop :=
  (∃ refusal, ∀ w : Term, w.node = node →
    rewriteTop d above (within (l :: layers) w) = .error refusal) ∨
  ∃ l' layers', l'.Shown ∧ Written layers' ∧ ∀ w : Term, w.node = node →
    rewriteTop d above (within (l :: layers) w) = .ok (within (l' :: layers') w)

theorem argumentCount_insert {before after : List Term} {t : Term} (h : t.node.kind ≠ .distinct) :
    argumentCount (before ++ t :: after) = argumentCount (before ++ after) + 1 := by
  have hkind : (t.kind != .distinct) = true := by
    simpa [kind] using h
  simp only [argumentCount, List.filter_append, List.filter_cons, hkind, if_true,
    List.length_append, List.length_cons]
  omega

theorem swapFirst_insert (before after : List Term) :
    ∃ before' after', ∀ t : Term, swapFirst (before ++ t :: after) = before' ++ t :: after' := by
  match before, after with
  | [], [] => exact ⟨[], [], fun t => rfl⟩
  | [], a :: after => exact ⟨[a], after, fun t => rfl⟩
  | [b], after => exact ⟨[], b :: after, fun t => rfl⟩
  | b :: b' :: before, after => exact ⟨b' :: b :: before, after, fun t => rfl⟩

/-- What takes the place of a call that keeps its parentheses leaves room for each argument. -/
theorem replaceCall_fill {rule : FunctionRule} (hbare : rule.isBare = false) (hok : rule ≠ .refuse)
    (name : String) (alias_ : Option String) (before after : List Term) :
    ∃ l layers, l.Shown ∧ Written layers ∧ ∀ t : Term,
      replaceCall (.function name true .canonical) alias_ (before ++ t :: after) rule =
        some (within (l :: layers) t) := by
  obtain ⟨before', after', hswap⟩ := swapFirst_insert before after
  have hinner (name : String) (before after : List Term) :
      Written [⟨.dialectCall name true, none, before, after⟩] :=
    writtenIn_cons.2 ⟨rfl, writtenIn_nil⟩
  cases rule with
  | keep =>
    exact ⟨⟨.function name true .canonical, alias_, before, after⟩, [], rfl, writtenIn_nil,
      fun t => rfl⟩
  | rename name parentheses =>
    obtain rfl : parentheses = true := by
      simpa [FunctionRule.isBare] using hbare
    exact ⟨⟨.dialectCall name true, alias_, before, after⟩, [], rfl, writtenIn_nil, fun t => rfl⟩
  | renameSwapped name =>
    refine ⟨⟨.dialectCall name true, alias_, before', after'⟩, [], rfl, writtenIn_nil, fun t => ?_⟩
    rw [replaceCall, hswap]
    rfl
  | operator operator =>
    exact ⟨⟨.operation operator, alias_, before, after⟩, [], rfl, writtenIn_nil, fun t => rfl⟩
  | keywords name keywords =>
    exact ⟨⟨.keywordCall name keywords, alias_, before, after⟩, [], rfl, writtenIn_nil,
      fun t => rfl⟩
  | keywordsSwapped name keywords =>
    refine ⟨⟨.keywordCall name keywords, alias_, before', after'⟩, [], rfl, writtenIn_nil,
      fun t => ?_⟩
    rw [replaceCall, hswap]
    rfl
  | extract part =>
    exact ⟨⟨.keywordCall "EXTRACT" ["FROM"], alias_, text part :: before, after⟩, [], rfl,
      writtenIn_nil, fun t => rfl⟩
  | nested outer inner =>
    exact ⟨⟨.dialectCall outer true, alias_, [], []⟩, _, rfl, hinner inner before after,
      fun t => rfl⟩
  | nestedFormat outer inner format =>
    refine ⟨⟨.dialectCall outer true, alias_, [], []⟩, _, rfl,
      hinner inner before (after ++ [text ("'" ++ format ++ "'")]), fun t => ?_⟩
    simp [replaceCall, Layer.fill, of]
  | formattedCast format =>
    exact ⟨⟨.keywordCall "cast" ["as"], alias_, [], [text "integer"]⟩, _, rfl,
      hinner "strftime" (text ("'" ++ format ++ "'") :: before) after, fun t => rfl⟩
  | refuse => exact absurd rfl hok

theorem call_settles (hlayers : Written layers) (hnode : node.Firm) (name : String)
    (alias_ : Option String) (before after : List Term) :
    Settles d above node ⟨.function name true .canonical, alias_, before, after⟩ layers := by
  obtain ⟨top, hkind, -, -, htop⟩ := within_top hlayers hnode
  have hcount (w : Term) (hw : w.node = node) : argumentCount (before ++ within layers w :: after) =
      argumentCount (before ++ after) + 1 :=
    argumentCount_insert (by rw [htop w hw]; exact hkind)
  have hrewrite (w : Term) (hw : w.node = node) : rewriteTop d above
      (within (⟨.function name true .canonical, alias_, before, after⟩ :: layers) w) =
        rewriteCall d name true alias_ (before ++ within layers w :: after) := rfl
  by_cases harity : FunctionCatalogue.checkArity name (argumentCount (before ++ after) + 1) = .ok ()
  · by_cases hrefuse : d.functionRule name = .refuse
    · refine .inl ⟨.function name d, fun w hw => ?_⟩
      rw [hrewrite w hw, rewriteCall, hcount w hw, harity, hrefuse]
      rfl
    · have hbare : (d.functionRule name).isBare = false := by
        by_contra hbare
        have := Dialect.functionRule_bareArity (by simpa using hbare) harity
        omega
      obtain ⟨l', layers', hl', hlayers', hreplace⟩ :=
        replaceCall_fill hbare hrefuse name alias_ before after
      refine .inr ⟨l', layers' ++ layers, hl', writtenIn_append.2 ⟨hlayers', hlayers⟩,
        fun w hw => ?_⟩
      rw [hrewrite w hw, rewriteCall, hcount w hw, harity]
      simp only [hreplace, within_cons, within_append]
  · cases hcheck : FunctionCatalogue.checkArity name (argumentCount (before ++ after) + 1) with
    | error refusal =>
      refine .inl ⟨refusal, fun w hw => ?_⟩
      rw [hrewrite w hw, rewriteCall, hcount w hw, hcheck]
    | ok _ => exact absurd hcheck harity

/-- Operands of a pattern match may lose an `UPPER`, and a layer with it. -/
theorem withoutUpper_within (hlayers : Written layers) (hnode : node.Firm) :
    ∃ layers', Written layers' ∧ ∀ w : Term, w.node = node →
      (within layers w).withoutUpper = within layers' w := by
  cases layers with
  | nil => exact ⟨[], writtenIn_nil, fun w hw => withoutUpper_firm (hw ▸ hnode.2.2.2)⟩
  | cons l layers =>
    obtain ⟨hl, hbelow⟩ := writtenIn_cons.1 hlayers
    obtain ⟨top, alias_, before, after⟩ := l
    by_cases hupper : top.canonicalFunction? = some "UPPER"
    · match before, after with
      | [], [] =>
        refine ⟨layers, hbelow, fun w _ => ?_⟩
        simp [withoutUpper, Layer.fill, hupper, Term.children, Term.node]
      | b :: before, after =>
        refine ⟨_, hlayers, fun w _ => ?_⟩
        simp [withoutUpper, Layer.fill, Term.children]
      | [], a :: after =>
        refine ⟨_, hlayers, fun w _ => ?_⟩
        simp [withoutUpper, Layer.fill, Term.children]
    · exact ⟨_, hlayers, fun w _ => withoutUpper_firm hupper⟩

theorem like_settles (hlayers : Written layers) (hnode : node.Firm) (ignoreCase negated : Bool)
    (escape : Option Char) (alias_ : Option String) (before after : List Term) :
    Settles d above node ⟨.like .like ignoreCase negated escape, alias_, before, after⟩ layers := by
  refine .inr ?_
  have hrewrite (w : Term) : rewriteTop d above
      (within (⟨.like .like ignoreCase negated escape, alias_, before, after⟩ :: layers) w) =
        .ok (rewriteLike d ignoreCase negated escape alias_ (before ++ within layers w :: after)) :=
    rfl
  obtain ⟨bare, hbare, hupper⟩ := withoutUpper_within hlayers hnode
  cases hops : d.likeOperators? with
  | none =>
    refine ⟨⟨.like .like ignoreCase negated escape, alias_, before, after⟩, layers, rfl, hlayers,
      fun w hw => ?_⟩
    rw [hrewrite, rewriteLike, hops]
    rfl
  | some operators =>
    obtain ⟨sensitive, insensitive⟩ := operators
    cases ignoreCase with
    | false =>
      refine ⟨⟨.like sensitive false negated escape, alias_, before, after⟩, layers, rfl, hlayers,
        fun w hw => ?_⟩
      rw [hrewrite, rewriteLike, hops]
      rfl
    | true =>
      refine ⟨⟨.like insensitive true negated escape, alias_, before.map withoutUpper,
        after.map withoutUpper⟩, bare, rfl, hbare, fun w hw => ?_⟩
      rw [hrewrite, rewriteLike, hops]
      simp [hupper w hw, Layer.fill]

theorem layer_settles (hl : l.Shown) (hlayers : Written layers) (hnode : node.Firm) :
    Settles d above node l layers := by
  have hkept (h : ∀ t : Term, rewriteTop d above (l.fill t) = .ok (l.fill t)) :
      Settles d above node l layers :=
    .inr ⟨l, layers, hl, hlayers, fun w _ => h _⟩
  obtain ⟨top, alias_, before, after⟩ := l
  cases top with
  | function name parentheses origin =>
    obtain rfl : parentheses = true := hl
    cases origin with
    | canonical => exact call_settles hlayers hnode name alias_ before after
    | dialect => exact hkept fun _ => rfl
  | like operator ignoreCase negated escape =>
    cases operator with
    | like => exact like_settles hlayers hnode ignoreCase negated escape alias_ before after
    | _ => exact hkept fun _ => rfl
  | column | value | limitOffset => cases hl
  | _ => exact hkept fun _ => rfl

theorem rewriteAll_of_none {ts : List Term} (h : ∀ t ∈ ts, (rewrite d above t).2 = none) :
    rewriteAll d above ts = (ts.map fun t => (rewrite d above t).1, none) := by
  have hnone : (rewriteAll d above ts).2 = none := by
    cases hr : (rewriteAll d above ts).2 with
    | none => rfl
    | some refusal =>
      obtain ⟨t, ht, hrefused⟩ := rewriteAll_refusal hr
      rw [h t ht] at hrefused
      cases hrefused
  exact Prod.ext (rewriteAll_none hnone).1 hnone

/-- If nothing in some layers is refused, a term with the same top that is not refused itself is
rewritten in the same place. -/
theorem rewrite_within {u : Term} (hlayers : Written layers) (hu : u.node.Firm)
    (h : (rewrite d above (within layers u)).2 = none) :
    ∃ kind layers', Written layers' ∧ (rewrite d kind u).2 = none ∧
      ∀ w : Term, w.node = u.node → (rewrite d kind w).2 = none →
        rewrite d above (within layers w) = (within layers' (rewrite d kind w).1, none) := by
  generalize ht : within layers u = t at h
  -- The walk meets the layers one by one; what it does to one may take the next one away.
  induction above, t using rewrite_induct (d := d) generalizing layers with
  | refused above t refusal htop =>
    rw [rewrite_error htop] at h
    cases h
  | rewritten above t node alias_ children htop ih =>
    cases layers with
    | nil =>
      subst ht
      exact ⟨above, [], writtenIn_nil, h, fun w _ hw => Prod.ext rfl hw⟩
    | cons l layers =>
      subst ht
      obtain ⟨hl, hbelow⟩ := writtenIn_cons.1 hlayers
      have hsettles : Settles d above u.node l layers := layer_settles hl hbelow hu
      rcases hsettles with ⟨refusal, hrefused⟩ | ⟨l', layers', hl', hlayers', hsettled⟩
      · rw [hrefused u rfl] at htop
        cases htop
      · obtain ⟨-, hnone⟩ := rewrite_children htop h
        rw [hsettled u rfl] at htop
        cases htop
        obtain ⟨top, alias_, before, after⟩ := l'
        simp only [List.mem_append, List.mem_cons] at ih hnone
        obtain ⟨kind, inner, hinner, hfirst, hrest⟩ :=
          ih _ (.inr (.inl rfl)) hlayers' rfl (hnone _ (.inr (.inl rfl)))
        refine ⟨kind, ⟨top, alias_, before.map fun t => (rewrite d top.kind t).1,
          after.map fun t => (rewrite d top.kind t).1⟩ :: inner,
          writtenIn_cons.2 ⟨by simpa [Layer.Shown] using hl', hinner⟩, hfirst, fun w hw hnw => ?_⟩
        have hroom := hrest w hw hnw
        rw [rewrite_ok (hsettled w hw), rewriteAll_of_none fun t ht => ?_]
        · simp [hroom, Layer.fill]
        · simp only [List.mem_append, List.mem_cons] at ht
          rcases ht with ht | rfl | ht
          · exact hnone t (.inl ht)
          · rw [hroom]
          · exact hnone t (.inr (.inr ht))

/-! ## Adapting -/

/-- What a dialect makes of a term below a node of some kind, and the first refusal. -/
def adaptedBelow (d : Dialect) (above : NodeKind) (t : Term) : Term × Option Refusal :=
  rewrite d above (if d.filtersRowNumbers then t.enclosed else t)

/-- What a dialect makes of terms below a node of some kind, each by itself. -/
def adaptedEach (d : Dialect) (above : NodeKind) (ts : List Term) : List Term :=
  ts.map fun t => (adaptedBelow d above t).1

/-- What a dialect makes of layers, for terms with a given top: whatever such a term stands in the
layers, if it is not refused itself, what it is adapted to below a node of the kind `kind` stands in
the layers `layers'`. -/
structure AdaptedLayers (d : Dialect) (above : NodeKind) (layers : List Layer) (node : Node)
    (kind : NodeKind) (layers' : List Layer) : Prop where
  written : Written layers'
  fill : ∀ w : Term, w.node = node → (adaptedBelow d kind w).2 = none →
    adaptedBelow d above (within layers w) = (within layers' (adaptedBelow d kind w).1, none)

theorem adapted_below (d : Dialect) (t : Term) : t.adapted d = adaptedBelow d .empty t := rfl

/-- A node that no rule changes stays on top, unless it is a select that is enclosed. -/
theorem adaptedBelow_same {alias_ : Option String} {ts : List Term}
    (hselect : d.filtersRowNumbers = true → node = .select → firstLimit? ts = none)
    (hsame : ∀ ts t, rewriteTop d above (.mk node alias_ ts) = .ok t → t = .mk node alias_ ts)
    (h : (adaptedBelow d above (.mk node alias_ ts)).2 = none) :
    (adaptedBelow d above (.mk node alias_ ts)).1 =
        .mk node alias_ (ts.map fun c => (adaptedBelow d node.kind c).1) ∧
      ∀ c ∈ ts, (adaptedBelow d node.kind c).2 = none := by
  have hkept {ts : List Term} (h : (rewrite d above (.mk node alias_ ts)).2 = none) :
      rewriteTop d above (.mk node alias_ ts) = .ok (.mk node alias_ ts) := by
    cases htop : rewriteTop d above (.mk node alias_ ts) with
    | error refusal =>
      rw [rewrite_error htop] at h
      cases h
    | ok t => rw [hsame ts t htop]
  unfold adaptedBelow at h ⊢
  by_cases hrows : d.filtersRowNumbers = true
  · have henclosed : (Term.mk node alias_ ts).enclosed = .mk node alias_ (ts.map enclosed) := by
      rw [enclosed_mk, encloseTop_same (hselect hrows)]
    simp only [if_pos hrows, henclosed] at h ⊢
    obtain ⟨hterm, hchildren⟩ := rewrite_children (hkept h) h
    exact ⟨by rw [hterm, List.map_map]; rfl, by simpa using hchildren⟩
  · simp only [if_neg hrows] at h ⊢
    exact rewrite_children (hkept h) h

/-- A node for which there is no rule stays on top, unless it is a select that is enclosed. -/
theorem adaptedBelow_mk {alias_ : Option String} {ts : List Term}
    (hselect : d.filtersRowNumbers = true → node = .select → firstLimit? ts = none)
    (hkept : ∀ ts, rewriteTop d above (.mk node alias_ ts) = .ok (.mk node alias_ ts))
    (h : (adaptedBelow d above (.mk node alias_ ts)).2 = none) :
    (adaptedBelow d above (.mk node alias_ ts)).1 =
        .mk node alias_ (ts.map fun c => (adaptedBelow d node.kind c).1) ∧
      ∀ c ∈ ts, (adaptedBelow d node.kind c).2 = none :=
  adaptedBelow_same hselect (fun ts t ht => by rw [hkept ts] at ht; cases ht; rfl) h

/-- A node that is no select and for which there is no rule stays on top. -/
theorem adaptedBelow_kept {ts : List Term} (hselect : node ≠ .select)
    (hkept : ∀ ts, rewriteTop d above (of node ts) = .ok (of node ts))
    (h : (adaptedBelow d above (of node ts)).2 = none) :
    (adaptedBelow d above (of node ts)).1 =
        of node (ts.map fun c => (adaptedBelow d node.kind c).1) ∧
      ∀ c ∈ ts, (adaptedBelow d node.kind c).2 = none :=
  adaptedBelow_mk (fun _ he => absurd he hselect) hkept h

/-- If nothing in some layers is refused, the layers are adapted for all terms with the same top. -/
theorem adaptedBelow_within {u : Term} (hlayers : Written layers) (hu : u.node.Firm)
    (h : (adaptedBelow d above (within layers u)).2 = none) :
    ∃ kind layers', AdaptedLayers d above layers u.node kind layers' ∧
      (adaptedBelow d kind u).2 = none := by
  unfold adaptedBelow at h
  by_cases hrows : d.filtersRowNumbers = true
  · simp only [if_pos hrows] at h
    obtain ⟨inner, hinner, henclosed⟩ := enclosed_within hlayers hu
    rw [henclosed u rfl] at h
    obtain ⟨kind, layers', hlayers', hnone, hrewrite⟩ :=
      rewrite_within hinner (by rwa [enclosed_node]) h
    refine ⟨kind, layers', ⟨hlayers', fun w hw hwnone => ?_⟩, ?_⟩
    · unfold adaptedBelow at hwnone ⊢
      simp only [if_pos hrows, henclosed w hw] at hwnone ⊢
      exact hrewrite _ (by rw [enclosed_node, enclosed_node, hw]) hwnone
    · rwa [adaptedBelow, if_pos hrows]
  · simp only [if_neg hrows] at h
    obtain ⟨kind, layers', hlayers', hnone, hrewrite⟩ := rewrite_within hlayers hu h
    refine ⟨kind, layers', ⟨hlayers', fun w hw hwnone => ?_⟩, ?_⟩
    · unfold adaptedBelow at hwnone ⊢
      simp only [if_neg hrows] at hwnone ⊢
      exact hrewrite w hw hwnone
    · rwa [adaptedBelow, if_neg hrows]

/-- No rule puts a `NULL` into a query. -/
theorem rewriteTop_notNull {t t' : Term} (h : rewriteTop d above t = .ok t')
    (ht : t.node.isNullValue = false) : t'.node.isNullValue = false := by
  cases rewriteTop_ok h with
  | kept => exact ht
  | call harity hcall =>
    obtain ⟨node, alias_, children⟩ := t'
    rcases replaceCall_cases hcall with ⟨rfl, -, -⟩ | hforeign
    · exact ht
    · cases node <;> first | rfl | exact absurd hforeign id
  | column | value | limit | like | likeBare => rfl

theorem adaptedBelow_notNull {t : Term} (h : t.node.isNullValue = false) :
    (adaptedBelow d above t).1.node.isNullValue = false := by
  unfold adaptedBelow
  generalize ht' : (if d.filtersRowNumbers then t.enclosed else t) = t'
  have hnull : t'.node.isNullValue = false := by
    subst ht'
    split
    · rwa [enclosed_node]
    · exact h
  cases htop : rewriteTop d above t' with
  | error refusal => rwa [rewrite_error htop]
  | ok top =>
    obtain ⟨node, alias_, children⟩ := top
    have hnode := rewriteTop_notNull htop hnull
    rw [rewrite_ok htop]
    exact hnode

end Term
end PolyglotSql
