import PolyglotSql.Proofs.Dialect.Replacement
import PolyglotSql.Proofs.Dialect.Tables
import PolyglotSql.Proofs.Tree.Reading

/-!
# PolyglotSql.Proofs.Dialect.Rules

What the dialects' rules do in a place: the term that hangs there afterwards is the one that
`Term.rewriteTop` gives, and the place is left alone by a refusal and where the same node would come
back (`adaptPlace_settles`).
-/

namespace PolyglotSql

open PolyglotSql.Tree

theorem Term.argumentCount_le (args : List Term) : Term.argumentCount args ≤ args.length :=
  List.length_filter_le _ _

/-- A call that has its arguments exchanged has two of them. -/
theorem swaps_length {d : Dialect} {name : String} {args : List Term}
    (h : (d.functionRule name).swaps = true)
    (harity : FunctionCatalogue.checkArity name (Term.argumentCount args) = .ok ()) :
    2 ≤ args.length := by
  obtain rfl := Dialect.functionRule_swaps h
  have hlocate : FunctionCatalogue.arity? "LOCATE" = some ⟨2, some 2⟩ := by decide
  have haccepts := FunctionCatalogue.checkArity_ok hlocate harity
  have hle := Term.argumentCount_le args
  simp [FunctionCatalogue.Arity.accepts] at haccepts
  omega

section Calls

variable {t : Tree} {p : NodeId} {sp : Slot} {before after up : List NodeId} {id : NodeId}
  {node : Node} {alias_ : Option String} {below : List Layout}

theorem exists_first_two {α : Type} {xs : List α} (h : 2 ≤ xs.length) :
    ∃ a b rest, xs = a :: b :: rest := by
  rcases xs with _ | ⟨a, _ | ⟨b, rest⟩⟩
  · simp at h
  · simp at h
  · exact ⟨a, b, rest, rfl⟩

/-- A rule for a function puts in its place what `Term.replaceCall` says. -/
theorem applyRule_renews {name : String} {parentheses : Bool} (rule : FunctionRule)
    (h : t.Hangs (.under p sp before after up)
      (.mk id (.function name parentheses .canonical) alias_ below))
    (hswap : rule.swaps = true → 2 ≤ below.length) :
    ∃ ok t' l', Yields (Dialect.applyRule ⟨p, before.length, id⟩ rule) t ok t' ∧
      Renews t t' (.under p sp before after up)
        (.mk id (.function name parentheses .canonical) alias_ below) l' ∧
      Term.replaceCall (.function name parentheses .canonical) alias_ (below.map Layout.term) rule
        = (if ok then some l'.term else none) ∧
      (ok = true → l'.node = .function name parentheses .canonical →
        l' = .mk id (.function name parentheses .canonical) alias_ below) ∧
      (ok = false → l' = .mk id (.function name parentheses .canonical) alias_ below) ∧
      (Layout.mk id (.function name parentheses .canonical) alias_ below).Carries l' := by
  have hcall : Node.function name parentheses .canonical ≠ .result := by simp
  cases rule with
  | keep =>
    exact ⟨true, t, _, yields_pure _ _, .refl h, by simp [Term.replaceCall], by simp, by simp,
      .refl _⟩
  | refuse =>
    exact ⟨false, t, _, yields_pure _ _, .refl h, by simp [Term.replaceCall], by simp,
      by simp, .refl _⟩
  | rename new parentheses' =>
    obtain ⟨t', hy, hr, -⟩ := replace_renews (.dialectCall new parentheses') h
    exact ⟨true, t', _, .bind hy (yields_pure _ _), hr, by simp [Term.replaceCall],
      by simp [Node.dialectCall], by simp, .replaced hcall⟩
  | renameSwapped new =>
    obtain ⟨a, b, rest, rfl⟩ := exists_first_two (hswap rfl)
    obtain ⟨n, t₁, t', hy, hy', hr⟩ := replace_swap_renews (.dialectCall new true) h
    exact ⟨true, t', _, .bind hy (.bind hy' (yields_pure _ _)), hr,
      by simp [Term.replaceCall, Term.swapFirst], by simp [Node.dialectCall], by simp,
      .retop hcall (by simp)⟩
  | operator operator =>
    obtain ⟨t', hy, hr, -⟩ := replace_renews (.operation operator) h
    exact ⟨true, t', _, .bind hy (yields_pure _ _), hr, by simp [Term.replaceCall],
      by simp, by simp, .replaced hcall⟩
  | keywords new keywords =>
    obtain ⟨t', hy, hr, -⟩ := replace_renews (.keywordCall new keywords) h
    exact ⟨true, t', _, .bind hy (yields_pure _ _), hr, by simp [Term.replaceCall],
      by simp, by simp, .replaced hcall⟩
  | keywordsSwapped new keywords =>
    obtain ⟨a, b, rest, rfl⟩ := exists_first_two (hswap rfl)
    obtain ⟨n, t₁, t', hy, hy', hr⟩ := replace_swap_renews (.keywordCall new keywords) h
    exact ⟨true, t', _, .bind hy (.bind hy' (yields_pure _ _)), hr,
      by simp [Term.replaceCall, Term.swapFirst], by simp, by simp, .retop hcall (by simp)⟩
  | extract part =>
    obtain ⟨n, e, t', hy, hr⟩ := extract_renews part h
    exact ⟨true, t', _, .bind hy (yields_pure _ _), hr,
      by simp [Term.replaceCall, Layout.leaf, Term.text, Term.leaf, Term.of], by simp, by simp,
      .retop hcall (by simp)⟩
  | nested outer inner =>
    obtain ⟨n, m, t', hy, hr⟩ := nest_renews outer inner h
    exact ⟨true, t', _, .bind hy (yields_pure _ _), hr, by simp [Term.replaceCall, Term.of],
      by simp [Node.dialectCall], by simp,
      .retop hcall (by simp [Layout.selectLists_of_ne, Node.dialectCall])⟩
  | nestedFormat outer inner format =>
    obtain ⟨n, m, e, t', hy, hr⟩ := nestFormat_renews outer inner format h
    exact ⟨true, t', _, .bind hy (yields_pure _ _), hr,
      by simp [Term.replaceCall, Layout.leaf, Term.text, Term.leaf, Term.of],
      by simp [Node.dialectCall], by simp,
      .retop hcall (by simp [Layout.selectLists_of_ne, Node.dialectCall])⟩
  | formattedCast format =>
    obtain ⟨n, m, e, e', t', hy, hr⟩ := formattedCast_renews format h
    exact ⟨true, t', _, .bind hy (yields_pure _ _), hr,
      by simp [Term.replaceCall, Layout.leaf, Term.text, Term.leaf, Term.of], by simp, by simp,
      .retop hcall (by simp [Layout.selectLists_of_ne, Node.dialectCall])⟩

/-- The arguments that are counted in the arena are those that are counted in the term. -/
theorem argumentCount_term {site : Site} (h : t.Hangs site (.mk id node alias_ below)) :
    Dialect.argumentCount t id = .ok (Term.argumentCount (below.map Layout.term)) := by
  obtain ⟨hs, hbelow⟩ := holds_mk.1 h.holds
  have hargs : (below.map Layout.id).filterM
      (fun id => do Except.ok ((← t.kind id) != NodeKind.distinct) : NodeId → Except Defect Bool) =
      .ok ((below.filter fun l : Layout => l.node.kind != NodeKind.distinct).map Layout.id) := by
    refine filterM_ok fun l hl => ?_
    obtain ⟨s, hs, hn, -⟩ := holds_top (hbelow l hl)
    simp [kind, slot_ok hs, hn, Except.map, bind, Except.bind]
  have hlen : (below.filter fun l : Layout => l.node.kind != .distinct).length
      = Term.argumentCount (below.map Layout.term) := by
    rw [Term.argumentCount, List.filter_map, List.length_map]
    congr 1
    refine List.filter_congr fun l _ => ?_
    cases l
    simp [Term.kind, Term.node]
  simp only [Dialect.argumentCount, children, slot_ok hs, Except.map, bind, Except.bind] at hargs ⊢
  rw [hargs]
  simp [hlen]

end Calls

/-! ## Places -/

section Place

variable {d : Dialect} {t : Tree} {p : NodeId} {sp : Slot} {before after up : List NodeId}
  {id : NodeId} {alias_ : Option String} {below : List Layout}

/-- What comes of the rule for a place: `l` turns into `l'`, which has the rewritten term, is `l`
itself if the node is the same, and carries the alias and the select lists of `l`, or the rule
refuses and leaves `l` alone. -/
def Settled (d : Dialect) (above : NodeKind) (l l' : Layout) : Except Refusal Unit → Prop
  | .ok () =>
    Term.rewriteTop d above l.term = .ok l'.term ∧ (l'.node = l.node → l' = l) ∧ l.Carries l'
  | .error refusal => Term.rewriteTop d above l.term = .error refusal ∧ l' = l

theorem adaptColumn_settles {ref : ColumnRef}
    (h : t.Hangs (.under p sp before after up) (.mk id (.column ref) alias_ below)) :
    ∃ t' l', Yields (d.adaptColumn ⟨p, before.length, id⟩) t () t' ∧
      Renews t t' (.under p sp before after up) (.mk id (.column ref) alias_ below) l' ∧
      Settled d sp.node.kind (.mk id (.column ref) alias_ below) l' (.ok ()) := by
  obtain ⟨hp, -⟩ := h.fits
  have hs := (holds_mk.1 h.holds).1
  have hkeep (hnode : d.columnNode sp.node.kind ref = .column ref) :
      Settled d sp.node.kind (.mk id (.column ref) alias_ below) (.mk id (.column ref) alias_ below)
        (.ok ()) := by
    simp [Settled, Term.rewriteTop, hnode]
  unfold Dialect.adaptColumn
  cases htrim : d.trimKind? with
  | none => exact ⟨t, _, yields_pure _ _, .refl h, hkeep (by simp [Dialect.columnNode, htrim])⟩
  | some strip =>
    by_cases hbelow : Place.trimsBelow sp.node.kind = true
    · by_cases hfixed : (ref.column.map (·.sqlType.isFixedChar)).getD false = true
      · obtain ⟨t', hy, hr, -⟩ := replace_renews (.trimmedColumn ref strip) h
        refine ⟨t', _, .bind (Edit.read_kind hp) ?_, hr, ?_⟩
        · rw [if_pos hbelow]
          refine .bind (Edit.read_node hs) ?_
          simp only [hfixed, if_true]
          exact .bind hy (yields_pure _ _)
        · simp [Settled, Term.rewriteTop, Dialect.columnNode, htrim, hbelow, hfixed,
            Layout.Carries.replaced]
      · refine ⟨t, _, .bind (Edit.read_kind hp) ?_, .refl h, hkeep ?_⟩
        · rw [if_pos hbelow]
          refine .bind (Edit.read_node hs) ?_
          simp only [hfixed]
          exact yields_pure _ _
        · simp [Dialect.columnNode, htrim, hfixed]
    · refine ⟨t, _, .bind (Edit.read_kind hp) ?_, .refl h, hkeep ?_⟩
      · rw [if_neg hbelow]
        exact yields_pure _ _
      · simp [Dialect.columnNode, htrim, hbelow]

theorem adaptValue_settles {value : Value} {column : Option Attribute}
    (h : t.Hangs (.under p sp before after up) (.mk id (.value value column) alias_ below)) :
    ∃ t' l', Yields (d.adaptValue ⟨p, before.length, id⟩) t () t' ∧
      Renews t t' (.under p sp before after up) (.mk id (.value value column) alias_ below) l' ∧
      Settled d sp.node.kind (.mk id (.value value column) alias_ below) l' (.ok ()) := by
  have hs := (holds_mk.1 h.holds).1
  have hkeep (hnode : d.valueNode value column = .value value column) :
      Settled d sp.node.kind (.mk id (.value value column) alias_ below)
        (.mk id (.value value column) alias_ below) (.ok ()) := by
    simp [Settled, Term.rewriteTop, hnode]
  unfold Dialect.adaptValue
  cases hclob : d.clobLength? with
  | none => exact ⟨t, _, yields_pure _ _, .refl h, hkeep (by simp [Dialect.valueNode, hclob])⟩
  | some length =>
    cases column with
    | none =>
      refine ⟨t, _, .bind (Edit.read_node hs) (yields_pure _ _), .refl h, hkeep ?_⟩
      simp [Dialect.valueNode]
    | some known =>
      by_cases hcast : (known.sqlType.isClob && value.isScalar) = true
      · obtain ⟨t', hy, hr, -⟩ := replace_renews
          (.castValue value (some known) "VARCHAR" (known.maxLength.getD length)) h
        refine ⟨t', _, .bind (Edit.read_node hs) ?_, hr, ?_⟩
        · simp only [hcast, if_true]
          exact .bind hy (yields_pure _ _)
        · simp only [Settled, Layout.term_mk, Term.rewriteTop, Dialect.valueNode, hclob, hcast]
          simp [Layout.Carries.replaced]
      · refine ⟨t, _, .bind (Edit.read_node hs) ?_, .refl h, hkeep ?_⟩
        · simp only [hcast]
          exact yields_pure _ _
        · simp only [Dialect.valueNode, hclob, hcast]
          simp

theorem adaptLimit_settles {limit offset : UInt64}
    (h : t.Hangs (.under p sp before after up) (.mk id (.limitOffset limit offset) alias_ below)) :
    ∃ t' l', Yields (d.adaptLimit ⟨p, before.length, id⟩) t () t' ∧
      Renews t t' (.under p sp before after up)
        (.mk id (.limitOffset limit offset) alias_ below) l' ∧
      Settled d sp.node.kind (.mk id (.limitOffset limit offset) alias_ below) l' (.ok ()) := by
  have hs := (holds_mk.1 h.holds).1
  unfold Dialect.adaptLimit
  cases hclause : d.pageClause? with
  | none =>
    refine ⟨t, _, yields_pure _ _, .refl h, ?_⟩
    simp [Settled, Term.rewriteTop, Dialect.limitNode, hclause]
  | some clause =>
    obtain ⟨t', hy, hr, -⟩ := replace_renews (.page clause limit offset) h
    refine ⟨t', _, .bind (Edit.read_node hs) (.bind hy (yields_pure _ _)), hr, ?_⟩
    simp [Settled, Term.rewriteTop, Dialect.limitNode, hclause, Layout.Carries.replaced]

/-- A match that ignores case never stays canonical. -/
theorem insensitive_ne_like {sensitive insensitive : LikeOperator}
    (h : d.likeOperators? = some (sensitive, insensitive)) : insensitive ≠ .like := by
  cases d <;> simp [Dialect.likeOperators?] at h <;> obtain ⟨-, rfl⟩ := h <;> decide

theorem adaptLike_settles {ignoreCase negated : Bool} {escape : Option Char}
    (h : t.Hangs (.under p sp before after up)
      (.mk id (.like .like ignoreCase negated escape) alias_ below)) :
    ∃ t' l', Yields (d.adaptLike ⟨p, before.length, id⟩) t () t' ∧
      Renews t t' (.under p sp before after up)
        (.mk id (.like .like ignoreCase negated escape) alias_ below) l' ∧
      Settled d sp.node.kind (.mk id (.like .like ignoreCase negated escape) alias_ below) l'
        (.ok ()) := by
  have hs := (holds_mk.1 h.holds).1
  unfold Dialect.adaptLike
  cases hops : d.likeOperators? with
  | none =>
    refine ⟨t, _, yields_pure _ _, .refl h, ?_⟩
    simp [Settled, Term.rewriteTop, Term.rewriteLike, hops]
  | some operators =>
    obtain ⟨sensitive, insensitive⟩ := operators
    cases ignoreCase with
    | false =>
      obtain ⟨t', hy, hr⟩ := setNode_renews (.like sensitive false negated escape) h
      refine ⟨t', _, .bind (.bind (Edit.read_node hs) (.bind hy (yields_pure _ _)))
        (yields_pure _ _), hr, ?_⟩
      simp [Settled, Term.rewriteTop, Term.rewriteLike, hops, Layout.Carries.replaced]
    | true =>
      obtain ⟨t₁, hy₁, hr₁⟩ := setNode_renews (.like insensitive true negated escape) h
      obtain ⟨t₂, below', hy₂, hr₂, hb, hlists⟩ := unwrapUpper_renews hr₁.hangs
      refine ⟨t₂, _, .bind (.bind (Edit.read_node hs) (.bind hy₁ (.bind hy₂ (yields_pure _ _))))
        (yields_pure _ _), hr₁.trans hr₂, ?_⟩
      simp [Settled, Term.rewriteTop, Term.rewriteLike, hops, hb, insensitive_ne_like hops,
        Layout.Carries.retop, hlists]

theorem adaptFunction_settles {name : String} {parentheses : Bool}
    (h : t.Hangs (.under p sp before after up)
      (.mk id (.function name parentheses .canonical) alias_ below)) :
    ∃ r t' l', Yields (do
        match ← Dialect.checkCall id with
        | .error refusal => pure (.error refusal)
        | .ok () => d.adaptFunction ⟨p, before.length, id⟩) t r t' ∧
      Renews t t' (.under p sp before after up)
        (.mk id (.function name parentheses .canonical) alias_ below) l' ∧
      Settled d sp.node.kind
        (.mk id (.function name parentheses .canonical) alias_ below) l' r := by
  have hs := (holds_mk.1 h.holds).1
  have hcheck : Yields (Dialect.checkCall id) t
      (FunctionCatalogue.checkArity name (Term.argumentCount (below.map Layout.term))) t :=
    .bind (Edit.read_node hs) (.bind (Edit.yields_read (argumentCount_term h)) (yields_pure _ _))
  cases harity : FunctionCatalogue.checkArity name (Term.argumentCount (below.map Layout.term)) with
  | error refusal =>
    rw [harity] at hcheck
    refine ⟨.error refusal, t, _, .bind hcheck (yields_pure _ _), .refl h, ?_, rfl⟩
    simp [Term.rewriteTop, Term.rewriteCall, harity]
  | ok u =>
    rw [harity] at hcheck
    obtain ⟨ok, t', l', hy, hr, hcall, hsame, hrefuse, hcarries⟩ := applyRule_renews
      (d.functionRule name) h fun hsw => by simpa using swaps_length hsw harity
    have hname : Yields (Place.function? ⟨p, before.length, id⟩) t (some name) t :=
      .bind (Edit.read_node hs) (yields_pure _ _)
    cases ok with
    | true =>
      refine ⟨.ok (), t', l', .bind hcheck (.bind hname (.bind hy (yields_pure _ _))), hr, ?_,
        fun he => hsame rfl he, hcarries⟩
      simp [Term.rewriteTop, Term.rewriteCall, harity, hcall]
    | false =>
      refine ⟨.error (.function name d), t', l',
        .bind hcheck (.bind hname (.bind hy (yields_pure _ _))), hr, ?_, hrefuse rfl⟩
      simp [Term.rewriteTop, Term.rewriteCall, harity, hcall]

/-- The rule for a place settles what hangs there. -/
theorem adaptPlace_settles {l : Layout} (h : t.Hangs (.under p sp before after up) l) :
    ∃ r t' l', Yields (d.adaptPlace ⟨p, before.length, l.id⟩) t r t' ∧
      Renews t t' (.under p sp before after up) l l' ∧ Settled d sp.node.kind l l' r := by
  obtain ⟨id, node, alias_, below⟩ := l
  have hs := (holds_mk.1 h.holds).1
  have hkind := Edit.read_kind hs
  -- Nodes that no rule is about, those of a dialect among them.
  have keep (hy : Yields (d.adaptPlace ⟨p, before.length, id⟩) t (.ok ()) t)
      (ht : ∀ terms, Term.rewriteTop d sp.node.kind (.mk node alias_ terms) =
        .ok (.mk node alias_ terms)) :
      ∃ r t' l', Yields (d.adaptPlace ⟨p, before.length, id⟩) t r t' ∧
        Renews t t' (.under p sp before after up) (.mk id node alias_ below) l' ∧
        Settled d sp.node.kind (.mk id node alias_ below) l' r :=
    ⟨.ok (), t, _, hy, .refl h, by simp [ht], fun _ => rfl, .refl _⟩
  have settled {e : Edit Unit} (he : Yields e t () t) :
      Yields (do e; pure (.ok ()) : Edit (Except Refusal Unit)) t (.ok ()) t :=
    .bind he (yields_pure _ _)
  cases node with
  | column ref =>
    obtain ⟨t', l', hy, hr, hl'⟩ := adaptColumn_settles (d := d) h
    exact ⟨.ok (), t', l', .bind hkind (.bind hy (yields_pure _ _)), hr, hl'⟩
  | value value column =>
    obtain ⟨t', l', hy, hr, hl'⟩ := adaptValue_settles (d := d) h
    exact ⟨.ok (), t', l', .bind hkind (.bind hy (yields_pure _ _)), hr, hl'⟩
  | limitOffset limit offset =>
    obtain ⟨t', l', hy, hr, hl'⟩ := adaptLimit_settles (d := d) h
    exact ⟨.ok (), t', l', .bind hkind (.bind hy (yields_pure _ _)), hr, hl'⟩
  | function name parentheses origin =>
    cases origin with
    | canonical =>
      obtain ⟨r, t', l', hy, hr, hl'⟩ := adaptFunction_settles (d := d) h
      exact ⟨r, t', l', .bind hkind hy, hr, hl'⟩
    | dialect =>
      refine keep (.bind hkind ?_) fun _ => rfl
      exact .bind (.bind (Edit.read_node hs) (yields_pure _ _))
        (.bind (.bind (Edit.read_node hs) (yields_pure _ _)) (yields_pure _ _))
  | keywordCall name keywords =>
    refine keep (.bind hkind ?_) fun _ => rfl
    exact .bind (.bind (Edit.read_node hs) (yields_pure _ _))
      (.bind (.bind (Edit.read_node hs) (yields_pure _ _)) (yields_pure _ _))
  | like operator ignoreCase negated escape =>
    by_cases hop : operator = .like
    · subst hop
      obtain ⟨t', l', hy, hr, hl'⟩ := adaptLike_settles (d := d) h
      exact ⟨.ok (), t', l', .bind hkind (.bind hy (yields_pure _ _)), hr, hl'⟩
    · refine keep (.bind hkind (settled ?_)) fun _ => ?_
      · unfold Dialect.adaptLike
        split
        · refine .bind (a := none) (.bind (Edit.read_node hs) ?_) (yields_pure _ _)
          cases operator <;> first | exact absurd rfl hop | exact yields_pure _ _
        · exact yields_pure _ _
      · cases operator <;> first | exact absurd rfl hop | rfl
  | trimmedColumn ref strip =>
    refine keep (.bind hkind (settled ?_)) fun _ => rfl
    unfold Dialect.adaptColumn
    split
    · refine .bind (Edit.read_kind h.fits.1) ?_
      split
      · exact .bind (Edit.read_node hs) (yields_pure _ _)
      · exact yields_pure _ _
    · exact yields_pure _ _
  | castValue value column target length =>
    refine keep (.bind hkind (settled ?_)) fun _ => rfl
    unfold Dialect.adaptValue
    split
    · exact .bind (Edit.read_node hs) (yields_pure _ _)
    · exact yields_pure _ _
  | page clause limit offset =>
    refine keep (.bind hkind (settled ?_)) fun _ => rfl
    unfold Dialect.adaptLimit
    split
    · exact .bind (Edit.read_node hs) (yields_pure _ _)
    · exact yields_pure _ _
  | boolean op =>
    cases op <;> exact keep (.bind hkind (yields_pure _ _)) fun _ => rfl
  | select | distinct | result | fromClause | table | join | whereClause | groupBy | having
  | orderBy | ordering | operation | group | not | equality | in_ | between | exists_ | text
  | empty =>
    exact keep (.bind hkind (yields_pure _ _)) fun _ => rfl

end Place
end PolyglotSql
