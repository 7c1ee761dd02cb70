import PolyglotSql.Proofs.Dialect.Adaptation
import PolyglotSql.Proofs.Dialect.Preservation

/-!
# PolyglotSql.Proofs.Dialect.Idempotence

An adapted query is adapted already. What a rule puts into a query is matched by no rule, so
rewriting a rewritten term changes nothing and meets the refusal that ended the first rewriting, if
there was one (`rewrite_again`). An enclosed select limits no rows any more, and no rule makes one
that does. On trees, the second adaptation leaves every reachable slot as it is
(`adapt_settled`).
-/

namespace PolyglotSql

open PolyglotSql.Tree

namespace Term

/-! ## Rewriting twice -/

/-- A node that stands in a query for a dialect in the place of a call. -/
def Foreign : Node → Prop
  | .function _ _ .dialect | .keywordCall _ _ | .operation _ => True
  | _ => False

theorem replaceCall_cases {call node : Node} {alias_ alias' : Option String}
    {args children : List Term} {rule : FunctionRule}
    (h : replaceCall call alias_ args rule = some (.mk node alias' children)) :
    (node = call ∧ children = args ∧ rule = .keep) ∨ Foreign node := by
  cases rule <;> simp only [replaceCall, Option.some.injEq, Term.mk.injEq, reduceCtorEq] at h
  case keep => exact .inl ⟨h.1.symm, h.2.2.symm, rfl⟩
  all_goals
    obtain ⟨rfl, -, -⟩ := h
    exact .inr trivial

theorem rewriteTop_foreign {d : Dialect} {above : NodeKind} {node : Node} {alias_ : Option String}
    {children : List Term} (h : Foreign node) :
    rewriteTop d above (.mk node alias_ children) = .ok (.mk node alias_ children) := by
  cases node with
  | function name parentheses origin =>
    cases origin with
    | canonical => exact absurd h id
    | dialect => rfl
  | keywordCall name keywords => rfl
  | operation operator => rfl
  | _ => exact absurd h id

/-- A rewritten top is not rewritten again, whatever stands below it, if that counts as as many
arguments. -/
theorem rewriteTop_again {d : Dialect} {above : NodeKind} {t : Term} {node : Node}
    {alias_ : Option String} {children children' : List Term}
    (h : rewriteTop d above t = .ok (.mk node alias_ children))
    (hcount : argumentCount children' = argumentCount children) :
    rewriteTop d above (.mk node alias_ children') = .ok (.mk node alias_ children') := by
  unfold rewriteTop at h
  split at h
  · rename_i ref _ _
    cases h
    rcases columnNode_cases d above ref with hn | ⟨strip, hn⟩ <;> simp [rewriteTop, hn]
  · rename_i value column _ _
    cases h
    rcases valueNode_cases d value column with hn | ⟨length, hn⟩ <;> simp [rewriteTop, hn]
  · rename_i limit offset _ _
    cases h
    rcases limitNode_cases d limit offset with hn | ⟨clause, hn⟩ <;> simp [rewriteTop, hn]
  · rename_i name parentheses alias' args
    unfold rewriteCall at h
    split at h
    · cases h
    · rename_i harity
      split at h
      · rename_i hcall
        cases h
        -- A kept call is kept again, by its count of arguments; no rule is about what replaced one.
        rcases replaceCall_cases hcall with ⟨rfl, rfl, hkeep⟩ | hforeign
        · simp [rewriteTop, rewriteCall, hcount, harity, hkeep, replaceCall]
        · exact rewriteTop_foreign hforeign
      · cases h
  · rename_i ignoreCase negated escape alias' operands
    cases hops : d.likeOperators? with
    | none =>
      simp only [rewriteLike, hops, Except.ok.injEq, Term.mk.injEq] at h
      obtain ⟨rfl, rfl, rfl⟩ := h
      simp [rewriteTop, rewriteLike, hops]
    | some operators =>
      obtain ⟨sensitive, insensitive⟩ := operators
      simp only [rewriteLike, hops] at h
      cases ignoreCase with
      | false =>
        simp only [Bool.false_eq_true, if_false, Except.ok.injEq, Term.mk.injEq] at h
        obtain ⟨rfl, rfl, rfl⟩ := h
        cases sensitive <;> simp [rewriteTop, rewriteLike, hops]
      | true =>
        simp only [if_true, Except.ok.injEq, Term.mk.injEq] at h
        obtain ⟨rfl, rfl, rfl⟩ := h
        -- Were the operator `LIKE` again, `UPPER` calls would be taken off a second time.
        have hne := insensitive_ne_like hops
        cases insensitive <;> first | exact absurd rfl hne | rfl
  · rename_i hcolumn hvalue hlimit hfunction hlike
    cases h
    unfold rewriteTop
    split
    · rename_i he; cases he; exact absurd rfl (hcolumn _ _ _)
    · rename_i he; cases he; exact absurd rfl (hvalue _ _ _ _)
    · rename_i he; cases he; exact absurd rfl (hlimit _ _ _ _)
    · rename_i he; cases he; exact absurd rfl (hfunction _ _ _ _)
    · rename_i he; cases he; exact absurd rfl (hlike _ _ _ _ _)
    · rfl

/-- A node that is no select, counts as an argument, and limits no rows. -/
def Plain (node : Node) : Prop :=
  node ≠ .select ∧ node.kind ≠ .distinct ∧ RowNumbers.limits? node = none

theorem foreign_plain {node : Node} (h : Foreign node) : Plain node := by
  cases node with
  | function name parentheses origin => exact ⟨by simp, by simp [Node.kind], rfl⟩
  | keywordCall name keywords => exact ⟨by simp, by simp [Node.kind], rfl⟩
  | operation operator => exact ⟨by simp, by simp [Node.kind], rfl⟩
  | _ => exact absurd h id

theorem brought_plain {node : Node} (h : Brought node) : Plain node := by
  cases h <;> exact ⟨by simp [Node.dialectCall], by simp [Node.dialectCall, Node.kind], rfl⟩

/-- The new node is the former one, or a plain node in the place of a node that counts as an
argument. -/
theorem rewriteTop_node {d : Dialect} {above : NodeKind} {t t' : Term}
    (h : rewriteTop d above t = .ok t') :
    t'.node = t.node ∨ (t.node.kind ≠ .distinct ∧ Plain t'.node) := by
  cases rewriteTop_ok h with
  | kept => exact .inl rfl
  | call harity hcall =>
    obtain ⟨node, alias_, children⟩ := t'
    rcases replaceCall_cases hcall with ⟨rfl, -, -⟩ | hforeign
    · exact .inl rfl
    · exact .inr ⟨by simp [Term.node, Node.kind], foreign_plain hforeign⟩
  | column ref strip =>
    exact .inr ⟨by simp [node, Node.kind], brought_plain (.trimmedColumn ref strip)⟩
  | value value column length =>
    exact .inr ⟨by simp [node, Node.kind], brought_plain (.castValue value column length)⟩
  | limit clause limit offset =>
    exact .inr ⟨by simp [node, Node.kind], brought_plain (.page clause limit offset)⟩
  | like | likeBare =>
    exact .inr ⟨by simp [node, Node.kind], brought_plain (.like _ _ _ _)⟩

/-- The top of a rewritten term. -/
theorem rewrite_node (d : Dialect) (above : NodeKind) (t : Term) :
    (rewrite d above t).1.node = t.node ∨
      (t.node.kind ≠ .distinct ∧ Plain (rewrite d above t).1.node) := by
  cases h : rewriteTop d above t with
  | error refusal => exact .inl (by rw [rewrite_error h])
  | ok t' =>
    obtain ⟨node, alias_, children⟩ := t'
    have hnode := rewriteTop_node h
    rw [rewrite_ok h]
    exact hnode

theorem rewrite_distinct (d : Dialect) (above : NodeKind) (t : Term) :
    ((rewrite d above t).1.kind != .distinct) = (t.kind != .distinct) := by
  rcases rewrite_node d above t with h | ⟨hk, hp⟩
  · simp [kind, h]
  · rw [kind, kind, bne_iff_ne.2 hk, bne_iff_ne.2 hp.2.1]

theorem argumentCount_cons (t : Term) (ts : List Term) :
    argumentCount (t :: ts) = (if t.kind != .distinct then 1 else 0) + argumentCount ts := by
  unfold argumentCount
  rw [List.filter_cons]
  split <;> simp [Nat.add_comm]

@[simp] theorem argumentCount_rewriteAll (d : Dialect) (above : NodeKind) (ts : List Term) :
    argumentCount (rewriteAll d above ts).1 = argumentCount ts := by
  refine rewriteAll_cases (motive := fun ts ts' => argumentCount ts' = argumentCount ts) ts
    rfl ?_ ?_
  · rintro t t' ts rfl
    rw [argumentCount_cons, argumentCount_cons, rewrite_distinct]
  · rintro t t' ts ts' rfl ih
    rw [argumentCount_cons, argumentCount_cons, rewrite_distinct, ih]

theorem rewriteAll_again {d : Dialect} {above : NodeKind} {ts : List Term}
    (ih : ∀ t ∈ ts, rewrite d above (rewrite d above t).1 = rewrite d above t) :
    rewriteAll d above (rewriteAll d above ts).1 = rewriteAll d above ts := by
  induction ts with
  | nil => simp
  | cons t ts ihs =>
    have ht := ih t (by simp)
    have hts := ihs fun t ht => ih t (by simp [ht])
    cases h : rewrite d above t with
    | mk t' r =>
      rw [h] at ht
      cases r with
      | none => rw [rewriteAll_cons ts h, rewriteAll_cons _ ht, hts]
      | some refusal => rw [rewriteAll_refused ts h, rewriteAll_refused _ ht]

/-- Rewriting a rewritten term gives the same term and the same refusal. -/
theorem rewrite_again (d : Dialect) (above : NodeKind) (t : Term) :
    rewrite d above (rewrite d above t).1 = rewrite d above t := by
  induction above, t using rewrite_induct (d := d) with
  | refused above t refusal h => rw [rewrite_error h, rewrite_error h]
  | rewritten above t node alias_ children h ih =>
    have hbelow : rewriteAll d node.kind (rewriteAll d node.kind children).1 =
        rewriteAll d node.kind children :=
      rewriteAll_again ih
    rw [rewrite_ok h, rewrite_ok (rewriteTop_again h (by simp)), hbelow]

/-! ## Limits -/

/-- No select of a term limits its rows. -/
def Unlimited : Term → Prop :=
  Every fun node children => node = .select → ∀ t ∈ children, RowNumbers.limits? t.node = none

/-- No select of a term has two canonical row limiting clauses. -/
def SingleLimits : Term → Prop :=
  Every fun node children => node = .select →
    (children.filter fun t => t.node.isLimitOffset).length ≤ 1

theorem enclosed_node (t : Term) : t.enclosed.node = t.node := by
  obtain ⟨node, alias_, children⟩ := t
  rw [enclosed_mk]
  unfold encloseTop
  split <;> rfl

theorem enclosed_unlimited {t : Term} (h : t.SingleLimits) : t.enclosed.Unlimited := by
  refine enclosed_induct (motive := fun t t' => t.SingleLimits → t'.Unlimited) ?_ ?_ t h
  · intro node alias_ children hlimit ih h
    have hbelow := (every_mk.1 h).2
    refine every_mk.2 ⟨fun hn t ht => ?_, fun t ht => ?_⟩
    · obtain ⟨c, hc, rfl⟩ := List.mem_map.1 ht
      rw [enclosed_node]
      exact firstLimit?_eq_none.1 (hlimit hn) c hc
    · obtain ⟨c, hc, rfl⟩ := List.mem_map.1 ht
      exact ih c hc (hbelow c hc)
  · intro alias_ before c after limit offset hc ih h
    obtain ⟨hone, hbelow⟩ := every_mk.1 h
    simp only [List.filter_append, List.filter_cons, isLimitOffset_of_limits hc, if_true,
      List.length_append, List.length_cons, forall_const] at hone
    -- The limiting child is the only one, so none is left beside the empty node.
    have hnone : ∀ t ∈ before ++ after, RowNumbers.limits? t.node = none := by
      intro t ht
      cases hl : RowNumbers.limits? t.node with
      | none => rfl
      | some limits =>
        have ht' : t ∈ (before ++ after).filter fun t => t.node.isLimitOffset :=
          List.mem_filter.2 ⟨ht, isLimitOffset_of_limits hl⟩
        have := List.length_pos_of_mem ht'
        simp only [List.filter_append, List.length_append] at this
        omega
    have hmem : ∀ t ∈ before.map enclosed ++ leaf .empty :: after.map enclosed,
        t = leaf .empty ∨ ∃ b ∈ before ++ after, b.enclosed = t := by
      intro t ht
      simp only [List.mem_append, List.mem_cons, List.mem_map] at ht ⊢
      rcases ht with ⟨b, hb, he⟩ | he | ⟨b, hb, he⟩
      · exact .inr ⟨b, .inl hb, he⟩
      · exact .inl he
      · exact .inr ⟨b, .inr hb, he⟩
    have hleaf {node : Node} (hn : node ≠ .select) : (leaf node).Unlimited :=
      every_mk.2 ⟨fun he => absurd he hn, by simp⟩
    have hinner :
        (of .select (before.map enclosed ++ leaf .empty :: after.map enclosed)).Unlimited := by
      refine every_mk.2 ⟨fun _ t ht => ?_, fun t ht => ?_⟩
      · rcases hmem t ht with rfl | ⟨b, hb, rfl⟩
        · rfl
        · rw [enclosed_node]
          exact hnone b hb
      · rcases hmem t ht with rfl | ⟨b, hb, rfl⟩
        · exact hleaf (by simp)
        · have hb' : b ∈ before ++ c :: after := by
            simpa using (List.mem_append.1 hb).imp id .inr
          exact ih b hb' (hbelow b hb')
    refine every_mk.2 ⟨by simp [text, of, leaf, node, RowNumbers.limits?], ?_⟩
    simp only [List.mem_cons, List.not_mem_nil, or_false]
    rintro t (rfl | rfl | rfl)
    · exact hleaf (by simp)
    · exact hinner
    · exact hleaf (by simp)

theorem enclosed_of_unlimited {t : Term} (h : t.Unlimited) : t.enclosed = t := by
  induction t using Term.induct with
  | mk node alias_ children ih =>
    obtain ⟨htop, hbelow⟩ := every_mk.1 h
    have hsame : children.map enclosed = children := by
      conv => rhs; rw [← List.map_id children]
      exact List.map_congr_left fun t ht => ih t ht (hbelow t ht)
    rw [enclosed_mk, encloseTop_same fun hn => firstLimit?_eq_none.2 (htop hn), hsame]

theorem rewrite_limits (d : Dialect) (above : NodeKind) {t : Term}
    (h : RowNumbers.limits? t.node = none) :
    RowNumbers.limits? (rewrite d above t).1.node = none := by
  rcases rewrite_node d above t with hn | ⟨-, hp⟩
  · rw [hn, h]
  · exact hp.2.2

/-- No rule makes a select that limits its rows. -/
theorem rewrite_unlimited (d : Dialect) (above : NodeKind) {t : Term} (h : t.Unlimited) :
    (rewrite d above t).1.Unlimited := by
  refine rewrite_every (fun node children hn he => absurd he (brought_plain hn).1) ?_ above h
  intro node children hchildren he
  exact rewriteAll_forall (hchildren he) fun t ht => rewrite_limits d _ (hchildren he t ht)

/-- An adapted term is adapted already. -/
theorem adapted_again (d : Dialect) {t : Term} (h : t.SingleLimits) :
    (t.adapted d).1.adapted d = t.adapted d ∧
      (d.filtersRowNumbers = true → (t.adapted d).1.Unlimited) := by
  unfold adapted
  by_cases hrows : d.filtersRowNumbers = true
  · have hunlimited := rewrite_unlimited d .empty (enclosed_unlimited h)
    simp only [if_pos hrows]
    rw [enclosed_of_unlimited hunlimited, rewrite_again]
    exact ⟨rfl, fun _ => hunlimited⟩
  · simp only [if_neg hrows]
    exact ⟨rewrite_again d .empty t, fun he => absurd he hrows⟩

end Term

/-! ## Adapting a tree twice -/

namespace RowNumbers

/-- Where no select limits its rows, none is enclosed. -/
theorem enclose_settled {t : Tree} {p : Option NodeId} {l : Layout} (h : t.Holds p l)
    (hu : l.term.Unlimited) : ∀ id ∈ l.selects, Yields (enclose id) t () t := by
  induction l using Layout.induct generalizing p with
  | mk id node alias_ below ih =>
    obtain ⟨hs, hbelow⟩ := holds_mk.1 h
    rw [Layout.term_mk] at hu
    obtain ⟨htop, hterms⟩ := Term.every_mk.1 hu
    have hrest : ∀ x ∈ Layout.selectsAll below, Yields (enclose x) t () t := by
      intro x hx
      obtain ⟨l, hl, hx⟩ := Layout.mem_selectsAll.1 hx
      exact ih l hl (hbelow l hl) (hterms _ (List.mem_map_of_mem hl)) x hx
    intro x hx
    rw [Layout.selects_mk] at hx
    split at hx
    · rename_i hn
      rcases List.mem_cons.1 hx with rfl | hx
      · exact enclose_unlimited h (Term.firstLimit?_eq_none.2 (htop hn))
      · exact hrest x hx
    · exact hrest x hx

theorem yields_forM_settled {e : NodeId → Edit Unit} {xs : List NodeId} {t : Tree}
    (h : ∀ x ∈ xs, Yields (e x) t () t) : Yields (xs.forM e) t () t := by
  induction xs with
  | nil => exact yields_pure _ _
  | cons x xs ih => exact .bind (h x (by simp)) (ih fun y hy => h y (by simp [hy]))

theorem encloseAll_settled {t : Tree} {l : Layout} (h : t.Hangs .free l) (hroot : t.root = l.id)
    (hu : l.term.Unlimited) : Yields encloseAll t () t :=
  .bind (yields_get t) (.bind (Edit.yields_read (hroot ▸ selectsBelow_selects h))
    (yields_forM_settled (enclose_settled h.holds hu)))

end RowNumbers

namespace Dialect

variable {d : Dialect}

/-- Adapting an adapted tree leaves what is reachable in place. -/
theorem adapt_settled {t : Tree} {l : Layout} (h : t.Hangs .free l) (hroot : t.root = l.id)
    (hrows : d.filtersRowNumbers = true → l.term.Unlimited)
    (hfixed : (l.term.adapted d).1 = l.term) :
    ∃ t', Yields d.adapt t (verdict t'.root (l.term.adapted d).2) t' ∧ t'.Hangs .free l ∧
      t'.root = l.id := by
  have hterm : l.term.adapted d = Term.rewrite d .empty l.term := by
    unfold Term.adapted
    split
    · rename_i hr
      rw [Term.enclosed_of_unlimited (hrows hr)]
    · rfl
  rw [hterm] at hfixed ⊢
  obtain ⟨t', l', hy, hl', hroot', hterm', -, hsame, -⟩ := adaptOnce_adapts (d := d) h hroot
  obtain rfl := hsame (hterm'.trans hfixed)
  refine ⟨t', ?_, hl', hroot'⟩
  unfold adapt
  split
  · rename_i hr
    exact .bind (RowNumbers.encloseAll_settled h hroot (hrows hr))
      (.bind hy (outcome_yields t' _))
  · exact .bind hy (outcome_yields t' _)

/-- Adapting a well-formed tree a second time ends as the first time and changes nothing that can be
reached: the root, the nodes, their aliases and the order of children are as before, also where the
first adaptation stopped half way. -/
theorem adapt_twice (d : Dialect) {t : Tree} {query : Term} (h : t.WellFormed)
    (hquery : t.term t.root = .ok query) (hone : query.SingleLimits) :
    ∃ r t₁ t₂ ids, Yields d.adapt t r t₁ ∧ Yields d.adapt t₁ r t₂ ∧ t₂.root = t₁.root ∧
      t₁.descendants t₁.root = .ok ids ∧ t₂.descendants t₂.root = .ok ids ∧
      (∀ x ∈ ids, t₂.slots[x]? = t₁.slots[x]?) ∧ t₂.term t₂.root = t₁.term t₁.root := by
  obtain ⟨l, hid, hl⟩ := h.layout
  rw [← hid, term_layout hl] at hquery
  cases hquery
  obtain ⟨hagain, hrows⟩ := Term.adapted_again d hone
  obtain ⟨t₁, l₁, hy₁, hl₁, hroot₁, hterm₁⟩ := adapt_layout (d := d) hl hid.symm
  rw [← hterm₁] at hagain hrows
  obtain ⟨t₂, hy₂, hl₂, hroot₂⟩ := adapt_settled (d := d) hl₁ hroot₁ hrows
    (by rw [hagain, hterm₁])
  have hroot : t₂.root = t₁.root := hroot₂.trans hroot₁.symm
  rw [hagain, hroot] at hy₂
  refine ⟨_, t₁, t₂, l₁.ids, hy₁, hy₂, hroot, ?_, ?_, fun x hx => ?_, ?_⟩
  · rw [hroot₁, descendants_ids hl₁]
  · rw [hroot₂, descendants_ids hl₂]
  · exact holds_same hl₁.holds hl₂.holds hx
  · rw [hroot₁, hroot₂, term_layout hl₁, term_layout hl₂]

/-- `SELECT LOCATE('a', t.b), CURRENT_TIME() FROM t LIMIT 5`, which is refused after the select has
been enclosed and the first call renamed. -/
def refusedTime : Term :=
  .of .select [
    .of .result [
      .of (.call "LOCATE") [.value (.text "a"), .leaf (.column ⟨some "t", "b", none⟩)],
      .of (.call "CURRENT_TIME") []],
    .of .fromClause [.leaf (.table "t" none none)],
    .leaf (.limitOffset 5 0)]

theorem adapt_twice_refusedTime : refusedTime.build.WellFormed ∧
    refusedTime.build.term refusedTime.build.root = .ok refusedTime ∧ refusedTime.SingleLimits ∧
    ∃ r t₁ t₂ ids, Yields Dialect.oracle.adapt refusedTime.build r t₁ ∧
      Yields Dialect.oracle.adapt t₁ r t₂ ∧ t₂.root = t₁.root ∧
      t₁.descendants t₁.root = .ok ids ∧ t₂.descendants t₂.root = .ok ids ∧
      (∀ x ∈ ids, t₂.slots[x]? = t₁.slots[x]?) ∧ t₂.term t₂.root = t₁.term t₁.root := by
  have hwf := refusedTime.build_wellFormed
  have hquery := refusedTime.build_term
  have hone : refusedTime.SingleLimits := by
    simp [refusedTime, Term.SingleLimits, Term.every_mk, Term.of, Term.leaf, Term.value, Term.node,
      Node.call, Node.isLimitOffset]
  exact ⟨hwf, hquery, hone, adapt_twice .oracle hwf hquery hone⟩

end Dialect
end PolyglotSql
