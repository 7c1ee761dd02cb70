import PolyglotSql.Proofs.Dialect.Rules
import PolyglotSql.Proofs.Tree.Recording

/-!
# PolyglotSql.Proofs.Dialect.Walk

The walk that adapts a tree, as a simulation of `Term.rewrite`. A walk stands between two children
of a node: those before it are rewritten, those behind it are as they were. `visitChildren_adapts`
is the invariant of the whole walk; the induction is on the steps that may still be nested, of which
the weight of what is left bounds the need.
-/

namespace PolyglotSql

open PolyglotSql.Tree

/-! ## Steps of a walk -/

namespace Walk

variable {σ α : Type} {s : WalkState σ}

theorem yields_edit {e : Edit α} {a : α} {t' : Tree} (h : Yields e s.tree a t') :
    Yields (edit e : Walk σ α) s a { s with tree := t' } := by
  unfold Yields at h ⊢
  rw [run_edit, h]

theorem yields_memory : Yields (memory : Walk σ σ) s s.memory s := rfl

theorem yields_remember (change : σ → σ) :
    Yields (remember change : Walk σ Unit) s () { s with memory := change s.memory } := rfl

theorem read_childCount {id : NodeId} {slot : Slot} (h : s.tree.slots[id]? = some slot) :
    Yields (read (·.childCount id) : Walk σ Nat) s slot.children.length s :=
  yields_edit (Edit.read_childCount h)

theorem read_child {id child : NodeId} {slot : Slot} {index : Nat}
    (h : s.tree.slots[id]? = some slot) (hc : slot.children[index]? = some child) :
    Yields (read (·.child id index) : Walk σ NodeId) s child s :=
  yields_edit (Edit.read_child h hc)

end Walk

namespace Dialect

variable {d : Dialect}

/-- Once something was refused, the walk only runs out. -/
theorem visitChildren_idle {t : Tree} {id : NodeId} {s : Slot} {refusal : Refusal} {index : Nat}
    {steps : Nat} (hs : t.slots[id]? = some s) (hindex : index ≤ s.children.length)
    (hsteps : s.children.length < index + steps) :
    Yields (d.adaptor.visitChildren steps id index) ⟨t, some refusal⟩ () ⟨t, some refusal⟩ := by
  induction steps generalizing index with
  | zero => omega
  | succ steps ih =>
    rw [Visitor.visitChildren]
    refine .bind (Walk.read_childCount hs) ?_
    by_cases hlt : index < s.children.length
    · rw [if_pos hlt]
      have hchild : s.children[index]? = some s.children[index] := List.getElem?_eq_getElem hlt
      refine .bind (Walk.read_child hs hchild) ?_
      refine .bind (a := false) (.bind Walk.yields_memory (yields_pure _ _)) ?_
      refine .bind (Walk.read_childCount hs) ?_
      rw [if_pos hlt]
      refine .bind (Walk.read_child hs hchild) ?_
      rw [if_neg Bool.false_ne_true]
      refine .bind (Walk.read_childCount hs) ?_
      exact .bind (yields_pure () _) (ih hlt (by omega))
    · rw [if_neg hlt]
      exact yields_pure _ _

/-- The walk below a node rewrites what is below it. -/
def WalkAdapts (d : Dialect) (steps : Nat) : Prop :=
  ∀ {t : Tree} {site : Site} {id : NodeId} {node : Node} {alias_ : Option String}
    (seen : List Layout) {rest : List Layout}, t.Hangs site (.mk id node alias_ (seen ++ rest)) →
    1 + 2 * Term.weightAll (rest.map Layout.term) ≤ steps →
    ∃ t' rest', Yields (d.adaptor.visitChildren steps id seen.length) ⟨t, none⟩ ()
        ⟨t', (Term.rewriteAll d node.kind (rest.map Layout.term)).2⟩ ∧
      Renews t t' site (.mk id node alias_ (seen ++ rest)) (.mk id node alias_ (seen ++ rest')) ∧
      rest'.map Layout.term = (Term.rewriteAll d node.kind (rest.map Layout.term)).1 ∧
      (rest'.map Layout.term = rest.map Layout.term → rest' = rest) ∧
      List.Forall₂ Layout.Carries rest rest'

/-- The walk at a node whose place is settled. -/
theorem visitNode_adapts {steps : Nat} (ih : d.WalkAdapts steps) {t : Tree} {site : Site}
    {id : NodeId} {node : Node} {alias_ : Option String} {below : List Layout}
    (h : t.Hangs site (.mk id node alias_ below))
    (hsteps : 1 + 2 * Term.weightAll (below.map Layout.term) ≤ steps) :
    ∃ t' below', Yields (d.adaptor.visitNode (steps + 1) id) ⟨t, none⟩ ()
        ⟨t', (Term.rewriteAll d node.kind (below.map Layout.term)).2⟩ ∧
      Renews t t' site (.mk id node alias_ below) (.mk id node alias_ below') ∧
      below'.map Layout.term = (Term.rewriteAll d node.kind (below.map Layout.term)).1 ∧
      (below'.map Layout.term = below.map Layout.term → below' = below) ∧
      List.Forall₂ Layout.Carries below below' := by
  obtain ⟨t', below', hy, hr, hrest⟩ := ih [] h hsteps
  refine ⟨t', below', ?_, hr, hrest⟩
  rw [Visitor.visitNode]
  refine .bind (a := true) (.bind Walk.yields_memory (yields_pure _ _)) ?_
  rw [if_pos rfl]
  exact .bind hy (yields_pure _ _)

/-- A child is settled, and the walk goes on below what stands in its place, if it was not
refused: a walk from the next child on, with what is remembered then, makes one from this child. -/
theorem visitChild_adapts (steps : Nat) (ih : ∀ m ≤ steps, d.WalkAdapts m) {t : Tree}
    {site : Site} {id : NodeId} {node : Node} {alias_ : Option String} {seen : List Layout}
    {c : Layout} {rest : List Layout} (h : t.Hangs site (.mk id node alias_ (seen ++ c :: rest)))
    (hsteps : 2 * Term.weight c.term ≤ steps) :
    ∃ t' c', (∀ s, Yields (d.adaptor.visitChildren steps id (seen.length + 1))
          ⟨t', (Term.rewrite d node.kind c.term).2⟩ () s →
        Yields (d.adaptor.visitChildren (steps + 1) id seen.length) ⟨t, none⟩ () s) ∧
      Renews t t' site (.mk id node alias_ (seen ++ c :: rest))
        (.mk id node alias_ (seen ++ c' :: rest)) ∧
      c'.term = (Term.rewrite d node.kind c.term).1 ∧ (c'.term = c.term → c' = c) ∧
      c.Carries c' := by
  have hweight := Term.weight_pos c.term
  have hread {t' : Tree} {c' : Layout} {memory : Option Refusal}
      (h' : t'.Hangs site (.mk id node alias_ (seen ++ c' :: rest))) :
      Yields (Walk.read (·.child id seen.length)) ⟨t', memory⟩ c'.id ⟨t', memory⟩ :=
    Walk.read_child (holds_mk.1 h'.holds).1 (by simp)
  have hcount {t' : Tree} {c' : Layout} {memory : Option Refusal}
      (h' : t'.Hangs site (.mk id node alias_ (seen ++ c' :: rest))) :
      Yields (Walk.read (·.childCount id)) ⟨t', memory⟩ (seen.length + (rest.length + 1))
        ⟨t', memory⟩ := by
    simpa using Walk.read_childCount (s := ⟨t', memory⟩) (holds_mk.1 h'.holds).1
  have hlt : seen.length < seen.length + (rest.length + 1) := by omega
  obtain ⟨r, t₁, c₁, hy₁, hr₁, hset⟩ := adaptPlace_settles (d := d) h.child
  rw [List.length_map] at hy₁
  have hr₁ := hr₁.child h
  have h₁ := hr₁.hangs
  cases r with
  | error refusal =>
    obtain ⟨htop, rfl⟩ := hset
    -- The refusal is remembered, and the walk does not go below the child.
    rw [Term.rewrite_error htop]
    refine ⟨t₁, c₁, fun s hrest => ?_, hr₁, rfl, fun _ => rfl, .refl _⟩
    rw [Visitor.visitChildren]
    refine .bind (hcount h) ?_
    rw [if_pos hlt]
    refine .bind (hread h) ?_
    refine .bind (.bind Walk.yields_memory
      (.bind (Walk.yields_edit hy₁) (.bind (Walk.yields_remember _) (yields_pure false _)))) ?_
    refine .bind (hcount h₁) ?_
    rw [if_pos hlt]
    refine .bind (hread h₁) ?_
    rw [if_neg Bool.false_ne_true]
    exact .bind (hcount h₁) (.bind (yields_pure () _) hrest)
  | ok u =>
    obtain ⟨htop, hkeep, hcarries⟩ := hset
    obtain ⟨id₁, node₁, alias₁, below₁⟩ := c₁
    simp only [Layout.term_mk] at htop
    have hlighter := Term.rewriteTop_weight htop
    simp only [Term.children] at hlighter
    obtain ⟨steps, rfl⟩ : ∃ n, steps = n + 1 := ⟨steps - 1, by omega⟩
    obtain ⟨t₂, below₂, hy₂, hr₂, hterm₂, hsame₂, hcarries₂⟩ :=
      visitNode_adapts (ih steps (by omega)) h₁.child (by omega)
    have hr₂ := hr₂.child h₁
    have h₂ := hr₂.hangs
    rw [Term.rewrite_ok htop]
    refine ⟨t₂, .mk id₁ node₁ alias₁ below₂, fun s hrest => ?_, hr₁.trans hr₂, by simp [hterm₂],
      fun he => ?_, hcarries.trans (.under hcarries₂)⟩
    · rw [Visitor.visitChildren]
      refine .bind (hcount h) ?_
      rw [if_pos hlt]
      refine .bind (hread h) ?_
      refine .bind (.bind Walk.yields_memory
        (.bind (Walk.yields_edit hy₁) (.bind (hread h₁) (yields_pure _ _)))) ?_
      refine .bind (hcount h₁) ?_
      rw [if_pos hlt]
      refine .bind (hread h₁) ?_
      rw [if_pos rfl]
      exact .bind hy₂ (.bind (hcount h₂) (.bind (yields_pure () _) hrest))
    · -- A child whose term comes out the same was not touched.
      obtain ⟨cid, cnode, calias, cbelow⟩ := c
      simp only [Layout.term_mk, Term.mk.injEq] at he
      have hc₁ := hkeep he.1
      simp only [Layout.mk.injEq] at hc₁
      obtain ⟨rfl, rfl, rfl, rfl⟩ := hc₁
      rw [hsame₂ he.2.2]

/-- The walk over children rewrites them one after another, up to the first that is refused. -/
theorem visitChildren_adapts (d : Dialect) (steps : Nat) : d.WalkAdapts steps := by
  induction steps using Nat.strongRecOn with
  | ind steps ih =>
    intro t site id node alias_ seen rest h hsteps
    obtain ⟨steps, rfl⟩ : ∃ n, steps = n + 1 := ⟨steps - 1, by omega⟩
    match rest with
    | [] =>
      refine ⟨t, [], ?_, .refl h, by simp, by simp, .nil⟩
      rw [Visitor.visitChildren]
      refine .bind (Walk.read_childCount (holds_mk.1 h.holds).1) ?_
      rw [if_neg (by simp)]
      simpa using yields_pure () _
    | c :: rest =>
      have hweight := Term.weight_pos c.term
      simp only [List.map_cons, Term.weightAll_cons] at hsteps
      obtain ⟨t₁, c₁, hwalk, hr₁, hterm₁, hsame₁, hcarries₁⟩ :=
        visitChild_adapts steps (fun m hm => ih m (by omega)) h (by omega)
      have h₁ := hr₁.hangs
      rw [List.map_cons]
      cases hrewrite : Term.rewrite d node.kind c.term with
      | mk term refused =>
        rw [hrewrite] at hwalk hterm₁
        cases refused with
        | some refusal =>
          rw [Term.rewriteAll_refused (rest.map Layout.term) hrewrite]
          have hlength := Term.length_le_weightAll (rest.map Layout.term)
          rw [List.length_map] at hlength
          refine ⟨t₁, c₁ :: rest, hwalk ⟨t₁, some refusal⟩ ?_, hr₁, by simp [hterm₁],
            fun he => ?_, .cons hcarries₁ (List.forall₂_same.2 fun l _ => .refl l)⟩
          · exact visitChildren_idle (holds_mk.1 h₁.holds).1 (by simp) (by simp; omega)
          · rw [hsame₁ (by simpa using he)]
        | none =>
          rw [Term.rewriteAll_cons (rest.map Layout.term) hrewrite]
          rw [List.append_cons] at h₁
          obtain ⟨t₂, rest₂, hy₂, hr₂, hterm₂, hsame₂, hcarries₂⟩ :=
            ih steps (by omega) _ h₁ (by omega)
          refine ⟨t₂, c₁ :: rest₂, hwalk _ (by simpa using hy₂), hr₁.trans (by simpa using hr₂),
            by simp [hterm₁, hterm₂], fun he => ?_, .cons hcarries₁ hcarries₂⟩
          simp only [List.map_cons, List.cons.injEq] at he
          rw [hsame₁ he.1, hsame₂ he.2]

/-! ## The whole walk -/

theorem weight_le_ids (l : Layout) : Term.weight l.term ≤ 4 * l.ids.length := by
  induction l using Layout.induct with
  | mk id node alias_ below ih =>
    have hbelow : Term.weightAll (below.map Layout.term) ≤ 4 * (Layout.idsAll below).length := by
      induction below with
      | nil => simp
      | cons l ls ihs =>
        have hl := ih l (by simp)
        have hls := ihs fun l hl => ih l (by simp [hl])
        simp only [List.map_cons, Term.weightAll_cons, Layout.idsAll_cons, List.length_append]
        omega
    have hnode := Term.nodeWeight_le node
    simp only [Layout.term_mk, Term.weight_mk, Layout.ids_mk, List.length_cons]
    omega

/-- The walk rewrites what is below the root. -/
theorem adaptBelowRoot_adapts {t : Tree} {id : NodeId} {node : Node} {alias_ : Option String}
    {below : List Layout} (h : t.Hangs .free (.mk id node alias_ below)) (hroot : t.root = id) :
    ∃ t' below', Yields d.adaptBelowRoot t
        (Term.rewriteAll d node.kind (below.map Layout.term)).2 t' ∧
      t'.Hangs .free (.mk id node alias_ below') ∧ t'.root = id ∧
      below'.map Layout.term = (Term.rewriteAll d node.kind (below.map Layout.term)).1 ∧
      (below'.map Layout.term = below.map Layout.term → below' = below) ∧
      List.Forall₂ Layout.Carries below below' := by
  have hsize := h.length_le
  have hweight := weight_le_ids (.mk id node alias_ below)
  simp only [Layout.term_mk, Term.weight_mk] at hweight
  obtain ⟨t', below', hy, hr, hterm, hsame, hcarries⟩ := visitNode_adapts
    (visitChildren_adapts d (16 * t.size + 15)) h (by unfold size; omega)
  refine ⟨t', below', .bind (yields_get t) ?_, hr.hangs, hr.root.trans hroot, hterm, hsame,
    hcarries⟩
  have hvisit : Yields (d.adaptor.visit (walkSteps t.size)) ⟨t, none⟩ () _ :=
    .bind (yields_get _) (by rw [hroot]; exact hy)
  unfold Yields at hvisit
  rw [hvisit]
  rfl

theorem rewriteAll_singleton (d : Dialect) (above : NodeKind) (t : Term) :
    Term.rewriteAll d above [t] = ([(Term.rewrite d above t).1], (Term.rewrite d above t).2) := by
  cases h : Term.rewrite d above t with
  | mk t' r =>
    cases r with
    | none => simp [Term.rewriteAll_cons [] h]
    | some refusal => simp [Term.rewriteAll_refused [] h]

/-- One walk rewrites the whole tree. The next fresh slot is for the root's holder; it does not
become the root. -/
theorem adaptOnce_adapts {t : Tree} {l : Layout} (h : t.Hangs .free l) (hroot : t.root = l.id) :
    ∃ t' l', Yields d.adaptOnce t (Term.rewrite d .empty l.term).2 t' ∧ t'.Hangs .free l' ∧
      t'.root = l'.id ∧ l'.term = (Term.rewrite d .empty l.term).1 ∧ l'.id ≠ t.slots.size ∧
      (l'.term = l.term → l' = l) ∧ l.Carries l' := by
  obtain ⟨s, hs, hnode, hfree⟩ := holds_top h.holds
  have hkind : Yields (Edit.read (·.kind t.root)) t s.node.kind t := Edit.read_kind (hroot ▸ hs)
  by_cases hempty : s.node.kind = .empty
  · obtain ⟨id, node, alias_, below⟩ := l
    obtain rfl := Node.kind_empty (hnode ▸ hempty)
    obtain ⟨t', below', hy, hl', hroot', hterm, hsame, hcarries⟩ :=
      adaptBelowRoot_adapts (d := d) h hroot
    have hrw : Term.rewrite d .empty (Layout.mk id .empty alias_ below).term = _ :=
      Term.rewrite_ok (by rw [Layout.term_mk]; rfl)
    refine ⟨t', _, .bind (yields_get t) (.bind hkind ?_), hl', hroot', ?_,
      Nat.ne_of_lt (h.lt (by simp)), fun he => ?_, .under hcarries⟩
    · rw [if_pos hempty, hrw]
      exact hy
    · rw [hrw]
      simp [hterm]
    · rw [hsame (by simpa using he)]
  · -- Any other root hangs below an empty node meanwhile, so that it has a place.
    let holder : Slot := { node := .empty, parent := none, children := [], alias_ := none }
    have hf₁ : t.Frame [] (t.grow holder) := (Frame.refl _ t).grow _
    have hl₁ : (t.grow holder).Hangs .free l := h.frame hf₁ (by simp) (by simp)
    obtain ⟨t₂, hy₂, hl₂, -, -, -⟩ := attach_last (Hangs.leaf_grow t .empty) hl₁
      (by
        simp only [Layout.ids_mk, Layout.idsAll_nil, List.mem_singleton]
        rintro x hx rfl
        exact Nat.lt_irrefl _ (h.lt hx))
      (by simp [Site.up])
    rw [List.nil_append] at hl₂
    let t₃ : Tree := { t₂ with root := t.slots.size }
    obtain ⟨t₄, below', hy₄, hl₄, hroot₄, hterm₄, hsame₄, hcarries₄⟩ :=
      adaptBelowRoot_adapts (d := d) (hl₂.reroot t.slots.size) (t := t₃) rfl
    have hone := rewriteAll_singleton d .empty l.term
    simp only [List.map_cons, List.map_nil, Node.kind, hone] at hy₄ hterm₄ hsame₄
    obtain ⟨l', rfl⟩ : ∃ l', below' = [l'] :=
      List.length_eq_one_iff.1 (by simpa using congrArg List.length hterm₄)
    obtain ⟨t₅, hy₅, hl₅, -⟩ := remove_child hl₄
    obtain ⟨s', hs', -, hfree'⟩ := holds_top hl₅.holds
    have hholder : l'.id ≠ t.slots.size := by
      have hnodup := hl₄.nodup
      simp only [Layout.ids_mk, Layout.idsAll_cons, List.nodup_cons, List.mem_append] at hnodup
      exact fun he => hnodup.1 (.inl (he ▸ l'.id_mem_ids))
    refine ⟨{ t₅ with root := l'.id }, l', .bind (yields_get t) (.bind hkind ?_),
      hl₅.reroot l'.id, rfl, by simpa using hterm₄, hholder, fun he => by simpa [he] using hsame₄,
      by simpa using hcarries₄⟩
    rw [if_neg hempty]
    refine .bind (Edit.yields_add t .empty) (.bind (hroot ▸ hy₂) ?_)
    refine .bind (Edit.yields_setRoot (holds_mk.1 hl₂.holds).1 rfl) (.bind hy₄ ?_)
    exact .bind hy₅ (.bind (Edit.yields_setRoot hs' hfree') (yields_pure _ _))

end Dialect
end PolyglotSql
