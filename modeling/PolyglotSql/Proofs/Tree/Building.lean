import PolyglotSql.Proofs.Tree.Graft
import PolyglotSql.Proofs.Tree.WellFormed

/-!
# PolyglotSql.Proofs.Tree.Building

Trees that are built from terms. An edit that `Lays` a term puts it into fresh slots, one for each
of its nodes, in the order in which a depth-first walk meets them. Building does so
(`buildInto_lays`), so a tree of its own is well-formed and its root holds the term
(`build_wellFormed`, `build_term`).
-/

namespace PolyglotSql

open PolyglotSql.Tree

namespace Term

/-- The slots that `t'` has and `t` has not, one after the other. -/
def Added (t t' : Tree) (ids : List NodeId) : Prop :=
  ids = List.range' t.slots.size (t'.slots.size - t.slots.size)

theorem Added.mem {t t' : Tree} {ids : List NodeId} (h : Added t t' ids) (x : Nat) :
    x ∈ ids ↔ t.slots.size ≤ x ∧ x < t'.slots.size := by
  unfold Added at h
  rw [h, List.mem_range'_1]
  omega

theorem Added.append {t t₁ t₂ t' : Tree} {ids ids' : List NodeId} (h : Added t t₁ ids)
    (h' : Added t₂ t' ids') (hsize : t₂.slots.size = t₁.slots.size)
    (hgrows : t.slots.size ≤ t₁.slots.size) (hgrows' : t₁.slots.size ≤ t'.slots.size) :
    Added t t' (ids ++ ids') := by
  unfold Added at *
  have hmiddle : t.slots.size + (t₁.slots.size - t.slots.size) = t₁.slots.size := by omega
  have hall : t₁.slots.size - t.slots.size + (t'.slots.size - t₁.slots.size) =
      t'.slots.size - t.slots.size := by omega
  rw [h, h', hsize, ← hall, ← List.range'_append_1, hmiddle]

/-- An edit puts a term into slots that it adds; it gives the term's top, which hangs nowhere. -/
def Lays (e : Edit NodeId) (t : Tree) (term : Term) : Prop :=
  ∃ t' l, Yields e t l.id t' ∧ t'.Hangs .free l ∧ l.term = term ∧ t.Frame [] t' ∧
    Added t t' l.ids ∧ t'.root = t.root

section Laying

variable {α : Type} {xs : List α} {e : α → Edit NodeId} {term : α → Term}

/-- Terms that are put into fresh slots one by one, and each below a node as its last child. -/
theorem lay_children {t : Tree} {id : NodeId} {node : Node} {alias_ : Option String}
    {below : List Layout} (he : ∀ x ∈ xs, ∀ t', t.Frame [id] t' → Lays (e x) t' (term x))
    (h : t.Hangs .free (.mk id node alias_ below)) :
    ∃ t' ls, Yields (xs.forM fun x => do
        let child ← e x
        Edit.appendChild id child) t () t' ∧
      t'.Hangs .free (.mk id node alias_ (below ++ ls)) ∧ ls.map Layout.term = xs.map term ∧
      t.Frame [id] t' ∧ Added t t' (Layout.idsAll ls) ∧ t'.root = t.root := by
  induction xs generalizing t below with
  | nil => exact ⟨t, [], yields_pure _ _, by simpa using h, rfl, .refl _ t, by simp [Added], rfl⟩
  | cons x xs ih =>
    have hlt : ∀ y ∈ _, y < t.slots.size := fun _ hy => h.lt hy
    obtain ⟨t₁, l, hy₁, hl₁, hterm, hf₁, hadded₁, hroot₁⟩ := he x (by simp) t (.refl _ t)
    obtain ⟨t₂, hy₂, h₂, hf₂, hsize₂, hroot₂⟩ := attach_last
      (h.frame hf₁ (by simp) (by simp [Site.up])) hl₁
      (fun y hy hm => Nat.not_le_of_lt (hlt y hm) ((hadded₁.mem y).1 hy).1) (by simp [Site.up])
    have hf₁₂ : t.Frame [id] t₂ := by
      refine (hf₁.mono (by simp)).trans hf₂ fun y hy => ?_
      rcases List.mem_cons.1 hy with rfl | hy
      · simp
      · rw [List.mem_singleton.1 hy]
        exact .inr ((hadded₁.mem _).1 l.id_mem_ids).1
    obtain ⟨t₃, ls, hy₃, h₃, hterms, hf₃, hadded₃, hroot₃⟩ :=
      ih (fun y hy t' hf => he y (by simp [hy]) t' (hf₁₂.trans hf (by simp))) h₂
    have hgrows₁ := hf₁.grows
    have hgrows₃ := hf₃.grows
    rw [hsize₂] at hgrows₃
    refine ⟨t₃, l :: ls, .bind (.bind hy₁ hy₂) hy₃, by simpa using h₃, by simp [hterm, hterms],
      hf₁₂.trans hf₃ (by simp), ?_, by rw [hroot₃, hroot₂, hroot₁]⟩
    rw [Layout.idsAll_cons]
    exact hadded₁.append hadded₃ hsize₂ hgrows₁ hgrows₃

/-- A fresh slot for a node, and fresh slots for the terms below it. -/
theorem lay_node {t : Tree} (node : Node) (alias_ : Option String)
    (he : ∀ x ∈ xs, ∀ t', t.Frame [] t' → Lays (e x) t' (term x)) :
    Lays (do
      let id ← Edit.add node
      Edit.setAlias id alias_
      xs.forM fun x => do
        let child ← e x
        Edit.appendChild id child
      pure id) t (.mk node alias_ (xs.map term)) := by
  let t₁ := t.grow { node, parent := none, children := [], alias_ := none }
  have hl₁ : t₁.Hangs .free (.mk t.slots.size node none []) := Hangs.leaf_grow t node
  let t₂ := t₁.change t.slots.size fun s => { s with alias_ }
  have hl₂ : t₂.Hangs .free (.mk t.slots.size node alias_ []) :=
    hl₁.retop (by simp) (by simp) (by simp)
  have hf : t.Frame [] t₂ := ((Frame.refl _ t).grow _).change (.inr (Nat.le_refl _)) _
  obtain ⟨t₃, ls, hy₃, hl₃, hterms, hf₃, hadded, hroot₃⟩ :=
    lay_children (fun x hx t' hf' => he x hx t' (hf.trans hf' (by simp))) hl₂
  have hsize₂ : t₂.slots.size = t.slots.size + 1 := by simp [t₂, t₁]
  refine ⟨t₃, .mk t.slots.size node alias_ ls, .bind (Edit.yields_add t node) (.bind
    (Edit.yields_setAlias alias_ (holds_mk.1 hl₁.holds).1) (.bind hy₃ (yields_pure _ _))), hl₃,
    by simp [hterms], hf.trans hf₃ (by simp), ?_, hroot₃⟩
  have htop : Added t t₂ [t.slots.size] := by simp [Added, hsize₂]
  exact htop.append hadded rfl (by omega) hf₃.grows

end Laying

theorem buildChildren_eq (id : NodeId) (terms : List Term) :
    buildChildren id terms = (terms.forM fun term => do
      let child ← buildInto term
      Edit.appendChild id child) := by
  induction terms with
  | nil => rw [buildChildren]; rfl
  | cons term terms ih =>
    rw [buildChildren, ih]
    exact (bind_assoc _ _ _).symm

/-- A term takes fresh slots and hangs nowhere. -/
theorem buildInto_lays (term : Term) (t : Tree) : Lays term.buildInto t term := by
  induction term using Term.induct generalizing t with
  | mk node alias_ children ih =>
    have hlays : ∀ term ∈ children, ∀ t', t.Frame [] t' → Lays term.buildInto t' term := by
      intro term hterm t' _
      exact ih term hterm t'
    have hlay := lay_node node alias_ hlays
    rw [buildInto]
    simpa only [buildChildren_eq, List.map_id'] using hlay

/-- The layout of a term's own tree. -/
theorem build_layout (term : Term) : ∃ l, l.id = term.build.root ∧ l.term = term ∧
    term.build.Hangs .free l ∧
    ∀ x, x < term.build.slots.size → ∃ l', term.build.Hangs .free l' ∧ x ∈ l'.ids := by
  obtain ⟨t, l, hy, hl, hterm, hf, hadded, -⟩ := buildInto_lays term (.new .empty)
  obtain ⟨s, hs, -, hp⟩ := holds_top hl.holds
  have hbuild : term.build = { t with root := l.id } := by
    have := hy.bind (Edit.yields_setRoot hs hp)
    unfold Yields at this
    rw [build, this]
  rw [hbuild]
  refine ⟨l, rfl, hterm, hl.reroot l.id, fun x hx => ?_⟩
  by_cases hx0 : x = 0
  · have hunused : (Tree.new .empty).Hangs .free (.leaf 0 .empty) :=
      ⟨holds_mk.2 ⟨rfl, by simp⟩, trivial, by simp, by simp [Site.up]⟩
    exact ⟨.leaf 0 .empty, (hunused.frame hf (by simp) (by simp)).reroot l.id, by simp [hx0]⟩
  · exact ⟨l, hl.reroot l.id, (hadded.mem x).2 ⟨Nat.pos_of_ne_zero hx0, hx⟩⟩

theorem build_wellFormed (term : Term) : term.build.WellFormed := by
  obtain ⟨l, hid, -, hl, hcover⟩ := build_layout term
  obtain ⟨s, hs, -, hp⟩ := holds_top hl.holds
  exact wellFormed_of_layouts ⟨s, hid ▸ hs, hp⟩ hcover

theorem build_term (term : Term) : term.build.term term.build.root = .ok term := by
  obtain ⟨l, hid, hterm, hl, -⟩ := build_layout term
  rw [← hid, term_layout hl, hterm]

end Term
end PolyglotSql
