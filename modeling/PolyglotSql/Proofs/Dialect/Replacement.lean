import PolyglotSql.Proofs.Dialect.Rewriting
import PolyglotSql.Proofs.Tree.Graft
import PolyglotSql.Proofs.Tree.SelectLists

/-!
# PolyglotSql.Proofs.Dialect.Replacement

The edits that dialects are made of, on layouts: each of them renews what hangs in a place, and the
term that hangs there afterwards is the one that `Term.rewriteTop` gives (`adaptPlace_renews`).
-/

namespace PolyglotSql

open PolyglotSql.Tree

/-- An edit puts `l'` in the place of the node at `id` and leaves that node without parent, children
and alias. Of the layouts that were below the node, no more than the tops are touched. -/
structure Vacates (t t' : Tree) (site : Site) (id : NodeId) (node : Node) (below : List Layout)
    (l' : Layout) : Prop where
  hangs : t'.Hangs site l'
  bare : t'.Hangs .free (.mk id node none [])
  frame : t.Frame (site.holder ++ id :: below.map Layout.id) t'
  root : t'.root = t.root

namespace Vacates

variable {t t₁ t₂ : Tree} {site : Site} {id : NodeId} {node : Node} {alias_ : Option String}
  {below : List Layout} {l₁ l₂ : Layout}

/-- A further edit of what stands in the place now. -/
theorem step {touched : List NodeId} (h : Vacates t t₁ site id node below l₁)
    (hl : t₂.Hangs site l₂) (hf : t₁.Frame touched t₂)
    (ht : ∀ x ∈ touched, x ∈ below.map Layout.id ∨ t.slots.size ≤ x) (hid : id ∉ touched)
    (hr : t₂.root = t₁.root) : Vacates t t₂ site id node below l₂ where
  hangs := hl
  bare := h.bare.frame hf (by simpa using hid) (by simp [Site.up])
  frame := h.frame.trans hf fun x hx => (ht x hx).imp (fun hx => by simp [hx]) fun hx => hx
  root := hr.trans h.root

theorem renews (h : Vacates t t₁ site id node below l₁)
    (hfresh : ∀ x ∈ l₁.ids, x ∈ (Layout.mk id node alias_ below).ids ∨ t.slots.size ≤ x) :
    Renews t t₁ site (.mk id node alias_ below) l₁ where
  hangs := h.hangs
  fresh := hfresh
  frame := h.frame.mono fun x hx => by
    have hids := Layout.tops_subset below
    simp only [Layout.ids_mk, List.mem_append, List.mem_cons] at hx ⊢
    grind
  root := h.root

end Vacates

section Place

variable {t : Tree} {p : NodeId} {sp : Slot} {before after up : List NodeId} {id : NodeId}
  {node : Node} {alias_ : Option String} {below : List Layout}

/-- Another node takes the place of a child, with its alias and its children. -/
theorem replace_vacates (new : Node)
    (h : t.Hangs (.under p sp before after up) (.mk id node alias_ below)) :
    ∃ t', Yields (Place.replace ⟨p, before.length, id⟩ new) t t.slots.size t' ∧
      Vacates t t' (.under p sp before after up) id node below
        (.mk t.slots.size new alias_ below) ∧ t'.slots.size = t.slots.size + 1 := by
  have hlt := fun x hx => h.lt (x := x) hx
  have hup := Site.up_lt h.fits
  have hnodup := h.nodup
  have hlow := h.below
  obtain ⟨-, hasc, -, hbefore⟩ := h.fits
  have hpup := hasc.head_mem
  simp only [Site.up, Layout.ids_mk, List.mem_cons, List.nodup_cons, not_or] at hlt hup hnodup hlow
  let site := Site.under p sp before after up
  let n := t.slots.size
  let t₁ := t.grow { node := new, parent := none, children := [], alias_ := none }
  have hf₁ : t.Frame [] t₁ := (Frame.refl _ t).grow _
  have hl₁ : t₁.Hangs site (.mk id node alias_ below) := h.frame hf₁ (by simp) (by simp)
  have hn₁ : t₁.Hangs .free (.mk n new none []) := Hangs.leaf_grow t new
  have hnid : n ≠ id := fun he => Nat.lt_irrefl _ (hlt n (.inl he))
  let t₂ := t₁.change id fun s => { s with alias_ := none }
  have hf₂ : t₁.Frame [id] t₂ := (Frame.refl _ t₁).change (by simp) _
  have hl₂ : t₂.Hangs site (.mk id node none below) := hl₁.retop (by simp) (by simp) hnodup.2
  have hn₂ : t₂.Hangs .free (.mk n new none []) :=
    hn₁.frame hf₂ (by simpa using hnid) (by simp [Site.up])
  let t₃ := t₂.change n fun s => { s with alias_ := alias_ }
  have hf₃ : t₂.Frame [n] t₃ := (Frame.refl _ t₂).change (by simp) _
  have hl₃ : t₃.Hangs site (.mk id node none below) := by
    refine hl₂.frame hf₃ ?_ ?_
    · simp only [Layout.ids_mk, List.mem_cons]; grind
    · simp only [site, Site.up]; grind
  have hn₃ : t₃.Hangs .free (.mk n new alias_ []) := hn₂.retop (by simp) (by simp) (by simp)
  obtain ⟨t₄, hy₄, hl₄, hn₄, hf₄, hsize₄, hroot₄⟩ := transfer hl₃ hn₃
    (by simp only [Layout.ids_mk, List.mem_cons]; grind) (by simp only [site, Site.up]; grind)
  obtain ⟨t₅, hy₅, hn₅, hl₅, hf₅, hsize₅, hroot₅⟩ := exchange_places hl₄ hn₄
    (by simp only [Layout.ids_mk, Layout.idsAll_nil, List.mem_cons]; grind)
    (by simp only [Layout.ids_mk, List.mem_cons]; grind) (fun hm => Nat.lt_irrefl _ (hbefore _ hm))
  have hy : Yields (Place.replace ⟨p, before.length, id⟩ new) t n t₅ :=
    .bind (Edit.yields_add t new) (.bind (Edit.yields_takeAlias (holds_mk.1 hl₁.holds).1)
      (.bind (Edit.yields_setAlias alias_ (holds_mk.1 hn₂.holds).1)
        (.bind hy₄ (.bind hy₅ (yields_pure _ _)))))
  refine ⟨t₅, hy, ⟨hn₅, hl₅, ?_, ?_⟩, ?_⟩
  · have hf : t.Frame (p :: id :: below.map Layout.id) t₁ := hf₁.mono (by simp)
    have := (((hf.trans hf₂ (by grind)).trans hf₃ (by grind)).trans hf₄ (by grind)).trans hf₅
      (by simp only [Layout.id_mk]; grind)
    simpa [Site.holder] using this
  · simp [hroot₅, hroot₄, t₃, t₂, t₁]
  · simp [hsize₅, hsize₄, t₃, t₂, t₁]

theorem replace_renews (new : Node)
    (h : t.Hangs (.under p sp before after up) (.mk id node alias_ below)) :
    ∃ t', Yields (Place.replace ⟨p, before.length, id⟩ new) t t.slots.size t' ∧
      Renews t t' (.under p sp before after up) (.mk id node alias_ below)
        (.mk t.slots.size new alias_ below) ∧ t'.slots.size = t.slots.size + 1 := by
  obtain ⟨t', hy, hv, hsize⟩ := replace_vacates new h
  refine ⟨t', hy, hv.renews fun x hx => ?_, hsize⟩
  simp only [Layout.ids_mk, List.mem_cons] at hx ⊢
  grind

/-! ## Calls inside calls -/

/-- A text becomes the first argument. -/
theorem extract_vacates (part : String)
    (h : t.Hangs (.under p sp before after up) (.mk id node alias_ below)) :
    ∃ t', Yields (Place.toExtract ⟨p, before.length, id⟩ part) t t.slots.size t' ∧
      Vacates t t' (.under p sp before after up) id node below
        (.mk t.slots.size (.keywordCall "EXTRACT" ["FROM"]) alias_
          (.leaf (t.slots.size + 1) (.text part) :: below)) ∧
      t'.slots.size = t.slots.size + 2 := by
  have hid : id < t.slots.size := h.lt (by simp)
  obtain ⟨t₁, hy₁, hv₁, hsize₁⟩ := replace_vacates (.keywordCall "EXTRACT" ["FROM"]) h
  have hlt : ∀ x ∈ _, x < t₁.slots.size := fun _ hx => hv₁.hangs.lt hx
  have hup := Site.up_lt hv₁.hangs.fits
  let t' := t₁.grow { node := .text part, parent := none, children := [], alias_ := none }
  have hf : t₁.Frame [] t' := (Frame.refl _ t₁).grow _
  have hl : t'.Hangs (.under p sp before after up) (.mk t.slots.size
      (.keywordCall "EXTRACT" ["FROM"]) alias_ ([] ++ below)) :=
    hv₁.hangs.frame hf (by simp) (by simp)
  obtain ⟨t₂, hy₂, hl₂, hf₂, hsize₂, hroot₂⟩ := attach hl (Hangs.leaf_grow t₁ (.text part))
    (by simpa only [Layout.ids_leaf, List.forall_mem_singleton, List.nil_append] using
      hv₁.hangs.fresh)
    (by
      simp only [Layout.ids_leaf, List.mem_singleton]
      exact fun x hx => Nat.ne_of_lt (hup x hx))
  rw [List.nil_append, hsize₁] at hl₂
  refine ⟨t₂, .bind hy₁ (.bind (Edit.yields_add _ _) (.bind hy₂ (yields_pure _ _))),
    hv₁.step hl₂ ((hf.mono (by simp)).trans hf₂ fun x hx => .inl hx) ?_ ?_ hroot₂,
    by simp [hsize₂, t', hsize₁]⟩
  · simp only [Layout.id_leaf, List.mem_cons]; grind
  · simp only [Layout.id_leaf, List.mem_cons]; grind

theorem extract_renews (part : String)
    (h : t.Hangs (.under p sp before after up) (.mk id node alias_ below)) :
    ∃ n e t', Yields (Place.toExtract ⟨p, before.length, id⟩ part) t n t' ∧
      Renews t t' (.under p sp before after up) (.mk id node alias_ below)
        (.mk n (.keywordCall "EXTRACT" ["FROM"]) alias_ (.leaf e (.text part) :: below)) := by
  obtain ⟨t', hy, hv, -⟩ := extract_vacates part h
  refine ⟨_, _, t', hy, hv.renews fun x hx => ?_⟩
  simp only [Layout.ids_mk, Layout.idsAll_cons, Layout.ids_leaf, List.mem_cons,
    List.mem_append] at hx ⊢
  grind

/-- All arguments move into a call that becomes the only argument. -/
theorem nest_vacates (outer inner : String)
    (h : t.Hangs (.under p sp before after up) (.mk id node alias_ below)) :
    ∃ t', Yields (Place.nest ⟨p, before.length, id⟩ outer inner) t (t.slots.size + 1) t' ∧
      Vacates t t' (.under p sp before after up) id node below
        (.mk t.slots.size (.dialectCall outer true) alias_
          [.mk (t.slots.size + 1) (.dialectCall inner true) none below]) ∧
      t'.slots.size = t.slots.size + 2 := by
  have hid : id < t.slots.size := h.lt (by simp)
  have hidbelow : id ∉ below.map Layout.id := by
    have hnodup := h.nodup
    rw [Layout.ids_mk, List.nodup_cons] at hnodup
    exact fun hm => hnodup.1 (Layout.tops_subset below hm)
  obtain ⟨t₁, hy₁, hv₁, hsize₁⟩ := replace_vacates (.dialectCall outer true) h
  have hlt : ∀ x ∈ _, x < t₁.slots.size := fun _ hx => hv₁.hangs.lt hx
  have hup := Site.up_lt hv₁.hangs.fits
  have hlow := hv₁.hangs.below
  have hnodup := hv₁.hangs.nodup
  simp only [Layout.ids_mk, List.mem_cons, List.nodup_cons] at hlt hlow hnodup
  obtain ⟨t₂, hy₂, ho₂, hi₂, hf₂, hsize₂, hroot₂⟩ :=
    transfer_fresh (.dialectCall inner true) hv₁.hangs
  obtain ⟨t₃, hy₃, ho₃, hf₃, hsize₃, hroot₃⟩ := attach_last ho₂ hi₂
    (by simp only [Layout.ids_mk, Layout.idsAll_nil, List.mem_cons]; grind)
    (by simp only [Layout.ids_mk, List.mem_cons]; grind)
  rw [List.nil_append] at ho₃
  have hv₂ := hv₁.step ho₂ hf₂ (by simp only [List.mem_cons]; grind)
    (by simp only [List.mem_cons]; grind) hroot₂
  rw [hsize₁] at hy₂ hy₃ ho₃ hf₃
  refine ⟨t₃, .bind hy₁ (.bind (Edit.yields_add _ _) (.bind (hsize₁ ▸ hy₂)
    (.bind (hsize₁ ▸ hy₃) (hsize₁ ▸ yields_pure _ _)))), hv₂.step ho₃ hf₃ ?_ ?_ hroot₃,
    by simp [hsize₃, hsize₂, hsize₁]⟩
  · simp only [Layout.id_mk, List.mem_cons]; grind
  · simp only [Layout.id_mk, List.mem_cons]; grind

theorem nest_renews (outer inner : String)
    (h : t.Hangs (.under p sp before after up) (.mk id node alias_ below)) :
    ∃ n m t', Yields (Place.nest ⟨p, before.length, id⟩ outer inner) t m t' ∧
      Renews t t' (.under p sp before after up) (.mk id node alias_ below)
        (.mk n (.dialectCall outer true) alias_ [.mk m (.dialectCall inner true) none below]) := by
  obtain ⟨t', hy, hv, -⟩ := nest_vacates outer inner h
  refine ⟨_, _, t', hy, hv.renews fun x hx => ?_⟩
  simp only [Layout.ids_mk, Layout.idsAll_cons, Layout.idsAll_nil, List.mem_cons,
    List.mem_append] at hx ⊢
  grind

/-- Such a call gets a text as its last argument. -/
theorem nestFormat_renews (outer inner format : String)
    (h : t.Hangs (.under p sp before after up) (.mk id node alias_ below)) :
    ∃ n m e t', Yields (Place.nestFormat ⟨p, before.length, id⟩ outer inner format) t () t' ∧
      Renews t t' (.under p sp before after up) (.mk id node alias_ below)
        (.mk n (.dialectCall outer true) alias_ [.mk m (.dialectCall inner true) none
          (below ++ [.leaf e (.text ("'" ++ format ++ "'"))])]) := by
  obtain ⟨n, m, t₁, hy₁, hr₁⟩ := nest_renews outer inner h
  have hm : t₁.Hangs (Site.below _ n _ alias_ [] []) (.mk m (.dialectCall inner true) none below) :=
    hr₁.hangs.child
  obtain ⟨t₂, hy₂, hr₂, -⟩ := append_leaf (.text ("'" ++ format ++ "'")) hm
  exact ⟨n, m, _, t₂, .bind hy₁ (.bind (Edit.yields_add _ _) hy₂),
    hr₁.trans (hr₂.child hr₁.hangs)⟩

/-- The arguments move behind a format into a call that is cast. -/
theorem formattedCast_renews (format : String)
    (h : t.Hangs (.under p sp before after up) (.mk id node alias_ below)) :
    ∃ n m e e' t', Yields (Place.toFormattedCast ⟨p, before.length, id⟩ format) t () t' ∧
      Renews t t' (.under p sp before after up) (.mk id node alias_ below)
        (.mk n (.keywordCall "cast" ["as"]) alias_
          [.mk m (.dialectCall "strftime" true) none
            (.leaf e (.text ("'" ++ format ++ "'")) :: below), .leaf e' (.text "integer")]) := by
  obtain ⟨t₁, hy₁, hr₁, hsize₁⟩ := replace_renews (.keywordCall "cast" ["as"]) h
  have hlt : ∀ x ∈ _, x < t₁.slots.size := fun _ hx => hr₁.hangs.lt hx
  have hup := Site.up_lt hr₁.hangs.fits
  have hlow := hr₁.hangs.below
  have hnodup := hr₁.hangs.nodup
  simp only [Layout.ids_mk, List.mem_cons, List.nodup_cons] at hlt hlow hnodup
  obtain ⟨t₂, hy₂, ho₂, hi₂, hf₂, hsize₂, hroot₂⟩ :=
    transfer_fresh (.dialectCall "strftime" true) hr₁.hangs
  obtain ⟨t₃, hy₃, hr₃, hsize₃⟩ := insert_leaf [] (.text ("'" ++ format ++ "'"))
    hi₂
  have hi₃ := hr₃.frame
  simp only [Site.holder, Layout.ids_mk, List.nil_append] at hi₃
  have ho₃ := ho₂.frame hi₃
    (by simp only [Layout.ids_mk, Layout.idsAll_nil, List.mem_cons]; grind)
    (by simp only [List.mem_cons]; grind)
  obtain ⟨t₄, hy₄, ho₄, hf₄, hsize₄, hroot₄⟩ := attach_last ho₃ hr₃.hangs
    (by
      simp only [Layout.leaf, Layout.ids_mk, Layout.idsAll_append, Layout.idsAll_cons,
        Layout.idsAll_nil, List.mem_cons, List.mem_append]
      grind)
    (by
      simp only [Layout.leaf, Layout.ids_mk, Layout.idsAll_append, Layout.idsAll_cons,
        Layout.idsAll_nil, List.mem_cons, List.mem_append]
      grind)
  obtain ⟨t₅, hy₅, hr₅, -⟩ := append_leaf (.text "integer") ho₄
  have hf : t₁.Frame (t.slots.size :: Layout.idsAll below) t₄ := by
    refine ((hf₂.mono (List.cons_subset_cons _ (Layout.tops_subset below))).trans hi₃ ?_).trans
      hf₄ ?_
    · simp only [List.mem_cons]; grind
    · simp only [Layout.id_mk, List.mem_cons]; grind
  have hr₄ := hr₁.step ho₄ hf
    (by simp only [Layout.ids_mk, List.mem_cons]; grind)
    (by
      simp only [Layout.leaf, Layout.ids_mk, Layout.idsAll_append, Layout.idsAll_cons,
        Layout.idsAll_nil, List.mem_cons, List.mem_append]
      grind)
    (by rw [hroot₄, hr₃.root, hroot₂])
  exact ⟨_, _, _, _, t₅, .bind hy₁ (.bind (Edit.yields_add _ _) (.bind hy₂
    (.bind (Edit.yields_add _ _) (.bind hy₃ (.bind hy₄ (.bind (Edit.yields_add _ _) hy₅)))))),
    hr₄.trans hr₅⟩

/-- A call exchanges its first two arguments once it has another node. -/
theorem replace_swap_renews (new : Node) {a b : Layout} {rest : List Layout}
    (h : t.Hangs (.under p sp before after up) (.mk id node alias_ (a :: b :: rest))) :
    ∃ n t₁ t', Yields (Place.replace ⟨p, before.length, id⟩ new) t n t₁ ∧
      Yields (Place.swapArguments n) t₁ () t' ∧
      Renews t t' (.under p sp before after up) (.mk id node alias_ (a :: b :: rest))
        (.mk n new alias_ (b :: a :: rest)) := by
  obtain ⟨t₁, hy₁, hr₁, -⟩ := replace_renews new h
  obtain ⟨t₂, hy₂, hr₂⟩ := swap_first hr₁.hangs
  exact ⟨_, t₁, t₂, hy₁, hy₂, hr₁.trans hr₂⟩

end Place

/-! ## Pattern matches -/

section Operands

variable {site : Site} {id : NodeId} {node : Node} {alias_ : Option String}

/-- An operand leaves its `UPPER`. -/
theorem unwrapUpperAt_renews {t : Tree} {seen rest : List Layout} {c : Layout}
    (h : t.Hangs site (.mk id node alias_ (seen ++ c :: rest))) :
    ∃ t' c', Yields (Place.unwrapUpperAt id seen.length) t () t' ∧
      Renews t t' site (.mk id node alias_ (seen ++ c :: rest))
        (.mk id node alias_ (seen ++ c' :: rest)) ∧
      c'.term = c.term.withoutUpper ∧ c.selectLists ⊆ c'.selectLists := by
  have hs := (holds_mk.1 h.holds).1
  have hc := h.child
  obtain ⟨cid, operand, calias, below⟩ := c
  have hcs := (holds_mk.1 hc.holds).1
  have hread : Yields (Edit.read (·.child id seen.length)) t cid t :=
    Edit.read_child hs (by simp)
  by_cases hif : operand.canonicalFunction? = some "UPPER" ∧ (below.map Layout.id).length = 1
  · obtain ⟨inner, rfl⟩ := List.length_eq_one_iff.1 (by simpa using hif.2)
    have hnot : inner.id ∉ seen.map Layout.id := by
      have hnodup := h.nodup
      have hin := inner.id_mem_ids
      simp only [Layout.ids_mk, Layout.idsAll_append, Layout.idsAll_cons, Layout.idsAll_nil,
        List.nodup_cons, List.nodup_append, List.mem_cons, List.mem_append] at hnodup
      intro hm
      obtain ⟨l, hl, he⟩ := List.mem_map.1 hm
      have := Layout.id_mem_idsAll hl
      grind
    obtain ⟨t', hy, hr⟩ := unwrap_child hc hnot
    refine ⟨t', inner, ?_, hr.child h, ?_, ?_⟩
    · refine .bind hread (.bind (Edit.read_node hcs) (.bind (Edit.read_childCount hcs) ?_))
      rw [if_pos hif]
      refine .bind (Edit.read_child (c := inner.id) hcs rfl) ?_
      exact .bind (by simpa using hy) (yields_pure _ _)
    · simp [Term.withoutUpper, Term.children, Term.node, hif.1]
    · have hcall : operand ≠ .result := by
        rintro rfl
        cases hif.1
      simp [Layout.selectLists_of_ne hcall]
  · refine ⟨t, _, ?_, .refl h, ?_, List.Subset.refl _⟩
    · refine .bind hread (.bind (Edit.read_node hcs) (.bind (Edit.read_childCount hcs) ?_))
      rw [if_neg hif]
      exact yields_pure _ _
    · simp only [Term.withoutUpper, Layout.term_mk, Term.children, Term.node]
      split
      · rename_i inner hb
        have hlen : below.length = 1 := by simpa using congrArg List.length hb
        rw [if_neg fun hu => hif ⟨hu, by simpa using hlen⟩]
      · rfl

/-- Operands leave their `UPPER` calls one after another. -/
theorem unwrapUpper_from {t : Tree} (seen : List Layout) {rest : List Layout}
    (h : t.Hangs site (.mk id node alias_ (seen ++ rest))) :
    ∃ t' rest',
      Yields ((List.range' seen.length rest.length).forM (Place.unwrapUpperAt id)) t () t' ∧
      Renews t t' site (.mk id node alias_ (seen ++ rest)) (.mk id node alias_ (seen ++ rest')) ∧
      rest'.map Layout.term = (rest.map Layout.term).map Term.withoutUpper ∧
      Layout.selectListsAll rest ⊆ Layout.selectListsAll rest' := by
  induction rest generalizing t seen with
  | nil => exact ⟨t, [], yields_pure _ _, .refl h, rfl, List.Subset.refl _⟩
  | cons c rest ih =>
    obtain ⟨t₁, c', hy₁, hr₁, hc', hlists⟩ := unwrapUpperAt_renews h
    have h₁ := hr₁.hangs
    rw [List.append_cons] at h₁
    obtain ⟨t₂, rest', hy₂, hr₂, hrest', hlists'⟩ := ih (seen ++ [c']) h₁
    refine ⟨t₂, c' :: rest', .bind hy₁ (by simpa using hy₂), ?_, by simp [hc', hrest'],
      Layout.selectListsAll_cons_subset hlists hlists'⟩
    exact hr₁.trans (by simpa using hr₂)

theorem unwrapUpper_renews {t : Tree} {below : List Layout}
    (h : t.Hangs site (.mk id node alias_ below)) :
    ∃ t' below', Yields (Place.unwrapUpper id) t () t' ∧
      Renews t t' site (.mk id node alias_ below) (.mk id node alias_ below') ∧
      below'.map Layout.term = (below.map Layout.term).map Term.withoutUpper ∧
      Layout.selectListsAll below ⊆ Layout.selectListsAll below' := by
  obtain ⟨t', below', hy, hr, hb⟩ := unwrapUpper_from [] h
  refine ⟨t', below', .bind (Edit.read_childCount (holds_mk.1 h.holds).1) ?_, hr, hb⟩
  simpa [List.range_eq_range'] using hy

/-- A pattern match gets another node. -/
theorem setNode_renews {t : Tree} {below : List Layout} (new : Node)
    (h : t.Hangs site (.mk id node alias_ below)) :
    ∃ t', Yields (Edit.setNode id new) t () t' ∧
      Renews t t' site (.mk id node alias_ below) (.mk id new alias_ below) := by
  have hnodup := h.nodup
  simp only [Layout.ids_mk, List.nodup_cons] at hnodup
  refine ⟨_, Edit.yields_setNode new (holds_mk.1 h.holds).1,
    h.retop (by simp) (by simp) hnodup.2, fun x hx => .inl (by simpa using hx), ?_, rfl⟩
  exact (Frame.refl _ t).change (by simp) _

end Operands
end PolyglotSql
