import PolyglotSql.Proofs.Tree.Layout

/-!
# PolyglotSql.Proofs.Tree.Graft

What the structural edits do to layouts: attaching a layout that hangs nowhere (`attach`), putting
it in the place of another (`exchange_places`), moving all children of a node to a node that hangs
nowhere (`transfer`), and exchanging two children.
-/

namespace PolyglotSql
namespace Tree

theorem insertIdx_length_append {α : Type} (before after : List α) (a : α) :
    (before ++ after).insertIdx before.length a = before ++ a :: after := by
  induction before with
  | nil => simp
  | cons b before ih => simp [ih]

theorem attach {t : Tree} {site : Site} {id : NodeId} {node : Node} {alias_ : Option String}
    {before after : List Layout} {c : Layout}
    (h : t.Hangs site (.mk id node alias_ (before ++ after))) (hc : t.Hangs .free c)
    (hd : ∀ x ∈ c.ids, x ∉ (Layout.mk id node alias_ (before ++ after)).ids)
    (hup : ∀ x ∈ site.up, x ∉ c.ids) :
    ∃ t', Yields (Edit.insertChild id before.length c.id) t () t' ∧
      t'.Hangs site (.mk id node alias_ (before ++ c :: after)) ∧
      t.Frame [id, c.id] t' ∧ t'.slots.size = t.slots.size ∧ t'.root = t.root := by
  obtain ⟨hs, hbelow⟩ := holds_mk.1 h.holds
  obtain ⟨sc, hsc, -, hfree⟩ := holds_top hc.holds
  have hcid := c.id_mem_ids
  have hne : id ≠ c.id := fun he => hd c.id hcid (by simp [he])
  have hnot : c.id ∉ id :: site.up := by
    intro hm
    rcases List.mem_cons.1 hm with he | hm
    · exact hne he.symm
    · exact hup _ hm hcid
  have hnodup := h.nodup
  have hcnodup := hc.nodup
  have hlow := h.below
  simp only [Layout.ids_mk, Layout.idsAll_append, List.mem_cons, List.mem_append, not_or] at hd hlow
  simp only [Layout.ids_mk, Layout.idsAll_append, List.nodup_cons, List.nodup_append,
    List.mem_append, not_or] at hnodup
  -- The list of `id` grows by `c.id`, which learns its parent; no other slot changes.
  let t' := (t.change id fun s => { s with
    children := s.children.insertIdx before.length c.id }).change c.id
      fun s => { s with parent := some id }
  have hf : t.Frame [id, c.id] t' :=
    ((Frame.refl _ t).change (by simp) _).change (by simp) _
  refine ⟨t', Edit.yields_insertChild hs hsc hfree h.ascends hnot (by simp), ?_, hf,
    by simp [t'], by simp [t']⟩
  refine ⟨holds_mk.2 ⟨?_, fun l hl => ?_⟩, ?_, ?_, ?_⟩
  · simp only [t']
    rw [change_other _ (Ne.symm hne), change_self _ hs]
    simp [← insertIdx_length_append (before.map Layout.id)]
  · have htop : t'.slots[c.id]? = some { sc with parent := some id } :=
      change_self _ (by rw [change_other _ hne, hsc])
    rcases List.mem_append.1 hl with hl | hl
    · refine hf.holds (hbelow l (by simp [hl])) fun x hx => ?_
      have hx' : x ∈ Layout.idsAll before := Layout.mem_idsAll.2 ⟨l, hl, hx⟩
      grind
    rcases List.mem_cons.1 hl with rfl | hl
    · exact holds_reparent hc.holds hc.nodup hsc htop fun x hx hxc =>
        hf.same x (hc.lt hx) (by grind)
    · refine hf.holds (hbelow l (by simp [hl])) fun x hx => ?_
      have hx' : x ∈ Layout.idsAll after := Layout.mem_idsAll.2 ⟨l, hl, hx⟩
      grind
  · exact Site.fits_frame hf h.fits fun x hx => by grind
  · simp only [Layout.ids_mk, Layout.idsAll_append, Layout.idsAll_cons, List.nodup_cons,
      List.nodup_append, List.mem_append]
    grind
  · simp only [Layout.ids_mk, Layout.idsAll_append, Layout.idsAll_cons, List.mem_cons,
      List.mem_append]
    grind

theorem attach_last {t : Tree} {site : Site} {id : NodeId} {node : Node} {alias_ : Option String}
    {below : List Layout} {c : Layout}
    (h : t.Hangs site (.mk id node alias_ below)) (hc : t.Hangs .free c)
    (hd : ∀ x ∈ c.ids, x ∉ (Layout.mk id node alias_ below).ids) (hup : ∀ x ∈ site.up, x ∉ c.ids) :
    ∃ t', Yields (Edit.appendChild id c.id) t () t' ∧
      t'.Hangs site (.mk id node alias_ (below ++ [c])) ∧
      t.Frame [id, c.id] t' ∧ t'.slots.size = t.slots.size ∧ t'.root = t.root := by
  have hs := (holds_mk.1 h.holds).1
  rw [← List.append_nil below] at h hd
  obtain ⟨t', hy, hl, hrest⟩ := attach h hc hd hup
  refine ⟨t', .bind (Edit.read_childCount hs) ?_, hl, hrest⟩
  simpa using hy

/-- Attaching a fresh slot between the children of a node. -/
theorem insert_leaf {t : Tree} {site : Site} {id : NodeId} {node : Node} {alias_ : Option String}
    (before : List Layout) {after : List Layout} (leaf : Node)
    (h : t.Hangs site (.mk id node alias_ (before ++ after))) :
    ∃ t', Yields (Edit.insertChild id before.length t.slots.size)
        (t.grow { node := leaf, parent := none, children := [], alias_ := none }) () t' ∧
      Renews t t' site (.mk id node alias_ (before ++ after))
        (.mk id node alias_ (before ++ .leaf t.slots.size leaf :: after)) ∧
      t'.slots.size = t.slots.size + 1 := by
  have hfreshUp := h.fresh_up
  have hf : t.Frame [] _ := (Frame.refl _ t).grow
    { node := leaf, parent := none, children := [], alias_ := none }
  obtain ⟨t', hy, hl, hf', hsize, hroot⟩ := attach (h.frame hf (by simp) (by simp))
    (Hangs.leaf_grow t leaf)
    (by simpa only [Layout.ids_leaf, List.forall_mem_singleton] using h.fresh)
    (by simp only [Layout.ids_leaf, List.mem_singleton]; rintro x hx rfl; exact hfreshUp hx)
  refine ⟨t', hy, ⟨hl, fun x hx => ?_, ?_, by simp [hroot]⟩, by simp [hsize]⟩
  · simp only [Layout.leaf, Layout.ids_mk, Layout.idsAll_append, Layout.idsAll_cons,
      Layout.idsAll_nil, List.mem_cons, List.mem_append, List.not_mem_nil, or_false] at hx ⊢
    grind
  · refine (hf.mono (by simp)).trans hf' fun x hx => ?_
    simp only [Layout.leaf, Layout.id_mk, Layout.ids_mk, List.mem_cons, List.mem_append,
      List.not_mem_nil, or_false] at hx ⊢
    grind

/-- Attaching a fresh slot behind the children of a node. -/
theorem append_leaf {t : Tree} {site : Site} {id : NodeId} {node : Node} {alias_ : Option String}
    {below : List Layout} (leaf : Node) (h : t.Hangs site (.mk id node alias_ below)) :
    ∃ t', Yields (Edit.appendChild id t.slots.size)
        (t.grow { node := leaf, parent := none, children := [], alias_ := none }) () t' ∧
      Renews t t' site (.mk id node alias_ below)
        (.mk id node alias_ (below ++ [.leaf t.slots.size leaf])) ∧
      t'.slots.size = t.slots.size + 1 := by
  have hs := (holds_mk.1 h.holds).1
  rw [← List.append_nil below] at h
  obtain ⟨t', hy, hr, hsize⟩ := insert_leaf below leaf h
  have hs' := (grow_old { node := leaf, parent := none, children := [], alias_ := none }
    (lt_of_slot hs)).trans hs
  refine ⟨t', .bind (Edit.read_childCount hs') ?_, by simpa using hr, hsize⟩
  simpa using hy

/-- A childless node gets three children: a layout that hangs nowhere, between two fresh slots. -/
theorem surround {t : Tree} {site : Site} {id : NodeId} {node : Node} {alias_ : Option String}
    {l : Layout} (first last : Node) (h : t.Hangs site (.mk id node alias_ []))
    (hl : t.Hangs .free l) (hid : id ∉ l.ids) (hup : ∀ x ∈ site.up, x ∉ l.ids) :
    ∃ t₁ t₂ t', Yields (Edit.appendChild id t.slots.size)
        ((t.grow { node := first, parent := none, children := [], alias_ := none }).grow
          { node := last, parent := none, children := [], alias_ := none }) () t₁ ∧
      Yields (Edit.appendChild id l.id) t₁ () t₂ ∧
      Yields (Edit.appendChild id (t.slots.size + 1)) t₂ () t' ∧
      t'.Hangs site (.mk id node alias_
        [.leaf t.slots.size first, l, .leaf (t.slots.size + 1) last]) ∧
      t.Frame (id :: l.ids) t' ∧ t'.root = t.root := by
  have hlt := h.lt (x := id) (by simp)
  have hfresh := hl.fresh
  have hllt : ∀ x ∈ l.ids, x < t.slots.size := fun _ hx => hl.lt hx
  have huplt := Site.up_lt h.fits
  have hlow := h.below
  have hlid := l.id_mem_ids
  simp only [Layout.ids_mk, Layout.idsAll_nil, List.mem_singleton] at hlow
  let t₁ := t.grow { node := first, parent := none, children := [], alias_ := none }
  have hf₁ : t.Frame [] t₁ := (Frame.refl _ t).grow _
  have ha₁ : t₁.Hangs .free (.leaf t.slots.size first) := Hangs.leaf_grow t first
  let t₂ := t₁.grow { node := last, parent := none, children := [], alias_ := none }
  have hf₂ : t₁.Frame [] t₂ := (Frame.refl _ t₁).grow _
  have hb₂ : t₂.Hangs .free (.leaf (t.slots.size + 1) last) := by
    simpa [t₁] using Hangs.leaf_grow t₁ last
  have hf : t.Frame [] t₂ := hf₁.trans hf₂ (by simp)
  -- Attaching one of the three leaves those that are still to come where they hang.
  obtain ⟨t₃, hy₃, hw₃, hf₃, -, hroot₃⟩ := attach_last (h.frame hf (by simp) (by simp))
    (ha₁.frame hf₂ (by simp) (by simp))
    (by simpa using Nat.ne_of_gt hlt)
    (by
      simp only [Layout.ids_leaf, List.mem_singleton]
      exact fun x hx => Nat.ne_of_lt (huplt x hx))
  have hl₃ : t₃.Hangs .free l := by
    refine (hl.frame hf (by simp) (by simp)).frame hf₃ (fun x hx => ?_) (by simp [Site.up])
    simp only [Layout.id_leaf, List.mem_cons]
    grind
  have hb₃ : t₃.Hangs .free (.leaf (t.slots.size + 1) last) := by
    refine hb₂.frame hf₃ (fun x hx => ?_) (by simp [Site.up])
    simp only [Layout.ids_leaf, Layout.id_leaf, List.mem_cons] at hx ⊢
    grind
  obtain ⟨t₄, hy₄, hw₄, hf₄, -, hroot₄⟩ := attach_last hw₃ hl₃
    (fun x hx => by
      simp only [List.nil_append, Layout.ids_mk, Layout.idsAll_cons, Layout.ids_leaf,
        Layout.idsAll_nil, List.mem_cons, List.mem_append]
      grind)
    hup
  have hb₄ : t₄.Hangs .free (.leaf (t.slots.size + 1) last) := by
    refine hb₃.frame hf₄ (fun x hx => ?_) (by simp [Site.up])
    simp only [Layout.ids_leaf, List.mem_cons] at hx ⊢
    grind
  obtain ⟨t₅, hy₅, hw₅, hf₅, -, hroot₅⟩ := attach_last hw₄ hb₄
    (fun x hx => by
      simp only [List.nil_append, List.cons_append, Layout.ids_mk, Layout.idsAll_cons,
        Layout.ids_leaf, Layout.idsAll_nil, List.mem_cons, List.mem_append] at hx ⊢
      grind)
    (by
      simp only [Layout.ids_leaf, List.mem_singleton]
      exact fun x hx => Nat.ne_of_lt (Nat.lt_succ_of_lt (huplt x hx)))
  refine ⟨t₃, t₄, t₅, hy₃, hy₄, hy₅, by simpa using hw₅, ?_,
    by simp [hroot₅, hroot₄, hroot₃, t₂, t₁]⟩
  have hf' : t.Frame (id :: l.ids) t₂ := hf.mono (by simp)
  refine ((hf'.trans hf₃ ?_).trans hf₄ ?_).trans hf₅ ?_
  · simp only [Layout.id_leaf, List.mem_cons]; grind
  · simp only [List.mem_cons]; grind
  · simp only [Layout.id_leaf, List.mem_cons]; grind

/-- Attaching layouts that hang nowhere, one after another. -/
theorem attach_all {t : Tree} {site : Site} {id : NodeId} {node : Node} {alias_ : Option String}
    {below ls : List Layout} (h : t.Hangs site (.mk id node alias_ below))
    (hls : ∀ l ∈ ls, t.Hangs .free l) (hn : (Layout.idsAll ls).Nodup)
    (hd : ∀ x ∈ Layout.idsAll ls, x ∉ (Layout.mk id node alias_ below).ids)
    (hup : ∀ x ∈ site.up, x ∉ Layout.idsAll ls) :
    ∃ t', Yields ((ls.map Layout.id).forM fun c => Edit.appendChild id c) t () t' ∧
      t'.Hangs site (.mk id node alias_ (below ++ ls)) ∧
      t.Frame (id :: ls.map Layout.id) t' ∧ t'.slots.size = t.slots.size ∧ t'.root = t.root := by
  induction ls generalizing t below with
  | nil => exact ⟨t, yields_pure () t, by simpa using h, .refl _ t, rfl, rfl⟩
  | cons c ls ih =>
    have hcid := c.id_mem_ids
    simp only [Layout.idsAll_cons, List.mem_append, List.nodup_append] at hn hd hup
    obtain ⟨t₁, hy, hl, hf, hsize, hroot⟩ := attach_last h (hls c (by simp))
      (fun x hx => hd x (.inl hx)) (fun x hx hm => hup x hx (.inl hm))
    have hls₁ : ∀ l ∈ ls, t₁.Hangs .free l := by
      refine fun l hl => (hls l (by simp [hl])).frame hf (fun x hx => ?_) (by simp [Site.up])
      have hx' : x ∈ Layout.idsAll ls := Layout.mem_idsAll.2 ⟨l, hl, hx⟩
      have hxid := hd x (.inr hx')
      simp only [Layout.ids_mk, List.mem_cons, not_or] at hxid
      grind
    obtain ⟨t', hy', hl', hf', hsize', hroot'⟩ := ih hl hls₁ hn.2.1
      (fun x hx => by
        have := hd x (.inr hx)
        simp only [Layout.ids_mk, Layout.idsAll_append, Layout.idsAll_cons, Layout.idsAll_nil,
          List.mem_cons, List.mem_append, not_or] at this ⊢
        grind)
      (fun x hx hm => hup x hx (.inr hm))
    refine ⟨t', .bind hy hy', by simpa using hl', ?_, hsize'.trans hsize, hroot'.trans hroot⟩
    exact (hf.mono (by simp)).trans hf' (by grind)

/-- Cutting layouts off from their parent. -/
theorem release_all {t : Tree} {p : NodeId} {ls : List Layout} (h : ∀ l ∈ ls, t.Holds (some p) l)
    (hn : (Layout.idsAll ls).Nodup) :
    ∃ t', Yields ((ls.map Layout.id).forM fun c =>
        Edit.update c fun s => { s with parent := none }) t () t' ∧
      (∀ l ∈ ls, t'.Hangs .free l) ∧
      t.Frame (ls.map Layout.id) t' ∧ t'.slots.size = t.slots.size ∧ t'.root = t.root := by
  induction ls generalizing t with
  | nil => exact ⟨t, yields_pure () t, by simp, .refl _ t, rfl, rfl⟩
  | cons l ls ih =>
    have hlid := l.id_mem_ids
    simp only [Layout.idsAll_cons, List.nodup_append] at hn
    obtain ⟨s, hs, -, -⟩ := holds_top (h l (by simp))
    let t₁ := t.change l.id fun s => { s with parent := none }
    have hf : t.Frame [l.id] t₁ := (Frame.refl _ t).change (by simp) _
    have hls₁ : ∀ l' ∈ ls, t₁.Holds (some p) l' := by
      refine fun l' hl' => hf.holds (h l' (by simp [hl'])) fun x hx => ?_
      have hx' : x ∈ Layout.idsAll ls := Layout.mem_idsAll.2 ⟨l', hl', hx⟩
      grind
    have hl₁ : t₁.Holds none l := by
      refine holds_reparent (h l (by simp)) hn.1 hs (change_self _ hs) fun x hx hxl => ?_
      exact change_other _ (Ne.symm hxl)
    obtain ⟨t', hy', hls', hf', hsize', hroot'⟩ := ih hls₁ hn.2.1
    have hdisj : ∀ x ∈ l.ids, x ∉ ls.map Layout.id := by
      intro x hx hm
      obtain ⟨l', hl', rfl⟩ := List.mem_map.1 hm
      exact hn.2.2 _ hx _ (Layout.id_mem_idsAll hl') rfl
    refine ⟨t', .bind (Edit.yields_update hs) hy', ?_, ?_, by simpa [t₁] using hsize',
      by simpa [t₁] using hroot'⟩
    · intro l' hl'
      rcases List.mem_cons.1 hl' with rfl | hl'
      · exact ⟨hf'.holds hl₁ hdisj, trivial, hn.1, by simp [Site.up]⟩
      · exact hls' l' hl'
    · exact (hf.mono (by simp)).trans hf' (by grind)

/-- Moving all children of a node to a childless node that hangs nowhere. -/
theorem transfer {t : Tree} {site : Site} {id target : NodeId} {node node' : Node}
    {alias_ alias' : Option String} {below : List Layout}
    (h : t.Hangs site (.mk id node alias_ below)) (ht : t.Hangs .free (.mk target node' alias' []))
    (hd : target ∉ (Layout.mk id node alias_ below).ids) (hup : target ∉ site.up) :
    ∃ t', Yields (Edit.transferChildren id target) t () t' ∧
      t'.Hangs site (.mk id node alias_ []) ∧ t'.Hangs .free (.mk target node' alias' below) ∧
      t.Frame (target :: id :: below.map Layout.id) t' ∧
      t'.slots.size = t.slots.size ∧ t'.root = t.root := by
  obtain ⟨hs, hbelow⟩ := holds_mk.1 h.holds
  have hnodup := h.nodup
  have hlow := h.below
  simp only [Layout.ids_mk, List.nodup_cons, List.mem_cons, not_or] at hnodup hd hlow
  have hids := Layout.tops_subset below
  -- The list is cleared first, then the children are let go, then the target gets them.
  let t₁ := t.change id fun s => { s with children := [] }
  have hf₁ : t.Frame [id] t₁ := (Frame.refl _ t).change (by simp) _
  have hid₁ : t₁.Hangs site (.mk id node alias_ []) := h.retop (by simp) (by simp) (by simp)
  have hbelow₁ : ∀ l ∈ below, t₁.Holds (some id) l := by
    refine fun l hl => hf₁.holds (hbelow l hl) fun x hx => ?_
    have hx' : x ∈ Layout.idsAll below := Layout.mem_idsAll.2 ⟨l, hl, hx⟩
    grind
  obtain ⟨t₂, hy₂, hls₂, hf₂, hsize₂, hroot₂⟩ := release_all hbelow₁ hnodup.2
  have ht₂ : t₂.Hangs .free (.mk target node' alias' []) := by
    refine (ht.frame hf₁ ?_ (by simp [Site.up])).frame hf₂ ?_ (by simp [Site.up])
    · simpa using hd.1
    · simp only [Layout.ids_mk, Layout.idsAll_nil, List.mem_singleton]
      rintro x rfl hx
      exact hd.2 (hids hx)
  obtain ⟨t₃, hy₃, ht₃, hf₃, hsize₃, hroot₃⟩ := attach_all ht₂ hls₂ hnodup.2
    (by simp only [Layout.ids_mk, Layout.idsAll_nil, List.mem_singleton]; grind) (by simp [Site.up])
  have hid₃ : t₃.Hangs site (.mk id node alias_ []) := by
    refine (hid₁.frame hf₂ ?_ ?_).frame hf₃ ?_ ?_
    · simp only [Layout.ids_mk, Layout.idsAll_nil, List.mem_singleton]; grind
    · grind
    · simp only [Layout.ids_mk, Layout.idsAll_nil, List.mem_singleton]; grind
    · grind
  refine ⟨t₃, .bind (Edit.read_children hs) (.bind (Edit.yields_update hs) (.bind hy₂ hy₃)), hid₃,
    by simpa using ht₃, ?_, by simp [hsize₃, hsize₂, t₁], by simp [hroot₃, hroot₂, t₁]⟩
  have hf₁₂ : t.Frame (id :: below.map Layout.id) t₂ := (hf₁.mono (by simp)).trans hf₂ (by simp_all)
  exact (hf₁₂.mono (by grind)).trans hf₃ (by grind)

/-- Moving all children of a node below a fresh slot, which hangs nowhere. -/
theorem transfer_fresh {t : Tree} {site : Site} {id : NodeId} {node : Node}
    {alias_ : Option String} {below : List Layout} (fresh : Node)
    (h : t.Hangs site (.mk id node alias_ below)) :
    ∃ t', Yields (Edit.transferChildren id t.slots.size)
        (t.grow { node := fresh, parent := none, children := [], alias_ := none }) () t' ∧
      t'.Hangs site (.mk id node alias_ []) ∧
      t'.Hangs .free (.mk t.slots.size fresh none below) ∧
      t.Frame (id :: below.map Layout.id) t' ∧
      t'.slots.size = t.slots.size + 1 ∧ t'.root = t.root := by
  have hf : t.Frame [] _ := (Frame.refl _ t).grow
    { node := fresh, parent := none, children := [], alias_ := none }
  obtain ⟨t', hy, hl, hn, hf', hsize, hroot⟩ := transfer (h.frame hf (by simp) (by simp))
    (Hangs.leaf_grow t fresh) h.fresh h.fresh_up
  refine ⟨t', hy, hl, hn, (hf.mono (by simp)).trans hf' fun x hx => ?_, by simp [hsize],
    by simp [hroot]⟩
  rcases List.mem_cons.1 hx with rfl | hx
  · exact .inr (Nat.le_refl _)
  · exact .inl hx

/-- A layout that hangs nowhere changes places with one that hangs in a slot. -/
theorem exchange_places {t : Tree} {p : NodeId} {sp : Slot} {before after up : List NodeId}
    {l c : Layout} (h : t.Hangs (.under p sp before after up) l) (hc : t.Hangs .free c)
    (hd : ∀ x ∈ c.ids, x ∉ l.ids) (hup : ∀ x ∈ up, x ∉ c.ids) (hb : c.id ∉ before) :
    ∃ t', Yields (Edit.replaceChild p before.length c.id) t l.id t' ∧
      t'.Hangs (.under p sp before after up) c ∧ t'.Hangs .free l ∧
      t.Frame [p, l.id, c.id] t' ∧ t'.slots.size = t.slots.size ∧ t'.root = t.root := by
  obtain ⟨hp, hasc, hfirst, hbefore⟩ := h.fits
  obtain ⟨sl, hsl, -, -⟩ := holds_top h.holds
  obtain ⟨sc, hsc, -, hfree⟩ := holds_top hc.holds
  have hlid := l.id_mem_ids
  have hcid := c.id_mem_ids
  have hpup := hasc.head_mem
  have hne : l.id ≠ c.id := fun he => hd c.id hcid (he ▸ hlid)
  have hpl : p ≠ l.id := fun he => h.below p hpup (he ▸ hlid)
  have hpc : p ≠ c.id := fun he => hup p hpup (he ▸ hcid)
  have hlow := h.below
  simp only [Site.up] at hlow
  let t' := ((t.change p fun s => { s with children := s.children.set before.length c.id }).change
    c.id fun s => { s with parent := some p }).change l.id fun s => { s with parent := none }
  have hf : t.Frame [p, l.id, c.id] t' :=
    (((Frame.refl _ t).change (by simp) _).change (by simp) _).change (by simp) _
  have hsl' : t'.slots[l.id]? = some { sl with parent := none } :=
    change_self _ (by rw [change_other _ (Ne.symm hne), change_other _ hpl, hsl])
  have hsc' : t'.slots[c.id]? = some { sc with parent := some p } := by
    rw [change_other _ hne, change_self _ (by rw [change_other _ hpc, hsc])]
  have hsp' : t'.slots[p]? = some { sp with children := before ++ c.id :: after } := by
    rw [change_other _ (Ne.symm hpl), change_other _ (Ne.symm hpc), change_self _ hp]
    simp
  refine ⟨t', Edit.yields_replaceChild hp (Edit.yields_detach_free hsc hfree) hp hsl hsc hasc
    (fun hm => hup _ hm hcid) hne hpl hfirst,
    ⟨?_, ⟨hsp', ?_, hb, by simpa [t'] using hbefore⟩, hc.nodup, hup⟩,
    ⟨?_, trivial, h.nodup, by simp [Site.up]⟩, hf, by simp [t'], by simp [t']⟩
  · exact holds_reparent hc.holds hc.nodup hsc hsc' fun x hx hxc => hf.same x (hc.lt hx) (by grind)
  · refine hasc.frame fun x hx => ?_
    by_cases hxp : x = p
    · rw [hxp, hsp', hp]; rfl
    · rw [hf.same x (hasc.lt_size hx) (by grind)]
  · exact holds_reparent h.holds h.nodup hsl hsl' fun x hx hxl => hf.same x (h.lt hx) (by grind)

/-- A fresh slot takes the place of a layout, which then hangs nowhere. -/
theorem displace {t : Tree} {p : NodeId} {sp : Slot} {before after up : List NodeId} {l : Layout}
    (leaf : Node) (h : t.Hangs (.under p sp before after up) l) :
    ∃ t', Yields (Edit.replaceChild p before.length t.slots.size)
        (t.grow { node := leaf, parent := none, children := [], alias_ := none }) l.id t' ∧
      Renews t t' (.under p sp before after up) l (.leaf t.slots.size leaf) ∧ t'.Hangs .free l := by
  have hfresh := h.fresh
  have hfreshUp := h.fresh_up
  have hlid := l.id_mem_ids
  obtain ⟨-, -, -, hbefore⟩ := h.fits
  have hf : t.Frame [] _ := (Frame.refl _ t).grow
    { node := leaf, parent := none, children := [], alias_ := none }
  obtain ⟨t', hy, hn, hl, hf', -, hroot⟩ := exchange_places (h.frame hf (by simp) (by simp))
    (Hangs.leaf_grow t leaf) (by simpa using hfresh)
    (by simp only [Layout.ids_leaf, List.mem_singleton]; rintro x hx rfl; exact hfreshUp hx)
    (fun hm => Nat.lt_irrefl _ (hbefore _ hm))
  refine ⟨t', hy, ⟨hn, by simp, ?_, by simp [hroot]⟩, hl⟩
  refine (hf.mono (by simp)).trans hf' fun x hx => ?_
  simp only [Layout.leaf, Layout.id_mk, Site.holder, List.mem_cons, List.mem_append] at hx ⊢
  grind

/-- The only child of a node takes the node's place. -/
theorem unwrap_child {t : Tree} {p : NodeId} {sp : Slot} {before after up : List NodeId}
    {id : NodeId} {node : Node} {alias_ : Option String} {c : Layout}
    (h : t.Hangs (.under p sp before after up) (.mk id node alias_ [c])) (hb : c.id ∉ before) :
    ∃ t', Yields (Edit.replaceChild p before.length c.id) t id t' ∧
      Renews t t' (.under p sp before after up) (.mk id node alias_ [c]) c := by
  obtain ⟨hp, hasc, hfirst, hbefore⟩ := h.fits
  obtain ⟨hs, hbelow⟩ := holds_mk.1 h.holds
  have hc := hbelow c (by simp)
  obtain ⟨sc, hsc, -, hpar⟩ := holds_top hc
  have hcid := c.id_mem_ids
  have hpup := hasc.head_mem
  have hlow := h.below
  have hnodup := h.nodup
  simp only [Site.up, Layout.ids_mk, Layout.id_mk, Layout.idsAll_cons, Layout.idsAll_nil,
    List.append_nil, List.mem_cons, not_or, List.nodup_cons] at hlow hnodup hfirst
  have hne : id ≠ c.id := fun he => hnodup.1 (he ▸ hcid)
  obtain ⟨hpid, hpids⟩ := hlow p hpup
  have hpc : p ≠ c.id := fun he => hpids (he ▸ hcid)
  -- `c` leaves the list of `id` before it replaces `id` in the list of `p`.
  let t₁ := (t.change c.id fun s => { s with parent := none }).change id
    fun s => { s with children := s.children.filter (· ≠ c.id) }
  have hp₁ : t₁.slots[p]? = some { sp with children := before ++ id :: after } := by
    rw [change_other _ (Ne.symm hpid), change_other _ (Ne.symm hpc)]
    exact hp
  have hs₁ : t₁.slots[id]? = some { node, parent := some p, children := [], alias_ } := by
    rw [change_self _ (by rw [change_other _ (Ne.symm hne), hs]), Site.parent]
    simp
  have hsc₁ : t₁.slots[c.id]? = some { sc with parent := none } := by
    rw [change_other _ hne, change_self _ hsc]
  let t' := ((t₁.change p fun s => { s with children := s.children.set before.length c.id }).change
    c.id fun s => { s with parent := some p }).change id fun s => { s with parent := none }
  have hf : t.Frame [p, id, c.id] t' :=
    (((((Frame.refl _ t).change (by simp) _).change (by simp) _).change (by simp) _).change
      (by simp) _).change (by simp) _
  have hsc' : t'.slots[c.id]? = some { sc with parent := some p } := by
    rw [change_other _ hne, change_self _ (by rw [change_other _ hpc, hsc₁])]
  have hsp' : t'.slots[p]? = some { sp with children := before ++ c.id :: after } := by
    rw [change_other _ (Ne.symm hpid), change_other _ (Ne.symm hpc), change_self _ hp₁]
    simp
  have hy := Edit.yields_replaceChild hp (Edit.yields_detach hsc hpar hs (Ne.symm hne)) hp₁ hs₁ hsc₁
    hasc (fun hm => (hlow _ hm).2 hcid) hne hpid hfirst
  refine ⟨t', hy, ⟨⟨?_, ⟨hsp', ?_, hb, by simpa [t', t₁] using hbefore⟩, hnodup.2,
    fun x hx => (hlow x hx).2⟩, ?_, ?_, by simp [t', t₁]⟩⟩
  · refine holds_reparent hc hnodup.2 hsc hsc' fun x hx hxc => hf.same x (holds_lt hc hx) ?_
    simp only [List.mem_cons, List.not_mem_nil, or_false, not_or]
    exact ⟨fun he => hpids (he ▸ hx), fun he => hnodup.1 (he ▸ hx), hxc⟩
  · refine hasc.frame fun x hx => ?_
    by_cases hxp : x = p
    · rw [hxp, hsp', hp]; rfl
    · rw [hf.same x (hasc.lt_size hx)]
      simp only [List.mem_cons, List.not_mem_nil, or_false, not_or]
      exact ⟨hxp, (hlow x hx).1, fun he => (hlow x hx).2 (he ▸ hcid)⟩
  · intro x hx
    exact .inl (by simp [hx])
  · exact hf.mono (by simp [Site.holder, hcid])

/-- The only child of a node leaves it. -/
theorem remove_child {t : Tree} {site : Site} {id : NodeId} {node : Node} {alias_ : Option String}
    {c : Layout} (h : t.Hangs site (.mk id node alias_ [c])) :
    ∃ t', Yields (Edit.removeChild id 0) t c.id t' ∧ t'.Hangs .free c ∧ t'.root = t.root := by
  obtain ⟨hs, hbelow⟩ := holds_mk.1 h.holds
  obtain ⟨sc, hsc, -, -⟩ := holds_top (hbelow c (by simp))
  have hcid := c.id_mem_ids
  have hnodup := h.nodup
  simp only [Layout.ids_mk, Layout.idsAll_cons, Layout.idsAll_nil, List.append_nil,
    List.nodup_cons] at hnodup
  have hne : id ≠ c.id := fun he => hnodup.1 (he ▸ hcid)
  have hsc₁ : (t.change id fun s => { s with children := s.children.eraseIdx 0 }).slots[c.id]? =
      some sc := by
    rw [change_other _ hne, hsc]
  refine ⟨_, .bind (Edit.read_child hs rfl) (.bind (Edit.yields_update hs)
    (.bind (Edit.yields_update hsc₁) (yields_pure _ _))),
    ⟨?_, trivial, hnodup.2, by simp [Site.up]⟩, by simp⟩
  refine holds_reparent (hbelow c (by simp)) hnodup.2 hsc (change_self _ hsc₁) fun x hx hxc => ?_
  have hxid : id ≠ x := fun he => hnodup.1 (he ▸ hx)
  rw [change_other _ (Ne.symm hxc), change_other _ hxid]

/-- Exchanging the first two children of a node. -/
theorem swap_first {t : Tree} {site : Site} {id : NodeId} {node : Node} {alias_ : Option String}
    {a b : Layout} {rest : List Layout} (h : t.Hangs site (.mk id node alias_ (a :: b :: rest))) :
    ∃ t', Yields (Edit.swapChildren id 0 1) t () t' ∧
      Renews t t' site (.mk id node alias_ (a :: b :: rest))
        (.mk id node alias_ (b :: a :: rest)) := by
  have hs := (holds_mk.1 h.holds).1
  have hnodup := h.nodup
  simp only [Layout.ids_mk, Layout.idsAll_cons, List.nodup_cons, List.nodup_append,
    List.mem_append] at hnodup
  let t' := t.change id fun s => { s with children := Edit.exchange s.children 0 1 }
  have hl : t'.Hangs site (.mk id node alias_ (b :: a :: rest)) := by
    refine h.retop (by simp [Edit.exchange]) (by simp only [List.mem_cons]; grind) ?_
    simp only [Layout.idsAll_cons, List.nodup_append, List.mem_append]
    grind
  refine ⟨t', .bind (Edit.read_childCount hs) ?_, hl, fun x hx => .inl ?_,
    (Frame.refl _ t).change (by simp) _, by simp [t']⟩
  · rw [if_pos (by simp)]
    exact Edit.yields_update hs
  · simp only [Layout.ids_mk, Layout.idsAll_cons, List.mem_cons, List.mem_append] at hx ⊢
    grind

end Tree
end PolyglotSql
