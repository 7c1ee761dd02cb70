import PolyglotSql.Proofs.Dialect.Rewriting
import PolyglotSql.Proofs.Tree.Graft
import PolyglotSql.Proofs.Tree.SelectLists

/-!
# PolyglotSql.Proofs.Dialect.Enclosing

Enclosing the selects that limit their rows, as a simulation of `Term.enclosed`. One select is
enclosed by `enclose_renews`: a select takes its place and holds it between two texts, and the
limiting child hangs nowhere afterwards. The selects of a tree are enclosed from the top down, those
below a limiting child that has been cut off included. What is cut off takes no select list with it
if nothing stands below a limiting child (`selectLists_limit`).
-/

namespace PolyglotSql

open PolyglotSql.Tree

namespace RowNumbers

/-! ## One select -/

theorem firstLimit?_terms {t : Tree} {ls : List Layout} (h : ∀ l ∈ ls, ∃ p, t.Holds p l)
    (index : Nat) : firstLimit? t index (ls.map Layout.id) =
      .ok ((Term.firstLimit? (ls.map Layout.term)).map fun (i, limits) => (index + i, limits)) := by
  induction ls generalizing index with
  | nil => rfl
  | cons l ls ih =>
    obtain ⟨p, hl⟩ := h l (by simp)
    obtain ⟨s, hs, hn, -⟩ := holds_top hl
    have hnode : l.term.node = l.node := by cases l; simp [Term.node]
    have hread : t.node l.id = .ok l.node := by simp [node, slot_ok hs, Except.map, hn]
    simp only [List.map_cons, firstLimit?, Term.firstLimit?, hread, hnode]
    cases limits? l.node with
    | some limits => simp
    | none =>
      simp only [ih fun l hl => h l (by simp [hl])]
      cases Term.firstLimit? (ls.map Layout.term) with
      | none => rfl
      | some found => simp [Nat.add_comm, Nat.add_left_comm]

/-- A layout that hangs nowhere takes the place of another, if that one has a place. -/
theorem takePlace_exchanges {t : Tree} {site : Site} {l c : Layout} (h : t.Hangs site l)
    (hc : t.Hangs .free c) (hd : ∀ x ∈ c.ids, x ∉ l.ids) (hup : ∀ x ∈ site.up, x ∉ c.ids)
    (hb : ∀ p s before after up, site = .under p s before after up → c.id ∉ before) :
    ∃ t', Yields (takePlace l.id c.id) t () t' ∧ t'.Hangs site c ∧ t'.Hangs .free l ∧
      t.Frame (site.holder ++ [l.id, c.id]) t' ∧ t'.slots.size = t.slots.size ∧
      t'.root = t.root := by
  obtain ⟨s, hs, -, hparent⟩ := holds_top h.holds
  cases site with
  | free =>
    refine ⟨t, .bind (Edit.read_parent hs) ?_, hc, h, .refl _ t, rfl, rfl⟩
    rw [hparent]
    exact yields_pure _ _
  | under p sp before after up =>
    obtain ⟨hp, -, hfirst, -⟩ := h.fits
    obtain ⟨t', hy, hl', hc', hf, hsize, hroot⟩ := exchange_places h hc hd hup (hb _ _ _ _ _ rfl)
    refine ⟨t', .bind (Edit.read_parent hs) ?_, hl', hc', hf, hsize, hroot⟩
    rw [hparent]
    refine .bind (Edit.read_indexOf hp l.id) ?_
    rw [Edit.idxOf?_append_cons hfirst]
    exact .bind hy (yields_pure _ _)

/-- A select takes the place of another and holds it between two texts. -/
theorem wrap_renews {t : Tree} {site : Site} {id : NodeId} {alias_ : Option String}
    {below : List Layout} (head tail : String) (h : t.Hangs site (.mk id .select alias_ below))
    (hroot : t.root = id → site = .free) :
    ∃ w n m t', Yields (do
        let wrapper ← Edit.add .select
        let alias_ ← Edit.takeAlias id
        Edit.setAlias wrapper alias_
        let wasRoot := decide ((← get).root = id)
        takePlace id wrapper
        let head ← Edit.add (.text head)
        let tail ← Edit.add (.text tail)
        Edit.appendChild wrapper head
        Edit.appendChild wrapper id
        Edit.appendChild wrapper tail
        if wasRoot then Edit.setRoot wrapper) t ()
        (if t.root = id then { t' with root := w } else t') ∧
      Renews t t' site (.mk id .select alias_ below) (.mk w .select alias_
        [.leaf n (.text head), .mk id .select none below, .leaf m (.text tail)]) := by
  have hfresh := h.fresh
  have hfreshUp := h.fresh_up
  have hlt : ∀ x ∈ _, x < t.slots.size := fun _ hx => h.lt hx
  have hup := Site.up_lt h.fits
  have hlow := h.below
  have hholder := Site.holder_sub_up h.fits
  have hnodup := h.nodup
  simp only [Layout.ids_mk, List.nodup_cons, List.mem_cons, not_or] at hnodup hfresh hlt hlow
  -- The wrapper is added, takes the alias, and changes places with the select.
  let w := t.slots.size
  let t₁ := t.grow { node := .select, parent := none, children := [], alias_ := none }
  have hf₁ : t.Frame [] t₁ := (Frame.refl _ t).grow _
  have hl₁ : t₁.Hangs site (.mk id .select alias_ below) := h.frame hf₁ (by simp) (by simp)
  have hw₁ : t₁.Hangs .free (.mk w .select none []) := Hangs.leaf_grow t .select
  let t₂ := t₁.change id fun s => { s with alias_ := none }
  have hf₂ : t₁.Frame [id] t₂ := (Frame.refl _ t₁).change (by simp) _
  have hl₂ : t₂.Hangs site (.mk id .select none below) := hl₁.retop (by simp) (by simp) hnodup.2
  have hw₂ : t₂.Hangs .free (.mk w .select none []) :=
    hw₁.frame hf₂ (by simpa using hfresh.1) (by simp [Site.up])
  let t₃ := t₂.change w fun s => { s with alias_ := alias_ }
  have hf₃ : t₂.Frame [w] t₃ := (Frame.refl _ t₂).change (by simp) _
  have hl₃ : t₃.Hangs site (.mk id .select none below) := by
    refine hl₂.frame hf₃ ?_ ?_
    · simp only [Layout.ids_mk, List.mem_cons]; grind
    · grind
  have hw₃ : t₃.Hangs .free (.mk w .select alias_ []) := hw₂.retop (by simp) (by simp) (by simp)
  have hsize₃ : t₃.slots.size = t.slots.size + 1 := by simp [t₃, t₂, t₁]
  obtain ⟨t₄, hy₄, hw₄, hl₄, hf₄, hsize₄, hroot₄⟩ := takePlace_exchanges hl₃ hw₃
    (by simpa using hfresh)
    (by simp only [Layout.ids_mk, Layout.idsAll_nil, List.mem_singleton]; grind)
    (by
      rintro p s before after up rfl hm
      exact Nat.lt_irrefl w (h.fits.2.2.2 w hm))
  -- The wrapper gets its children: a text, the select, and another text.
  obtain ⟨t₅, t₆, t₇, hy₅, hy₆, hy₇, hw₇, hf₇, hroot₇⟩ := surround (.text head) (.text tail) hw₄ hl₄
    (by simpa using hfresh) (by simpa using hlow)
  have hparent := (holds_mk.1 hw₇.holds).1
  refine ⟨w, _, _, t₇, ?_, hw₇, ?_, ?_, ?_⟩
  · refine .bind (Edit.yields_add t .select) (.bind (Edit.yields_takeAlias (holds_mk.1 hl₁.holds).1)
      (.bind (Edit.yields_setAlias alias_ (holds_mk.1 hw₂.holds).1) (.bind (yields_get _) ?_)))
    refine .bind hy₄ (.bind (Edit.yields_add _ _) (.bind (Edit.yields_add _ _) ?_))
    simp only [grow_size]
    refine .bind hy₅ (.bind hy₆ (.bind hy₇ ?_))
    by_cases hr : t.root = id
    · have hfree := hroot hr
      subst hfree
      rw [if_pos (by simp [hr]), if_pos hr]
      exact Edit.yields_setRoot hparent rfl
    · rw [if_neg (by simp [hr]), if_neg hr]
      exact yields_pure _ _
  · simp only [Layout.ids_mk, Layout.idsAll_cons, Layout.ids_leaf, Layout.idsAll_nil, List.mem_cons,
      List.mem_append]
    grind
  · simp only [Layout.ids_mk, Layout.id_mk] at hf₄ hf₇ ⊢
    have hf : t.Frame (site.holder ++ id :: Layout.idsAll below) t₁ := hf₁.mono (by simp)
    refine (((hf.trans hf₂ ?_).trans hf₃ ?_).trans hf₄ ?_).trans hf₇ ?_
    · simp
    · simp [w]
    · simp only [List.mem_append, List.mem_cons]; grind
    · simp only [List.mem_append, List.mem_cons]; grind
  · rw [hroot₇, hroot₄]
    rfl

/-- A select that limits no rows stays as it is. -/
theorem enclose_unlimited {t : Tree} {p : Option NodeId} {id : NodeId} {node : Node}
    {alias_ : Option String} {below : List Layout} (h : t.Holds p (.mk id node alias_ below))
    (hlimit : Term.firstLimit? (below.map Layout.term) = none) : Yields (enclose id) t () t := by
  obtain ⟨hs, hbelow⟩ := holds_mk.1 h
  have hfirst := firstLimit?_terms (fun l hl => ⟨_, hbelow l hl⟩) 0
  rw [hlimit] at hfirst
  exact .bind (Edit.read_children hs) (.bind (Edit.yields_read hfirst) (yields_pure _ _))

/-- A select that limits its rows is enclosed, and the limiting child is cut off. -/
theorem enclose_renews {t : Tree} {site : Site} {id : NodeId} {alias_ : Option String}
    {before after : List Layout} {c : Layout} {limit offset : UInt64}
    (h : t.Hangs site (.mk id .select alias_ (before ++ c :: after)))
    (hlimit : Term.firstLimit? ((before ++ c :: after).map Layout.term) =
      some (before.length, limit, offset))
    (hroot : t.root = id → site = .free) :
    ∃ e w n m t', Yields (enclose id) t () (if t.root = id then { t' with root := w } else t') ∧
      Renews t t' site (.mk id .select alias_ (before ++ c :: after)) (.mk w .select alias_
        [.leaf n (.text (head offset)),
          .mk id .select none (before ++ .leaf e .empty :: after),
          .leaf m (.text (tail limit offset))]) ∧
      t'.Hangs .free c ∧
      ∀ x ∈ c.ids, x ∉ (Layout.mk w .select alias_
        [.leaf n (.text (head offset)),
          .mk id .select none (before ++ .leaf e .empty :: after),
          .leaf m (.text (tail limit offset))]).ids := by
  obtain ⟨hs, hbelow⟩ := holds_mk.1 h.holds
  have hfirst := firstLimit?_terms (fun l hl => ⟨_, hbelow l hl⟩) 0
  rw [hlimit] at hfirst
  obtain ⟨t₁, hy₁, hr₁, hc₁⟩ := displace .empty h.child
  have hr₁ := hr₁.child h
  obtain ⟨w, n, m, t₂, hy₂, hr₂⟩ := wrap_renews (head offset) (tail limit offset) hr₁.hangs
    (hr₁.root ▸ hroot)
  rw [hr₁.root] at hy₂
  have hapart : ∀ x ∈ c.ids, x ∉ site.holder ++
      (Layout.mk id .select alias_ (before ++ .leaf t.slots.size .empty :: after)).ids := by
    have hfresh := h.fresh
    have hlow := h.below
    have hholder := Site.holder_sub_up h.fits
    have hnodup := h.nodup
    simp only [Layout.ids_mk, Layout.idsAll_append, Layout.idsAll_cons, List.nodup_cons,
      List.nodup_append, List.mem_cons, List.mem_append] at hnodup hfresh hlow
    simp only [Layout.ids_mk, Layout.idsAll_append, Layout.idsAll_cons, Layout.ids_leaf,
      List.mem_cons, List.mem_append]
    grind
  refine ⟨t.slots.size, w, n, m, t₂, ?_, hr₁.trans hr₂,
    hc₁.frame hr₂.frame hapart (by simp [Site.up]), fun x hx hm => ?_⟩
  · refine .bind (Edit.read_children hs) (.bind (Edit.yields_read hfirst) ?_)
    refine .bind (Edit.yields_add t .empty) (.bind (a := c.id) ?_ hy₂)
    simpa using hy₁
  · rcases hr₂.fresh x hm with hm | hm
    · exact hapart x hx (List.mem_append.2 (.inr hm))
    · exact Nat.not_le_of_lt (hc₁.lt hx) hm

end RowNumbers

/-! ## All selects -/

namespace Layout

mutual

/-- The selects of a layout, each before those inside it. -/
def selects : Layout → List NodeId
  | .mk id node _ below => if node = .select then id :: selectsAll below else selectsAll below

def selectsAll : List Layout → List NodeId
  | [] => []
  | l :: ls => l.selects ++ selectsAll ls

end

@[simp] theorem selectsAll_nil : selectsAll [] = [] := by
  rw [selectsAll]

@[simp] theorem selectsAll_cons (l : Layout) (ls : List Layout) :
    selectsAll (l :: ls) = l.selects ++ selectsAll ls := by
  rw [selectsAll]

@[simp] theorem selectsAll_append (ls ls' : List Layout) :
    selectsAll (ls ++ ls') = selectsAll ls ++ selectsAll ls' := by
  induction ls with
  | nil => simp
  | cons l ls ih => simp [ih]

theorem mem_selectsAll {x : NodeId} {ls : List Layout} :
    x ∈ selectsAll ls ↔ ∃ l ∈ ls, x ∈ l.selects := by
  induction ls with
  | nil => simp
  | cons l ls ih => simp [ih]

theorem selects_mk (id : NodeId) (node : Node) (alias_ : Option String) (below : List Layout) :
    (mk id node alias_ below).selects =
      if node = .select then id :: selectsAll below else selectsAll below := by
  rw [selects]

end Layout

namespace Term

@[simp] theorem enclosedAll_eq (ts : List Term) : enclosedAll ts = ts.map enclosed := by
  induction ts with
  | nil => rw [enclosedAll]; rfl
  | cons t ts ih => rw [enclosedAll, ih]; rfl

theorem enclosed_mk (node : Node) (alias_ : Option String) (children : List Term) :
    enclosed (.mk node alias_ children) =
      encloseTop node alias_ (firstLimit? children) (children.map enclosed) := by
  rw [enclosed, enclosedAll_eq]

/-- A node that is no select, or limits no rows, stays on top. -/
theorem encloseTop_same {node : Node} {alias_ : Option String} {children terms : List Term}
    (h : node = .select → firstLimit? children = none) :
    encloseTop node alias_ (firstLimit? children) terms = .mk node alias_ terms := by
  cases node with
  | select => rw [h rfl]; rfl
  | _ => rfl

/-- An enclosed select. -/
theorem enclosed_limited {alias_ : Option String} {before after : List Term} {t : Term}
    {limit offset : UInt64}
    (h : firstLimit? (before ++ t :: after) = some (before.length, limit, offset)) :
    enclosed (.mk .select alias_ (before ++ t :: after)) =
      .mk .select alias_ [text (RowNumbers.head offset),
        of .select (before.map enclosed ++ leaf .empty :: after.map enclosed),
        text (RowNumbers.tail limit offset)] := by
  rw [enclosed_mk, h]
  simp [encloseTop]

/-- Induction along enclosing: a node stays on top, or it is a select, of whose children `c` is the
first that limits its rows. -/
theorem enclosed_induct {motive : Term → Term → Prop}
    (kept : ∀ node alias_ children, (node = .select → firstLimit? children = none) →
      (∀ c ∈ children, motive c c.enclosed) →
      motive (.mk node alias_ children) (.mk node alias_ (children.map enclosed)))
    (limited : ∀ alias_ before c after limit offset,
      RowNumbers.limits? c.node = some (limit, offset) →
      (∀ t ∈ before ++ c :: after, motive t t.enclosed) →
      motive (.mk .select alias_ (before ++ c :: after))
        (.mk .select alias_ [text (RowNumbers.head offset),
          of .select (before.map enclosed ++ leaf .empty :: after.map enclosed),
          text (RowNumbers.tail limit offset)]))
    (t : Term) : motive t t.enclosed := by
  induction t using Term.induct with
  | mk node alias_ children ih =>
    have hkept (h : node = .select → firstLimit? children = none) :
        motive (.mk node alias_ children) (enclosed (.mk node alias_ children)) := by
      rw [enclosed_mk, encloseTop_same h]
      exact kept node alias_ children h ih
    by_cases hn : node = .select
    · subst hn
      cases hlimit : firstLimit? children with
      | none => exact hkept fun _ => hlimit
      | some found =>
        obtain ⟨index, limit, offset⟩ := found
        obtain ⟨before, c, after, rfl, rfl, hc⟩ := firstLimit?_split hlimit
        rw [enclosed_limited hlimit]
        exact limited alias_ before c after limit offset hc ih
    · exact hkept fun he => absurd he hn

end Term

namespace Term

/-- Nothing is below a canonical row limiting clause. -/
def LimitsAreLeaves : Term → Prop :=
  Every fun node children => node.isLimitOffset = true → children = []

theorem isLimitOffset_of_limits {node : Node} {limits : UInt64 × UInt64}
    (h : RowNumbers.limits? node = some limits) : node.isLimitOffset = true := by
  cases node <;> first | rfl | cases h

end Term

namespace RowNumbers

/-- Nothing is lost with a limiting child that has nothing below it. -/
theorem selectLists_limit {l : Layout} {limits : UInt64 × UInt64}
    (hlimits : limits? l.term.node = some limits) (hleaves : l.term.LimitsAreLeaves) :
    l.selectLists = [] := by
  have hnode := Term.isLimitOffset_of_limits hlimits
  obtain ⟨id, node, a, below⟩ := l
  rw [Layout.term_mk] at hleaves hnode
  obtain rfl : below = [] := by simpa using (Term.every_mk.1 hleaves).1 hnode
  have hn : node ≠ .result := by
    rintro rfl
    cases hnode
  rw [Layout.selectLists_of_ne hn, Layout.selectListsAll_nil]

theorem yields_forM_append {e : NodeId → Edit Unit} {xs ys : List NodeId} {t t₁ t₂ : Tree}
    (hx : Yields (xs.forM e) t () t₁) (hy : Yields (ys.forM e) t₁ () t₂) :
    Yields ((xs ++ ys).forM e) t () t₂ := by
  show Yields (forM (xs ++ ys) e) t () t₂
  rw [List.forM_append]
  exact .bind hx hy

/-- Enclosing the selects of a layout encloses its term, and carries its select lists unless there
are some below a limiting child. -/
def Encloses (l : Layout) : Prop :=
  ∀ {t : Tree} {site : Site}, t.Hangs site l → t.root ∉ l.ids →
    ∃ t' l', Yields (l.selects.forM enclose) t () t' ∧ Renews t t' site l l' ∧
      l'.term = l.term.enclosed ∧ (l.term.LimitsAreLeaves → l.Carries l')

/-- Enclosing the selects of some children of a node. -/
theorem enclose_children {t : Tree} {site : Site} {id : NodeId} {node : Node}
    {alias_ : Option String} (seen ls rest : List Layout) (ih : ∀ l ∈ ls, Encloses l)
    (h : t.Hangs site (.mk id node alias_ (seen ++ (ls ++ rest))))
    (hroot : t.root ∉ Layout.idsAll ls) :
    ∃ t' ls', Yields ((Layout.selectsAll ls).forM enclose) t () t' ∧
      Renews t t' site (.mk id node alias_ (seen ++ (ls ++ rest)))
        (.mk id node alias_ (seen ++ (ls' ++ rest))) ∧
      ls'.map Layout.term = (ls.map Layout.term).map Term.enclosed ∧
      ((∀ l ∈ ls, l.term.LimitsAreLeaves) → List.Forall₂ Layout.Carries ls ls') := by
  induction ls generalizing t seen with
  | nil => exact ⟨t, [], yields_pure _ _, .refl h, rfl, fun _ => .nil⟩
  | cons l ls ihs =>
    simp only [Layout.idsAll_cons, List.mem_append, not_or] at hroot
    obtain ⟨t₁, l', hy₁, hr₁, hl', hcarries⟩ := ih l (by simp) h.child hroot.1
    have hr₁ := hr₁.child h
    have h₁ := hr₁.hangs
    rw [List.append_cons] at h₁
    obtain ⟨t₂, ls', hy₂, hr₂, hls', hcarries'⟩ :=
      ihs (seen ++ [l']) (fun l hl => ih l (by simp [hl])) h₁ (hr₁.root ▸ hroot.2)
    refine ⟨t₂, l' :: ls', ?_, hr₁.trans (by simpa using hr₂), by simp [hl', hls'], fun hleaves =>
      .cons (hcarries (hleaves l (by simp))) (hcarries' fun l hl => hleaves l (by simp [hl]))⟩
    rw [Layout.selectsAll_cons]
    exact yields_forM_append hy₁ hy₂

/-- What is left to do once a select has been enclosed by `w`: the selects before the cut off child,
those below it, and those behind it. -/
theorem enclose_rest {t t₁ : Tree} {site : Site} {l a b c : Layout} {w id e : NodeId}
    {alias_ : Option String} {before after : List Layout}
    (ih : ∀ l ∈ before ++ c :: after, Encloses l)
    (hr : Renews t t₁ site l
      (.mk w .select alias_ [a, .mk id .select none (before ++ .leaf e .empty :: after), b]))
    (hc : t₁.Hangs .free c) (hsub : ∀ x ∈ c.ids, x ∈ l.ids)
    (hd : ∀ x ∈ c.ids, x ∉ (Layout.mk w .select alias_
      [a, .mk id .select none (before ++ .leaf e .empty :: after), b]).ids)
    (hup : ∀ x ∈ site.up, x ∉ c.ids)
    (hroot : t₁.root ∉ Layout.idsAll (before ++ c :: after)) :
    ∃ t' before' after', Yields ((Layout.selectsAll (before ++ c :: after)).forM enclose) t₁ () t' ∧
      Renews t t' site l
        (.mk w .select alias_ [a, .mk id .select none (before' ++ .leaf e .empty :: after'), b]) ∧
      before'.map Layout.term = (before.map Layout.term).map Term.enclosed ∧
      after'.map Layout.term = (after.map Layout.term).map Term.enclosed ∧
      ((∀ l ∈ before ++ c :: after, l.term.LimitsAreLeaves) →
        List.Forall₂ Layout.Carries (before ++ after) (before' ++ after')) := by
  simp only [Layout.idsAll_append, Layout.idsAll_cons, List.mem_append, not_or] at hroot
  have hclt : ∀ x ∈ c.ids, x < t₁.slots.size := fun _ hx => hc.lt hx
  have hinner : t₁.Hangs (site.below w .select alias_ [a] [b])
      (.mk id .select none (before ++ .leaf e .empty :: after)) := hr.hangs.child
  obtain ⟨t₂, before', hy₂, hr₂, hbefore, hcarries⟩ := enclose_children [] before
    (.leaf e .empty :: after) (fun l hl => ih l (by simp [hl])) hinner hroot.1
  have hw₂ := hr₂.child hr.hangs
  have hfresh := hw₂.fresh
  have hc₂ : t₂.Hangs .free c := hc.frame hw₂.frame (fun x hx => by
    have := hd x hx
    have := fun hm => hup x (Site.holder_sub_up hr.hangs.fits x hm) hx
    simp only [List.nil_append, List.cons_append, List.mem_append] at this ⊢
    grind) (by simp [Site.up])
  -- The cut off child hangs nowhere: what is enclosed in it does not show in the term.
  obtain ⟨t₃, c', hy₃, hr₃, -⟩ := ih c (by simp) hc₂ (hr₂.root ▸ hroot.2.1)
  have hw₃ := (hr.trans hw₂).beside hr₃.frame (fun x hx => .inl (hsub x hx))
    (fun x hx hm => (hfresh x hx).elim (hd x hm) (Nat.not_le_of_lt (hclt x hm))) hup hr₃.root
  have hinner₃ : t₃.Hangs (site.below w .select alias_ [a] [b])
      (.mk id .select none (before' ++ .leaf e .empty :: after)) := hw₃.hangs.child
  obtain ⟨t₄, after', hy₄, hr₄, hafter, hcarries'⟩ := enclose_children (before' ++ [.leaf e .empty])
    after [] (fun l hl => ih l (by simp [hl])) (by simpa using hinner₃)
    (hr₃.root ▸ hr₂.root ▸ hroot.2.2)
  refine ⟨t₄, before', after', ?_, ?_, hbefore, hafter, fun hleaves =>
    List.rel_append (hcarries fun l hl => hleaves l (by simp [hl]))
      (hcarries' fun l hl => hleaves l (by simp [hl]))⟩
  · rw [Layout.selectsAll_append, Layout.selectsAll_cons]
    exact yields_forM_append hy₂ (yields_forM_append hy₃ hy₄)
  · simp only [List.append_assoc, List.cons_append, List.nil_append, List.append_nil] at hr₄
    exact hw₃.trans (hr₄.child hw₃.hangs)

/-- The selects of a layout are enclosed; the root is then the top of what hangs in its site. -/
theorem enclose_layout {t : Tree} {site : Site} {id : NodeId} {node : Node}
    {alias_ : Option String} {below : List Layout} (ih : ∀ l ∈ below, Encloses l)
    (h : t.Hangs site (.mk id node alias_ below)) (hbelow : t.root ∉ Layout.idsAll below)
    (htop : t.root = id → site = .free) :
    ∃ t' l', Yields ((Layout.mk id node alias_ below).selects.forM enclose) t () t' ∧
      Renews { t with root := t'.root } t' site (.mk id node alias_ below) l' ∧
      l'.term = (Layout.mk id node alias_ below).term.enclosed ∧
      t'.root = (if t.root = id then l'.id else t.root) ∧
      ((Layout.mk id node alias_ below).term.LimitsAreLeaves →
        (Layout.mk id node alias_ below).Carries l') := by
  have hinside (hleaves : (Layout.mk id node alias_ below).term.LimitsAreLeaves) :
      ∀ l ∈ below, l.term.LimitsAreLeaves := by
    rw [Layout.term_mk] at hleaves
    exact fun l hl => (Term.every_mk.1 hleaves).2 _ (List.mem_map_of_mem hl)
  -- Where the node itself stays on top, the work is below it.
  have hkeep (hself : node = .select → Yields (enclose id) t () t)
      (hlimit : node = .select → Term.firstLimit? (below.map Layout.term) = none) :
      ∃ t' l', Yields ((Layout.mk id node alias_ below).selects.forM enclose) t () t' ∧
        Renews { t with root := t'.root } t' site (.mk id node alias_ below) l' ∧
        l'.term = (Layout.mk id node alias_ below).term.enclosed ∧
        t'.root = (if t.root = id then l'.id else t.root) ∧
        ((Layout.mk id node alias_ below).term.LimitsAreLeaves →
          (Layout.mk id node alias_ below).Carries l') := by
    obtain ⟨t', below', hy, hr, hterm, hcarries⟩ := enclose_children [] below [] ih
      (by simpa using h) hbelow
    simp only [List.nil_append, List.append_nil] at hr
    refine ⟨t', .mk id node alias_ below', ?_, hr.root ▸ hr, ?_, ?_,
      fun hleaves => .under (hcarries (hinside hleaves))⟩
    · rw [Layout.selects_mk]
      split
      · rename_i hn
        exact .bind (hself hn) hy
      · exact hy
    · rw [Layout.term_mk, Layout.term_mk, Term.enclosed_mk, Term.encloseTop_same hlimit, hterm]
    · rw [hr.root]
      split
      · assumption
      · rfl
  by_cases hn : node = .select
  · subst hn
    cases hlimit : Term.firstLimit? (below.map Layout.term) with
    | none => exact hkeep (fun _ => enclose_unlimited h.holds hlimit) fun _ => hlimit
    | some found =>
      obtain ⟨index, limit, offset⟩ := found
      obtain ⟨terms, ct, terms', hsplit, rfl, hc⟩ := Term.firstLimit?_split hlimit
      obtain ⟨before, cs, rfl, rfl, hcs⟩ := List.map_eq_append_iff.1 hsplit
      obtain ⟨c, after, rfl, rfl, rfl⟩ := List.map_eq_cons_iff.1 hcs
      rw [List.length_map] at hlimit
      obtain ⟨e, w, n, m, t₁, hy₁, hr₁, hc₁, hd⟩ := enclose_renews h hlimit htop
      let root := if t.root = id then w else t.root
      have ht₁ : (if t.root = id then { t₁ with root := w } else t₁) = { t₁ with root } := by
        by_cases hr : t.root = id
        · simp only [root, if_pos hr]
        · rw [if_neg hr]
          simp only [root, if_neg hr, ← hr₁.root]
      have hroot : root ∉ Layout.idsAll (before ++ c :: after) := by
        simp only [root]
        split
        · have hnodup := hr₁.hangs.nodup
          simp only [Layout.ids_mk, Layout.idsAll_append, Layout.idsAll_cons, Layout.ids_leaf,
            Layout.idsAll_nil, List.nodup_cons, List.mem_cons, List.mem_append] at hnodup hd ⊢
          grind
        · exact hbelow
      obtain ⟨t', before', after', hy, hr, hbefore, hafter, hcarries⟩ := enclose_rest ih
        (hr₁.reroot root) (hc₁.reroot root) (fun x hx => by simp [hx]) hd
        (fun x hx hm => h.below x hx (by simp [hm])) hroot
      have hroot' : t'.root = root := hr.root
      refine ⟨t', _, ?_, hroot' ▸ hr, ?_, ?_, fun hleaves => .retop nofun ?_⟩
      · rw [Layout.selects_mk, if_pos rfl]
        exact .bind (ht₁ ▸ hy₁) hy
      · simp only [List.map_append, List.map_cons] at hlimit
        simp only [Layout.term_mk, List.map_append, List.map_cons]
        rw [Term.enclosed_limited (by simpa using hlimit)]
        simp [hbefore, hafter, Layout.leaf, Term.text, Term.leaf, Term.of]
      · exact hroot'
      · have hlists := Layout.Carries.lists_all (hcarries (hinside hleaves))
        simpa [selectLists_limit hc (hinside hleaves c (by simp)), Layout.selectLists_of_ne]
          using hlists
  · exact hkeep (fun he => absurd he hn) fun he => absurd he hn

theorem encloses (l : Layout) : Encloses l := by
  induction l using Layout.induct with
  | mk id node alias_ below ih =>
    intro t site h hroot
    simp only [Layout.ids_mk, List.mem_cons, not_or] at hroot
    obtain ⟨t', l', hy, hr, hterm, hroot', hcarries⟩ :=
      enclose_layout ih h hroot.2 fun he => absurd he hroot.1
    rw [if_neg hroot.1] at hroot'
    rw [hroot'] at hr
    exact ⟨t', l', hy, hr, hterm, hcarries⟩

/-- The selects that are looked up are those of the layout. -/
theorem selectsBelow_selects {t : Tree} {site : Site} {l : Layout} (h : t.Hangs site l) :
    selectsBelow t l.id = .ok l.selects := by
  let isSelect (x : NodeId) : Bool := decide (t.slots[x]?.map (·.node) = some .select)
  have hfilter : ∀ {p : Option NodeId} (l : Layout), t.Holds p l →
      l.ids.filter isSelect = l.selects := by
    intro p l hl
    induction l using Layout.induct generalizing p with
    | mk id node alias_ below ih =>
      obtain ⟨hs, hbelow⟩ := holds_mk.1 hl
      have hrest : (Layout.idsAll below).filter isSelect = Layout.selectsAll below := by
        clear hl hs
        induction below with
        | nil => simp
        | cons l ls ihs =>
          rw [Layout.idsAll_cons, List.filter_append, Layout.selectsAll_cons,
            ih l (by simp) (hbelow l (by simp)),
            ihs (fun l hl => ih l (by simp [hl])) fun l hl => hbelow l (by simp [hl])]
      have htop : isSelect id = decide (node = .select) := by
        simp [isSelect, hs]
      rw [Layout.ids_mk, List.filter_cons, htop, hrest, Layout.selects_mk]
      simp
  have hkind : ∀ x ∈ l.ids,
      (do Except.ok ((← t.kind x) == NodeKind.select) : Except Defect Bool) = .ok (isSelect x) := by
    intro x hx
    obtain ⟨s, hs⟩ : ∃ s, t.slots[x]? = some s := ⟨_, Array.getElem?_eq_getElem (h.lt hx)⟩
    have hn : (s.node.kind == NodeKind.select) = isSelect x := by
      simp only [isSelect, hs, Option.map_some, Option.some.injEq]
      by_cases he : s.node = .select
      · simp [he, Node.kind]
      · simpa [he] using fun hk => he (Node.kind_select hk)
    simp [kind, slot_ok hs, Except.map, bind, Except.bind, hn]
  have hselects := filterM_ok (k := fun x : NodeId => x)
    (f := fun x => do Except.ok ((← t.kind x) == NodeKind.select)) hkind
  rw [List.map_id', List.map_id', hfilter l h.holds] at hselects
  rw [selectsBelow, descendants_ids h]
  exact hselects

/-- Enclosing every select of a tree encloses its term. -/
theorem encloseAll_encloses {t : Tree} {l : Layout} (h : t.Hangs .free l) (hroot : t.root = l.id) :
    ∃ t' l', Yields encloseAll t () t' ∧ t'.Hangs .free l' ∧ t'.root = l'.id ∧
      l'.term = l.term.enclosed ∧ (l.term.LimitsAreLeaves → l.Carries l') := by
  have hselects := selectsBelow_selects h
  obtain ⟨id, node, alias_, below⟩ := l
  have hnodup := h.nodup
  simp only [Layout.ids_mk, List.nodup_cons] at hnodup
  obtain ⟨t', l', hy, hr, hterm, hroot', hcarries⟩ := enclose_layout (fun l _ => encloses l) h
    (hroot ▸ hnodup.1) fun _ => rfl
  refine ⟨t', l', .bind (yields_get t) (.bind (Edit.yields_read (hroot ▸ hselects)) hy), hr.hangs,
    ?_, hterm, hcarries⟩
  rw [hroot']
  exact if_pos hroot

end RowNumbers
end PolyglotSql
