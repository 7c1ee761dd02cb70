import PolyglotSql.Proofs.Tree.Run
import PolyglotSql.Term.Build

/-!
# PolyglotSql.Proofs.Tree.Layout

Terms inside an arena. A `Layout` is a term whose nodes know their slots; `Holds t p l` says that
the slots of `l` hold its nodes with the links that its shape asks for, the top being a child of
`p`. A layout without repeated slots can be reasoned about alone: what happens outside of its slots
leaves it in place (`holds_frame`).

A `Site` is the place where a layout hangs: nowhere, or between other children of a slot.
`Hangs t site l` is the invariant that edits of a subtree start from and re-establish.
-/

namespace PolyglotSql

/-- A term with the slots of its nodes. -/
inductive Layout where
  | mk (id : NodeId) (node : Node) (alias_ : Option String) (below : List Layout)

namespace Layout

def id : Layout → NodeId
  | .mk id _ _ _ => id

def node : Layout → Node
  | .mk _ node _ _ => node

mutual

/-- The slots of a layout, each before those below it. -/
def ids : Layout → List NodeId
  | .mk id _ _ below => id :: idsAll below

/-- The slots of some layouts. -/
def idsAll : List Layout → List NodeId
  | [] => []
  | l :: ls => l.ids ++ idsAll ls

end

mutual

def term : Layout → Term
  | .mk _ node alias_ below => .mk node alias_ (termAll below)

def termAll : List Layout → List Term
  | [] => []
  | l :: ls => l.term :: termAll ls

end

/-- A single slot without children. -/
def leaf (id : NodeId) (node : Node) : Layout :=
  .mk id node none []

@[simp] theorem id_mk (id : NodeId) (node : Node) (alias_ : Option String) (below : List Layout) :
    (mk id node alias_ below).id = id := rfl

@[simp] theorem node_mk (id : NodeId) (node : Node) (alias_ : Option String)
    (below : List Layout) : (mk id node alias_ below).node = node := rfl

@[simp] theorem ids_mk (id : NodeId) (node : Node) (alias_ : Option String) (below : List Layout) :
    (mk id node alias_ below).ids = id :: idsAll below := by
  rw [ids]

@[simp] theorem idsAll_nil : idsAll [] = [] := by
  rw [idsAll]

@[simp] theorem idsAll_cons (l : Layout) (ls : List Layout) :
    idsAll (l :: ls) = l.ids ++ idsAll ls := by
  rw [idsAll]

@[simp] theorem id_leaf (id : NodeId) (node : Node) : (leaf id node).id = id := rfl

@[simp] theorem ids_leaf (id : NodeId) (node : Node) : (leaf id node).ids = [id] := by
  simp [leaf]

@[simp] theorem idsAll_append (ls ls' : List Layout) :
    idsAll (ls ++ ls') = idsAll ls ++ idsAll ls' := by
  induction ls with
  | nil => simp
  | cons l ls ih => simp [ih]

theorem mem_idsAll {x : NodeId} {ls : List Layout} : x ∈ idsAll ls ↔ ∃ l ∈ ls, x ∈ l.ids := by
  induction ls with
  | nil => simp
  | cons l ls ih => simp [ih]

theorem length_ids_le {l : Layout} {ls : List Layout} (h : l ∈ ls) :
    l.ids.length ≤ (idsAll ls).length := by
  obtain ⟨before, after, rfl⟩ := List.append_of_mem h
  simp
  omega

theorem nodup_ids_of_mem {l : Layout} {ls : List Layout} (hn : (idsAll ls).Nodup) (h : l ∈ ls) :
    l.ids.Nodup := by
  obtain ⟨before, after, rfl⟩ := List.append_of_mem h
  simp only [idsAll_append, idsAll_cons, List.nodup_append] at hn
  exact hn.2.1.1

@[simp] theorem termAll_eq (ls : List Layout) : termAll ls = ls.map term := by
  induction ls with
  | nil => rw [termAll]; rfl
  | cons l ls ih => rw [termAll, ih]; rfl

@[simp] theorem term_mk (id : NodeId) (node : Node) (alias_ : Option String)
    (below : List Layout) :
    (mk id node alias_ below).term = .mk node alias_ (below.map term) := by
  rw [term, termAll_eq]

theorem id_mem_ids (l : Layout) : l.id ∈ l.ids := by
  cases l; simp

theorem getElem?_ids_zero (l : Layout) : l.ids[0]? = some l.id := by
  cases l; simp

theorem id_mem_idsAll {l : Layout} {ls : List Layout} (h : l ∈ ls) : l.id ∈ idsAll ls :=
  mem_idsAll.2 ⟨l, h, l.id_mem_ids⟩

theorem tops_subset (ls : List Layout) : ls.map id ⊆ idsAll ls := by
  intro x hx
  obtain ⟨l, hl, rfl⟩ := List.mem_map.1 hx
  exact id_mem_idsAll hl

/-- Induction on layouts, with the hypothesis for every layout directly below. -/
theorem induct {motive : Layout → Prop}
    (mk : ∀ id node alias_ below, (∀ l ∈ below, motive l) → motive (.mk id node alias_ below))
    (l : Layout) : motive l :=
  @Layout.rec motive (fun ls => ∀ l ∈ ls, motive l) mk (by simp)
    (fun l ls hl hls => by simpa using ⟨hl, hls⟩) l

end Layout

namespace Tree

mutual

/-- The slots of a layout hold its nodes, and its top is a child of `parent`. -/
def Holds (t : Tree) (parent : Option NodeId) : Layout → Prop
  | .mk id node alias_ below =>
    t.slots[id]? = some { node, parent, children := below.map Layout.id, alias_ }
      ∧ HoldsAll t (some id) below

def HoldsAll (t : Tree) (parent : Option NodeId) : List Layout → Prop
  | [] => True
  | l :: ls => Holds t parent l ∧ HoldsAll t parent ls

end

theorem holdsAll_iff {t : Tree} {parent : Option NodeId} {ls : List Layout} :
    t.HoldsAll parent ls ↔ ∀ l ∈ ls, t.Holds parent l := by
  induction ls with
  | nil => simp [HoldsAll]
  | cons l ls ih => simp [HoldsAll, ih]

theorem holds_mk {t : Tree} {parent : Option NodeId} {id : NodeId} {node : Node}
    {alias_ : Option String} {below : List Layout} :
    t.Holds parent (.mk id node alias_ below) ↔
      t.slots[id]? = some { node, parent, children := below.map Layout.id, alias_ }
        ∧ ∀ l ∈ below, t.Holds (some id) l := by
  rw [Holds, holdsAll_iff]

/-- A layout is in place wherever its slots are the same. -/
theorem holds_frame {t t' : Tree} {parent : Option NodeId} {l : Layout} (h : t.Holds parent l)
    (hs : ∀ x ∈ l.ids, t'.slots[x]? = t.slots[x]?) : t'.Holds parent l := by
  induction l using Layout.induct generalizing parent with
  | mk id node alias_ below ih =>
    rw [holds_mk] at h ⊢
    refine ⟨(hs id (by simp)).trans h.1, fun l hl => ih l hl (h.2 l hl) fun x hx => hs x ?_⟩
    simp only [Layout.ids_mk, List.mem_cons]
    exact .inr (Layout.mem_idsAll.2 ⟨l, hl, hx⟩)

/-- Every slot of a layout in place is a slot of the arena. -/
theorem holds_lt {t : Tree} {parent : Option NodeId} {l : Layout} (h : t.Holds parent l)
    {x : NodeId} (hx : x ∈ l.ids) : x < t.slots.size := by
  induction l using Layout.induct generalizing parent with
  | mk id node alias_ below ih =>
    rw [holds_mk] at h
    simp only [Layout.ids_mk, List.mem_cons] at hx
    rcases hx with rfl | hx
    · exact lt_of_slot h.1
    · obtain ⟨l, hl, hx⟩ := Layout.mem_idsAll.1 hx
      exact ih l hl (h.2 l hl) hx

theorem holds_top {t : Tree} {parent : Option NodeId} {l : Layout} (h : t.Holds parent l) :
    ∃ s, t.slots[l.id]? = some s ∧ s.node = l.node ∧ s.parent = parent := by
  cases l
  rw [holds_mk] at h
  exact ⟨_, h.1, rfl, rfl⟩

/-- The top may be hung elsewhere; below it nothing changes. -/
theorem holds_reparent {t t' : Tree} {parent parent' : Option NodeId} {l : Layout} {s : Slot}
    (h : t.Holds parent l) (hn : l.ids.Nodup) (hs : t.slots[l.id]? = some s)
    (htop : t'.slots[l.id]? = some { s with parent := parent' })
    (hrest : ∀ x ∈ l.ids, x ≠ l.id → t'.slots[x]? = t.slots[x]?) : t'.Holds parent' l := by
  obtain ⟨id, node, alias_, below⟩ := l
  rw [holds_mk] at h ⊢
  simp only [Layout.id_mk] at hs htop hrest
  rw [h.1] at hs
  cases hs
  simp only [Layout.ids_mk, List.nodup_cons] at hn
  refine ⟨htop, fun l hl => holds_frame (h.2 l hl) fun x hx => ?_⟩
  have hx' : x ∈ Layout.idsAll below := Layout.mem_idsAll.2 ⟨l, hl, hx⟩
  exact hrest x (by simp [hx']) fun he => hn.1 (he ▸ hx')

/-- A layout in place settles what its slots are. -/
theorem holds_same {t t' : Tree} {p : Option NodeId} {l : Layout} (h : t.Holds p l)
    (h' : t'.Holds p l) {x : NodeId} (hx : x ∈ l.ids) : t'.slots[x]? = t.slots[x]? := by
  induction l using Layout.induct generalizing p with
  | mk id node alias_ below ih =>
    obtain ⟨hs, hbelow⟩ := holds_mk.1 h
    obtain ⟨hs', hbelow'⟩ := holds_mk.1 h'
    simp only [Layout.ids_mk, List.mem_cons] at hx
    rcases hx with rfl | hx
    · rw [hs, hs']
    · obtain ⟨l, hl, hx⟩ := Layout.mem_idsAll.1 hx
      exact ih l hl (hbelow l hl) (hbelow' l hl) hx

/-- The top of a layout that hangs elsewhere has another parent and is otherwise as it was. -/
theorem holds_moved {t t' : Tree} {p p' : Option NodeId} {l : Layout} {s : Slot}
    (h : t.Holds p l) (h' : t'.Holds p' l) (hs : t.slots[l.id]? = some s) :
    t'.slots[l.id]? = some { s with parent := p' } := by
  obtain ⟨id, node, alias_, below⟩ := l
  obtain rfl := Option.some.inj ((holds_mk.1 h).1.symm.trans hs)
  exact (holds_mk.1 h').1

/-! ## Frames -/

/-- Slots of `t` outside of `touched` are as before in `t'`, and no slot is gone. -/
structure Frame (touched : List NodeId) (t t' : Tree) : Prop where
  grows : t.slots.size ≤ t'.slots.size
  same : ∀ x, x < t.slots.size → x ∉ touched → t'.slots[x]? = t.slots[x]?

namespace Frame

theorem refl (touched : List NodeId) (t : Tree) : Frame touched t t :=
  ⟨Nat.le_refl _, fun _ _ _ => rfl⟩

/-- Two frames in a row; what the second touches besides must be new. -/
theorem trans {touched touched' : List NodeId} {t t₁ t₂ : Tree} (h : Frame touched t t₁)
    (h' : Frame touched' t₁ t₂) (hsub : ∀ x ∈ touched', x ∈ touched ∨ t.slots.size ≤ x) :
    Frame touched t t₂ where
  grows := Nat.le_trans h.grows h'.grows
  same x hx hn := by
    have hn' : x ∉ touched' := fun hm => (hsub x hm).elim hn (Nat.not_le_of_lt hx)
    exact (h'.same x (Nat.lt_of_lt_of_le hx h.grows) hn').trans (h.same x hx hn)

theorem mono {touched touched' : List NodeId} {t t' : Tree} (h : Frame touched t t')
    (hsub : ∀ x ∈ touched, x ∈ touched') : Frame touched' t t' :=
  ⟨h.grows, fun x hx hn => h.same x hx fun hm => hn (hsub x hm)⟩

theorem change {touched : List NodeId} {t t₁ : Tree} (h : Frame touched t t₁) {id : NodeId}
    (hid : id ∈ touched ∨ t.slots.size ≤ id) (f : Slot → Slot) :
    Frame touched t (t₁.change id f) := by
  refine ⟨by simpa using h.grows, fun x hx hn => ?_⟩
  have hne : id ≠ x := by
    rintro rfl
    exact hid.elim hn (Nat.not_le_of_lt hx)
  rw [change_other f hne, h.same x hx hn]

theorem grow {touched : List NodeId} {t t₁ : Tree} (h : Frame touched t t₁) (s : Slot) :
    Frame touched t (t₁.grow s) := by
  refine ⟨by simpa using Nat.le_succ_of_le h.grows, fun x hx hn => ?_⟩
  rw [grow_old s (Nat.lt_of_lt_of_le hx h.grows), h.same x hx hn]

theorem reroot (touched : List NodeId) (t : Tree) (root : NodeId) :
    Frame touched t { t with root } :=
  ⟨Nat.le_refl _, fun _ _ _ => rfl⟩

theorem holds {touched : List NodeId} {t t' : Tree} {parent : Option NodeId} {l : Layout}
    (h : Frame touched t t') (hl : t.Holds parent l) (hd : ∀ x ∈ l.ids, x ∉ touched) :
    t'.Holds parent l :=
  holds_frame hl fun x hx => h.same x (holds_lt hl hx) (hd x hx)

theorem ascends {touched : List NodeId} {t t' : Tree} {id : NodeId} {up : List NodeId}
    (h : Frame touched t t') (hup : t.Ascends id up) (hd : ∀ x ∈ up, x ∉ touched) :
    t'.Ascends id up :=
  hup.frame fun x hx => by rw [h.same x (hup.lt_size hx) (hd x hx)]

end Frame
end Tree

/-! ## Sites -/

/-- Where a layout hangs: nowhere, or in the slot `s` at `p`, between the children `before` and
`after`; following parents from `p` visits `up`. -/
inductive Site where
  | free
  | under (p : NodeId) (s : Slot) (before after : List NodeId) (up : List NodeId)

namespace Site

def parent : Site → Option NodeId
  | .free => none
  | .under p _ _ _ _ => some p

def up : Site → List NodeId
  | .free => []
  | .under _ _ _ _ up => up

/-- The site's own slot. -/
def holder : Site → List NodeId
  | .free => []
  | .under p _ _ _ _ => [p]

/-- The site's slot lists `id` in the site's position, and not before it. -/
def Fits (t : Tree) (id : NodeId) : Site → Prop
  | .free => True
  | .under p s before after up =>
    t.slots[p]? = some { s with children := before ++ id :: after } ∧ t.Ascends p up ∧ id ∉ before
      ∧ ∀ x ∈ before, x < t.slots.size

/-- The site of a child of a node that hangs in a site, between its siblings. -/
def below (site : Site) (id : NodeId) (node : Node) (alias_ : Option String)
    (before after : List Layout) : Site :=
  .under id { node, parent := site.parent, children := [], alias_ } (before.map Layout.id)
    (after.map Layout.id) (id :: site.up)

@[simp] theorem below_up (site : Site) (id : NodeId) (node : Node) (alias_ : Option String)
    (before after : List Layout) : (site.below id node alias_ before after).up = id :: site.up :=
  rfl

theorem holder_sub_up {t : Tree} {id : NodeId} {site : Site} (h : site.Fits t id) :
    ∀ x ∈ site.holder, x ∈ site.up := by
  cases site with
  | free => simp [holder]
  | under p s before after up =>
    intro x hx
    rw [List.mem_singleton.1 hx]
    exact h.2.1.head_mem

theorem up_lt {t : Tree} {id : NodeId} {site : Site} (h : site.Fits t id) :
    ∀ x ∈ site.up, x < t.slots.size := by
  cases site with
  | free => simp [up]
  | under p s before after up => exact fun x hx => h.2.1.lt_size hx

theorem fits_frame {touched : List NodeId} {t t' : Tree} {id : NodeId} {site : Site}
    (hf : t.Frame touched t') (h : site.Fits t id) (hd : ∀ x ∈ site.up, x ∉ touched) :
    site.Fits t' id := by
  cases site with
  | free => trivial
  | under p s before after up =>
    have hp := h.2.1.head_mem
    exact ⟨(hf.same p (h.2.1.lt_size hp) (hd p hp)).trans h.1, hf.ascends h.2.1 hd, h.2.2.1,
      fun x hx => Nat.lt_of_lt_of_le (h.2.2.2 x hx) hf.grows⟩

end Site

namespace Tree

/-- A layout hangs in a site: it is in place there, repeats no slot, and lies below all slots that
lead up from the site. -/
structure Hangs (t : Tree) (site : Site) (l : Layout) : Prop where
  holds : t.Holds site.parent l
  fits : site.Fits t l.id
  nodup : l.ids.Nodup
  below : ∀ x ∈ site.up, x ∉ l.ids

namespace Hangs

theorem lt {t : Tree} {site : Site} {l : Layout} (h : t.Hangs site l) {x : NodeId}
    (hx : x ∈ l.ids) : x < t.slots.size :=
  holds_lt h.holds hx

theorem fresh {t : Tree} {site : Site} {l : Layout} (h : t.Hangs site l) :
    t.slots.size ∉ l.ids := fun hm => Nat.lt_irrefl _ (h.lt hm)

theorem fresh_up {t : Tree} {site : Site} {l : Layout} (h : t.Hangs site l) :
    t.slots.size ∉ site.up := fun hm => Nat.lt_irrefl _ (Site.up_lt h.fits _ hm)

theorem frame {touched : List NodeId} {t t' : Tree} {site : Site} {l : Layout}
    (h : t.Hangs site l) (hf : t.Frame touched t') (hl : ∀ x ∈ l.ids, x ∉ touched)
    (hup : ∀ x ∈ site.up, x ∉ touched) : t'.Hangs site l :=
  ⟨hf.holds h.holds hl, Site.fits_frame hf h.fits hup, h.nodup, h.below⟩

theorem reroot {t : Tree} {site : Site} {l : Layout} (h : t.Hangs site l) (root : NodeId) :
    Hangs { t with root } site l :=
  h.frame (.reroot [] t root) (by simp) (by simp)

/-- Changing the top of a layout: its node, its alias, and which of its children it has, in which
order. -/
theorem retop {t : Tree} {site : Site} {id : NodeId} {node node' : Node}
    {alias_ alias' : Option String} {below below' : List Layout} {f : Slot → Slot}
    (h : t.Hangs site (.mk id node alias_ below))
    (hf : f { node, parent := site.parent, children := below.map Layout.id, alias_ } =
      { node := node', parent := site.parent, children := below'.map Layout.id, alias_ := alias' })
    (hsub : ∀ l ∈ below', l ∈ below) (hn : (Layout.idsAll below').Nodup) :
    (t.change id f).Hangs site (.mk id node' alias' below') := by
  obtain ⟨hs, hbelow⟩ := holds_mk.1 h.holds
  have hnodup := h.nodup
  have hlow := h.below
  simp only [Layout.ids_mk, List.nodup_cons, List.mem_cons, not_or] at hnodup hlow
  have hids : ∀ x ∈ Layout.idsAll below', x ∈ Layout.idsAll below := by
    intro x hx
    obtain ⟨l, hl, hx⟩ := Layout.mem_idsAll.1 hx
    exact Layout.mem_idsAll.2 ⟨l, hsub l hl, hx⟩
  have hframe : t.Frame [id] (t.change id f) := (Frame.refl _ t).change (by simp) f
  refine ⟨holds_mk.2 ⟨by rw [change_self _ hs, hf], fun l hl => ?_⟩, ?_, ?_, ?_⟩
  · refine hframe.holds (hbelow l (hsub l hl)) fun x hx => ?_
    have hx' : x ∈ Layout.idsAll below := Layout.mem_idsAll.2 ⟨l, hsub l hl, hx⟩
    grind
  · exact Site.fits_frame hframe h.fits fun x hx => by simpa using (hlow x hx).1
  · simp only [Layout.ids_mk, List.nodup_cons]
    exact ⟨fun hm => hnodup.1 (hids _ hm), hn⟩
  · simp only [Layout.ids_mk, List.mem_cons, not_or]
    exact fun x hx => ⟨(hlow x hx).1, fun hm => (hlow x hx).2 (hids _ hm)⟩

/-- Following parents from the top visits the top and then what is above the site. -/
theorem ascends {t : Tree} {site : Site} {l : Layout} (h : t.Hangs site l) :
    t.Ascends l.id (l.id :: site.up) := by
  obtain ⟨s, hs, -, hp⟩ := holds_top h.holds
  cases site with
  | free => exact .top hs hp
  | under p sp before after up => exact .step hs hp h.fits.2.1

/-- A child of what hangs in a site hangs in a site of its own. -/
theorem child {t : Tree} {site : Site} {id : NodeId} {node : Node} {alias_ : Option String}
    {before after : List Layout} {c : Layout}
    (h : t.Hangs site (.mk id node alias_ (before ++ c :: after))) :
    t.Hangs (site.below id node alias_ before after) c := by
  obtain ⟨hs, hbelow⟩ := holds_mk.1 h.holds
  have hnodup := h.nodup
  have hlow := h.below
  have hcid := c.id_mem_ids
  simp only [Layout.ids_mk, Layout.idsAll_append, Layout.idsAll_cons, List.nodup_cons,
    List.nodup_append, List.mem_cons, List.mem_append, not_or] at hnodup hlow
  refine ⟨hbelow c (by simp), ⟨?_, h.ascends, ?_, ?_⟩, hnodup.2.2.1.1, ?_⟩
  · simpa using hs
  · intro hm
    obtain ⟨l, hl, he⟩ := List.mem_map.1 hm
    exact hnodup.2.2.2 _ (Layout.id_mem_idsAll hl) _ (.inl hcid) he
  · intro x hx
    obtain ⟨l, hl, rfl⟩ := List.mem_map.1 hx
    exact holds_lt (hbelow l (by simp [hl])) l.id_mem_ids
  · simp only [Site.below_up, List.mem_cons]
    grind

/-- A fresh slot hangs nowhere. -/
theorem leaf_grow (t : Tree) (node : Node) :
    (t.grow { node, parent := none, children := [], alias_ := none }).Hangs .free
      (.leaf t.slots.size node) where
  holds := by
    rw [Layout.leaf, holds_mk]
    exact ⟨grow_new _ _, by simp⟩
  fits := trivial
  nodup := by simp
  below := by simp [Site.up]

end Hangs

/-- An edit turns what hangs in a site into `l'`: `l'` takes slots of `l` and new ones only, and
nothing else is touched but the list of children that the site is in. -/
structure Renews (t t' : Tree) (site : Site) (l l' : Layout) : Prop where
  hangs : t'.Hangs site l'
  fresh : ∀ x ∈ l'.ids, x ∈ l.ids ∨ t.slots.size ≤ x
  frame : t.Frame (site.holder ++ l.ids) t'
  root : t'.root = t.root

namespace Renews

theorem refl {t : Tree} {site : Site} {l : Layout} (h : t.Hangs site l) : Renews t t site l l :=
  ⟨h, fun _ hx => .inl hx, .refl _ t, rfl⟩

theorem reroot {t t' : Tree} {site : Site} {l l' : Layout} (h : Renews t t' site l l')
    (root : NodeId) : Renews { t with root } { t' with root } site l l' :=
  ⟨h.hangs.reroot root, h.fresh, ⟨h.frame.grows, h.frame.same⟩, rfl⟩

/-- A further edit that touches only slots of the renewed layout and new ones. -/
theorem step {t t₁ t₂ : Tree} {site : Site} {l l₁ l₂ : Layout} {touched : List NodeId}
    (h : Renews t t₁ site l l₁) (hl : t₂.Hangs site l₂) (hf : t₁.Frame touched t₂)
    (ht : ∀ x ∈ touched, x ∈ site.holder ∨ x ∈ l₁.ids ∨ t₁.slots.size ≤ x)
    (hids : ∀ x ∈ l₂.ids, x ∈ l₁.ids ∨ t₁.slots.size ≤ x) (hr : t₂.root = t₁.root) :
    Renews t t₂ site l l₂ := by
  have hgrows := h.frame.grows
  refine ⟨hl, fun x hx => ?_, h.frame.trans hf fun x hx => ?_, hr.trans h.root⟩
  · rcases hids x hx with hx | hx
    · exact h.fresh x hx
    · exact .inr (Nat.le_trans hgrows hx)
  · rcases ht x hx with hx | hx | hx
    · exact .inl (List.mem_append.2 (.inl hx))
    · exact (h.fresh x hx).imp (fun hx => List.mem_append.2 (.inr hx)) fun hx => hx
    · exact .inr (Nat.le_trans hgrows hx)

theorem trans {t t₁ t₂ : Tree} {site : Site} {l l₁ l₂ : Layout} (h : Renews t t₁ site l l₁)
    (h' : Renews t₁ t₂ site l₁ l₂) : Renews t t₂ site l l₂ :=
  h.step h'.hangs h'.frame
    (fun _ hx => (List.mem_append.1 hx).imp (fun hx => hx) fun hx => .inl hx) h'.fresh h'.root

/-- A further edit beside the renewed layout, of slots that are new or were the former layout's. -/
theorem beside {t t₁ t₂ : Tree} {site : Site} {l l₁ : Layout} {touched : List NodeId}
    (h : Renews t t₁ site l l₁) (hf : t₁.Frame touched t₂)
    (ht : ∀ x ∈ touched, x ∈ l.ids ∨ t.slots.size ≤ x) (hl : ∀ x ∈ l₁.ids, x ∉ touched)
    (hup : ∀ x ∈ site.up, x ∉ touched) (hr : t₂.root = t₁.root) : Renews t t₂ site l l₁ where
  hangs := h.hangs.frame hf hl hup
  fresh := h.fresh
  frame := h.frame.trans hf fun x hx => (ht x hx).imp (fun hx => List.mem_append.2 (.inr hx)) id
  root := hr.trans h.root

/-- What renews a child renews the node above it. -/
theorem child {t t' : Tree} {site : Site} {id : NodeId} {node : Node} {alias_ : Option String}
    {before after : List Layout} {c c' : Layout}
    (hc : Renews t t' (site.below id node alias_ before after) c c')
    (h : t.Hangs site (.mk id node alias_ (before ++ c :: after))) :
    Renews t t' site (.mk id node alias_ (before ++ c :: after))
      (.mk id node alias_ (before ++ c' :: after)) := by
  obtain ⟨hs, hbelow⟩ := holds_mk.1 h.holds
  have hlt : ∀ x ∈ _, x < t.slots.size := fun _ hx => h.lt hx
  have hup := Site.up_lt h.fits
  have hnodup := h.nodup
  have hlow := h.below
  have hcnodup := hc.hangs.nodup
  have hfresh := hc.fresh
  simp only [Layout.ids_mk, Layout.idsAll_append, Layout.idsAll_cons, List.nodup_cons,
    List.nodup_append, List.mem_cons, List.mem_append, not_or] at hnodup hlow hlt
  have hframe : t.Frame (id :: c.ids) t' := hc.frame
  have hsib : ∀ l, (l ∈ before ∨ l ∈ after) → t'.Holds (some id) l := by
    intro l hl
    refine hframe.holds (hbelow l (by simpa using hl.imp (fun hl => hl) .inr)) fun x hx => ?_
    have hx' : x ∈ Layout.idsAll before ∨ x ∈ Layout.idsAll after :=
      hl.imp (fun hl => Layout.mem_idsAll.2 ⟨l, hl, hx⟩) fun hl => Layout.mem_idsAll.2 ⟨l, hl, hx⟩
    grind
  refine ⟨⟨holds_mk.2 ⟨?_, fun l hl => ?_⟩, ?_, ?_, ?_⟩, ?_, ?_, hc.root⟩
  · simpa using hc.hangs.fits.1
  · rcases List.mem_append.1 hl with hl | hl
    · exact hsib l (.inl hl)
    · rcases List.mem_cons.1 hl with rfl | hl
      · exact hc.hangs.holds
      · exact hsib l (.inr hl)
  · exact Site.fits_frame hframe h.fits fun x hx => by grind
  · simp only [Layout.ids_mk, Layout.idsAll_append, Layout.idsAll_cons, List.nodup_cons,
      List.nodup_append, List.mem_append]
    grind
  · simp only [Layout.ids_mk, Layout.idsAll_append, Layout.idsAll_cons, List.mem_cons,
      List.mem_append]
    grind
  · simp only [Layout.ids_mk, Layout.idsAll_append, Layout.idsAll_cons, List.mem_cons,
      List.mem_append]
    grind
  · refine hframe.mono fun x hx => ?_
    simp only [Layout.ids_mk, Layout.idsAll_append, Layout.idsAll_cons, List.mem_cons,
      List.mem_append]
    grind

end Renews
end Tree
end PolyglotSql
