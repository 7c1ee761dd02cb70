import Mathlib.Data.List.Forall2
import PolyglotSql.Proofs.Tree.Reading
import PolyglotSql.Proofs.Tree.WellFormed

/-!
# PolyglotSql.Proofs.Tree.SelectLists

The select lists of a tree, with the names of their columns. A column is named by the alias in its
slot, so whatever takes the place of a column has to take the alias along. `Carries l l'` is what an
edit that turns `l` into `l'` owes to the select lists around it and inside it: the alias on top is
the same, and no select list is gone or has other names (`Carries.selectList`).
-/

namespace PolyglotSql
namespace Layout

/-- The alias of the top. -/
def alias_ : Layout → Option String
  | .mk _ _ alias_ _ => alias_

mutual

/-- The select lists of a layout: the slot of each and the aliases of its columns. -/
def selectLists : Layout → List (NodeId × List (Option String))
  | .mk id node _ below =>
    if node = .result then (id, below.map alias_) :: selectListsAll below else selectListsAll below

def selectListsAll : List Layout → List (NodeId × List (Option String))
  | [] => []
  | l :: ls => l.selectLists ++ selectListsAll ls

end

@[simp] theorem alias_mk (id : NodeId) (node : Node) (a : Option String) (below : List Layout) :
    (mk id node a below).alias_ = a := rfl

@[simp] theorem selectListsAll_nil : selectListsAll [] = [] := by
  rw [selectListsAll]

@[simp] theorem selectListsAll_cons (l : Layout) (ls : List Layout) :
    selectListsAll (l :: ls) = l.selectLists ++ selectListsAll ls := by
  rw [selectListsAll]

@[simp] theorem selectListsAll_append (ls ls' : List Layout) :
    selectListsAll (ls ++ ls') = selectListsAll ls ++ selectListsAll ls' := by
  induction ls with
  | nil => simp
  | cons l ls ih => simp [ih]

theorem mem_selectListsAll {x : NodeId × List (Option String)} {ls : List Layout} :
    x ∈ selectListsAll ls ↔ ∃ l ∈ ls, x ∈ l.selectLists := by
  induction ls with
  | nil => simp
  | cons l ls ih => simp [ih]

theorem selectListsAll_cons_subset {l l' : Layout} {ls ls' : List Layout}
    (h : l.selectLists ⊆ l'.selectLists) (h' : selectListsAll ls ⊆ selectListsAll ls') :
    selectListsAll (l :: ls) ⊆ selectListsAll (l' :: ls') := by
  rw [selectListsAll_cons, selectListsAll_cons]
  exact List.append_subset.2 ⟨List.subset_append_of_subset_left _ h,
    List.subset_append_of_subset_right _ h'⟩

theorem selectLists_mk (id : NodeId) (node : Node) (a : Option String) (below : List Layout) :
    (mk id node a below).selectLists =
      if node = .result then (id, below.map alias_) :: selectListsAll below
      else selectListsAll below := by
  rw [selectLists]

theorem selectLists_of_ne {node : Node} (h : node ≠ .result) (id : NodeId) (a : Option String)
    (below : List Layout) : (mk id node a below).selectLists = selectListsAll below := by
  rw [selectLists_mk, if_neg h]

@[simp] theorem selectLists_leaf {node : Node} (h : node ≠ .result) (id : NodeId) :
    (leaf id node).selectLists = [] := by
  rw [leaf, selectLists_of_ne h, selectListsAll_nil]

/-- Whatever the top is, the select lists below it are among those of the layout. -/
theorem selectListsAll_subset (id : NodeId) (node : Node) (a : Option String)
    (below : List Layout) : selectListsAll below ⊆ (mk id node a below).selectLists := by
  rw [selectLists_mk]
  split
  · exact List.subset_cons_self _ _
  · exact List.Subset.refl _

/-- A layout turns into another that has its alias and its select lists. -/
structure Carries (l l' : Layout) : Prop where
  name : l'.alias_ = l.alias_
  lists : l.selectLists ⊆ l'.selectLists

namespace Carries

@[simp] theorem refl (l : Layout) : l.Carries l :=
  ⟨rfl, List.Subset.refl _⟩

theorem trans {l l₁ l₂ : Layout} (h : l.Carries l₁) (h' : l₁.Carries l₂) : l.Carries l₂ :=
  ⟨h'.name.trans h.name, List.Subset.trans h.lists h'.lists⟩

theorem map_alias {ls ls' : List Layout} (h : List.Forall₂ Carries ls ls') :
    ls'.map alias_ = ls.map alias_ := by
  induction h with
  | nil => rfl
  | cons hc _ ih => rw [List.map_cons, List.map_cons, hc.name, ih]

theorem lists_all {ls ls' : List Layout} (h : List.Forall₂ Carries ls ls') :
    selectListsAll ls ⊆ selectListsAll ls' := by
  induction h with
  | nil => exact List.Subset.refl _
  | cons hc _ ih => exact selectListsAll_cons_subset hc.lists ih

section Top

variable {id id' : NodeId} {node node' : Node} {a : Option String} {below below' : List Layout}

/-- The top stays, and each child turns into another. -/
theorem under (h : List.Forall₂ Carries below below') :
    (Layout.mk id node a below).Carries (.mk id node a below') := by
  refine ⟨rfl, ?_⟩
  rw [selectLists_mk, selectLists_mk, map_alias h]
  split
  · exact List.cons_subset_cons _ (lists_all h)
  · exact lists_all h

/-- A top that is no select list gives way to another with its alias, over the same select lists. -/
theorem retop (hn : node ≠ .result) (h : selectListsAll below ⊆ selectListsAll below') :
    (Layout.mk id node a below).Carries (.mk id' node' a below') := by
  refine ⟨rfl, ?_⟩
  rw [selectLists_of_ne hn]
  exact List.Subset.trans h (selectListsAll_subset id' node' a below')

/-- Another node takes the place of one that is no select list. -/
theorem replaced (hn : node ≠ .result) :
    (Layout.mk id node a below).Carries (.mk id' node' a below) :=
  retop hn (List.Subset.refl _)

end Top
end Carries
end Layout

namespace Tree

/-- A select list that can be reached from the root, and its columns. -/
structure SelectList (t : Tree) (id : NodeId) (columns : List NodeId) : Prop where
  reached : ∃ ids, t.descendants t.root = .ok ids ∧ id ∈ ids
  result : t.node id = .ok .result
  listed : t.children id = .ok columns

theorem alias_layout {t : Tree} {p : Option NodeId} {l : Layout} (h : t.Holds p l) :
    t.alias_ l.id = .ok l.alias_ := by
  obtain ⟨id, node, a, below⟩ := l
  exact congrArg (Except.map _) (slot_ok (holds_mk.1 h).1)

theorem aliases_layout {t : Tree} {p : Option NodeId} {ls : List Layout}
    (h : ∀ l ∈ ls, t.Holds p l) :
    (ls.map Layout.id).map t.alias_ = (ls.map Layout.alias_).map .ok := by
  rw [List.map_map, List.map_map]
  exact List.map_congr_left fun l hl => alias_layout (h l hl)

/-- The select lists of a layout are those of its slots that hold results. -/
theorem mem_selectLists {t : Tree} {p : Option NodeId} {l : Layout} (h : t.Holds p l) {x : NodeId}
    {names : List (Option String)} :
    (x, names) ∈ l.selectLists ↔ x ∈ l.ids ∧ t.node x = .ok .result ∧
      ∃ columns, t.children x = .ok columns ∧ columns.map t.alias_ = names.map .ok := by
  induction l using Layout.induct generalizing p with
  | mk id node a below ih =>
    obtain ⟨hs, hbelow⟩ := holds_mk.1 h
    have haliases := aliases_layout hbelow
    have hnode : t.node id = .ok node := congrArg (Except.map _) (slot_ok hs)
    have hchildren : t.children id = .ok (below.map Layout.id) :=
      congrArg (Except.map _) (slot_ok hs)
    rw [Layout.selectLists_mk, Layout.ids_mk, List.mem_cons, Layout.mem_idsAll]
    constructor
    · intro hm
      have hcases : (node = .result ∧ (x, names) = (id, below.map Layout.alias_)) ∨
          (x, names) ∈ Layout.selectListsAll below := by
        split at hm
        · rename_i hn
          exact (List.mem_cons.1 hm).imp (fun he => ⟨hn, he⟩) fun hm => hm
        · exact .inr hm
      rcases hcases with ⟨rfl, he⟩ | hm
      · cases he
        exact ⟨.inl rfl, hnode, _, hchildren, haliases⟩
      · obtain ⟨c, hc, hm⟩ := Layout.mem_selectListsAll.1 hm
        obtain ⟨hx, hrest⟩ := (ih c hc (hbelow c hc)).1 hm
        exact ⟨.inr ⟨c, hc, hx⟩, hrest⟩
    · rintro ⟨rfl | ⟨c, hc, hx⟩, hresult, columns, hcolumns, hnames⟩
      · rw [hnode] at hresult
        rw [hchildren] at hcolumns
        cases hresult
        cases hcolumns
        rw [haliases] at hnames
        rw [if_pos rfl, List.map_injective_iff.2 (fun _ _ => Except.ok.inj) hnames]
        exact List.mem_cons_self
      · have hm := (ih c hc (hbelow c hc)).2 ⟨hx, hresult, columns, hcolumns, hnames⟩
        have hall := Layout.mem_selectListsAll.2 ⟨c, hc, hm⟩
        split
        · exact List.mem_cons_of_mem _ hall
        · exact hall

theorem selectList_iff {t : Tree} {l : Layout} (h : t.Hangs .free l) (hroot : t.root = l.id)
    {id : NodeId} {columns : List NodeId} :
    t.SelectList id columns ↔
      id ∈ l.ids ∧ t.node id = .ok .result ∧ t.children id = .ok columns := by
  have hids : t.descendants t.root = .ok l.ids := by rw [hroot, descendants_ids h]
  constructor
  · rintro ⟨⟨ids, hreached, hid⟩, hresult, hlisted⟩
    rw [hids] at hreached
    cases hreached
    exact ⟨hid, hresult, hlisted⟩
  · rintro ⟨hid, hresult, hlisted⟩
    exact ⟨⟨_, hids, hid⟩, hresult, hlisted⟩

/-- Where a tree's layout turns into one that carries it, each select list stays, and its columns
have the names that they had, in the same order. -/
theorem SelectList.carried {t t' : Tree} {l l' : Layout} {id : NodeId} {columns : List NodeId}
    (hlist : t.SelectList id columns) (h : t.Hangs .free l) (hroot : t.root = l.id)
    (h' : t'.Hangs .free l') (hroot' : t'.root = l'.id) (hc : l.Carries l') :
    ∃ (columns' : List NodeId) (names : List (Option String)), t'.SelectList id columns' ∧
      columns'.length = columns.length ∧ columns.map t.alias_ = names.map .ok ∧
      columns'.map t'.alias_ = names.map .ok := by
  obtain ⟨hid, hresult, hlisted⟩ := (selectList_iff h hroot).1 hlist
  obtain ⟨names, hnames⟩ : ∃ names : List (Option String),
      columns.map t.alias_ = names.map .ok := by
    obtain ⟨node, a, below, q, hs, hbelow, -⟩ := holds_member h.holds h.nodup hid
    have hchildren : t.children id = .ok (below.map Layout.id) :=
      congrArg (Except.map _) (slot_ok hs)
    rw [hchildren] at hlisted
    cases hlisted
    exact ⟨below.map Layout.alias_, aliases_layout hbelow⟩
  have hm := (mem_selectLists h.holds).2 ⟨hid, hresult, columns, hlisted, hnames⟩
  obtain ⟨hid', hresult', columns', hlisted', hnames'⟩ :=
    (mem_selectLists h'.holds).1 (hc.lists hm)
  refine ⟨columns', names, (selectList_iff h' hroot').2 ⟨hid', hresult', hlisted'⟩, ?_, hnames,
    hnames'⟩
  simpa using congrArg List.length (hnames'.trans hnames.symm)

end Tree
end PolyglotSql
