import PolyglotSql.Proofs.Dialect.Replacement
import PolyglotSql.Proofs.Tree.Building

/-!
# PolyglotSql.Proofs.Dialect.Supplanting

The edits that dialects are made of, slot by slot. Each of them puts a fresh slot in the place of a
child and has the child's own children below fresh slots (`Replacement.supplants`): the alias and
all subtrees are kept, the child is left bare, and of the slots that were there before, only the
parent's entry and the links of the moved children change.
-/

namespace PolyglotSql

open PolyglotSql.Tree

/-- The edits that put something else in the place of a function. -/
inductive Replacement where
  | node (new : Node)
  | rename (name : String) (parentheses : Bool)
  | operation (name : String)
  | keywordCall (name : String) (keywords : List String)
  | extract (part : String)
  | nest (outer inner : String)

namespace Replacement

def edit : Replacement → Place → Edit NodeId
  | node new, place => place.replace new
  | rename name parentheses, place => place.rename name parentheses
  | operation name, place => place.toOperator name
  | keywordCall name keywords, place => place.toKeywordCall name keywords
  | extract part, place => place.toExtract part
  | nest outer inner, place => place.nest outer inner

/-- The node that stands in the place afterwards. -/
def top : Replacement → Node
  | node new => new
  | rename name parentheses => .dialectCall name parentheses
  | operation name => .operation name
  | keywordCall name keywords => .keywordCall name keywords
  | extract _ => .keywordCall "EXTRACT" ["FROM"]
  | nest outer _ => .dialectCall outer true

/-- The slot that takes over the children, where `fresh` is the first new slot; the edit returns
it. -/
def heir (r : Replacement) (fresh : NodeId) : NodeId :=
  match r with
  | nest _ _ => fresh + 1
  | _ => fresh

/-- The new slots, where `s` gives way below `parent`. -/
def added (r : Replacement) (fresh parent : NodeId) (s : Slot) : List Slot :=
  match r with
  | extract part =>
    [⟨r.top, some parent, (fresh + 1) :: s.children, s.alias_⟩, ⟨.text part, some fresh, [], none⟩]
  | nest _ inner =>
    [⟨r.top, some parent, [fresh + 1], s.alias_⟩,
      ⟨.dialectCall inner true, some fresh, s.children, none⟩]
  | _ => [⟨r.top, some parent, s.children, s.alias_⟩]

/-- What stands in the place of a function of `args`. -/
def term (r : Replacement) (alias_ : Option String) (args : List Term) : Term :=
  match r with
  | extract part => .mk r.top alias_ (.leaf (.text part) :: args)
  | nest _ inner => .mk r.top alias_ [.mk (.dialectCall inner true) none args]
  | _ => .mk r.top alias_ args

/-- What becomes of `old`, which was in the slot `id`, when the child with the slot `s` gives way in
`place` to the slot `fresh`. -/
def kept (r : Replacement) (fresh : NodeId) (place : Place) (s : Slot) (id : NodeId)
    (old : Slot) : Slot :=
  if id = place.node then { old with parent := none, children := [], alias_ := none }
  else if id = place.parent then { old with children := old.children.set place.index fresh }
  else if id ∈ s.children then { old with parent := some (r.heir fresh) }
  else old

/-- Replacing the child with the slot `s` turns `t` into `t'`. -/
structure Supplants (r : Replacement) (place : Place) (s : Slot) (t t' : Tree) : Prop where
  root : t'.root = t.root
  size : t'.size = t.size + (r.added t.size place.parent s).length
  added : ∀ k new, (r.added t.size place.parent s)[k]? = some new →
    t'.slots[t.size + k]? = some new
  kept : ∀ id old, t.slots[id]? = some old → t'.slots[id]? = some (r.kept t.size place s id old)
  subtrees : ∀ c ∈ s.children, t'.descendants c = t.descendants c ∧ t'.term c = t.term c
  term : ∃ args, t.term place.node = .ok (.mk s.node s.alias_ args) ∧
    t'.term t.size = .ok (r.term s.alias_ args)

/-- What hangs in the place afterwards. -/
def layout (r : Replacement) (fresh : NodeId) (alias_ : Option String) (below : List Layout) :
    Layout :=
  match r with
  | extract part => .mk fresh r.top alias_ (.leaf (fresh + 1) (.text part) :: below)
  | nest _ inner => .mk fresh r.top alias_ [.mk (fresh + 1) (.dialectCall inner true) none below]
  | _ => .mk fresh r.top alias_ below

variable {t t' : Tree} {p : NodeId} {sp : Slot} {before after up : List NodeId} {id : NodeId}
  {node : Node} {alias_ : Option String} {below : List Layout}

theorem id_layout (r : Replacement) (fresh : NodeId) :
    (r.layout fresh alias_ below).id = fresh := by
  cases r <;> rfl

theorem term_layout (r : Replacement) (fresh : NodeId) :
    (r.layout fresh alias_ below).term = r.term alias_ (below.map Layout.term) := by
  cases r <;> simp [layout, term, Layout.leaf, Term.leaf, Term.of]

theorem vacates (r : Replacement)
    (h : t.Hangs (.under p sp before after up) (.mk id node alias_ below)) (s : Slot) :
    ∃ t', Yields (r.edit ⟨p, before.length, id⟩) t (r.heir t.slots.size) t' ∧
      Vacates t t' (.under p sp before after up) id node below
        (r.layout t.slots.size alias_ below) ∧
      t'.slots.size = t.slots.size + (r.added t.slots.size p s).length := by
  cases r with
  | node new => exact replace_vacates new h
  | rename name parentheses => exact replace_vacates (.dialectCall name parentheses) h
  | operation name => exact replace_vacates (.operation name) h
  | keywordCall name keywords => exact replace_vacates (.keywordCall name keywords) h
  | extract part => exact extract_vacates part h
  | nest outer inner => exact nest_vacates outer inner h

/-- The new slots are those of the layout above the children. -/
theorem added_layout (r : Replacement) {fresh : NodeId} {s : Slot}
    (h : t'.Holds (some p) (r.layout fresh s.alias_ below))
    (hs : s.children = below.map Layout.id) (k : Nat) (new : Slot)
    (hk : (r.added fresh p s)[k]? = some new) : t'.slots[fresh + k]? = some new := by
  cases r with
  | extract part =>
    obtain ⟨htop, hbelow⟩ := holds_mk.1 h
    have hpart := (holds_mk.1 (hbelow _ List.mem_cons_self)).1
    match k with
    | 0 => simpa [← hk, added, hs] using htop
    | 1 => simpa [← hk, added] using hpart
    | k + 2 => simp [added] at hk
  | nest outer inner =>
    obtain ⟨htop, hbelow⟩ := holds_mk.1 h
    have hinner := (holds_mk.1 (hbelow _ List.mem_cons_self)).1
    match k with
    | 0 => simpa [← hk, added] using htop
    | 1 => simpa [← hk, added, hs] using hinner
    | k + 2 => simp [added] at hk
  | _ =>
    match k with
    | 0 => simpa [← hk, added, hs] using (holds_mk.1 h).1
    | k + 1 => simp [added] at hk

/-- The children hang below the heir, each as it was. -/
theorem heirs_layout (r : Replacement) {fresh : NodeId} (h : t'.Holds (some p)
    (r.layout fresh alias_ below)) {l : Layout} (hl : l ∈ below) :
    t'.Holds (some (r.heir fresh)) l := by
  cases r with
  | extract part => exact (holds_mk.1 h).2 l (List.mem_cons_of_mem _ hl)
  | nest outer inner => exact (holds_mk.1 ((holds_mk.1 h).2 _ List.mem_cons_self)).2 l hl
  | _ => exact (holds_mk.1 h).2 l hl

/-- Nothing is lost in a replacement: whatever gives way in a place, its alias and its children are
at what stands there now. -/
theorem supplants (r : Replacement) {t : Tree} (place : Place) (h : t.WellFormed)
    (hplace : t.child place.parent place.index = .ok place.node) :
    ∃ s t', t.slots[place.node]? = some s ∧ Yields (r.edit place) t (r.heir t.size) t' ∧
      r.Supplants place s t t' := by
  obtain ⟨p, index, id⟩ := place
  obtain ⟨sp, hsp, hchild⟩ := child_ok.1 hplace
  obtain ⟨⟨id', node, alias_, below⟩, up, rfl, hangs⟩ :=
    (wellFormed_iff_linked.1 h).1.hangs_at hsp hchild
  obtain ⟨hs, hbelow⟩ := holds_mk.1 hangs.holds
  obtain ⟨hindex, -⟩ := List.getElem?_eq_some_iff.1 hchild
  have hlength : (sp.children.take index).length = index :=
    List.length_take_of_le (Nat.le_of_lt hindex)
  let s : Slot := ⟨node, some p, below.map Layout.id, alias_⟩
  obtain ⟨t', hy, hv, hsize⟩ := r.vacates hangs s
  rw [hlength] at hy
  have hn := hangs.nodup
  rw [Layout.ids_mk, List.nodup_cons] at hn
  have hheirs : ∀ l ∈ below, t'.Holds (some (r.heir t.size)) l :=
    fun l hl => r.heirs_layout hv.hangs.holds hl
  refine ⟨s, t', hs, hy, hv.root, hsize, r.added_layout hv.hangs.holds rfl, fun x old hx => ?_,
    fun c hc => ?_, below.map Layout.term, ?_, ?_⟩
  · unfold kept
    split_ifs with hid hp hmoved
    · subst hid
      obtain rfl := Option.some.inj (hs.symm.trans hx)
      exact (holds_mk.1 hv.bare.holds).1
    · subst hp
      obtain rfl := Option.some.inj (hsp.symm.trans hx)
      rw [hv.hangs.fits.1, id_layout, List.set_eq_take_append_cons_drop, if_pos hindex]
      rfl
    · obtain ⟨l, hl, rfl⟩ := List.mem_map.1 hmoved
      exact holds_moved (hbelow l hl) (hheirs l hl) hx
    · rw [hv.frame.same x (lt_of_slot hx), hx]
      simp only [Site.holder, List.cons_append, List.nil_append, List.mem_cons, not_or]
      exact ⟨hp, hid, hmoved⟩
  · obtain ⟨l, hl, rfl⟩ := List.mem_map.1 hc
    have hnl := Layout.nodup_ids_of_mem hn.2 hl
    rw [descendants_holds (hbelow l hl) hnl, descendants_holds (hheirs l hl) hnl,
      term_holds (hbelow l hl) hnl, term_holds (hheirs l hl) hnl]
    exact ⟨rfl, rfl⟩
  · simpa using Tree.term_layout hangs
  · have hterm := Tree.term_layout hv.hangs
    rwa [id_layout, term_layout] at hterm

/-- `SELECT a, DATEDIFF(b, c) AS d FROM t` with its result at 2, below it the column at 3 and the
call at 4 with its arguments at 5 and 6. -/
def aliasedDifference : Tree :=
  (Term.of .select
    [.of .result [.column "a",
      (Term.call "DATEDIFF" [.column "b", .column "c"]).withAlias "d"],
    .of .fromClause [.table "t"]]).build

/-- The call moves into another one, which takes over its alias. -/
theorem supplants_aliasedDifference :
    aliasedDifference.WellFormed ∧ aliasedDifference.child 2 1 = .ok 4 ∧
      ∃ t', Yields ((nest "ABS" "DATE_DIFF").edit ⟨2, 1, 4⟩) aliasedDifference 10 t' ∧
        t'.size = 11 ∧ t'.children 2 = .ok [3, 9] ∧
        t'.slots[9]? = some ⟨.dialectCall "ABS" true, some 2, [10], some "d"⟩ ∧
        t'.slots[10]? = some ⟨.dialectCall "DATE_DIFF" true, some 9, [5, 6], none⟩ ∧
        t'.slots[4]? = some ⟨.call "DATEDIFF", none, [], none⟩ := by
  have h : aliasedDifference.WellFormed := Term.build_wellFormed _
  have hplace : aliasedDifference.child 2 1 = .ok 4 := by decide +kernel
  have hsize : aliasedDifference.size = 9 := by decide +kernel
  have hresult : aliasedDifference.slots[2]? = some ⟨.result, some 1, [3, 4], none⟩ := by
    decide +kernel
  have hcall : aliasedDifference.slots[4]? =
      some ⟨.call "DATEDIFF", some 2, [5, 6], some "d"⟩ := by
    decide +kernel
  obtain ⟨s, t', hs, hy, hr⟩ := supplants (nest "ABS" "DATE_DIFF") ⟨2, 1, 4⟩ h hplace
  obtain rfl := Option.some.inj (hcall.symm.trans hs)
  rw [hsize] at hy
  have hadded := hr.added
  rw [hsize] at hadded
  refine ⟨h, hplace, t', hy, hr.size.trans (by rw [hsize]; rfl), ?_, hadded 0 _ rfl,
    hadded 1 _ rfl, hr.kept 4 _ hcall⟩
  rw [children, slot_ok (hr.kept 2 _ hresult), hsize]
  rfl

end Replacement
end PolyglotSql
