import PolyglotSql.Proofs.Tree.Building
import PolyglotSql.Proofs.Tree.Visiting

/-!
# PolyglotSql.Proofs.Tree.Touring

Walks whose visitor leaves the tree alone. Over a layout in place such a walk is a recursion on the
layout, `tour`, for all numbers of steps that suffice (`walk_agrees`). A tour enters each slot of
the layout once, in order, but for what the visitor declined (`tour_tours`).
-/

namespace PolyglotSql

open PolyglotSql.Tree

/-! ## Walks as recursions on layouts -/

namespace Walk

variable {σ α β : Type} {t : Tree}

/-- Over `t`, both computations run alike and leave the tree alone. -/
def Agrees (t : Tree) (e e' : Walk σ α) : Prop :=
  ∀ s, s.tree = t → e.run.run s = e'.run.run s ∧ (e'.run.run s).2.tree = t

theorem agrees_of_keeps {e : Walk σ α} (h : Keeps (fun s => s.tree = t) e) : Agrees t e e :=
  fun s hs => ⟨rfl, h s hs⟩

theorem keeps_look {P : WalkState σ → Prop} (look : Tree → Except Defect α) :
    Keeps P (Walk.read look) := by
  intro s hs
  unfold Leaves
  rwa [run_read]

theorem Agrees.bind {e e' : Walk σ α} {f f' : α → Walk σ β} (h : Agrees t e e')
    (hf : ∀ a, Agrees t (f a) (f' a)) : Agrees t (e >>= f) (e' >>= f') := by
  intro s hs
  obtain ⟨hrun, htree⟩ := h s hs
  rw [run_sequence, run_sequence, hrun]
  cases he : e'.run.run s with
  | mk r s₁ =>
    rw [he] at htree
    cases r with
    | ok a => exact hf a s₁ htree
    | error d => exact ⟨rfl, htree⟩

theorem Agrees.read {look : Tree → Except Defect α} {a : α} {f : α → Walk σ β} {e : Walk σ β}
    (hlook : look t = .ok a) (h : Agrees t (f a) e) : Agrees t (Walk.read look >>= f) e := by
  intro s hs
  have hread : (Walk.read look).run.run s = (.ok a, s) := by rw [run_read, hs, hlook]
  rw [run_sequence, hread]
  exact h s hs

theorem Agrees.ite {c : Prop} [Decidable c] {e e' f f' : Walk σ α} (he : Agrees t e e')
    (hf : Agrees t f f') : Agrees t (if c then e else f) (if c then e' else f') := by
  by_cases h : c
  · rwa [if_pos h, if_pos h]
  · rwa [if_neg h, if_neg h]

end Walk

namespace Visitor

variable {σ : Type}

/-- The callbacks leave the tree alone. -/
structure Spares (v : Visitor σ) (t : Tree) : Prop where
  nodeStart : ∀ node, Keeps (fun s => s.tree = t) (v.onNodeStart node)
  childStart : ∀ parent child index hasMore,
    Keeps (fun s => s.tree = t) (v.onChildStart parent child index hasMore)
  childEnd : ∀ parent child index hasMore,
    Keeps (fun s => s.tree = t) (v.onChildEnd parent child index hasMore)
  nodeEnd : ∀ node, Keeps (fun s => s.tree = t) (v.onNodeEnd node)

theorem keeps_noted {α : Type} {t : Tree} (event : Event) (answer : α → Bool) {callback : Walk σ α}
    (h : Keeps (fun s => s.tree = t) callback) :
    Keeps (fun s => s.tree = t) (Walk.noted event answer callback) := by
  intro s hs
  unfold Leaves
  rw [Walk.run_noted]
  exact h s.erase hs

theorem Spares.recorded {v : Visitor σ} {t : Tree} (h : v.Spares t) : v.recorded.Spares t where
  nodeStart node := keeps_noted _ _ (h.nodeStart node)
  childStart parent child index hasMore := keeps_noted _ _ (h.childStart parent child index hasMore)
  childEnd parent child index hasMore := keeps_noted _ _ (h.childEnd parent child index hasMore)
  nodeEnd node := keeps_noted _ _ (h.nodeEnd node)

mutual

/-- The walk over a layout that stays in place. -/
def tour (v : Visitor σ) : Layout → Walk σ Unit
  | .mk id _ _ below => do
    if ← v.onNodeStart id then tourAll v id 0 below
    v.onNodeEnd id

def tourAll (v : Visitor σ) (parent : NodeId) (index : Nat) : List Layout → Walk σ Unit
  | [] => pure ()
  | l :: ls => do
    if ← v.onChildStart parent l.id index !ls.isEmpty then tour v l
    v.onChildEnd parent l.id index !ls.isEmpty
    tourAll v parent (index + 1) ls

end

/-- Over a layout in place, a walk that leaves the tree alone is the tour. Every slot takes two
steps at most, one for itself and one for its place among its siblings. -/
theorem walk_agrees {v : Visitor σ} {t : Tree} (hv : v.Spares t) (steps : Nat) :
    (∀ {p : Option NodeId} {l : Layout}, t.Holds p l → 2 * l.ids.length ≤ steps →
      Walk.Agrees t (v.visitNode steps l.id) (v.tour l)) ∧
    ∀ {id : NodeId} {slot : Slot} (seen : List NodeId) {rest : List Layout},
      t.slots[id]? = some slot → slot.children = seen ++ rest.map Layout.id →
      (∀ l ∈ rest, t.Holds (some id) l) → 2 * (Layout.idsAll rest).length + 1 ≤ steps →
      Walk.Agrees t (v.visitChildren steps id seen.length) (v.tourAll id seen.length rest) := by
  induction steps with
  | zero =>
    refine ⟨fun {_ l} _ hsteps => ?_, fun _ _ _ _ _ hsteps => absurd hsteps (by omega)⟩
    have hpos := List.length_pos_of_mem l.id_mem_ids
    omega
  | succ steps ih =>
    refine ⟨fun {p l} hl hsteps => ?_, fun {id slot} seen {rest} hs hchildren hrest hsteps => ?_⟩
    · obtain ⟨id, node, alias_, below⟩ := l
      obtain ⟨hs, hbelow⟩ := holds_mk.1 hl
      rw [Layout.ids_mk, List.length_cons] at hsteps
      have hend := Walk.agrees_of_keeps (hv.nodeEnd id)
      rw [Layout.id_mk, visitNode, tour]
      refine (Walk.agrees_of_keeps (hv.nodeStart id)).bind fun descend => .ite ?_ hend
      exact (ih.2 [] hs rfl hbelow (by omega)).bind fun _ => hend
    · have hcount : t.childCount id = .ok (seen.length + rest.length) := by
        simp [childCount, slot_ok hs, Except.map, hchildren]
      rw [visitChildren]
      refine .read hcount ?_
      cases rest with
      | nil =>
        rw [if_neg (by simp), tourAll]
        exact Walk.agrees_of_keeps (keeps_pure ())
      | cons l ls =>
        have hlt : seen.length < seen.length + (l :: ls).length := by simp
        have hmore : decide (seen.length + 1 < seen.length + (l :: ls).length) = !ls.isEmpty := by
          cases ls <;> simp
        have hchild : t.child id seen.length = .ok l.id :=
          child_ok.2 ⟨slot, hs, by simp [hchildren]⟩
        have hpos := List.length_pos_of_mem l.id_mem_ids
        rw [Layout.idsAll_cons, List.length_append] at hsteps
        have hend : Walk.Agrees t (do
              let count ← Walk.read (·.childCount id)
              v.onChildEnd id l.id seen.length (seen.length + 1 < count)
              v.visitChildren steps id (seen.length + 1))
            (do
              v.onChildEnd id l.id seen.length !ls.isEmpty
              v.tourAll id (seen.length + 1) ls) := by
          refine .read hcount ?_
          rw [hmore]
          refine (Walk.agrees_of_keeps (hv.childEnd _ _ _ _)).bind fun _ => ?_
          have hsplit : slot.children = (seen ++ [l.id]) ++ ls.map Layout.id := by
            simpa using hchildren
          have htail := ih.2 (seen ++ [l.id]) hs hsplit
            (fun l' hl' => hrest l' (List.mem_cons_of_mem _ hl')) (by omega)
          rwa [List.length_append] at htail
        rw [if_pos hlt, tourAll, hmore]
        refine .read hchild ((Walk.agrees_of_keeps (hv.childStart _ _ _ _)).bind fun descend => ?_)
        refine .read hcount ?_
        rw [if_pos hlt]
        refine .read hchild (.ite ?_ hend)
        exact (ih.1 (hrest l List.mem_cons_self) (by omega)).bind fun _ => hend

end Visitor

/-! ## What a tour starts and what it leaves out -/

/-- An event around a child is about that child and tells whether it is not the last. -/
def Event.Marked (t : Tree) : Event → Prop
  | childStart parent child index hasMore | childEnd parent child index hasMore =>
    ∃ cs, t.children parent = .ok cs ∧ cs[index]? = some child ∧
      (hasMore = true ↔ cs.getLast? ≠ some child)
  | _ => True

namespace Call

/-- The node that is entered. -/
def entered (a : Call) : Option NodeId :=
  match a.event with
  | .nodeStart node => some node
  | _ => none

/-- The nodes that are left out because the call was declined: what is strictly below a node, or a
child with all that is below it. -/
def declined (t : Tree) (a : Call) : List NodeId :=
  match a.event, a.answer with
  | .nodeStart node, .ok false => ((t.descendants node).toOption.getD []).tail
  | .childStart _ child _ _, .ok false => (t.descendants child).toOption.getD []
  | _, _ => []

end Call

/-- Some calls enter the nodes `ids` in order, but for those that they leave out. -/
structure Toured (t : Tree) (ids : List NodeId) (calls : List Call) : Prop where
  declined : calls.flatMap (Call.declined t) ⊆ ids
  entered : calls.filterMap Call.entered = ids.filter (· ∉ calls.flatMap (Call.declined t))

namespace Toured

variable {t : Tree}

theorem nil : Toured t [] [] := ⟨List.Subset.refl _, rfl⟩

theorem append {ids ids' : List NodeId} {calls calls' : List Call} (h : Toured t ids calls)
    (h' : Toured t ids' calls') (hd : ids.Disjoint ids') :
    Toured t (ids ++ ids') (calls ++ calls') where
  declined := by
    rw [List.flatMap_append]
    exact List.append_subset.2 ⟨fun x hx => List.mem_append_left _ (h.declined hx),
      fun x hx => List.mem_append_right _ (h'.declined hx)⟩
  entered := by
    rw [List.filterMap_append, h.entered, h'.entered, List.filter_append, List.flatMap_append]
    congr 1
    · refine List.filter_congr fun x hx => ?_
      have hx' : x ∉ calls'.flatMap (Call.declined t) := fun hm => hd hx (h'.declined hm)
      simp [hx']
    · refine List.filter_congr fun x hx => ?_
      have hx' : x ∉ calls.flatMap (Call.declined t) := fun hm => hd (h.declined hm) hx
      simp [hx']

theorem single {ids : List NodeId} {a : Call} (hd : a.declined t ⊆ ids)
    (he : a.entered.toList = ids.filter (· ∉ a.declined t)) : Toured t ids [a] where
  declined := by simpa using hd
  entered := by
    rw [List.flatMap_singleton, ← he]
    cases h : a.entered <;> simp [h]

end Toured

namespace Walk

variable {σ α : Type} {t : Tree} {ids ids' : List NodeId}

/-- A recorded walk that left the tree alone so far. -/
structure Touring (t : Tree) (s : WalkState (Recorded σ)) : Prop where
  tree : s.tree = t
  marked : ∀ a ∈ s.calls, a.event.Marked t

/-- A recorded walk that leaves the tree alone enters `ids` in order, but for what is declined, or
stops with a callback. -/
def Tours (t : Tree) (e : Walk (Recorded σ) Unit) (ids : List NodeId) : Prop :=
  ∀ s, Touring t s → Concludes e s
    (fun _ s' => Touring t s' ∧ ∃ calls, s'.calls = s.calls ++ calls ∧ Toured t ids calls)
    (fun d s' => Touring t s' ∧ ∃ a, s'.calls.getLast? = some a ∧ a.answer = .error d)

theorem tours_pure : Tours t (pure () : Walk (Recorded σ) Unit) [] :=
  fun _ hs => concludes_pure ⟨hs, [], (List.append_nil _).symm, .nil⟩

theorem Tours.bind {e : Walk (Recorded σ) Unit} {f : Unit → Walk (Recorded σ) Unit}
    (h : Tours t e ids) (hf : Tours t (f ()) ids') (hd : ids.Disjoint ids') :
    Tours t (e >>= f) (ids ++ ids') := by
  intro s hs
  refine (h s hs).bind ?_
  rintro _ s₁ ⟨hs₁, calls, hcalls, htoured⟩
  refine (hf s₁ hs₁).imp ?_
  rintro _ s₂ ⟨hs₂, calls', hcalls', htoured'⟩
  exact ⟨hs₂, calls ++ calls', by rw [hcalls', hcalls, List.append_assoc],
    htoured.append htoured' hd⟩

theorem Touring.concludes_noted {s : WalkState (Recorded σ)} (hs : Touring t s) {event : Event}
    (answer : α → Bool) {callback : Walk σ α} (hkeeps : Keeps (fun s => s.tree = t) callback)
    (hmarked : event.Marked t) :
    Concludes (noted event answer callback) s
      (fun a s' => Touring t s' ∧ s'.calls = s.calls ++ [⟨event, t, .ok (answer a), t⟩])
      (fun d s' => Touring t s' ∧ ∃ a, s'.calls.getLast? = some a ∧ a.answer = .error d) := by
  have htree := hkeeps s.erase hs.tree
  have hcalls (b : Call) (hb : b.event = event) : ∀ a ∈ s.calls ++ [b], a.event.Marked t := by
    intro a ha
    rcases List.mem_append.1 ha with ha | ha
    · exact hs.marked a ha
    · rw [List.mem_singleton.1 ha, hb]
      exact hmarked
  unfold Leaves at htree
  unfold Concludes
  rw [run_noted]
  cases hrun : callback.run.run s.erase with
  | mk result s' =>
    rw [hrun] at htree
    replace htree : s'.tree = t := htree
    cases result with
    | ok a =>
      refine ⟨⟨htree, hcalls _ rfl⟩, ?_⟩
      show s.calls ++ [⟨event, s.tree, .ok (answer a), s'.tree⟩] = _
      rw [hs.tree, htree]
    | error d => exact ⟨⟨htree, hcalls _ rfl⟩, _, List.getLast?_concat, rfl⟩

/-- A callback and what comes after each of its answers. -/
theorem tours_noted {event : Event} {answer : α → Bool} {callback : Walk σ α}
    {f : α → Walk (Recorded σ) Unit} (hkeeps : Keeps (fun s => s.tree = t) callback)
    (hmarked : event.Marked t)
    (hf : ∀ a, ∃ before after, ids = before ++ after ∧ before.Disjoint after ∧
      Toured t before [⟨event, t, .ok (answer a), t⟩] ∧ Tours t (f a) after) :
    Tours t (noted event answer callback >>= f) ids := by
  intro s hs
  refine (hs.concludes_noted answer hkeeps hmarked).bind ?_
  rintro a s₁ ⟨hs₁, hcalls₁⟩
  obtain ⟨before, after, rfl, hd, htoured, htours⟩ := hf a
  refine (htours s₁ hs₁).imp ?_
  rintro _ s₂ ⟨hs₂, calls, hcalls₂, htoured₂⟩
  exact ⟨hs₂, _ :: calls, by rw [hcalls₂, hcalls₁, List.append_assoc]; rfl,
    htoured.append htoured₂ hd⟩

theorem tours_last {event : Event} {callback : Walk σ Unit}
    (hkeeps : Keeps (fun s => s.tree = t) callback) (hmarked : event.Marked t)
    (htoured : Toured t ids [⟨event, t, .ok true, t⟩]) :
    Tours t (noted event (fun _ => true) callback) ids := by
  intro s hs
  refine (hs.concludes_noted _ hkeeps hmarked).imp ?_
  rintro _ s₁ ⟨hs₁, hcalls⟩
  exact ⟨hs₁, _, hcalls, htoured⟩

end Walk

namespace Visitor

variable {σ : Type} {v : Visitor σ} {t : Tree}

/-- The children of a node are toured one after another. -/
theorem tourAll_tours (hv : v.Spares t) {id : NodeId} {slot : Slot} (seen : List NodeId)
    {rest : List Layout} (hs : t.slots[id]? = some slot)
    (hchildren : slot.children = seen ++ rest.map Layout.id)
    (hrest : ∀ l ∈ rest, t.Holds (some id) l) (hn : (Layout.idsAll rest).Nodup)
    (htours : ∀ l ∈ rest, Walk.Tours t (v.recorded.tour l) l.ids) :
    Walk.Tours t (v.recorded.tourAll id seen.length rest) (Layout.idsAll rest) := by
  induction rest generalizing seen with
  | nil =>
    rw [tourAll, Layout.idsAll_nil]
    exact Walk.tours_pure
  | cons l ls ih =>
    have hmarked : ∃ cs, t.children id = .ok cs ∧ cs[seen.length]? = some l.id ∧
        ((!ls.isEmpty) = true ↔ cs.getLast? ≠ some l.id) := by
      refine ⟨slot.children, by simp [children, slot_ok hs, Except.map], by simp [hchildren], ?_⟩
      have hlast : (seen ++ (l :: ls).map Layout.id).getLast? = some l.id ↔ ls = [] := by
        have htops := nodup_tops hn
        rw [List.map_cons, List.nodup_cons] at htops
        cases ls with
        | nil => simp
        | cons l' ls =>
          rw [List.getLast?_append_of_ne_nil _ (by simp), List.map_cons, List.map_cons,
            List.getLast?_cons_cons]
          exact ⟨fun h => absurd (List.mem_of_getLast? h) htops.1,
            fun h => absurd h (List.cons_ne_nil _ _)⟩
      rw [hchildren, Ne, hlast]
      simp
    rw [Layout.idsAll_cons, List.nodup_append] at hn
    have hdisjoint : l.ids.Disjoint (Layout.idsAll ls) := fun x hx hx' => hn.2.2 x hx x hx' rfl
    have hdescendants := descendants_holds (hrest l List.mem_cons_self) hn.1
    have hend : Walk.Tours t (do
        v.recorded.onChildEnd id l.id seen.length !ls.isEmpty
        v.recorded.tourAll id (seen.length + 1) ls) (Layout.idsAll ls) := by
      refine Walk.tours_noted (hv.childEnd _ _ _ _) hmarked fun _ =>
        ⟨[], _, rfl, List.disjoint_nil_left _, .single (by simp [Call.declined]) rfl, ?_⟩
      have htail := ih (seen ++ [l.id]) (by simpa using hchildren)
        (fun l' hl' => hrest l' (List.mem_cons_of_mem _ hl')) hn.2.1
        fun l' hl' => htours l' (List.mem_cons_of_mem _ hl')
      rwa [List.length_append] at htail
    rw [tourAll, Layout.idsAll_cons]
    refine Walk.tours_noted (hv.childStart _ _ _ _) hmarked fun descend => ?_
    cases descend with
    | false =>
      refine ⟨l.ids, _, rfl, hdisjoint, .single ?_ ?_, hend⟩
      · simp [Call.declined, hdescendants, Except.toOption]
      · simp [Call.declined, Call.entered, hdescendants, Except.toOption]
    | true =>
      refine ⟨[], _, rfl, List.disjoint_nil_left _, .single (by simp [Call.declined]) rfl, ?_⟩
      exact (htours l List.mem_cons_self).bind hend hdisjoint

/-- The tour of a layout in place enters its slots in order, but for what is declined. -/
theorem tour_tours (hv : v.Spares t) {p : Option NodeId} {l : Layout} (hl : t.Holds p l)
    (hn : l.ids.Nodup) : Walk.Tours t (v.recorded.tour l) l.ids := by
  induction l using Layout.induct generalizing p with
  | mk id node alias_ below ih =>
    obtain ⟨hs, hbelow⟩ := holds_mk.1 hl
    have hdescendants := descendants_holds hl hn
    rw [Layout.ids_mk, Layout.id_mk] at hdescendants
    rw [Layout.ids_mk, List.nodup_cons] at hn
    have hlast : Walk.Tours t (v.recorded.onNodeEnd id) [] :=
      Walk.tours_last (hv.nodeEnd id) trivial (.single (by simp [Call.declined]) rfl)
    rw [tour, Layout.ids_mk]
    refine Walk.tours_noted (hv.nodeStart id) trivial fun descend => ?_
    cases descend with
    | false =>
      refine ⟨_, [], (List.append_nil _).symm, List.disjoint_nil_right _, .single ?_ ?_, hlast⟩
      · simp [Call.declined, hdescendants, Except.toOption]
      · simp [Call.declined, Call.entered, hdescendants, Except.toOption, hn.1]
    | true =>
      refine ⟨[id], Layout.idsAll below, rfl, by simpa using hn.1, .single ?_ ?_, ?_⟩
      · simp [Call.declined]
      · simp [Call.declined, Call.entered]
      · have hall := tourAll_tours hv [] hs rfl hbelow hn.2 fun l hl =>
          ih l hl (hbelow l hl) (Layout.nodup_ids_of_mem hn.2 hl)
        have htours := hall.bind (f := fun _ => v.recorded.onNodeEnd id) hlast
          (List.disjoint_nil_right _)
        rwa [List.append_nil] at htours

/-- How a visitor is called. Every walk has its journal, whatever the callbacks do to the tree. A
walk over a well-formed tree that the callbacks leave alone ends, with whatever number of steps
suffices, and enters the nodes below the root in order, but for what was declined; only a callback
stops it early. -/
theorem visit_calls (v : Visitor σ) (t : Tree) (memory : σ) :
    (∀ steps, ∃ result s' calls opened, v.Makes steps ⟨t, memory⟩ result s' calls ∧
      Journal t calls opened ∧
      (result = .ok () → opened = [] ∧ ∃ a, calls.getLast? = some a ∧ a.event = .nodeEnd t.root) ∧
      ∀ d, result = .error d → Stops calls s'.tree d) ∧
    (t.WellFormed → v.Spares t → ∃ ids result s' calls, t.descendants t.root = .ok ids ∧
      (∀ steps, 2 * t.size ≤ steps → v.Makes steps ⟨t, memory⟩ result s' calls) ∧
      s'.tree = t ∧ (∀ a ∈ calls, a.event.Marked t) ∧
      (result = .ok () → calls.filterMap Call.entered =
        ids.filter (· ∉ calls.flatMap (Call.declined t))) ∧
      ∀ d, result = .error d → ∃ a, calls.getLast? = some a ∧ a.answer = .error d) := by
  refine ⟨fun steps => ?_, fun hwf hv => ?_⟩
  · obtain ⟨result, s', calls, opened, hmakes, hjournal, -, hends⟩ :=
      v.makes_journal steps ⟨t, memory⟩
    exact ⟨result, s', calls, opened, hmakes, hjournal, hends⟩
  · obtain ⟨l, hroot, hl⟩ := hwf.layout
    have hids : t.descendants t.root = .ok l.ids := hroot ▸ descendants_ids hl
    have hends := tour_tours hv hl.holds hl.nodup ⟨t, (memory, [])⟩ ⟨rfl, nofun⟩
    unfold Concludes at hends
    cases htour : (v.recorded.tour l).run.run ⟨t, (memory, [])⟩ with
    | mk result s' =>
      rw [htour] at hends
      have hmakes (steps : Nat) (hsteps : 2 * t.size ≤ steps) :
          v.Makes steps ⟨t, memory⟩ result s'.erase s'.calls := by
        have henough := Nat.le_trans (Nat.mul_le_mul_left 2 hl.length_le) hsteps
        have hagrees := (walk_agrees hv.recorded steps).1 hl.holds henough ⟨t, (memory, [])⟩ rfl
        exact v.makes_recorded steps ⟨t, memory⟩ (hroot ▸ hagrees.1.trans htour)
      cases result with
      | ok u =>
        obtain ⟨hs', calls, hcalls, htoured⟩ := hends
        obtain rfl : s'.calls = calls := hcalls
        exact ⟨_, _, _, _, hids, hmakes, hs'.tree, hs'.marked, fun _ => htoured.entered, nofun⟩
      | error d =>
        obtain ⟨hs', a, ha, hd⟩ := hends
        refine ⟨_, _, _, _, hids, hmakes, hs'.tree, hs'.marked, nofun, fun d' hd' => ?_⟩
        exact ⟨a, ha, Except.error.inj hd' ▸ hd⟩

/-- `SELECT UPPER(a), b FROM t` with its result at 2, below it the call at 3 with its argument at 4
and the second column at 5, and its `FROM` clause at 6 with the table at 7. -/
def upperFromTable : Tree :=
  (Term.of .select
    [.of .result [.call "UPPER" [.column "a"], .column "b"],
    .of .fromClause [.table "t"]]).build

/-- Goes neither below functions nor into `FROM` clauses. -/
def besideFunctions : Visitor Unit where
  onNodeStart node := do
    pure ((← Walk.read (·.kind node)) ≠ .function)
  onChildStart _ child _ _ := do
    pure ((← Walk.read (·.kind child)) ≠ .fromClause)
  onChildEnd _ _ _ _ := pure ()
  onNodeEnd _ := pure ()

theorem visit_calls_besideFunctions :
    upperFromTable.WellFormed ∧ besideFunctions.Spares upperFromTable ∧
      ∃ s' calls, besideFunctions.Makes 16 ⟨upperFromTable, ()⟩ (.ok ()) s' calls ∧
        s'.tree = upperFromTable ∧ calls.filterMap Call.entered = [1, 2, 3, 5] := by
  have h : upperFromTable.WellFormed := Term.build_wellFormed _
  have hv : besideFunctions.Spares upperFromTable :=
    ⟨fun _ => (Walk.keeps_look _).map, fun _ _ _ _ => (Walk.keeps_look _).map,
      fun _ _ _ _ => keeps_pure (), fun _ => keeps_pure ()⟩
  obtain ⟨ids, result, s', calls, hids, hmakes, htree, -, hentered, -⟩ :=
    (besideFunctions.visit_calls upperFromTable ()).2 h hv
  have hmakes := hmakes 16 (by decide +kernel)
  have hlisted : upperFromTable.descendants upperFromTable.root = .ok [1, 2, 3, 4, 5, 6, 7] := by
    decide +kernel
  obtain rfl := Except.ok.inj (hlisted.symm.trans hids)
  have hresult : ((besideFunctions.visit 16).run.run ⟨upperFromTable, ()⟩).1 = .ok () := by
    decide +kernel
  rw [hmakes.run] at hresult
  subst hresult
  have hcalls : ((besideFunctions.recorded.visit 16).run.run ⟨upperFromTable, ((), [])⟩).2.calls =
      calls := by
    rw [hmakes.recorded]
    rfl
  have hdeclined : calls.flatMap (Call.declined upperFromTable) = [4, 6, 7] := by
    rw [← hcalls]
    decide +kernel
  refine ⟨h, hv, s', calls, hmakes, htree, ?_⟩
  rw [hentered rfl, hdeclined]
  rfl

end Visitor
end PolyglotSql
