import PolyglotSql.Proofs.Dialect.Adaptation
import PolyglotSql.Proofs.Tree.Operations
import PolyglotSql.Proofs.Tree.Recording

/-!
# PolyglotSql.Proofs.Dialect.Links

Adapting a tree keeps its links in step. The rules of dialects are made of structural edits, each
of which keeps links that agree, so every rule does, in every place and on every tree; so does a
walk whose callbacks do (`Visitor.keeps_visit`), wherever it stops. `adapt_wellFormed` adds what an
adaptation of a well-formed tree ends with: a well-formed tree, whatever was refused.
-/

namespace PolyglotSql

open PolyglotSql.Tree

/-! ## Walks -/

section Walks

variable {σ α : Type}

/-- What a walk carries holds a tree whose links agree. -/
def WalkState.Linked (s : WalkState σ) : Prop :=
  s.tree.Linked

theorem Walk.keeps_edit {e : Edit α} (h : Keeps Tree.Linked e) :
    Keeps WalkState.Linked (Walk.edit e : Walk σ α) := by
  intro s hs
  unfold Leaves
  rw [Walk.run_edit]
  exact h s.tree hs

theorem Walk.keeps_read (look : Tree → Except Defect α) :
    Keeps WalkState.Linked (Walk.read look : Walk σ α) :=
  Walk.keeps_edit (Edit.keeps_read look)

theorem Walk.keeps_memory : Keeps WalkState.Linked (Walk.memory : Walk σ σ) :=
  keeps_get.map

theorem Walk.keeps_remember (change : σ → σ) :
    Keeps WalkState.Linked (Walk.remember change : Walk σ Unit) :=
  fun _ h => h

namespace Visitor

variable {v : Visitor σ}

/-- The callbacks keep links that agree. -/
structure KeepsLinked (v : Visitor σ) : Prop where
  nodeStart : ∀ node, Keeps WalkState.Linked (v.onNodeStart node)
  childStart : ∀ parent child index hasMore,
    Keeps WalkState.Linked (v.onChildStart parent child index hasMore)
  childEnd : ∀ parent child index hasMore,
    Keeps WalkState.Linked (v.onChildEnd parent child index hasMore)
  nodeEnd : ∀ node, Keeps WalkState.Linked (v.onNodeEnd node)

/-- One step of a walk keeps links that agree if the shorter walks do. -/
theorem keeps_visitStep (h : v.KeepsLinked) (steps : Nat) :
    (∀ node, Keeps WalkState.Linked (v.visitNode steps node)) ∧
      ∀ node index, Keeps WalkState.Linked (v.visitChildren steps node index) := by
  induction steps with
  | zero => exact ⟨fun node => keeps_throw _, fun node index => keeps_throw _⟩
  | succ steps ih =>
    obtain ⟨ihNode, ihChildren⟩ := ih
    refine ⟨fun node => ?_, fun node index => ?_⟩
    · rw [visitNode]
      refine (h.nodeStart node).bind fun descend => ?_
      split
      · exact (ihChildren node 0).bind fun _ => h.nodeEnd node
      · exact h.nodeEnd node
    · rw [visitChildren]
      refine (Walk.keeps_read _).bind fun count => ?_
      split
      · refine (Walk.keeps_read _).bind fun child => ?_
        refine (h.childStart _ _ _ _).bind fun descend => ?_
        refine (Walk.keeps_read _).bind fun count' => ?_
        split
        · refine (Walk.keeps_read _).bind fun child' => ?_
          have hrest : Keeps WalkState.Linked (do
              let count ← Walk.read (·.childCount node)
              v.onChildEnd node child' index (index + 1 < count)
              visitChildren v steps node (index + 1)) :=
            (Walk.keeps_read _).bind fun _ => (h.childEnd _ _ _ _).bind fun _ => ihChildren _ _
          split
          · exact (ihNode child').bind fun _ => hrest
          · exact hrest
        · exact keeps_pure _
      · exact keeps_pure _

theorem keeps_visit (h : v.KeepsLinked) (steps : Nat) :
    Keeps WalkState.Linked (v.visit steps) :=
  keeps_get.bind fun _ => (keeps_visitStep h steps).1 _

end Visitor
end Walks

/-! ## The edits that rules are made of -/

namespace Place

variable (place : Place)

theorem keeps_replace (node : Node) : Keeps Linked (place.replace node) := by
  refine (Edit.keeps_add node).bind fun new => ?_
  refine (Edit.keeps_takeAlias _).bind fun alias_ => ?_
  refine (Edit.keeps_setAlias new alias_).bind fun _ => ?_
  refine (Edit.keeps_transferChildren _ new).bind fun _ => ?_
  exact (Edit.keeps_replaceChild _ _ new).map

theorem keeps_swapArguments (function : NodeId) : Keeps Linked (swapArguments function) :=
  Edit.keeps_swapChildren function 0 1

theorem keeps_toExtract (part : String) : Keeps Linked (place.toExtract part) := by
  refine (place.keeps_replace _).bind fun call => ?_
  refine (Edit.keeps_add _).bind fun text => ?_
  exact (Edit.keeps_insertChild call 0 text).map

theorem keeps_nest (outer inner : String) : Keeps Linked (place.nest outer inner) := by
  refine (place.keeps_replace _).bind fun around => ?_
  refine (Edit.keeps_add _).bind fun within => ?_
  refine (Edit.keeps_transferChildren around within).bind fun _ => ?_
  exact (Edit.keeps_appendChild around within).map

theorem keeps_nestFormat (outer inner format : String) :
    Keeps Linked (place.nestFormat outer inner format) := by
  refine (place.keeps_nest outer inner).bind fun within => ?_
  refine (Edit.keeps_add _).bind fun text => ?_
  exact Edit.keeps_appendChild within text

theorem keeps_toFormattedCast (format : String) : Keeps Linked (place.toFormattedCast format) := by
  refine (place.keeps_replace _).bind fun cast => ?_
  refine (Edit.keeps_add _).bind fun call => ?_
  refine (Edit.keeps_transferChildren cast call).bind fun _ => ?_
  refine (Edit.keeps_add _).bind fun text => ?_
  refine (Edit.keeps_insertChild call 0 text).bind fun _ => ?_
  refine (Edit.keeps_appendChild cast call).bind fun _ => ?_
  refine (Edit.keeps_add _).bind fun type => ?_
  exact Edit.keeps_appendChild cast type

theorem keeps_paginate (clause : PageClause) : Keeps Linked (place.paginate clause) := by
  refine (Edit.keeps_read _).bind fun node => ?_
  split
  · exact (place.keeps_replace _).map
  · exact keeps_pure _

theorem keeps_trimFixed (strip : TrimKind) : Keeps Linked (place.trimFixed strip) := by
  refine (Edit.keeps_read _).bind fun above => ?_
  split
  · refine (Edit.keeps_read _).bind fun node => ?_
    split
    · split
      · exact (place.keeps_replace _).map
      · exact keeps_pure _
    · exact keeps_pure _
  · exact keeps_pure _

theorem keeps_castClob (defaultLength : Nat) : Keeps Linked (place.castClob defaultLength) := by
  refine (Edit.keeps_read _).bind fun node => ?_
  split
  · split
    · exact (place.keeps_replace _).map
    · exact keeps_pure _
  · exact keeps_pure _

theorem keeps_unwrapUpper (match_ : NodeId) : Keeps Linked (unwrapUpper match_) := by
  refine (Edit.keeps_read _).bind fun count => .forM fun index _ => ?_
  refine (Edit.keeps_read _).bind fun operand => ?_
  refine (Edit.keeps_read _).bind fun node => ?_
  refine (Edit.keeps_read _).bind fun args => ?_
  split
  · refine (Edit.keeps_read _).bind fun inner => ?_
    exact (Edit.keeps_replaceChild _ _ inner).map
  · exact keeps_pure _

theorem keeps_setLikeOperator (match_ : NodeId) (sensitive insensitive : LikeOperator) :
    Keeps Linked (setLikeOperator match_ sensitive insensitive) := by
  refine (Edit.keeps_read _).bind fun node => ?_
  split
  · refine (Edit.keeps_setNode _ _).bind fun _ => ?_
    split
    · exact (keeps_unwrapUpper match_).map
    · exact keeps_pure _
  · exact keeps_pure _

end Place

/-! ## Rules and the walk that applies them -/

namespace Dialect

variable (d : Dialect)

theorem keeps_applyRule (place : Place) (rule : FunctionRule) :
    Keeps Linked (applyRule place rule) := by
  cases rule with
  | keep => exact keeps_pure _
  | rename name parentheses => exact (place.keeps_replace _).map
  | renameSwapped name =>
    exact (place.keeps_replace _).bind fun _ => (Place.keeps_swapArguments _).map
  | operator operator => exact (place.keeps_replace _).map
  | keywords name keywords => exact (place.keeps_replace _).map
  | keywordsSwapped name keywords =>
    exact (place.keeps_replace _).bind fun _ => (Place.keeps_swapArguments _).map
  | extract part => exact (place.keeps_toExtract part).map
  | nested outer inner => exact (place.keeps_nest outer inner).map
  | nestedFormat outer inner format =>
    exact (place.keeps_nestFormat outer inner format).map
  | formattedCast format => exact (place.keeps_toFormattedCast format).map
  | refuse => exact keeps_pure _

theorem keeps_adaptFunction (place : Place) : Keeps Linked (d.adaptFunction place) := by
  refine ((Edit.keeps_read _).map).bind fun name => ?_
  cases name with
  | none => exact keeps_pure _
  | some name =>
    refine (keeps_applyRule place _).bind fun known => ?_
    split
    · exact keeps_pure _
    · exact keeps_pure _

theorem keeps_checkCall (function : NodeId) : Keeps Linked (checkCall function) := by
  refine (Edit.keeps_read _).bind fun node => ?_
  split
  · exact keeps_pure _
  · exact (Edit.keeps_read _).map

theorem keeps_adaptPlace (place : Place) : Keeps Linked (d.adaptPlace place) := by
  refine (Edit.keeps_read _).bind fun kind => ?_
  split
  · refine Keeps.map ?_
    unfold adaptColumn
    split
    · exact place.keeps_trimFixed _
    · exact keeps_pure _
  · refine Keeps.map ?_
    unfold adaptValue
    split
    · exact place.keeps_castClob _
    · exact keeps_pure _
  · refine Keeps.map ?_
    unfold adaptLimit
    split
    · exact place.keeps_paginate _
    · exact keeps_pure _
  · refine (keeps_checkCall _).bind fun verdict => ?_
    cases verdict with
    | error refusal => exact keeps_pure _
    | ok _ => exact d.keeps_adaptFunction place
  · refine Keeps.map ?_
    unfold adaptLike
    split
    · exact (Place.keeps_setLikeOperator _ _ _).map
    · exact keeps_pure _
  · exact keeps_pure _

theorem adaptor_keepsLinked : d.adaptor.KeepsLinked where
  nodeStart _ := Walk.keeps_memory.map
  childStart parent child index _ := by
    refine Walk.keeps_memory.bind fun refusal => ?_
    split
    · exact keeps_pure _
    · refine (Walk.keeps_edit (d.keeps_adaptPlace _)).bind fun verdict => ?_
      cases verdict with
      | error refusal => exact (Walk.keeps_remember _).map
      | ok _ => exact (Walk.keeps_read _).map
  childEnd _ _ _ _ := keeps_pure _
  nodeEnd _ := keeps_pure _

theorem keeps_adaptBelowRoot : Keeps Linked d.adaptBelowRoot := by
  intro t h
  refine (yields_get t).before ?_
  let start : WalkState (Option Refusal) := { tree := t, memory := none }
  have hwalk : ((d.adaptor.visit (walkSteps t.size)).run.run start).2.Linked :=
    Visitor.keeps_visit d.adaptor_keepsLinked _ start h
  cases hrun : (d.adaptor.visit (walkSteps t.size)).run.run start with
  | mk result s =>
    rw [hrun] at hwalk
    have hset : Yields (set s.tree : Edit PUnit) t ⟨⟩ s.tree := rfl
    refine hset.before ?_
    cases result with
    | ok _ => exact keeps_pure _ _ hwalk
    | error defect => exact keeps_throw defect _ hwalk

theorem keeps_adaptOnce : Keeps Linked d.adaptOnce := by
  refine keeps_get.bind fun t => (Edit.keeps_read _).bind fun kind => ?_
  split
  · exact d.keeps_adaptBelowRoot
  · refine (Edit.keeps_add _).bind fun holder => ?_
    refine (Edit.keeps_appendChild holder _).bind fun _ => ?_
    refine (Edit.keeps_setRoot holder).bind fun _ => ?_
    refine d.keeps_adaptBelowRoot.bind fun refused => ?_
    refine (Edit.keeps_removeChild holder 0).bind fun root => ?_
    exact (Edit.keeps_setRoot root).map

end Dialect

namespace RowNumbers

theorem keeps_takePlace (select wrapper : NodeId) : Keeps Linked (takePlace select wrapper) := by
  refine (Edit.keeps_read _).bind fun parent => ?_
  split
  · exact keeps_pure _
  · refine (Edit.keeps_read _).bind fun position => ?_
    split
    · exact keeps_pure _
    · exact (Edit.keeps_replaceChild _ _ _).map

theorem keeps_enclose (select : NodeId) : Keeps Linked (enclose select) := by
  refine (Edit.keeps_read _).bind fun children => (Edit.keeps_read _).bind fun found => ?_
  split
  · exact keeps_pure _
  · refine (Edit.keeps_add _).bind fun blank => ?_
    refine (Edit.keeps_replaceChild _ _ blank).bind fun _ => ?_
    refine (Edit.keeps_add _).bind fun wrapper => ?_
    refine (Edit.keeps_takeAlias select).bind fun alias_ => ?_
    refine (Edit.keeps_setAlias wrapper alias_).bind fun _ => ?_
    refine keeps_get.bind fun t => ?_
    refine (keeps_takePlace select wrapper).bind fun _ => ?_
    refine (Edit.keeps_add _).bind fun head => ?_
    refine (Edit.keeps_add _).bind fun tail => ?_
    refine (Edit.keeps_appendChild wrapper head).bind fun _ => ?_
    refine (Edit.keeps_appendChild wrapper select).bind fun _ => ?_
    refine (Edit.keeps_appendChild wrapper tail).bind fun _ => ?_
    split
    · exact Edit.keeps_setRoot _
    · exact keeps_pure _

theorem keeps_encloseAll : Keeps Linked encloseAll :=
  keeps_get.bind fun _ => (Edit.keeps_read _).bind fun _ => .forM fun select _ =>
    keeps_enclose select

end RowNumbers

namespace Dialect

variable {d : Dialect}

/-- What comes before the walk. -/
def prepare (d : Dialect) : Edit Unit :=
  if d.filtersRowNumbers then RowNumbers.encloseAll else pure ()

theorem adapt_eq (d : Dialect) : d.adapt = d.prepare >>= fun _ => d.adaptRules := by
  unfold adapt prepare
  split
  · rfl
  · rfl

theorem keeps_prepare (d : Dialect) : Keeps Linked d.prepare := by
  unfold prepare
  split
  · exact RowNumbers.keeps_encloseAll
  · exact keeps_pure _

theorem prepare_layout {t : Tree} {l : Layout} (h : t.Hangs .free l) (hroot : t.root = l.id) :
    ∃ t₁ l₁, Yields d.prepare t () t₁ ∧ t₁.Hangs .free l₁ ∧ t₁.root = l₁.id := by
  unfold prepare
  by_cases hrows : d.filtersRowNumbers = true
  · rw [if_pos hrows]
    obtain ⟨t₁, l₁, hy₁, h₁, hroot₁, -⟩ := RowNumbers.encloseAll_encloses h hroot
    exact ⟨t₁, l₁, hy₁, h₁, hroot₁⟩
  · rw [if_neg hrows]
    exact ⟨t, l, yields_pure _ _, h, hroot⟩

/-- Adapting a well-formed tree of any shape ends without a defect, and the tree is well-formed
again, whether something was refused or not: its links agree and the root, which is what the
adaptation gives if nothing was refused, has no parent. The slot that the walk adds for the root's
holder is not above the root afterwards and is not the root. -/
theorem adapt_wellFormed (d : Dialect) {t : Tree} (h : t.WellFormed) :
    ∃ t₁ result t', Yields d.prepare t () t₁ ∧ Yields d.adaptRules t₁ result t' ∧
      Yields d.adapt t result t' ∧ t'.WellFormed ∧
      (∃ up, t'.Ascends t'.root up ∧ ∀ holder t₂, Yields (Edit.add .empty) t₁ holder t₂ →
        holder ∉ up) ∧
      ∀ root, result = .ok root → root = t'.root := by
  obtain ⟨hlinked, -, -⟩ := wellFormed_iff_linked.1 h
  obtain ⟨l, hid, hl⟩ := h.layout
  obtain ⟨t₁, l₁, hprepare, hl₁, hroot₁⟩ := prepare_layout (d := d) hl hid.symm
  obtain ⟨t', l', hwalk, hl', hroot', -, hholder, -⟩ := adaptOnce_adapts (d := d) hl₁ hroot₁
  have hrules : Yields d.adaptRules t₁ _ t' := hwalk.bind (outcome_yields t' _)
  -- A layout is that of the root's tree; the slots that hang elsewhere keep their links because
  -- every edit does.
  have hlinked₁ : t₁.Linked := hprepare.left (d.keeps_prepare t hlinked)
  have hlinked' : t'.Linked := hwalk.left (d.keeps_adaptOnce t₁ hlinked₁)
  obtain ⟨s', hs', -, hfree⟩ := holds_top hl'.holds
  rw [← hroot'] at hs'
  have hup : t'.Ascends t'.root [t'.root] := .top hs' hfree
  refine ⟨t₁, _, t', hprepare, hrules, d.adapt_eq ▸ hprepare.bind hrules, ?_,
    ⟨_, hup, fun holder t₂ hadd => ?_⟩, fun root hok => ?_⟩
  · exact wellFormed_iff_linked.2 ⟨hlinked', lt_of_slot hs', (above_slot hs').trans hfree⟩
  · obtain ⟨rfl, -⟩ := hadd.unique (Edit.yields_add t₁ .empty)
    rw [List.mem_singleton, hroot']
    exact Ne.symm hholder
  · cases hr : (Term.rewrite d .empty l₁.term).2 with
    | some refusal => rw [hr] at hok; cases hok
    | none => rw [hr] at hok; cases hok; rfl

/-- A comparison of one operand, a select whose row limit has a child and whose call is refused
after the select has been enclosed. -/
def loneOperand : Term :=
  .of (.equality .eq) [
    .of .select [.of (.limitOffset 3 0) [.text "a"], .of (.call "CURRENT_TIME") []]]

theorem adapt_wellFormed_loneOperand : loneOperand.build.WellFormed ∧
    ∃ t', Yields Dialect.oracle.adapt loneOperand.build
        (.error (.function "CURRENT_TIME" .oracle)) t' ∧ t'.WellFormed := by
  have hwf := loneOperand.build_wellFormed
  refine ⟨hwf, ?_⟩
  obtain ⟨t₁, result, t', -, -, hy, hwf', -⟩ := adapt_wellFormed .oracle hwf
  -- The refusal is the one that the term's rewriting meets.
  obtain ⟨l, hid, hl⟩ := hwf.layout
  obtain ⟨t₂, l', hadapt, -⟩ := adapt_layout (d := .oracle) hl hid.symm
  have hterm : l.term = loneOperand := by
    have hread := term_layout hl
    rw [hid, loneOperand.build_term] at hread
    exact (Except.ok.inj hread).symm
  have hrefused : (loneOperand.adapted .oracle).2 = some (.function "CURRENT_TIME" .oracle) := by
    rw [Term.adapted_within]
    rfl
  rw [hterm, hrefused] at hadapt
  obtain ⟨rfl, rfl⟩ := hy.unique hadapt
  exact ⟨t', hy, hwf'⟩

end Dialect
end PolyglotSql
