import Mathlib.Data.List.Forall2
import PolyglotSql.Proofs.Dialect.Idempotence

/-!
# PolyglotSql.Proofs.Dialect.Selects

What becomes of a select and its clauses where a dialect refuses nothing. The select keeps its
clauses, each adapted by itself, and stands on top or between the two texts that count rows
(`adapted_select`). `Adapts` says what a term may become; a node that no rule is for stays what it
is (`Adapts.fixed`).
-/

namespace PolyglotSql
namespace Term

variable {d : Dialect} {above : NodeKind} {node : Node} {alias_ : Option String}

/-- What a term below a node of the kind `above` becomes, if nothing of it is refused. -/
inductive Adapts (d : Dialect) (above : NodeKind) : Term → Term → Prop
  | rewritten {t : Term} (h : (rewrite d above t).2 = none) : Adapts d above t (rewrite d above t).1
  | enclosed {t : Term} (h : (rewrite d above t.enclosed).2 = none) :
    Adapts d above t (rewrite d above t.enclosed).1
  /-- A row limit gives way to the texts around an enclosed select. -/
  | emptied {t : Term} {limits : UInt64 × UInt64} (h : RowNumbers.limits? t.node = some limits) :
    Adapts d above t (leaf .empty)

/-- Below what takes the place of the top, each term is rewritten by itself. -/
theorem rewrite_children {t : Term} {children : List Term}
    (htop : rewriteTop d above t = .ok (.mk node alias_ children))
    (h : (rewrite d above t).2 = none) :
    (rewrite d above t).1 = .mk node alias_ (children.map fun c => (rewrite d node.kind c).1) ∧
      ∀ c ∈ children, (rewrite d node.kind c).2 = none := by
  rw [rewrite_ok htop] at h ⊢
  obtain ⟨hmap, hnone⟩ := rewriteAll_none h
  exact ⟨by rw [hmap], hnone⟩

theorem adapts_rewritten {ts : List Term} (h : ∀ t ∈ ts, (rewrite d above t).2 = none) :
    List.Forall₂ (Adapts d above) ts (ts.map fun t => (rewrite d above t).1) :=
  List.forall₂_map_right_iff.2 (List.forall₂_same.2 fun t ht => .rewritten (h t ht))

theorem adapts_enclosed {ts : List Term} (h : ∀ t ∈ ts, (rewrite d above t.enclosed).2 = none) :
    List.Forall₂ (Adapts d above) ts (ts.map fun t => (rewrite d above t.enclosed).1) :=
  List.forall₂_map_right_iff.2 (List.forall₂_same.2 fun t ht => .enclosed (h t ht))

/-- A node that no rule is for, no select and no row limit, stays over what becomes of the terms
below. -/
theorem Adapts.fixed {children : List Term} {t' : Term}
    (hfixed : ∀ cs, rewriteTop d above (.mk node alias_ cs) = .ok (.mk node alias_ cs))
    (hselect : node ≠ .select) (hlimit : RowNumbers.limits? node = none)
    (h : Adapts d above (.mk node alias_ children) t') :
    ∃ children', t' = .mk node alias_ children' ∧
      List.Forall₂ (Adapts d node.kind) children children' := by
  generalize ht : Term.mk node alias_ children = t at h
  cases h with
  | rewritten h =>
    subst ht
    obtain ⟨hterm, hnone⟩ := rewrite_children (hfixed children) h
    exact ⟨_, hterm, adapts_rewritten hnone⟩
  | enclosed h =>
    subst ht
    rw [enclosed_mk, encloseTop_same fun he => absurd he hselect] at h ⊢
    obtain ⟨hterm, hnone⟩ := rewrite_children (hfixed _) h
    rw [List.map_map] at hterm
    exact ⟨_, hterm, adapts_enclosed fun c hc => hnone _ (List.mem_map_of_mem hc)⟩
  | emptied h =>
    subst ht
    rw [Term.node, hlimit] at h
    cases h

/-- A row limit becomes the clause of the dialect, or nothing. -/
theorem Adapts.limit {limit offset : UInt64} {t' : Term}
    (h : Adapts d above (leaf (.limitOffset limit offset)) t') :
    t' = leaf (.limitOffset limit offset) ∨ (∃ clause, t' = leaf (.page clause limit offset)) ∨
      t' = leaf .empty := by
  have hnode : (rewrite d above (leaf (.limitOffset limit offset))).1 =
      leaf (d.limitNode limit offset) := by
    rw [leaf, of, rewrite_ok (show rewriteTop d above _ = .ok _ from rfl), rewriteAll_nil]
    rfl
  have hkinds : d.limitNode limit offset = .limitOffset limit offset ∨
      ∃ clause, d.limitNode limit offset = .page clause limit offset := by
    unfold Dialect.limitNode
    split
    · exact .inr ⟨_, rfl⟩
    · exact .inl rfl
  have hrewritten : (rewrite d above (leaf (.limitOffset limit offset))).1 =
        leaf (.limitOffset limit offset) ∨
      ∃ clause, (rewrite d above (leaf (.limitOffset limit offset))).1 =
        leaf (.page clause limit offset) := by
    rcases hkinds with hn | ⟨clause, hn⟩
    · exact .inl (by rw [hnode, hn])
    · exact .inr ⟨clause, by rw [hnode, hn]⟩
  have hsame : (leaf (.limitOffset limit offset)).enclosed = leaf (.limitOffset limit offset) := by
    rw [leaf, of, enclosed_mk]
    rfl
  generalize ht : leaf (.limitOffset limit offset) = t at h hsame
  cases h with
  | rewritten h =>
    subst ht
    exact hrewritten.imp id .inl
  | enclosed h =>
    subst ht
    rw [hsame]
    exact hrewritten.imp id .inl
  | emptied h => exact .inr (.inr rfl)

/-- A term among others, and what they become. -/
theorem forall₂_split {R : Term → Term → Prop} {before after ts : List Term} {t : Term}
    (h : List.Forall₂ R (before ++ t :: after) ts) :
    ∃ before' t' after', ts = before' ++ t' :: after' ∧ List.Forall₂ R before before' ∧ R t t' ∧
      List.Forall₂ R after after' := by
  induction before generalizing ts with
  | nil =>
    cases h with
    | cons ht hafter => exact ⟨[], _, _, rfl, .nil, ht, hafter⟩
  | cons b before ih =>
    cases h with
    | cons hb hrest =>
      obtain ⟨before', t', after', rfl, hbefore, ht, hafter⟩ := ih hrest
      exact ⟨_ :: before', t', after', rfl, .cons hb hbefore, ht, hafter⟩

theorem forall₂_mem_right {R : Term → Term → Prop} {ts ts' : List Term}
    (h : List.Forall₂ R ts ts') : ∀ t' ∈ ts', ∃ t ∈ ts, R t t' := by
  induction h with
  | nil => simp
  | cons hr _ ih =>
    rw [List.forall_mem_cons]
    refine ⟨⟨_, by simp, hr⟩, fun t' ht' => ?_⟩
    obtain ⟨t, ht, hr⟩ := ih t' ht'
    exact ⟨t, by simp [ht], hr⟩

theorem rewrite_select {children : List Term}
    (h : (rewrite d above (of .select children)).2 = none) :
    (rewrite d above (of .select children)).1 =
        of .select (children.map fun c => (rewrite d .select c).1) ∧
      ∀ c ∈ children, (rewrite d .select c).2 = none :=
  rewrite_children rfl h

theorem rewrite_text (s : String) : (rewrite d above (text s)).1 = text s := by
  rw [text, leaf, of, rewrite_ok (show rewriteTop d above _ = .ok _ from rfl), rewriteAll_nil]

/-- An adapted select keeps its clauses, each adapted, and stands on top or between the texts that
count rows. -/
theorem adapted_select {children : List Term} (h : ((of .select children).adapted d).2 = none) :
    ∃ children', List.Forall₂ (Adapts d .select) children children' ∧
      (((of .select children).adapted d).1 = of .select children' ∨
        ∃ limit offset, ((of .select children).adapted d).1 =
          of .select [text (RowNumbers.head offset), of .select children',
            text (RowNumbers.tail limit offset)]) := by
  unfold adapted at h ⊢
  by_cases hrows : d.filtersRowNumbers = true
  · simp only [if_pos hrows] at h ⊢
    cases hlimit : firstLimit? children with
    | none =>
      have hsame : (of .select children).enclosed = of .select (children.map enclosed) := by
        rw [of, enclosed_mk, encloseTop_same fun _ => hlimit]
        rfl
      rw [hsame] at h ⊢
      obtain ⟨hterm, hnone⟩ := rewrite_select h
      rw [List.map_map] at hterm
      exact ⟨_, adapts_enclosed fun c hc => hnone _ (List.mem_map_of_mem hc), .inl hterm⟩
    | some found =>
      obtain ⟨index, limit, offset⟩ := found
      obtain ⟨before, c, after, rfl, rfl, hc⟩ := firstLimit?_split hlimit
      have houter : (of .select (before ++ c :: after)).enclosed =
          of .select [text (RowNumbers.head offset),
            of .select (before.map enclosed ++ leaf .empty :: after.map enclosed),
            text (RowNumbers.tail limit offset)] :=
        enclosed_limited hlimit
      rw [houter] at h ⊢
      obtain ⟨hterm, hnone⟩ := rewrite_select h
      obtain ⟨hinner, hbelow⟩ :=
        rewrite_select (hnone _ (List.mem_cons_of_mem _ List.mem_cons_self))
      have hempty : (rewrite d .select (leaf .empty)).1 = leaf .empty := by
        rw [leaf, of, rewrite_ok (show rewriteTop d .select _ = .ok _ from rfl), rewriteAll_nil]
      rw [List.map_append, List.map_cons, hempty, List.map_map, List.map_map] at hinner
      simp only [List.map_cons, List.map_nil, rewrite_text, hinner] at hterm
      refine ⟨_, List.rel_append (adapts_enclosed fun b hb => hbelow _ ?_)
        (.cons (.emptied hc) (adapts_enclosed fun a ha => hbelow _ ?_)),
        .inr ⟨limit, offset, hterm⟩⟩
      · exact List.mem_append_left _ (List.mem_map.2 ⟨b, hb, rfl⟩)
      · exact List.mem_append_right _ (List.mem_cons_of_mem _ (List.mem_map.2 ⟨a, ha, rfl⟩))
  · simp only [if_neg hrows] at h ⊢
    obtain ⟨hterm, hnone⟩ := rewrite_select h
    exact ⟨_, adapts_rewritten hnone, .inl hterm⟩

end Term
end PolyglotSql
