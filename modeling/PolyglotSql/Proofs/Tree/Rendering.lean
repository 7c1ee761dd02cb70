import PolyglotSql.Proofs.Rendering.Pieces
import PolyglotSql.Proofs.Tree.Reading

/-!
# PolyglotSql.Proofs.Tree.Rendering

Rendering a tree writes the pieces of its term. The arena enters only through the term at the root
(`render_pieces`): a node looks at the kinds of its parent and children and at the aliases declared
above it, all of which the layout around it gives (`Surrounds`).
-/

namespace PolyglotSql

@[simp] theorem toOption_ok {ε α : Type} (a : α) : (Except.ok a : Except ε α).toOption = some a :=
  rfl

@[simp] theorem toOption_error {ε α : Type} (e : ε) :
    (Except.error e : Except ε α).toOption = none :=
  rfl

@[simp] theorem toOption_bind {ε α β : Type} (x : Except ε α) (f : α → Except ε β) :
    (x >>= f).toOption = x.toOption.bind fun a => (f a).toOption := by
  cases x <;> rfl

@[simp] theorem toOption_map {ε α β : Type} (x : Except ε α) (f : α → β) :
    (x.map f).toOption = x.toOption.map f := by
  cases x <;> rfl

namespace Layout

theorem any_layouts {f : NodeId → Bool} {g : Term → Bool} {ls : List Layout}
    (h : ∀ l ∈ ls, f l.id = g l.term) : (ls.map id).any f = (ls.map term).any g := by
  induction ls with
  | nil => rfl
  | cons l ls ih =>
    rw [List.map_cons, List.any_cons, h l (by simp), ih fun l hl => h l (by simp [hl])]
    rfl

theorem node_term (l : Layout) : l.term.node = l.node := by
  cases l
  simp [Term.node]

end Layout

namespace Tree

variable {t : Tree} {p : Option NodeId}

theorem node_layout {l : Layout} (h : t.Holds p l) : t.node l.id = .ok l.term.node := by
  cases l
  obtain ⟨hs, -⟩ := holds_mk.1 h
  simp [node, slot_ok hs, Except.map, Term.node]

theorem kind_layout {l : Layout} (h : t.Holds p l) : t.kind l.id = .ok l.term.node.kind := by
  cases l
  obtain ⟨hs, -⟩ := holds_mk.1 h
  simp [kind, slot_ok hs, Except.map, Term.node]

/-! ## Values -/

mutual

theorem renderValue_pieces (column : Option Attribute) (value : Value) (sink : Sink) :
    renderValue column value sink = .ok (sink.putAll (value.pieces column)) := by
  cases value with
  | null => rfl
  | list items =>
    rw [renderValue, renderItems_pieces column true items, Value.pieces]
    simp [Sink.put]
    rfl
  | _ => rfl

theorem renderItems_pieces (column : Option Attribute) (first : Bool) (items : List Value)
    (sink : Sink) :
    renderItems column first items sink =
      .ok (sink.putAll (Value.itemPieces column first items)) := by
  cases items with
  | nil => rw [renderItems, Value.itemPieces]; rfl
  | cons item items =>
    rw [renderItems, renderValue_pieces column item, Value.itemPieces]
    show renderItems column false items _ = _
    rw [renderItems_pieces column false items]
    cases first <;> simp [Sink.put]

end

/-! ## Aliases in scope -/

theorem declaresAlias_layout (qualifier : String) {l : Layout} {depth : Nat} (h : t.Holds p l)
    (hdepth : l.ids.length ≤ depth) :
    t.declaresAlias qualifier depth l.id = l.term.declares qualifier := by
  induction l using Layout.induct generalizing p depth with
  | mk id node alias_ below ih =>
    obtain ⟨hs, hbelow⟩ := holds_mk.1 h
    cases depth with
    | zero => simp at hdepth
    | succ depth =>
      have hany : (below.map Layout.id).any (t.declaresAlias qualifier depth) =
          (below.map Layout.term).any (Term.declares qualifier) := by
        refine Layout.any_layouts fun l hl => ih l hl (hbelow l hl) ?_
        have := Layout.length_ids_le hl
        simp at hdepth
        omega
      rw [Layout.term_mk, Layout.id_mk, declaresAlias, slot_ok hs]
      simp only
      split
      · rw [Term.declares]
      · rw [Term.declares]
      · rename_i htable hselect
        rw [hany, Term.declares, Term.declaresAny_eq]
        · rintro name schema a rfl
          exact htable name schema a rfl
        · rintro rfl
          exact hselect rfl

/-- What is around the children of `p`, and how far below the root they are. -/
structure Surrounds (t : Tree) (p : Option NodeId) (around : Around) (height : Nat) :
    Prop where
  above : ∀ s : Slot, s.parent = p → t.parentKind s = .ok around.above
  aliases : ∀ qualifier steps, height ≤ steps →
    t.aliasInScope qualifier steps p = around.aliases qualifier

theorem surrounds_outermost : t.Surrounds none .outermost 0 where
  above s hs := by simp [parentKind, hs, Around.outermost]
  aliases qualifier steps _ := by cases steps <;> simp [aliasInScope, Around.outermost]

/-- What is around the layouts below another. -/
theorem Surrounds.below {around : Around} {height : Nat} {id : NodeId} {node : Node}
    {alias_ : Option String} {below : List Layout} (h : t.Surrounds p around height)
    (hl : t.Holds p (.mk id node alias_ below))
    (hsize : (Layout.idsAll below).length ≤ t.size) :
    t.Surrounds (some id) (around.below node (below.map Layout.term)) (height + 1) := by
  obtain ⟨hs, hbelow⟩ := holds_mk.1 hl
  refine ⟨fun s hp => ?_, fun qualifier steps hsteps => ?_⟩
  · simp [parentKind, hp, kind, slot_ok hs, Except.map, Around.below]
  · obtain ⟨steps, rfl⟩ : ∃ n, steps = n + 1 := ⟨steps - 1, by omega⟩
    have hfrom : ∀ l ∈ below,
        t.isFromDeclaring qualifier l.id = l.term.isFromDeclaring qualifier := by
      intro l hl
      have hle := Layout.length_ids_le hl
      have hdeclares : t.declaresAlias qualifier (t.size + 1) l.id = l.term.declares qualifier :=
        declaresAlias_layout qualifier (hbelow l hl) (by omega)
      obtain ⟨cid, cnode, calias, cbelow⟩ := l
      obtain ⟨hcs, -⟩ := holds_mk.1 (hbelow _ hl)
      rw [Layout.id_mk] at hdeclares ⊢
      simp only [isFromDeclaring, slot_ok hcs, hdeclares, Term.isFromDeclaring, Layout.node_term,
        Layout.node_mk]
    have hany := Layout.any_layouts hfrom
    have habove := h.aliases qualifier steps (by omega)
    rw [aliasInScope, slot_ok hs]
    simp only [hany, habove, Around.below]
    generalize
      (node.kind == .select && (below.map Layout.term).any (Term.isFromDeclaring qualifier)) =
        declared
    cases declared <;> rfl

/-! ## Nodes -/

/-- A renderer writes the pieces of some layouts below one slot. -/
def RendersPieces (render : NodeId → Sink → Except Defect Sink) (around : Around)
    (ls : List Layout) : Prop :=
  ∀ l ∈ ls, ∀ sink, (render l.id sink).toOption = (l.term.pieces around).map sink.putAll

def partsOf (around : Around) (ls : List Layout) : List Part :=
  ls.map fun l => ⟨l.term, l.term.pieces around⟩

section

variable {render : NodeId → Sink → Except Defect Sink} {around : Around}

theorem renderSeparated_parts {between : Nat → NodeId → NodeId → Except Defect String}
    {text : Nat → Term → Term → String} {ls : List Layout}
    (hrender : RendersPieces render around ls) (index : Nat) (before : Option Layout)
    (hbetween : ∀ i, ∀ b ∈ before.toList ++ ls, ∀ l ∈ ls,
      between i b.id l.id = .ok (text i b.term l.term)) (sink : Sink) :
    (renderSeparated between render index (before.map Layout.id) (ls.map Layout.id) sink).toOption =
      (Part.separated text index (before.map Layout.term) (partsOf around ls)).map sink.putAll := by
  induction ls generalizing index before sink with
  | nil => simp [renderSeparated, partsOf, Part.separated]
  | cons l ls ih =>
    have hl := hrender l (by simp)
    have htail : ∀ i, ∀ b ∈ (some l).toList ++ ls, ∀ l' ∈ ls,
        between i b.id l'.id = .ok (text i b.term l'.term) := by
      intro i b hb l' hl'
      refine hbetween i b ?_ l' (by simp [hl'])
      rcases List.mem_append.1 hb with hb | hb
      · simpa using .inr (.inl (by simpa using hb))
      · simp [hb]
    have hrest := ih (fun l' hl' => hrender l' (by simp [hl'])) (index + 1) (some l) htail
    simp only [Option.map_some] at hrest
    cases before with
    | none =>
      simp only [List.map_cons, Option.map_none, renderSeparated, toOption_bind, hl, hrest, partsOf,
        Part.separated]
      rw [← partsOf]
      cases l.term.pieces around with
      | none => rfl
      | some ps =>
        cases Part.separated text (index + 1) (some l.term) (partsOf around ls) <;>
          simp
    | some b =>
      have hb := hbetween index b (by simp) l (by simp)
      simp only [List.map_cons, Option.map_some, renderSeparated, hb, toOption_bind, toOption_ok,
        Option.bind_some, hl, hrest, partsOf, Part.separated]
      rw [← partsOf]
      cases l.term.pieces around with
      | none => rfl
      | some ps =>
        cases Part.separated text (index + 1) (some l.term) (partsOf around ls) <;>
          simp [Sink.put]

theorem renderAll_parts {ls : List Layout} (hrender : RendersPieces render around ls)
    (separator : String) (sink : Sink) :
    (renderAll separator render (ls.map Layout.id) sink).toOption =
      (Part.separated (Node.sameText separator) 0 none (partsOf around ls)).map sink.putAll :=
  renderSeparated_parts hrender 0 none (fun _ _ _ _ _ => rfl) sink

theorem renderColumn_pieces {s : Slot} (h : ∀ qualifier,
    t.aliasInScope qualifier (t.size + 1) s.parent = around.aliases qualifier) (ref : ColumnRef)
    (sink : Sink) : t.renderColumn s ref sink = sink.putAll (Node.columnPieces around ref) := by
  unfold renderColumn Node.columnPieces
  cases ref.table with
  | none => simp [Sink.put]
  | some qualifier =>
    simp only [renderQualifier, h]
    cases around.aliases qualifier <;> simp [Sink.put]

theorem renderEscape_pieces (escape : Option Char) (sink : Sink) :
    renderEscape escape sink = sink.putAll (Node.escapePieces escape) := by
  cases escape with
  | none => rfl
  | some c =>
    have htext : (sink.sql ++ " ESCAPE '").push c ++ "'" =
        sink.sql ++ " ESCAPE " ++ ("'" ++ String.ofList [c] ++ "'") := by
      apply String.toList_inj.1
      simp
    have htwice : ((sink.sql ++ " ESCAPE '").push c).push c ++ "'" =
        sink.sql ++ " ESCAPE " ++ ("'" ++ String.ofList [c, c] ++ "'") := by
      apply String.toList_inj.1
      simp
    simp only [renderEscape, Node.escapePieces, Node.escapeText]
    by_cases hc : c = '\''
    · rw [if_pos hc, if_pos hc]
      simp [Sink.put, Sink.text, Sink.char, htwice]
    · rw [if_neg hc, if_neg hc]
      simp [Sink.put, Sink.text, Sink.char, htext]

section

variable {s : Slot} {below : List Layout} {inner : Around}

/-- What a node writes that leaves its parts out. -/
theorem renderShape_alone {ps : List Piece} (habove : t.parentKind s = .ok around.above)
    (haliases : ∀ qualifier,
      t.aliasInScope qualifier (t.size + 1) s.parent = around.aliases qualifier)
    (hform : s.node.form around = .alone ps) (id : NodeId) (sink : Sink) :
    (t.renderShape render id s sink).toOption = some (sink.putAll ps) := by
  unfold renderShape
  cases hnode : s.node <;> rw [hnode] at hform
  case function name parentheses origin =>
    cases parentheses with
    | true => cases hform
    | false =>
      cases hform
      simp [Sink.put]
  case table name schema alias_ =>
    cases hform
    cases schema <;> cases alias_ <;> simp [Node.tablePieces, Sink.put]
  all_goals cases hform
  case distinct => simp [habove, Sink.put]
  case limitOffset limit offset => simp [Sink.put]
  case column ref => simp [renderColumn_pieces haliases]
  case value value column => simp [renderValue_pieces]
  case text text => simp [Sink.put]
  case page clause limit offset => simp [Sink.put]
  case trimmedColumn ref strip => simp [renderColumn_pieces haliases, Sink.put]
  case castValue value column target length => simp [renderValue_pieces, Sink.put, Sink.number]

/-- What a node writes that lists its parts. -/
theorem renderShape_listed {before after : List Piece} {separator : Nat → Term → Term → String}
    (hchildren : s.children = below.map Layout.id) (hbelow : ∀ l ∈ below, ∃ p, t.Holds p l)
    (habove : t.parentKind s = .ok around.above) (hrender : RendersPieces render inner below)
    (hform : s.node.form around = .listed before separator after) (id : NodeId) (sink : Sink) :
    (t.renderShape render id s sink).toOption =
      ((Part.separated separator 0 none (partsOf inner below)).map fun ps =>
        before ++ ps ++ after).map sink.putAll := by
  have hall := fun text sink => renderAll_parts hrender text sink
  unfold renderShape
  rw [hchildren]
  cases hnode : s.node <;> rw [hnode] at hform
  case function name parentheses origin =>
    have harguments (sink : Sink) : (renderSeparated
        (fun _ before _ => do .ok (if (← t.kind before) = .distinct then "" else ", "))
        render 0 none (below.map Layout.id) sink).toOption =
          (Part.separated Node.argumentText 0 none (partsOf inner below)).map sink.putAll := by
      refine renderSeparated_parts hrender 0 none (fun _ b hb _ _ => ?_) sink
      obtain ⟨p, hb⟩ := hbelow b (by simpa using hb)
      rw [kind_layout hb]
      rfl
    cases parentheses with
    | false => cases hform
    | true =>
      cases hform
      cases hj : Part.separated Node.argumentText 0 none (partsOf inner below) <;>
        simp [harguments, hj, Sink.put]
  all_goals cases hform
  case select =>
    simp only [habove, toOption_bind, toOption_ok, Option.bind_some, hall]
    cases Part.separated (Node.sameText "") 0 none (partsOf inner below) with
    | none => rfl
    | some ps =>
      cases around.above with
      | none => simp [Node.bracket, Sink.put]
      | some above => cases above <;> simp [Node.bracket, Sink.put]
  case fromClause =>
    have hsources (sink : Sink) : (renderSeparated
        (fun _ _ next => do .ok (if (← t.kind next) = .join then "" else ", "))
        render 0 none (below.map Layout.id) sink).toOption =
          (Part.separated Node.sourceText 0 none (partsOf inner below)).map sink.putAll := by
      refine renderSeparated_parts hrender 0 none (fun _ _ _ l hl => ?_) sink
      obtain ⟨p, hl⟩ := hbelow l hl
      rw [kind_layout hl]
      rfl
    simp [hsources, Function.comp_def, Sink.put]
  case ordering direction =>
    cases direction <;>
      cases hj : Part.separated (Node.sameText " ") 0 none (partsOf inner below) <;>
      simp [hall, hj, Sink.put]
  case keywordCall name keywords =>
    have harguments (text : Nat → NodeId → NodeId → Except Defect String)
        (htext : ∀ index a b before next,
          text index a b = .ok (Node.keywordText keywords index before next)) (sink : Sink) :
        (renderSeparated text render 0 none (below.map Layout.id) sink).toOption =
          (Part.separated (Node.keywordText keywords) 0 none (partsOf inner below)).map
            sink.putAll :=
      renderSeparated_parts hrender 0 none (fun _ _ _ _ _ => htext ..) sink
    rw [toOption_bind]
    refine (congrArg (Option.bind · _) (harguments _ (fun _ _ _ _ _ => rfl) _)).trans ?_
    cases Part.separated (Node.keywordText keywords) 0 none (partsOf inner below) <;>
      simp [Sink.put]
  case group =>
    cases hj : Part.separated (Node.sameText ", ") 0 none (partsOf inner below) <;>
      simp [hall, hj, Sink.put]
  case boolean op =>
    clear hnode
    have hconnective (connective : String) (hop : connective = if op = .and then " AND " else " OR ")
        (sink : Sink) : (renderAll connective render (below.map Layout.id) sink).toOption =
          (Part.separated (Node.sameText (if op = .and then " AND " else " OR ")) 0 none
            (partsOf inner below)).map sink.putAll := by
      rw [hop]
      exact hall _ sink
    simp only [habove, toOption_bind, toOption_ok, Option.bind_some]
    refine (congrArg (Option.bind · _) (hconnective _ (by cases op <;> rfl) _)).trans ?_
    cases Part.separated (Node.sameText (if op = .and then " AND " else " OR ")) 0 none
      (partsOf inner below) with
    | none => rfl
    | some ps =>
      cases around.above with
      | none => simp [Node.bracket]
      | some above => cases above <;> simp [Node.bracket, Sink.put]
  case not =>
    cases hj : Part.separated (Node.sameText " ") 0 none (partsOf inner below) <;>
      simp [hall, hj, Sink.put]
  case operation operator => simp [hall]
  case empty => simp [hall]
  all_goals simp [hall, Function.comp_def, Sink.put]

/-- What a node writes whose parts have places of their own. -/
theorem renderShape_place (hchildren : s.children = below.map Layout.id)
    (hbelow : ∀ l ∈ below, ∃ p, t.Holds p l) (hrender : RendersPieces render inner below)
    (hplaced : s.node.form around = .placed) (id : NodeId) (sink : Sink) :
    (t.renderShape render id s sink).toOption =
      (s.node.place (partsOf inner below)).map sink.putAll := by
  unfold renderShape
  rw [hchildren]
  cases hnode : s.node <;> rw [hnode] at hplaced
  case join kind =>
    match below with
    | [] => simp [partsOf, Node.place, Sink.put]
    | [table] => simp [partsOf, Node.place, hrender table, Function.comp_def, Sink.put]
    | table :: condition :: _ =>
      simp only [List.map_cons, toOption_bind, hrender table (by simp),
        hrender condition (by simp), partsOf, Node.place]
      cases table.term.pieces inner with
      | none => rfl
      | some ps => cases condition.term.pieces inner <;> simp [Sink.put]
  case equality op =>
    match below with
    | [left, right] =>
      obtain ⟨p, hright⟩ := hbelow right (by simp)
      have hother := hrender right (by simp)
      simp only [twoChildren, hchildren, List.map_cons, List.map_nil, toOption_bind, toOption_ok,
        Option.bind_some, hrender left (by simp), node_layout hright, partsOf, Node.place]
      cases left.term.pieces inner with
      | none => rfl
      | some ps =>
        cases right.term.node.isNullValue with
        | true => cases op <;> simp [Sink.put]
        | false => cases hj : right.term.pieces inner <;> simp [hother, hj, Sink.put]
    | [] | [_] | _ :: _ :: _ :: _ => simp [twoChildren, hchildren, partsOf, Node.place]
  case like operator ignoreCase negated escape =>
    match below with
    | [left, right] =>
      simp only [twoChildren, hchildren, List.map_cons, List.map_nil, toOption_bind, toOption_ok,
        Option.bind_some, hrender left (by simp), hrender right (by simp), partsOf, Node.place]
      cases left.term.pieces inner with
      | none => rfl
      | some ps => cases right.term.pieces inner <;> simp [Sink.put, renderEscape_pieces]
    | [] | [_] | _ :: _ :: _ :: _ => simp [twoChildren, hchildren, partsOf, Node.place]
  case in_ negated =>
    match below with
    | [left, right] =>
      simp only [twoChildren, hchildren, List.map_cons, List.map_nil, toOption_bind, toOption_ok,
        Option.bind_some, hrender left (by simp), hrender right (by simp), partsOf, Node.place]
      cases left.term.pieces inner with
      | none => rfl
      | some ps => cases right.term.pieces inner <;> simp [Sink.put]
    | [] | [_] | _ :: _ :: _ :: _ => simp [twoChildren, hchildren, partsOf, Node.place]
  case between negated =>
    match below with
    | [first, second, third] =>
      simp only [threeChildren, hchildren, List.map_cons, List.map_nil, toOption_bind,
        toOption_ok, Option.bind_some, hrender first (by simp), hrender second (by simp),
        hrender third (by simp), partsOf, Node.place]
      cases first.term.pieces inner with
      | none => rfl
      | some ps =>
        cases second.term.pieces inner with
        | none => rfl
        | some qs => cases third.term.pieces inner <;> simp [Sink.put]
    | [] | [_] | [_, _] | _ :: _ :: _ :: _ :: _ =>
      simp [threeChildren, hchildren, partsOf, Node.place]
  case function name parentheses origin => cases parentheses <;> cases hplaced
  all_goals cases hplaced

/-- What a node writes without its alias. -/
theorem renderShape_shape (hchildren : s.children = below.map Layout.id)
    (hbelow : ∀ l ∈ below, ∃ p, t.Holds p l) (habove : t.parentKind s = .ok around.above)
    (haliases : ∀ qualifier,
      t.aliasInScope qualifier (t.size + 1) s.parent = around.aliases qualifier)
    (hrender : RendersPieces render inner below) (id : NodeId) (sink : Sink) :
    (t.renderShape render id s sink).toOption =
      (s.node.shape around (partsOf inner below)).map sink.putAll := by
  unfold Node.shape
  cases hform : s.node.form around with
  | alone ps => exact renderShape_alone habove haliases hform id sink
  | listed before separator after =>
    exact renderShape_listed hchildren hbelow habove hrender hform id sink
  | placed => exact renderShape_place hchildren hbelow hrender hform id sink

end

end

/-! ## Trees -/

/-- Rendering a layout writes the pieces of its term. -/
theorem renderBelow_pieces {around : Around} {height depth : Nat} {l : Layout}
    (h : t.Holds p l) (haround : t.Surrounds p around height)
    (hsize : height + l.ids.length ≤ t.size + 1) (hdepth : l.ids.length ≤ depth) (sink : Sink) :
    (t.renderBelow depth l.id sink).toOption = (l.term.pieces around).map sink.putAll := by
  induction l using Layout.induct generalizing p around height depth sink with
  | mk id node alias_ below ih =>
    obtain ⟨hs, hbelow⟩ := holds_mk.1 h
    simp only [Layout.ids_mk, List.length_cons] at hsize hdepth
    obtain ⟨depth, rfl⟩ : ∃ n, depth = n + 1 := ⟨depth - 1, by omega⟩
    have hrender : RendersPieces (t.renderBelow depth)
        (around.below node (below.map Layout.term)) below := by
      intro l hl sink
      have := Layout.length_ids_le hl
      exact ih l hl (hbelow l hl) (haround.below h (by omega)) (by omega) (by omega) sink
    have hshape (sink : Sink) := renderShape_shape (s := ⟨node, p, below.map Layout.id, alias_⟩)
      rfl (fun l hl => ⟨_, hbelow l hl⟩) (haround.above _ rfl)
      (fun qualifier => haround.aliases qualifier (t.size + 1) (by omega)) hrender id sink
    have halias (sink : Sink) :
        (t.renderAlias ⟨node, p, below.map Layout.id, alias_⟩ sink).toOption =
          some (sink.putAll (Node.aliasPieces around alias_)) := by
      unfold renderAlias Node.aliasPieces
      cases alias_ with
      | none => rfl
      | some alias_ =>
        have habove := haround.above ⟨node, p, below.map Layout.id, some alias_⟩ rfl
        simp only [habove, toOption_bind, toOption_ok, Option.bind_some]
        split <;> simp [Sink.put]
    rw [Layout.id_mk, Layout.term_mk, Term.pieces_mk, renderBelow, slot_ok hs]
    simp only [toOption_bind, toOption_ok, Option.bind_some, hshape, halias, partsOf,
      List.map_map, Function.comp_def]
    cases node.shape around _ <;> simp

/-- Rendering a tree writes the pieces of the term at its root, whatever the arena. -/
theorem renderInto_pieces {l : Layout} (h : t.Hangs .free l) (hroot : t.root = l.id) (sink : Sink) :
    (t.renderInto sink).toOption = (l.term.pieces .outermost).map sink.putAll := by
  have hlen : l.ids.length ≤ t.size := h.length_le
  rw [renderInto, hroot]
  exact renderBelow_pieces h.holds surrounds_outermost (by omega) (by omega) sink

theorem render_pieces {l : Layout} (h : t.Hangs .free l) (hroot : t.root = l.id)
    (style : QuoteStyle) :
    (t.render style).toOption =
      (l.term.pieces .outermost).map fun ps => ((Sink.new style).putAll ps).finish := by
  rw [render, toOption_map, renderInto_pieces h hroot, Option.map_map]
  rfl

end Tree
end PolyglotSql
