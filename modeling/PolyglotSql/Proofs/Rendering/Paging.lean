import PolyglotSql.Proofs.Rendering.Bindings
import PolyglotSql.Proofs.Rendering.Surroundings
import PolyglotSql.Proofs.Rendering.Windows

/-!
# PolyglotSql.Proofs.Rendering.Paging

The row limits of a translated query. Limiting the rows of a select changes nothing of its text but
that something is written for the limit, around the select or among its clauses where the limit
stands, and what is written reads in every dialect as the limit and the offset that were asked for
(`limiting_paged`); so it is wherever the select stands in a query
(`Translator.translateTree_limits`).
-/

namespace PolyglotSql

open Piece

namespace Term

/-- A select with a row limit among its clauses. -/
def limiting (alias_ : Option String) (before after : List Term) (limit offset : UInt64) : Term :=
  .mk .select alias_ (before ++ leaf (.limitOffset limit offset) :: after)

/-- The text of some clauses of a select, one behind the other. -/
def clausesText (style : QuoteStyle) (inner : Around) (clauses : List Term) : Option (List Char) :=
  (clauses.mapM fun c : Term => (c.pieces inner).map (written style)).map List.flatten

/-- The text of a select whose rows are limited, by the text that it has without: something may be
written in front of it, between its clauses `head` and `tail`, and behind it, which reads as the
page. -/
def Paged (d : Dialect) (page : Page) (head tail plain limited : List Char) : Prop :=
  plain = "SELECT".toList ++ head ++ tail ∧ ∃ opening clause closing,
    limited = opening ++ ("SELECT".toList ++ head ++ clause ++ tail) ++ closing ∧
    Page.read d opening clause closing = some page

/-- The text limits the rows of a select to those that the limit and the offset ask for, brackets
and alias left apart. What is written among the clauses stands where the limit does: behind those
before it and in front of those after it. -/
def Paginates (tr : Translator) (before after : List Term) (limit offset : UInt64)
    (plain limited : List Char) : Prop :=
  ∃ (around : Around) (head tail : List Char) (page : Page) (left own own' right : List Char),
    clausesText tr.style (around.below .select (adaptedEach tr.dialect .select (before ++ after)))
      (adaptedEach tr.dialect .select before) = some head ∧
    clausesText tr.style (around.below .select (adaptedEach tr.dialect .select (before ++ after)))
      (adaptedEach tr.dialect .select after) = some tail ∧
    (left = [] ∧ right = [] ∨ left = ['('] ∧ ∃ alias_, right = ')' :: alias_) ∧
    plain = left ++ own ++ right ∧ limited = left ++ own' ++ right ∧
    Paged tr.dialect page head tail own own' ∧ page.Keeps limit offset

/-! ## The pieces of a select -/

/-- Whether a select is written in brackets. -/
def bracketed (around : Around) : Bool :=
  around.above != none && around.above != some .empty

theorem clausesText_separated (style : QuoteStyle) {inner : Around} {clauses : List Term}
    {index : Nat} {last : Option Term} {ps : List Piece}
    (h : Part.separated (Node.sameText "") index last
      (clauses.map fun c => ⟨c, c.pieces inner⟩) = some ps) :
    clausesText style inner clauses = some (written style ps) := by
  induction clauses generalizing index last ps with
  | nil =>
    cases h
    rfl
  | cons c clauses ih =>
    obtain ⟨own, rest, hown, hrest, rfl⟩ := Part.separated_cons.1 h
    obtain ⟨texts, htexts, hflat⟩ := Option.map_eq_some_iff.1 (ih hrest)
    have hlead : written style (Part.lead (Node.sameText "") index last c) = [] := by
      cases last <;> rfl
    rw [written_append, hlead, written_append, ← hflat]
    simp [clausesText, show c.pieces inner = some own from hown, htexts]

/-- What stands in a select around one of its clauses, wherever the select stands and under whatever
alias, if the same aliases are declared around it: the clauses before it and those behind it. -/
theorem select_frames {around : Around} {alias_ : Option String} {before after : List Term}
    {node : Node} (hnode : node.kind ≠ .fromClause) {ps : List Piece}
    (h : (mk .select alias_ (before ++ leaf node :: after)).pieces around = some ps) :
    ∃ front back, (∀ style,
        clausesText style (around.below .select (before ++ after)) before =
          some (written style front) ∧
        clausesText style (around.below .select (before ++ after)) after =
          some (written style back)) ∧
      ∀ around' alias' node', node'.kind ≠ .fromClause → around'.aliases = around.aliases →
        (mk .select alias' (before ++ leaf node' :: after)).pieces around' =
          ((leaf node').pieces (around.below .select (before ++ after))).map fun own =>
            Node.bracket (bracketed around') "(" ++ (.raw "SELECT" :: (front ++ (own ++ back))) ++
              (Node.bracket (bracketed around') ")" ++ Node.aliasPieces around' alias') := by
  have hfrom (q : String) {node : Node} (hnode : node.kind ≠ .fromClause) :
      isFromDeclaring q (leaf node) = false := by
    simp [isFromDeclaring, leaf, of, Term.node, hnode]
  have hinner {around' : Around} {node' : Node} (hnode' : node'.kind ≠ .fromClause)
      (haliases : around'.aliases = around.aliases) :
      around'.below .select (before ++ leaf node' :: after) =
        around.below .select (before ++ after) := by
    simp [Around.below, hfrom _ hnode', haliases]
  generalize around.below .select (before ++ after) = inner at hinner
  let part (t : Term) : Part := ⟨t, t.pieces inner⟩
  have hpieces {around' : Around} {alias' : Option String} {node' : Node}
      (hnode' : node'.kind ≠ .fromClause) (haliases : around'.aliases = around.aliases) :
      (mk .select alias' (before ++ leaf node' :: after)).pieces around' =
        (Part.separated (Node.sameText "") 0 none
          (before.map part ++ part (leaf node') :: after.map part)).map fun own =>
            Node.bracket (bracketed around') "(" ++ (.raw "SELECT" :: own) ++
              (Node.bracket (bracketed around') ")" ++ Node.aliasPieces around' alias') := by
    rw [pieces_mk, hinner hnode' haliases, Node.shape, Node.form, List.map_append, List.map_cons,
      Option.map_map]
    refine congrArg (Option.map · _) (funext fun own => ?_)
    simp [bracketed]
  rw [hpieces hnode rfl] at h
  obtain ⟨own, hown, -⟩ := Option.map_eq_some_iff.1 h
  obtain ⟨first, i, t, j, back, hfirst, hback, hframe⟩ :=
    Part.separated_around (fun q (_ : True) i t => ⟨rfl, rfl⟩) hown
  refine ⟨first ++ Part.lead (Node.sameText "") i t (leaf node), back, fun style => ⟨?_,
    clausesText_separated style hback⟩, fun around' alias' node' hnode' haliases => ?_⟩
  · have hlead : written style (Part.lead (Node.sameText "") i t (leaf node)) = [] := by
      cases t <;> rfl
    rw [clausesText_separated style hfirst, written_append, hlead, List.append_nil]
  · have hown' := hframe (part (leaf node')) trivial
    dsimp only [part] at hown'
    rw [hpieces hnode' haliases, hown', Option.map_map]
    rfl

/-! ## Limits -/

variable {d : Dialect} {above : NodeKind} {alias_ : Option String} {before after : List Term}
  {limit offset : UInt64}

theorem limitNode_pieces (d : Dialect) (limit offset : UInt64) (inner : Around) :
    (leaf (d.limitNode limit offset)).pieces inner = some [.raw (d.limitText limit offset)] := by
  unfold Dialect.limitNode Dialect.limitText
  cases d.pageClause? <;> rfl

theorem rewrite_limit (limit offset : UInt64) :
    rewrite d above (leaf (.limitOffset limit offset)) = (leaf (d.limitNode limit offset), none) := by
  rw [leaf, of, rewrite_ok (show rewriteTop d above _ = .ok _ from rfl), rewriteAll_nil]
  rfl

theorem rewrite_of_none {children : List Term} (h : ∀ c ∈ children, (rewrite d .select c).2 = none) :
    rewrite d above (.mk .select alias_ children) =
      (.mk .select alias_ (children.map fun c => (rewrite d .select c).1), none) := by
  rw [rewrite_ok (show rewriteTop d above _ = .ok _ from rfl)]
  exact congrArg (fun r => (Term.mk .select alias_ r.1, r.2)) (rewriteAll_of_none h)

theorem limits_some (h : limit ≠ 0 ∨ offset ≠ 0) :
    RowNumbers.limits? (.limitOffset limit offset) = some (limit, offset) := by
  rw [RowNumbers.limits?, if_pos]
  simpa only [UInt64.pos_iff_ne_zero] using h

theorem limits_none (h : ¬ (limit ≠ 0 ∨ offset ≠ 0)) :
    RowNumbers.limits? (.limitOffset limit offset) = none := by
  rw [RowNumbers.limits?, if_neg]
  simpa only [UInt64.pos_iff_ne_zero] using h

/-- The select limits its rows by nothing but its row limit. -/
def SoleLimit (before after : List Term) : Prop :=
  ∀ c ∈ before ++ after, RowNumbers.limits? c.node = none

theorem enclosed_unlimiting (h : SoleLimit before after)
    (hnone : RowNumbers.limits? (.limitOffset limit offset) = none) :
    (limiting alias_ before after limit offset).enclosed =
      limiting alias_ (before.map enclosed) (after.map enclosed) limit offset := by
  have hfirst : firstLimit? (before ++ leaf (.limitOffset limit offset) :: after) = none := by
    refine firstLimit?_eq_none.2 fun c hc => ?_
    simp only [List.mem_append, List.mem_cons] at hc
    rcases hc with hc | rfl | hc
    · exact h c (List.mem_append_left _ hc)
    · exact hnone
    · exact h c (List.mem_append_right _ hc)
  rw [limiting, enclosed_mk, encloseTop_same fun _ => hfirst, List.map_append, List.map_cons]
  rfl

theorem enclosed_limiting (h : SoleLimit before after)
    (hsome : RowNumbers.limits? (.limitOffset limit offset) = some (limit, offset)) :
    (limiting alias_ before after limit offset).enclosed =
      .mk .select alias_ [text (RowNumbers.head offset),
        of .select (before.map enclosed ++ leaf .empty :: after.map enclosed),
        text (RowNumbers.tail limit offset)] := by
  exact enclosed_limited
    (firstLimit?_at (fun b hb => h b (List.mem_append_left _ hb)) hsome)

theorem rewrite_clauses (above : NodeKind) (alias_ : Option String) {f : Term → Term}
    {node node' : Node}
    (hnode : rewrite d .select (leaf node) = (leaf node', none))
    (hf : ∀ c ∈ before ++ after, (rewrite d .select (f c)).2 = none) :
    rewrite d above (.mk .select alias_ (before.map f ++ leaf node :: after.map f)) =
      (.mk .select alias_ (before.map (fun c => (rewrite d .select (f c)).1) ++
        leaf node' :: after.map fun c => (rewrite d .select (f c)).1), none) := by
  rw [rewrite_of_none]
  · simp [hnode, Function.comp_def]
  · intro c hc
    simp only [List.mem_append, List.mem_cons, List.mem_map] at hc
    rcases hc with ⟨c, hc, rfl⟩ | rfl | ⟨c, hc, rfl⟩
    · exact hf c (List.mem_append_left _ hc)
    · rw [hnode]
    · exact hf c (List.mem_append_right _ hc)

/-- A row limit for which nothing is enclosed gets the form that the dialect has for it. -/
theorem limiting_kept (h : SoleLimit before after)
    (hkept : d.filtersRowNumbers = false ∨ ¬ (limit ≠ 0 ∨ offset ≠ 0))
    (hbeside : ∀ c ∈ before ++ after, (adaptedBelow d .select c).2 = none) :
    adaptedBelow d above (limiting alias_ before after limit offset) =
      (.mk .select alias_ (adaptedEach d .select before ++
        leaf (d.limitNode limit offset) :: adaptedEach d .select after),
        none) := by
  unfold adaptedEach adaptedBelow at *
  by_cases hrows : d.filtersRowNumbers = true
  · simp only [if_pos hrows] at hbeside ⊢
    rw [enclosed_unlimiting h (limits_none (hkept.resolve_left (by simp [hrows]))), limiting,
      rewrite_clauses above alias_ (rewrite_limit limit offset) hbeside]
  · simp only [if_neg hrows] at hbeside ⊢
    have hplain := rewrite_clauses above alias_ (f := id) (rewrite_limit limit offset) hbeside
    rwa [List.map_id, List.map_id] at hplain

theorem limiting_enclosed (h : SoleLimit before after) (hrows : d.filtersRowNumbers = true)
    (hlimits : limit ≠ 0 ∨ offset ≠ 0)
    (hbeside : ∀ c ∈ before ++ after, (adaptedBelow d .select c).2 = none) :
    adaptedBelow d above (limiting alias_ before after limit offset) =
      (.mk .select alias_ [text (RowNumbers.head offset),
        .mk .select none
          (adaptedEach d .select before ++ leaf .empty :: adaptedEach d .select after),
        text (RowNumbers.tail limit offset)], none) := by
  have hempty : rewrite d .select (leaf .empty) = (leaf .empty, none) := by
    rw [leaf, of, rewrite_ok (show rewriteTop d .select _ = .ok _ from rfl), rewriteAll_nil]
  have htext (s : String) : rewrite d .select (text s) = (text s, none) := by
    rw [text, leaf, of, rewrite_ok (show rewriteTop d .select _ = .ok _ from rfl), rewriteAll_nil]
  unfold adaptedEach adaptedBelow at *
  simp only [if_pos hrows] at hbeside ⊢
  have hinner := rewrite_clauses .select none hempty hbeside
  rw [enclosed_limiting h (limits_some hlimits), of, rewrite_of_none]
  · simp [htext, hinner]
  · simp [htext, hinner]

theorem limiting_beside (h : SoleLimit before after)
    (hnone : (adaptedBelow d above (limiting alias_ before after limit offset)).2 = none) :
    ∀ c ∈ before ++ after, (adaptedBelow d .select c).2 = none := by
  unfold adaptedBelow at *
  by_cases hrows : d.filtersRowNumbers = true
  · simp only [if_pos hrows] at hnone ⊢
    have hchildren {alias' : Option String} {x : Term} {above : NodeKind}
        (hx : (rewrite d above
          (.mk .select alias' (before.map enclosed ++ x :: after.map enclosed))).2 = none) :
        ∀ c ∈ before ++ after, (rewrite d .select c.enclosed).2 = none := by
      intro c hc
      refine (rewrite_children rfl hx).2 _ ?_
      rcases List.mem_append.1 hc with hc | hc <;> simp [List.mem_map_of_mem hc]
    by_cases hlimits : limit ≠ 0 ∨ offset ≠ 0
    · rw [enclosed_limiting h (limits_some hlimits)] at hnone
      exact hchildren ((rewrite_children rfl hnone).2 _ (.tail _ (.head _)))
    · rw [enclosed_unlimiting h (limits_none hlimits)] at hnone
      exact hchildren hnone
  · simp only [if_neg hrows] at hnone ⊢
    intro c hc
    refine (rewrite_children rfl hnone).2 c ?_
    rcases List.mem_append.1 hc with hc | hc <;> simp [hc]

/-! ## Texts -/

theorem brackets_written (style : QuoteStyle) (around : Around) (alias_ : Option String) :
    written style (Node.bracket (bracketed around) "(") = [] ∧
        written style (Node.bracket (bracketed around) ")" ++ Node.aliasPieces around alias_) = [] ∨
      written style (Node.bracket (bracketed around) "(") = ['('] ∧ ∃ alias',
        written style (Node.bracket (bracketed around) ")" ++ Node.aliasPieces around alias_) =
          ')' :: alias' := by
  cases hb : bracketed around with
  | true => exact .inr ⟨rfl, _, rfl⟩
  | false =>
    -- An alias is only written in a result, where selects are in brackets.
    have habove : around.above ≠ some .result := by
      intro he
      simp [bracketed, he] at hb
    refine .inl ⟨rfl, ?_⟩
    cases alias_ <;> simp [Node.bracket, Node.aliasPieces, habove]

theorem limitText_zero (d : Dialect) : d.limitText 0 0 = "" := by
  cases d <;> rfl

theorem read_kept (hkept : d.filtersRowNumbers = false ∨ ¬ (limit ≠ 0 ∨ offset ≠ 0)) : ∃ page,
    Page.read d [] (d.limitText limit offset).toList [] = some page ∧ page.Keeps limit offset := by
  by_cases hd : d = .oracle
  · subst hd
    obtain ⟨hl, ho⟩ : limit = 0 ∧ offset = 0 := by
      simpa [Dialect.filtersRowNumbers] using hkept
    subst hl ho
    exact ⟨_, rfl, Page.asked_keeps 0 0⟩
  · exact Page.clause_read hd limit offset

theorem limitNode_kind : (d.limitNode limit offset).kind ≠ .fromClause := by
  unfold Dialect.limitNode
  split <;> simp [Node.kind]

theorem enclosed_pieces {around : Around} {head tail : String} {alias' : Option String}
    {children : List Term} {ps : List Piece}
    (h : (mk .select alias_ [text head, .mk .select alias' children, text tail]).pieces around =
      some ps) :
    ∃ around' own, around'.above = some .select ∧ around'.aliases = around.aliases ∧
      (mk .select alias' children).pieces around' = some own ∧
      ps = Node.bracket (bracketed around) "(" ++ (.raw "SELECT" :: .raw head :: .raw "" ::
        (own ++ [.raw "", .raw tail])) ++
          (Node.bracket (bracketed around) ")" ++ Node.aliasPieces around alias_) := by
  rw [pieces_mk] at h
  have haliases : (around.below .select
      [text head, .mk .select alias' children, text tail]).aliases = around.aliases := by
    funext q
    simp [Around.below, isFromDeclaring, text, leaf, of, Term.node, Node.kind]
  generalize hinner : around.below .select [text head, .mk .select alias' children, text tail] =
    inner at h haliases
  obtain ⟨shape, hshape, rfl⟩ := Option.map_eq_some_iff.1 h
  obtain ⟨parts, hparts, rfl⟩ := Option.map_eq_some_iff.1 hshape
  obtain ⟨first, others, hfirst, hothers, rfl⟩ := Part.separated_cons.1 hparts
  obtain ⟨own, rest, hown, hrest, rfl⟩ := Part.separated_cons.1 hothers
  obtain ⟨last, none', hlast, hnone, rfl⟩ := Part.separated_cons.1 hrest
  cases hfirst
  cases hlast
  cases hnone
  refine ⟨inner, own, by rw [← hinner]; rfl, haliases, hown, ?_⟩
  simp [bracketed, Part.lead, Node.sameText]

/-- A select with a row limit, not refused by a dialect, is not refused without, and its text is
what is written then, with something for the limit. -/
theorem limiting_paged (style : QuoteStyle) (h : SoleLimit before after)
    (hnone : (adaptedBelow d above (limiting alias_ before after limit offset)).2 = none)
    {around : Around} {ps : List Piece}
    (hps : (adaptedBelow d above (limiting alias_ before after limit offset)).1.pieces around =
      some ps) :
    (adaptedBelow d above (limiting alias_ before after 0 0)).2 = none ∧
      ∃ (plain : List Piece) (around' : Around) (head tail : List Char) (page : Page)
          (own own' : List Char),
        (adaptedBelow d above (limiting alias_ before after 0 0)).1.pieces around = some plain ∧
        clausesText style (around'.below .select (adaptedEach d .select (before ++ after)))
          (adaptedEach d .select before) = some head ∧
        clausesText style (around'.below .select (adaptedEach d .select (before ++ after)))
          (adaptedEach d .select after) = some tail ∧
        written style plain = written style (Node.bracket (bracketed around) "(") ++ own ++
          written style (Node.bracket (bracketed around) ")" ++ Node.aliasPieces around alias_) ∧
        written style ps = written style (Node.bracket (bracketed around) "(") ++ own' ++
          written style (Node.bracket (bracketed around) ")" ++ Node.aliasPieces around alias_) ∧
        Paged d page head tail own own' ∧ page.Keeps limit offset ∧
        ps.filterMap boundValue? = plain.filterMap boundValue? := by
  have hbeside := limiting_beside h hnone
  have hplain : adaptedBelow d above (limiting alias_ before after 0 0) = _ :=
    limiting_kept h (.inr (by simp)) hbeside
  have hclauses : adaptedEach d .select (before ++ after) =
      adaptedEach d .select before ++ adaptedEach d .select after := List.map_append
  rw [hplain, hclauses]
  refine ⟨rfl, ?_⟩
  by_cases hrows : d.filtersRowNumbers = true ∧ (limit ≠ 0 ∨ offset ≠ 0)
  · obtain ⟨hrows, hlimits⟩ := hrows
    rw [limiting_enclosed h hrows hlimits hbeside] at hps
    obtain ⟨around', own, habove, haliases, hown, rfl⟩ := enclosed_pieces hps
    obtain ⟨front, back, htexts, hframe⟩ := select_frames (by decide) hown
    have hnested : bracketed around' = true := by
      rw [bracketed, habove]
      rfl
    obtain rfl : own = .raw "(" :: .raw "SELECT" :: (front ++ back ++ [.raw ")"]) := by
      have hself := hframe around' none .empty (by decide) rfl
      rw [hown, hnested] at hself
      simpa [pieces_mk, leaf, of, Node.shape, Node.form, Part.separated, Node.bracket] using hself
    obtain ⟨page, hread, hkeeps⟩ := Page.filter_read hlimits
    refine ⟨_, around', written style front, written style back, page, _, _,
      (hframe around alias_ _ limitNode_kind haliases.symm).trans
        (by rw [limitNode_pieces, limitText_zero, Option.map_some]),
      (htexts style).1, (htexts style).2, ?_, ?_, ⟨rfl,
        ("SELECT" ++ RowNumbers.head offset ++ "(").toList, [],
        (")" ++ RowNumbers.tail limit offset).toList, rfl, ?_⟩, hkeeps, ?_⟩
    · simp [chars]
    · simp [chars]
    · have hd : d = .oracle := by
        simpa [Dialect.filtersRowNumbers] using hrows
      rw [Page.read, if_neg (by simp), if_pos ⟨hd, rfl⟩, hread]
    · simp [List.filterMap_cons, boundValue?]
  · have hkept : d.filtersRowNumbers = false ∨ ¬ (limit ≠ 0 ∨ offset ≠ 0) := by
      rw [← Bool.not_eq_true]
      exact not_and_or.1 hrows
    rw [limiting_kept h hkept hbeside] at hps
    obtain ⟨front, back, htexts, hframe⟩ := select_frames limitNode_kind hps
    have hpieces (limit offset : UInt64) := (hframe around alias_ _ limitNode_kind rfl).trans
      (congrArg (Option.map _) (limitNode_pieces d limit offset _))
    obtain rfl := Option.some.inj (hps.symm.trans (hpieces limit offset))
    obtain ⟨page, hread, hkeeps⟩ := read_kept hkept
    refine ⟨_, around, written style front, written style back, page, _, _, hpieces 0 0,
      (htexts style).1, (htexts style).2, ?_, ?_,
      ⟨rfl, [], (d.limitText limit offset).toList, [], rfl, hread⟩, hkeeps, ?_⟩
    · simp [chars, limitText_zero]
    · simp [chars]
    · simp [List.filterMap_cons, boundValue?]

/-! ## Translations -/

/-- A select stays one, and declares nothing to what is around it. -/
theorem adaptedBelow_select {t : Term} (h : t.node = .select) :
    (adaptedBelow d above t).1.node = .select ∧
      ∀ q, (adaptedBelow d above t).1.declares q = false := by
  unfold adaptedBelow
  generalize ht' : (if d.filtersRowNumbers then t.enclosed else t) = t'
  have hnode : t'.node = .select := by
    subst ht'
    split
    · rwa [enclosed_node]
    · exact h
  obtain ⟨node, alias_, children⟩ := t'
  cases hnode
  rw [rewrite_ok (show rewriteTop d above _ = .ok _ from rfl)]
  exact ⟨rfl, fun q => by simp [declares]⟩

/-- In a translated query, a select with a row limit stands where it would stand without. -/
theorem translated_limiting {tr : Translator} {layers : List Layer} (hlayers : Written layers)
    (h : SoleLimit before after) {rendered : RenderedSql}
    (hrendered : (within layers (limiting alias_ before after limit offset)).translated tr =
      some rendered) :
    ∃ rendered₀ earlier plain limited later,
      (within layers (limiting alias_ before after 0 0)).translated tr = some rendered₀ ∧
      rendered₀.sql.toList = earlier ++ plain ++ later ∧
      rendered.sql.toList = earlier ++ limited ++ later ∧
      rendered.bindings = rendered₀.bindings ∧
      (limiting alias_ before after 0 0).WrittenAs tr plain ∧
      (limiting alias_ before after limit offset).WrittenAs tr limited ∧
      Paginates tr before after limit offset plain limited := by
  obtain ⟨above, inner, front, back, hnone, hsame⟩ :=
    translated_within (u := limiting alias_ before after limit offset) hlayers
      (show Node.Firm .select by decide) hrendered
  have hselect {l o : UInt64} :
      (adaptedBelow tr.dialect above (limiting alias_ before after l o)).1.node = .select ∧ _ :=
    adaptedBelow_select rfl
  have hswap {l o : UInt64}
      (hnone : (adaptedBelow tr.dialect above (limiting alias_ before after l o)).2 = none) :=
    hsame (limiting alias_ before after l o) rfl hnone (hselect.1.trans hselect.1.symm)
      fun q => (hselect.2 q).trans (hselect.2 q).symm
  rw [hswap hnone] at hrendered
  obtain ⟨ps, hps, rfl⟩ := Option.map_eq_some_iff.1 hrendered
  obtain ⟨hnone₀, plain, around, head, tail, page, own, own', hplain, hhead, htail, hown, hown',
    hpaged, hkeeps, hvalues⟩ := limiting_paged tr.style h hnone hps
  refine ⟨_, written tr.style front, written tr.style plain, written tr.style ps,
    written tr.style back, (hswap hnone₀).trans (by rw [hplain]; rfl), ?_, ?_, ?_,
    ⟨above, inner, plain, hnone₀, hplain, rfl⟩, ⟨above, inner, ps, hnone, hps, rfl⟩,
    ⟨around, head, tail, page, _, own, own', _, hhead, htail,
      brackets_written tr.style inner alias_, hown, hown', hpaged, hkeeps⟩⟩
  · rw [Sink.finish_written]
    simp
  · rw [Sink.finish_written]
    simp
  · refine Sink.finish_bindings ?_
    simp [hvalues]

end Term

namespace Translator

/-- Wherever a select stands in a query, its row limit changes nothing of the translated text but
the text of the select, which reads, in every dialect, as that without a limit from which the rows
that the limit and the offset ask for are taken. -/
theorem translateTree_limits (tr : Translator) {t t₀ : Tree} {layers : List Term.Layer}
    {alias_ : Option String} {before after : List Term} {limit offset : UInt64}
    {rendered : RenderedSql} (h : t.WellFormed) (h₀ : t₀.WellFormed)
    (hquery : t.term t.root =
      .ok (Term.within layers (Term.limiting alias_ before after limit offset)))
    (hquery₀ : t₀.term t₀.root = .ok (Term.within layers (Term.limiting alias_ before after 0 0)))
    (hlayers : Term.Written layers) (hsole : Term.SoleLimit before after)
    (htr : ∃ t', Yields tr.translateTree t (.ok rendered) t') :
    ∃ rendered₀ earlier plain limited later,
      (∃ t', Yields tr.translateTree t₀ (.ok rendered₀) t') ∧
      rendered₀.sql.toList = earlier ++ plain ++ later ∧
      rendered.sql.toList = earlier ++ limited ++ later ∧
      rendered.bindings = rendered₀.bindings ∧
      (Term.limiting alias_ before after 0 0).WrittenAs tr plain ∧
      (Term.limiting alias_ before after limit offset).WrittenAs tr limited ∧
      Term.Paginates tr before after limit offset plain limited := by
  obtain ⟨rendered₀, earlier, plain, limited, later, htranslated, htexts⟩ :=
    Term.translated_limiting hlayers hsole ((translateTree_iff tr h hquery).1 htr)
  exact ⟨rendered₀, earlier, plain, limited, later,
    (translateTree_iff tr h₀ hquery₀).2 htranslated, htexts⟩

/-- `SELECT t.a FROM t WHERE t.a IN (…)`. -/
def amongRows : List Term.Layer :=
  [⟨.select, none,
      [.of .result [.leaf (.column ⟨some "t", "a", none⟩)],
        .of .fromClause [.leaf (.table "t" none none)]],
      [.leaf (.limitOffset 0 0)]⟩,
    ⟨.whereClause, none, [], []⟩,
    ⟨.in_ false, none, [.leaf (.column ⟨some "t", "a", none⟩)], []⟩]

/-- The clauses of `SELECT u.b FROM u`. -/
def laterRows : List Term :=
  [.of .result [.leaf (.column ⟨some "u", "b", none⟩)],
    .of .fromClause [.leaf (.table "u" none none)]]

theorem translateTree_limits_laterRows : ∃ rendered t' rendered₀ earlier plain limited later,
    Yields (translateTree ⟨.oracle, .whenNeeded⟩)
      (Term.within amongRows (Term.limiting none laterRows [] 5 2)).build (.ok rendered) t' ∧
    rendered.sql = "SELECT t.a FROM t WHERE t.a IN (SELECT * FROM (SELECT tid.*, ROWNUM rnum FROM (" ++
      "SELECT u.b FROM u) tid WHERE ROWNUM <= 7) WHERE rnum > 2)" ∧
    (∃ t', Yields (translateTree ⟨.oracle, .whenNeeded⟩)
      (Term.within amongRows (Term.limiting none laterRows [] 0 0)).build (.ok rendered₀) t') ∧
    rendered₀.sql.toList = earlier ++ plain ++ later ∧
    rendered.sql.toList = earlier ++ limited ++ later ∧
    Term.Paginates ⟨.oracle, .whenNeeded⟩ laterRows [] 5 2 plain limited := by
  have hsql : (Term.within amongRows (Term.limiting none laterRows [] 5 2)).translated
      ⟨.oracle, .whenNeeded⟩ = some
        ⟨"SELECT t.a FROM t WHERE t.a IN (SELECT * FROM (SELECT tid.*, ROWNUM rnum FROM (" ++
          "SELECT u.b FROM u) tid WHERE ROWNUM <= 7) WHERE rnum > 2)", []⟩ := by
    rw [Term.translated, Term.adapted_within]
    decide +kernel
  obtain ⟨t', htr⟩ := (translateTree_iff ⟨.oracle, .whenNeeded⟩ (Term.build_wellFormed _)
    (Term.build_term _)).2 hsql
  obtain ⟨rendered₀, earlier, plain, limited, later, htr₀, hplain, hlimited, -, -, -, hpage⟩ :=
    translateTree_limits ⟨.oracle, .whenNeeded⟩ (Term.build_wellFormed _) (Term.build_wellFormed _)
      (Term.build_term _) (Term.build_term _) (by decide)
      (by simp [Term.SoleLimit, laterRows, Term.of, Term.node, RowNumbers.limits?]) ⟨t', htr⟩
  exact ⟨_, t', rendered₀, earlier, plain, limited, later, htr, rfl, htr₀, hplain, hlimited, hpage⟩

end Translator
end PolyglotSql
