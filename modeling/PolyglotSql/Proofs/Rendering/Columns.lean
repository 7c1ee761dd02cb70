import PolyglotSql.Proofs.Dialect.Adaptation
import PolyglotSql.Proofs.Dialect.Layers
import PolyglotSql.Proofs.Rendering.Windows

/-!
# PolyglotSql.Proofs.Rendering.Columns

How many columns a select has, be it enclosed in one that counts rows. What stands in front of an
enclosed select is read as SQL (`Columns.read`): an asterisk stands for all columns of what is
selected from. So an enclosed select with an offset has one column more than it had, and without an
offset as many (`Dialect.adapt_columns`).
-/

namespace PolyglotSql

/-! ## Select lists -/

namespace Columns

/-- Whether the words of an item end in an asterisk. -/
def isAsterisk (words : List String) : Bool :=
  (words.getLast?.bind (·.toList.getLast?)) == some '*'

/-- How many columns items select from a table with so many. -/
def ofItems (columns : Nat) : (items : List (List String)) → Nat
  | [] => 0
  | item :: items => (if isAsterisk item then columns else 1) + ofItems columns items

/-- Reads how many columns a select has, from the words between its `SELECT` and an enclosed query
with `columns` columns, which it selects from, or from a select in brackets that does. What has been
read is the beginning of an item, and the items before it. -/
def readFrom (columns : Nat) (items : List (List String)) (item : List String) :
    List String → Option Nat
  | [] => none
  | ["FROM"] => some (ofItems columns (items ++ [item]))
  | "FROM" :: "(" :: "SELECT" :: words =>
    (readFrom columns [] [] words).map fun inner => ofItems inner (items ++ [item])
  | word :: words =>
    if word = "FROM" ∨ word = "(" ∨ word = ")" then none
    else if word = "," then readFrom columns (items ++ [item]) [] words
    else readFrom columns items (item ++ [word]) words

/-- Reads how many columns a select has of which `head` is written between its `SELECT` and a query
with `columns` columns. -/
def read (columns : Nat) (head : String) : Option Nat :=
  readFrom columns [] [] (Page.words head.toList)

theorem read_head (columns : Nat) (offset : UInt64) :
    read columns (RowNumbers.head offset) =
      some (if offset = 0 then columns else columns + 1) := by
  unfold RowNumbers.head
  by_cases h : offset = 0
  · have hwords : Page.words " * FROM ".toList = ["*", "FROM"] := by decide
    rw [if_pos h, if_pos h, read, hwords]
    simp [readFrom, ofItems, isAsterisk]
  · have hwords : Page.words " * FROM (SELECT tid.*, ROWNUM rnum FROM ".toList =
        ["*", "FROM", "(", "SELECT", "tid.*", ",", "ROWNUM", "rnum", "FROM"] := by decide
    rw [if_neg h, if_neg h, read, hwords]
    simp [readFrom, ofItems, isAsterisk]

end Columns

/-- Whether a result is a text for all columns of something. -/
def Node.isAsterisk : Node → Bool
  | .text s => Columns.isAsterisk (Page.words s.toList)
  | _ => false

namespace Term

/-- Which of the results of a clause are asterisks, if it is the results. -/
def asterisks? : Term → Option (List Bool)
  | .mk .result _ results => some (results.map (·.node.isAsterisk))
  | _ => none

/-- How many columns a select has that states its results, none of which is an asterisk. -/
def stated? (clauses : List Term) : Option Nat :=
  match clauses.filterMap asterisks? with
  | [] => none
  | lists => if lists.flatten.any id then none else some lists.flatten.length

/-- How many columns a select has that encloses one that states its results. -/
def enclosedColumns? : List Term → Option Nat
  | [.mk (.text head) _ _, .mk .select _ inner, .mk (.text _) _ _] =>
    (stated? inner).bind fun columns => Columns.read columns head
  | _ => none

/-- How many columns a select has. -/
def columns? : Term → Option Nat
  | .mk .select _ clauses => (stated? clauses).or (enclosedColumns? clauses)
  | _ => none

variable {d : Dialect} {above : NodeKind}

/-! ## Adapting -/

/-- A node that no rule brings or takes away. -/
def Inert (node : Node) : Prop :=
  node = .result ∨ ∃ s, node = .text s

theorem rewriteTop_inert {t t' : Term} (h : rewriteTop d above t = .ok t')
    (hinert : Inert t.node ∨ Inert t'.node) : t'.node = t.node := by
  cases rewriteTop_ok h with
  | kept => rfl
  | call harity hcall =>
    obtain ⟨node, alias_, children⟩ := t'
    rcases replaceCall_cases hcall with ⟨rfl, -, -⟩ | hforeign
    · rfl
    · rcases hinert with (he | ⟨s, he⟩) | (he | ⟨s, he⟩)
      · cases he
      · cases he
      · obtain rfl : node = .result := he
        exact hforeign.elim
      · obtain rfl : node = .text s := he
        exact hforeign.elim
  | column | value | limit | like | likeBare =>
    rcases hinert with (he | ⟨s, he⟩) | (he | ⟨s, he⟩) <;> cases he

theorem rewrite_top (t : Term) :
    (rewrite d above t).1.node = t.node ∨
      ∃ t', rewriteTop d above t = .ok t' ∧ (rewrite d above t).1.node = t'.node := by
  cases htop : rewriteTop d above t with
  | error refusal => exact .inl (by rw [rewrite_error htop])
  | ok t' =>
    obtain ⟨node, alias_, children⟩ := t'
    exact .inr ⟨_, rfl, by rw [rewrite_ok htop]; rfl⟩

theorem adaptedBelow_inert {t : Term}
    (hinert : Inert t.node ∨ Inert (adaptedBelow d above t).1.node) :
    (adaptedBelow d above t).1.node = t.node := by
  have hrewrite (t : Term) (hinert : Inert t.node ∨ Inert (rewrite d above t).1.node) :
      (rewrite d above t).1.node = t.node := by
    rcases rewrite_top t with hsame | ⟨t', htop, hnode⟩
    · exact hsame
    · rw [hnode] at hinert ⊢
      exact rewriteTop_inert htop hinert
  unfold adaptedBelow at *
  split
  · rw [← enclosed_node t]
    refine hrewrite _ ?_
    simpa [enclosed_node, *] using hinert
  · refine hrewrite _ ?_
    simpa [*] using hinert

theorem isAsterisk_inert {node : Node} (h : node.isAsterisk = true) : Inert node := by
  cases node with
  | text s => exact .inr ⟨s, rfl⟩
  | _ => cases h

theorem adaptedBelow_isAsterisk (t : Term) :
    (adaptedBelow d above t).1.node.isAsterisk = t.node.isAsterisk := by
  rw [Bool.eq_iff_iff]
  constructor
  · intro h
    rwa [adaptedBelow_inert (.inr (isAsterisk_inert h))] at h
  · intro h
    rwa [adaptedBelow_inert (.inl (isAsterisk_inert h))]

theorem asterisks_eq_none {c : Term} (h : c.node ≠ .result) : asterisks? c = none := by
  obtain ⟨node, alias_, children⟩ := c
  cases node with
  | result => exact absurd rfl h
  | _ => rfl

theorem adaptedBelow_asterisks {c : Term} (h : (adaptedBelow d .select c).2 = none) :
    asterisks? (adaptedBelow d .select c).1 = asterisks? c := by
  by_cases hresult : c.node = .result
  · obtain ⟨node, alias_, results⟩ := c
    obtain rfl : node = .result := hresult
    obtain ⟨hterm, -⟩ := adaptedBelow_mk (fun _ he => by cases he) (fun _ => rfl) h
    rw [hterm]
    simp [asterisks?, Function.comp_def, adaptedBelow_isAsterisk]
  · have hkept : (adaptedBelow d .select c).1.node ≠ .result := by
      intro he
      rw [adaptedBelow_inert (.inr (.inl he))] at he
      exact hresult he
    rw [asterisks_eq_none hresult, asterisks_eq_none hkept]

theorem asterisks_map {cs : List Term} (h : ∀ c ∈ cs, (adaptedBelow d .select c).2 = none) :
    (cs.map fun c => (adaptedBelow d .select c).1).filterMap asterisks? =
      cs.filterMap asterisks? := by
  induction cs with
  | nil => rfl
  | cons c cs ih =>
    rw [List.forall_mem_cons] at h
    rw [List.map_cons, List.filterMap_cons, List.filterMap_cons, adaptedBelow_asterisks h.1, ih h.2]

theorem stated_congr {cs cs' : List Term}
    (h : cs'.filterMap asterisks? = cs.filterMap asterisks?) : stated? cs' = stated? cs := by
  rw [stated?, stated?, h]

theorem columns_stated {alias_ : Option String} {cs : List Term} {columns : Nat}
    (h : stated? cs = some columns) : (mk .select alias_ cs).columns? = some columns := by
  rw [columns?, h, Option.some_or]

theorem columns_enclosing {alias_ alias' : Option String} {head tail : String} {inner : List Term}
    {columns : Nat} (h : stated? inner = some columns) :
    (mk .select alias_ [text head, .mk .select alias' inner, text tail]).columns? =
      Columns.read columns head := by
  show (stated? inner).bind _ = _
  rw [h, Option.bind_some]

/-- A select that is enclosed keeps its clauses, each adapted by itself, but for the first limit. -/
theorem adaptedBelow_enclosing {alias_ : Option String} {before after : List Term} {c : Term}
    {limit offset : UInt64}
    (hlimit : firstLimit? (before ++ c :: after) = some (before.length, limit, offset))
    (hnone : (adaptedBelow .oracle above (.mk .select alias_ (before ++ c :: after))).2 = none) :
    (adaptedBelow .oracle above (.mk .select alias_ (before ++ c :: after))).1 =
        .mk .select alias_ [text (RowNumbers.head offset),
          .mk .select none (before.map (fun b => (adaptedBelow .oracle .select b).1) ++
            leaf .empty :: after.map fun a => (adaptedBelow .oracle .select a).1),
          text (RowNumbers.tail limit offset)] ∧
      ∀ b ∈ before ++ after, (adaptedBelow .oracle .select b).2 = none := by
  have henclosed : adaptedBelow .oracle above (.mk .select alias_ (before ++ c :: after)) =
      rewrite .oracle above (.mk .select alias_ [text (RowNumbers.head offset),
        of .select (before.map enclosed ++ leaf .empty :: after.map enclosed),
        text (RowNumbers.tail limit offset)]) :=
    congrArg (rewrite .oracle above) (enclosed_limited hlimit)
  have hempty : (rewrite .oracle .select (leaf .empty)).1 = leaf .empty := by
    rw [leaf, of, rewrite_ok (show rewriteTop .oracle .select _ = .ok _ from rfl), rewriteAll_nil]
  rw [henclosed] at hnone ⊢
  obtain ⟨houter, hwithin⟩ := rewrite_children rfl hnone
  obtain ⟨hinner, hbelow⟩ := rewrite_select (hwithin _ (.tail _ (.head _)))
  constructor
  · rw [houter]
    simp only [List.map_cons, List.map_nil, rewrite_text, hinner, List.map_append, hempty,
      List.map_map]
    rfl
  · intro b hb
    refine hbelow b.enclosed ?_
    rcases List.mem_append.1 hb with hb | hb <;> simp [List.mem_map_of_mem hb]

/-- The columns of an adapted select. -/
theorem adaptedBelow_columns {alias_ : Option String} {cs : List Term} {columns : Nat}
    (hstated : stated? cs = some columns)
    (hnone : (adaptedBelow .oracle above (.mk .select alias_ cs)).2 = none) :
    (adaptedBelow .oracle above (.mk .select alias_ cs)).1.columns? =
      some (if (firstLimit? cs).any fun (_, _, offset) => offset ≠ 0 then columns + 1
        else columns) := by
  cases hlimit : firstLimit? cs with
  | none =>
    obtain ⟨hterm, hbelow⟩ := adaptedBelow_mk (fun _ _ => hlimit) (fun _ => rfl) hnone
    rw [hterm]
    exact columns_stated ((stated_congr (asterisks_map hbelow)).trans hstated)
  | some found =>
    obtain ⟨index, limit, offset⟩ := found
    obtain ⟨before, c, after, rfl, rfl, hc⟩ := firstLimit?_split hlimit
    obtain ⟨hterm, hbelow⟩ := adaptedBelow_enclosing hlimit hnone
    -- The limit is no result, and neither is the empty node in its place.
    have hresult : asterisks? c = none := by
      refine asterisks_eq_none fun he => ?_
      rw [he] at hc
      cases hc
    have hinner : stated? (before.map (fun b => (adaptedBelow .oracle .select b).1) ++
        leaf .empty :: after.map fun a => (adaptedBelow .oracle .select a).1) = some columns := by
      rw [← hstated]
      refine stated_congr ?_
      rw [List.filterMap_append, List.filterMap_append, List.filterMap_cons_none hresult,
        List.filterMap_cons_none rfl,
        asterisks_map fun b hb => hbelow b (List.mem_append_left _ hb),
        asterisks_map fun a ha => hbelow a (List.mem_append_right _ ha)]
    rw [hterm, columns_enclosing hinner, Columns.read_head]
    by_cases hoffset : offset = 0 <;> simp [hoffset]

end Term

/-! ## Operands -/

/-- A condition that compares its operands. -/
def Node.Compares : Node → Prop
  | .in_ _ | .equality _ | .between _ => True
  | _ => False

namespace Node.Compares

variable {node : Node}

theorem firm (h : node.Compares) : node.Firm := by
  cases node <;> first
    | exact absurd h id
    | exact ⟨by simp [Node.kind], rfl, rfl, by simp [Node.canonicalFunction?]⟩

theorem ne_select (h : node.Compares) : node ≠ .select := by
  rintro rfl
  exact h

theorem kept (h : node.Compares) (d : Dialect) (above : NodeKind) (alias_ : Option String)
    (ts : List Term) :
    Term.rewriteTop d above (.mk node alias_ ts) = .ok (.mk node alias_ ts) := by
  cases node <;> first
    | exact absurd h id
    | rfl

end Node.Compares

namespace Dialect

open Term

/-- A select with so many columns that is an operand in a query still is the same operand in the
query for Oracle, between what becomes of the others and in what becomes of the layers; it has as
many columns there, or one more if rows are skipped. -/
theorem adapt_columns {t t' : Tree} {root : NodeId} {layers : List Layer} {node : Node}
    {alias_ alias' : Option String} {left right clauses : List Term} {columns : Nat}
    (h : t.WellFormed)
    (hquery : t.term t.root = .ok (within layers (.mk node alias_
      (left ++ .mk .select alias' clauses :: right))))
    (hlayers : Written layers) (hnode : node.Compares)
    (hstated : stated? clauses = some columns)
    (hadapt : Yields oracle.adapt t (.ok root) t') :
    ∃ kind layers' select', AdaptedLayers oracle .empty layers node kind layers' ∧
      t'.term root = .ok (within layers' (.mk node alias_
        (adaptedEach oracle node.kind left ++ select' :: adaptedEach oracle node.kind right))) ∧
      adaptedBelow oracle node.kind (.mk .select alias' clauses) = (select', none) ∧
      select'.columns? =
        some (if (firstLimit? clauses).any fun (_, _, offset) => offset ≠ 0 then columns + 1
          else columns) := by
  obtain ⟨t₁, hy, hterm⟩ := adapt_holds (d := oracle) h hquery
  obtain ⟨hverdict, rfl⟩ := hadapt.unique hy
  obtain ⟨rfl, hnone⟩ := verdict_eq_ok.1 hverdict.symm
  rw [adapted_below] at hnone hterm
  obtain ⟨kind, layers', hlayers', hnone'⟩ :=
    adaptedBelow_within (u := .mk node alias_ (left ++ .mk .select alias' clauses :: right)) hlayers
      hnode.firm hnone
  rw [hlayers'.fill _ rfl hnone'] at hterm
  obtain ⟨hoperands, hbelow⟩ :=
    adaptedBelow_mk (fun _ he => absurd he hnode.ne_select) (hnode.kept oracle kind alias_) hnone'
  rw [hoperands, List.map_append, List.map_cons] at hterm
  have hselect := hbelow (.mk .select alias' clauses) (by simp)
  exact ⟨kind, layers', _, hlayers', hterm, Prod.ext rfl hselect,
    adaptedBelow_columns hstated hselect⟩

/-- `SELECT t.a FROM t WHERE …` -/
def rowsWhere : List Layer :=
  [⟨.select, none,
      [.of .result [.leaf (.column ⟨some "t", "a", none⟩)],
        .of .fromClause [.leaf (.table "t" none none)]],
      [.leaf (.limitOffset 0 0)]⟩,
    ⟨.whereClause, none, [], []⟩]

/-- The clauses of `SELECT u.b FROM u`, with a limit. -/
def limitedColumn (limit offset : UInt64) : List Term :=
  [.of .result [.leaf (.column ⟨some "u", "b", none⟩)],
    .of .fromClause [.leaf (.table "u" none none)],
    .leaf (.limitOffset limit offset)]

/-- `t.a IN (SELECT u.b FROM u)`, with a limit. -/
def amongLimited (limit offset : UInt64) : Term :=
  .mk (.in_ false) none
    ([.leaf (.column ⟨some "t", "a", none⟩)] ++
      .mk .select none (limitedColumn limit offset) :: [])

/-- The second to fourth row of one column: two columns for Oracle. -/
theorem adapt_columns_laterRows :
    Written rowsWhere ∧ Node.Compares (.in_ false) ∧ stated? (limitedColumn 3 1) = some 1 ∧
    ∃ t' root, Yields oracle.adapt (within rowsWhere (amongLimited 3 1)).build (.ok root) t' ∧
      ∃ kind layers' select', AdaptedLayers oracle .empty rowsWhere (.in_ false) kind layers' ∧
        t'.term root = .ok (within layers' (.mk (.in_ false) none
          (adaptedEach oracle .in_ [.leaf (.column ⟨some "t", "a", none⟩)] ++
            select' :: adaptedEach oracle .in_ []))) ∧
        adaptedBelow oracle .in_ (.mk .select none (limitedColumn 3 1)) = (select', none) ∧
        select'.columns? = some 2 := by
  have hwf := (within rowsWhere (amongLimited 3 1)).build_wellFormed
  have hquery := (within rowsWhere (amongLimited 3 1)).build_term
  obtain ⟨t', hy, -⟩ := adapt_holds (d := oracle) hwf hquery
  have hnone : ((within rowsWhere (amongLimited 3 1)).adapted oracle).2 = none := by
    rw [adapted_within]
    rfl
  rw [hnone] at hy
  have hnode : Node.Compares (.in_ false) := trivial
  exact ⟨by decide, hnode, rfl, t', _, hy, adapt_columns hwf hquery (by decide) hnode rfl hy⟩

/-- Oracle would compare one column with two. -/
theorem offsetOperand_widened :
    stated? (limitedColumn 3 1) = some 1 ∧
    ∃ t' select', Yields oracle.adapt (within rowsWhere (amongLimited 3 1)).build (.ok t'.root) t' ∧
      t'.term t'.root = .ok (within rowsWhere (.mk (.in_ false) none
        [.leaf (.column ⟨some "t", "a", none⟩), select'])) ∧
      select'.columns? = some 2 := by
  have hadapted : (within rowsWhere (amongLimited 3 1)).adapted oracle =
      (within rowsWhere (.mk (.in_ false) none [.leaf (.column ⟨some "t", "a", none⟩),
        .of .select [.text " * FROM (SELECT tid.*, ROWNUM rnum FROM ",
          .of .select [.of .result [.leaf (.column ⟨some "u", "b", none⟩)],
            .of .fromClause [.leaf (.table "u" none none)], .leaf .empty],
          .text " tid WHERE ROWNUM <= 4) WHERE rnum > 1"]]), none) := by
    rw [adapted_within]
    rfl
  obtain ⟨t', hy, hterm⟩ := adapt_holds (d := oracle)
    (within rowsWhere (amongLimited 3 1)).build_wellFormed
    (within rowsWhere (amongLimited 3 1)).build_term
  rw [hadapted] at hy hterm
  exact ⟨rfl, t', _, hy, hterm, by decide⟩

end Dialect
end PolyglotSql
