import Mathlib
import PolyglotSql.Proofs.Tree.Building
import PolyglotSql.Proofs.Tree.Rendering

/-!
# PolyglotSql.Proofs.Tree.Qualifiers

How the qualifier of a column is quoted. It means the table of that name, in any case, in the
innermost select around the column that declares one (`Means`). The renderer does not look for that
table: it asks whether any select around the column has a table with exactly this alias
(`AliasedAround`). `renderShape_qualifier` says when that makes no difference: in all modes but
`always`, for names that are delimited anyway, and otherwise exactly if the table that is meant has
an alias just when some select around has this one.
-/

namespace PolyglotSql

/-! ## Names in any case -/

theorem Text.upper_lower (s : String) : upper (lower s) = upper s := by
  simp [upper, lower, Function.comp_def]

namespace Identifier

theorem isPlainStart_toLower (c : Char) : isPlainStart c.toLower = isPlainStart c := by
  by_cases hc : c.isUpper
  · have halpha : c.isAlpha = true := by simp [Char.isAlpha, hc]
    simp [isPlainStart, halpha]
  · rw [Char.toLower_eq_of_not_isUpper hc]

theorem isPlainPart_toLower (c : Char) : isPlainPart c.toLower = isPlainPart c := by
  by_cases hc : c.isUpper
  · have halpha : c.isAlpha = true := by simp [Char.isAlpha, hc]
    simp [isPlainPart, Char.isAlphanum, halpha]
  · rw [Char.toLower_eq_of_not_isUpper hc]

theorem isPlain_lower (name : String) : isPlain (Text.lower name) = isPlain name := by
  unfold isPlain Text.lower
  rw [String.toList_ofList]
  cases name.toList with
  | nil => rfl
  | cons c cs => simp [isPlainStart_toLower, Function.comp_def, isPlainPart_toLower]

theorem isPlain_sameIgnoringCase {a b : String} (h : Text.sameIgnoringCase a b = true) :
    isPlain a = isPlain b := by
  rw [← isPlain_lower a, eq_of_beq h, isPlain_lower]

theorem isReserved_sameIgnoringCase {a b : String} (h : Text.sameIgnoringCase a b = true) :
    isReserved a = isReserved b := by
  rw [isReserved, isReserved, ← Text.upper_lower a, eq_of_beq h, Text.upper_lower]

theorem needsQuoting_sameIgnoringCase {a b : String} (h : Text.sameIgnoringCase a b = true) :
    needsQuoting a = needsQuoting b := by
  rw [needsQuoting, needsQuoting, isPlain_sameIgnoringCase h, isReserved_sameIgnoringCase h]

end Identifier

namespace QuoteStyle

def write (style : QuoteStyle) (delimited : Bool) (name : String) : String :=
  if delimited then delimit style.quote name else name

/-- Whether the policy delimits a name, which may be an alias. -/
def delimits (style : QuoteStyle) (isAlias : Bool) (name : String) : Bool :=
  if isAlias then style.delimitsAlias name else style.delimitsName name

/-- A table as it is written, the name that columns are qualified by delimited or not. -/
def tableText (style : QuoteStyle) (delimited : Bool) (name : String)
    (schema alias_ : Option String) : String :=
  let qualified := match schema with
    | some schema => style.quoteName schema ++ "."
    | none => ""
  qualified ++ match alias_ with
    | some alias_ => style.quoteName name ++ " " ++ style.write delimited alias_
    | none => style.write delimited name

/-- Whether a name is taken for an alias matters to plain names that are not reserved, where the
mode delimits all names but aliases. -/
theorem delimits_eq_iff (style : QuoteStyle) {a b : String} (h : Text.sameIgnoringCase b a = true)
    (p q : Bool) : style.delimits p a = style.delimits q b ↔
      style.mode ≠ .always ∨ Identifier.needsQuoting a = true ∨ p = q := by
  have hplain := Identifier.isPlain_sameIgnoringCase h
  have hneeds := Identifier.needsQuoting_sameIgnoringCase h
  unfold delimits delimitsAlias delimitsName
  cases style.mode with
  | never => cases p <;> cases q <;> simp [hplain]
  | whenNeeded => cases p <;> cases q <;> simp [hneeds]
  | always => cases p <;> cases q <;> simp [hneeds]

end QuoteStyle

/-! ## What a name means -/

namespace Node

/-- The name that columns of a table are qualified by: its alias, or else its own name. -/
def declared? : Node → Option String
  | .table name _ alias_ => some (alias_.getD name)
  | _ => none

def hasAlias (qualifier : String) : Node → Bool
  | .table _ _ (some alias_) => alias_ == qualifier
  | _ => false

/-- Whether the tables below a node are in the `FROM` clause that the node is in. -/
def isOpen : Node → Bool
  | .select | .table _ _ (some _) => false
  | _ => true

def reference? : Node → Option ColumnRef
  | .column ref | .trimmedColumn ref _ => some ref
  | _ => none

theorem kind_eq_fromClause {node : Node} : node.kind = .fromClause ↔ node = .fromClause := by
  cases node with
  | boolean op => cases op <;> simp [kind]
  | _ => simp [kind]

def columnText (reference : String) : Node → String
  | .trimmedColumn _ strip => strip.function ++ "(" ++ reference ++ ")"
  | _ => reference

end Node

namespace Tree

/-- `d` is `id` or below it, and the way down leaves no select and no table with an alias. -/
inductive Within (t : Tree) : NodeId → NodeId → Prop where
  | self (id : NodeId) : Within t id id
  | step {id c d : NodeId} {s : Slot} : t.slots[id]? = some s → s.node.isOpen = true →
      c ∈ s.children → Within t c d → Within t id d

/-- A select has a `FROM` clause with a table in it. -/
def Declares (t : Tree) (select d : NodeId) : Prop :=
  ∃ s, t.slots[select]? = some s ∧ s.node = .select ∧
    ∃ clause ∈ s.children, t.node clause = .ok .fromClause ∧ t.Within clause d

/-- A slot holds a table that columns are qualified by this name for, in any case. -/
def GoesBy (t : Tree) (d : NodeId) (qualifier : String) : Prop :=
  ∃ s name, t.slots[d]? = some s ∧ s.node.declared? = some name ∧
    Text.sameIgnoringCase name qualifier = true

def HasAlias (t : Tree) (d : NodeId) (qualifier : String) : Prop :=
  ∃ s, t.slots[d]? = some s ∧ s.node.hasAlias qualifier = true

/-- In a column the name means a table of the innermost select around it that declares one of this
name. -/
def Means (t : Tree) (column : NodeId) (qualifier : String) (d : NodeId) : Prop :=
  ∃ inner select outer, t.Ascends column (column :: inner ++ select :: outer) ∧
    t.Declares select d ∧ t.GoesBy d qualifier ∧
    ∀ x ∈ inner, ∀ d', t.Declares x d' → ¬ t.GoesBy d' qualifier

/-- Some select around a column declares a table with an alias spelled like this. -/
def AliasedAround (t : Tree) (column : NodeId) (qualifier : String) : Prop :=
  ∃ around, t.Ascends column (column :: around) ∧
    ∃ select ∈ around, ∃ d, t.Declares select d ∧ t.HasAlias d qualifier

variable {t : Tree}

theorem within_iff {id d : NodeId} {s : Slot} (hs : t.slots[id]? = some s) :
    t.Within id d ↔ d = id ∨ s.node.isOpen = true ∧ ∃ c ∈ s.children, t.Within c d := by
  constructor
  · rintro (_ | ⟨hs', hopen, hc, hd⟩)
    · exact .inl rfl
    · cases hs.symm.trans hs'
      exact .inr ⟨hopen, _, hc, hd⟩
  · rintro (rfl | ⟨hopen, c, hc, hd⟩)
    · exact .self d
    · exact .step hs hopen hc hd

/-! ## The renderer's search -/

theorem declaresAlias_succ {id : NodeId} {s : Slot} (hs : t.slots[id]? = some s)
    (qualifier : String) (depth : Nat) :
    t.declaresAlias qualifier (depth + 1) id =
      (s.node.hasAlias qualifier ||
        s.node.isOpen && s.children.any (t.declaresAlias qualifier depth)) := by
  rw [declaresAlias, slot_ok hs]
  simp only
  split <;> rename_i hnode
  · simp [hnode, Node.hasAlias, Node.isOpen]
  · simp [hnode, Node.hasAlias, Node.isOpen]
  · have halias : s.node.hasAlias qualifier = false := by
      unfold Node.hasAlias
      split <;> simp_all
    have hopen : s.node.isOpen = true := by
      unfold Node.isOpen
      split <;> simp_all
    rw [halias, hopen, Bool.false_or, Bool.true_and]

theorem declaresAlias_iff (h : t.Linked) (qualifier : String) {id : NodeId} {up : List NodeId}
    (hup : t.Ascends id up) {depth : Nat} (hdepth : t.size < depth + up.length) :
    t.declaresAlias qualifier depth id = true ↔ ∃ d, t.Within id d ∧ t.HasAlias d qualifier := by
  -- An ascent from a child is longer by one, and none is longer than the arena.
  induction depth generalizing id up with
  | zero =>
    have := hup.length_le
    simp only [size] at hdepth
    omega
  | succ depth ih =>
    obtain ⟨s, hs⟩ := slot_of_lt (hup.lt_size hup.head_mem)
    have hchild : ∀ c ∈ s.children, t.declaresAlias qualifier depth c = true ↔
        ∃ d, t.Within c d ∧ t.HasAlias d qualifier := by
      intro c hc
      obtain ⟨sc, hsc, hp⟩ := h.child hs c hc
      exact ih (.step hsc hp hup) (by simp only [List.length_cons]; omega)
    rw [declaresAlias_succ hs, Bool.or_eq_true, Bool.and_eq_true, List.any_eq_true]
    simp only [within_iff hs]
    constructor
    · rintro (halias | ⟨hopen, c, hc, hfound⟩)
      · exact ⟨id, .inl rfl, s, hs, halias⟩
      · obtain ⟨d, hd, halias⟩ := (hchild c hc).1 hfound
        exact ⟨d, .inr ⟨hopen, c, hc, hd⟩, halias⟩
    · rintro ⟨d, rfl | ⟨hopen, c, hc, hd⟩, halias⟩
      · obtain ⟨s', hs', halias⟩ := halias
        cases hs.symm.trans hs'
        exact .inl halias
      · exact .inr ⟨hopen, c, hc, (hchild c hc).2 ⟨d, hd, halias⟩⟩

theorem declaring_iff (h : t.Linked) (qualifier : String) {id : NodeId} {up : List NodeId}
    (hup : t.Ascends id up) {s : Slot} (hs : t.slots[id]? = some s) :
    (s.node.kind == .select && s.children.any (t.isFromDeclaring qualifier)) = true ↔
      ∃ d, t.Declares id d ∧ t.HasAlias d qualifier := by
  have hclause : ∀ c ∈ s.children, t.isFromDeclaring qualifier c = true ↔
      t.node c = .ok .fromClause ∧ ∃ d, t.Within c d ∧ t.HasAlias d qualifier := by
    intro c hc
    obtain ⟨sc, hsc, hp⟩ := h.child hs c hc
    have hupc : t.Ascends c (c :: up) := .step hsc hp hup
    have hdepth : t.size < t.size + 1 + (c :: up).length := by omega
    rw [isFromDeclaring, slot_ok hsc]
    simp only [Bool.and_eq_true, beq_iff_eq, Node.kind_eq_fromClause,
      declaresAlias_iff h qualifier hupc hdepth, node, slot_ok hsc, Except.map, Except.ok.injEq]
  rw [Bool.and_eq_true, beq_iff_eq, List.any_eq_true]
  constructor
  · rintro ⟨hselect, c, hc, hfound⟩
    obtain ⟨hfrom, d, hd, halias⟩ := (hclause c hc).1 hfound
    exact ⟨d, ⟨s, hs, Node.kind_select hselect, c, hc, hfrom, hd⟩, halias⟩
  · rintro ⟨d, ⟨s', hs', hselect, c, hc, hfrom, hd⟩, halias⟩
    cases hs.symm.trans hs'
    exact ⟨congrArg Node.kind hselect, c, hc, (hclause c hc).2 ⟨hfrom, d, hd, halias⟩⟩

theorem aliasInScope_iff (h : t.Linked) (qualifier : String) {id : NodeId} {up : List NodeId}
    (hup : t.Ascends id up) {steps : Nat} (hsteps : up.length ≤ steps) :
    t.aliasInScope qualifier steps (some id) = true ↔
      ∃ select ∈ up, ∃ d, t.Declares select d ∧ t.HasAlias d qualifier := by
  induction hup generalizing steps with
  | @top id s hs hp =>
    obtain ⟨steps, rfl⟩ : ∃ n, steps = n + 1 := ⟨steps - 1, by simp at hsteps; omega⟩
    have hrest : t.aliasInScope qualifier steps s.parent = false := by
      rw [hp]
      cases steps <;> rfl
    rw [aliasInScope, slot_ok hs]
    simp only [hrest, Bool.if_true_left, Bool.or_false, decide_eq_true_eq,
      declaring_iff h qualifier (.top hs hp) hs, List.mem_singleton, exists_eq_left]
  | @step id p s up hs hp hup ih =>
    obtain ⟨steps, rfl⟩ : ∃ n, steps = n + 1 := ⟨steps - 1, by simp at hsteps; omega⟩
    have hrest : t.aliasInScope qualifier steps (some p) = true ↔ _ := ih (by simpa using hsteps)
    rw [aliasInScope, slot_ok hs]
    simp only [hp, Bool.if_true_left, Bool.or_eq_true, decide_eq_true_eq, hrest,
      declaring_iff h qualifier (.step hs hp hup) hs, List.mem_cons, exists_eq_or_imp]

theorem aliasInScope_around (h : t.Linked) (qualifier : String) {id : NodeId} {s : Slot}
    (hs : t.slots[id]? = some s) {around : List NodeId} (hup : t.Ascends id (id :: around)) :
    t.aliasInScope qualifier (t.size + 1) s.parent = true ↔ t.AliasedAround id qualifier := by
  have hsame : t.AliasedAround id qualifier ↔
      ∃ select ∈ around, ∃ d, t.Declares select d ∧ t.HasAlias d qualifier := by
    constructor
    · rintro ⟨around', hup', hfound⟩
      cases hup.unique hup'
      exact hfound
    · exact fun hfound => ⟨around, hup, hfound⟩
  rw [hsame]
  cases hup with
  | top hs' hp =>
    cases hs.symm.trans hs'
    simp [hp, aliasInScope]
  | step hs' hp hup =>
    cases hs.symm.trans hs'
    have hlen := hup.length_le
    rw [hp, aliasInScope_iff h qualifier hup (by simp only [size]; omega)]

/-! ## What is written -/

theorem renderColumn_text {s : Slot} {ref : ColumnRef} {qualifier : String}
    (hqualifier : ref.table = some qualifier) (sink : Sink) :
    t.renderColumn s ref sink = sink.text
      (sink.style.write (sink.style.delimits (t.aliasInScope qualifier (t.size + 1) s.parent)
        qualifier) qualifier ++ "." ++ sink.style.quoteName ref.name) := by
  simp only [renderColumn, hqualifier, renderQualifier]
  cases t.aliasInScope qualifier (t.size + 1) s.parent <;>
    simp [Sink.alias_, Sink.identifier, Sink.text, QuoteStyle.delimits, QuoteStyle.write,
      QuoteStyle.quoteAlias, QuoteStyle.quoteName, String.append_assoc]

theorem renderShape_column {id : NodeId} {s : Slot} {ref : ColumnRef} {qualifier : String}
    (href : s.node.reference? = some ref) (hqualifier : ref.table = some qualifier)
    (render : NodeId → Sink → Except Defect Sink) (sink : Sink) :
    t.renderShape render id s sink = .ok (sink.text (s.node.columnText
      (sink.style.write (sink.style.delimits (t.aliasInScope qualifier (t.size + 1) s.parent)
        qualifier) qualifier ++ "." ++ sink.style.quoteName ref.name))) := by
  unfold renderShape
  cases hnode : s.node <;> rw [hnode] at href <;> cases href
  case column => simp only [renderColumn_text hqualifier, Node.columnText]
  case trimmedColumn strip =>
    simp [renderColumn_text hqualifier, Node.columnText, Sink.text, String.append_assoc]

theorem renderShape_table {id : NodeId} {s : Slot} {name : String} {schema alias_ : Option String}
    (htable : s.node = .table name schema alias_) (render : NodeId → Sink → Except Defect Sink)
    (sink : Sink) : t.renderShape render id s sink = .ok (sink.text (sink.style.tableText
      (sink.style.delimits alias_.isSome (alias_.getD name)) name schema alias_)) := by
  unfold renderShape
  rw [htable]
  cases schema <;> cases alias_ <;>
    simp [QuoteStyle.tableText, Sink.text, Sink.identifier, Sink.alias_, QuoteStyle.delimits,
      QuoteStyle.write, QuoteStyle.quoteName, QuoteStyle.quoteAlias, String.append_assoc]

/-- The qualifier of a column and the name that the table it means is declared by are both
delimited, or neither is, exactly if the mode does not delimit all names but aliases, or the
qualifier is reserved or not plain, or some select around has a table with an alias spelled like the
qualifier just when the table that is meant has an alias. -/
theorem renderShape_qualifier (h : t.Linked) {id d : NodeId} {s sd : Slot} {ref : ColumnRef}
    {qualifier name : String} {schema alias_ : Option String} (hs : t.slots[id]? = some s)
    (href : s.node.reference? = some ref) (hqualifier : ref.table = some qualifier)
    (hd : t.slots[d]? = some sd) (htable : sd.node = .table name schema alias_)
    (hmeans : t.Means id qualifier d) (style : QuoteStyle) :
    ∃ delimited declared : Bool,
      (∀ render sink, sink.style = style → t.renderShape render id s sink =
        .ok (sink.text (s.node.columnText
          (style.write delimited qualifier ++ "." ++ style.quoteName ref.name)))) ∧
      (∀ render sink, sink.style = style → t.renderShape render d sd sink =
        .ok (sink.text (style.tableText declared name schema alias_))) ∧
      (delimited = declared ↔ style.mode ≠ .always ∨ Identifier.needsQuoting qualifier = true ∨
        (t.AliasedAround id qualifier ↔ alias_.isSome = true)) := by
  obtain ⟨inner, select, outer, hup, -, ⟨sd', declaredName, hsd', hdeclared, hsame⟩, -⟩ := hmeans
  cases hd.symm.trans hsd'
  rw [htable, Node.declared?, Option.some.injEq] at hdeclared
  subst hdeclared
  refine ⟨style.delimits (t.aliasInScope qualifier (t.size + 1) s.parent) qualifier,
    style.delimits alias_.isSome (alias_.getD name), ?_, ?_, ?_⟩
  · rintro render sink rfl
    exact renderShape_column href hqualifier render sink
  · rintro render sink rfl
    exact renderShape_table htable render sink
  · have haround : t.aliasInScope qualifier (t.size + 1) s.parent = alias_.isSome ↔
        (t.AliasedAround id qualifier ↔ alias_.isSome = true) := by
      rw [Bool.eq_iff_iff, aliasInScope_around h qualifier hs hup]
    rw [style.delimits_eq_iff hsame, haround]

/-- `SELECT a FROM b WHERE EXISTS (SELECT c FROM d)`. -/
def nestedTerm (a : ColumnRef) (b : Node) (c : ColumnRef) (d : Node) : Term :=
  .of .select [.of .result [.leaf (.column a)], .of .fromClause [.leaf b],
    .of .whereClause [.of (.exists_ false) [.of .select [.of .result [.leaf (.column c)],
      .of .fromClause [.leaf d]]]]]

def nested (a : ColumnRef) (b : Node) (c : ColumnRef) (d : Node) : Tree :=
  (nestedTerm a b c d).build

section

variable (a c : ColumnRef) (b d : Node)

theorem nested_linked : (nested a b c d).Linked :=
  (wellFormed_iff_linked.1 (Term.build_wellFormed _)).1

theorem nested_slots : (nested a b c d).slots = #[⟨.empty, none, [], none⟩,
    ⟨.select, none, [2, 4, 6], none⟩, ⟨.result, some 1, [3], none⟩, ⟨.column a, some 2, [], none⟩,
    ⟨.fromClause, some 1, [5], none⟩, ⟨b, some 4, [], none⟩, ⟨.whereClause, some 1, [7], none⟩,
    ⟨.exists_ false, some 6, [8], none⟩, ⟨.select, some 7, [9, 11], none⟩,
    ⟨.result, some 8, [10], none⟩, ⟨.column c, some 9, [], none⟩,
    ⟨.fromClause, some 8, [12], none⟩, ⟨d, some 11, [], none⟩] := by
  cbv

theorem nested_declares_outer : (nested a b c d).Declares 1 5 :=
  ⟨_, by rw [nested_slots]; rfl, rfl, 4, by simp, by rw [node, slot, nested_slots]; rfl,
    .step (by rw [nested_slots]; rfl) rfl (by simp) (.self 5)⟩

theorem nested_declares_inner : (nested a b c d).Declares 8 12 :=
  ⟨_, by rw [nested_slots]; rfl, rfl, 11, by simp, by rw [node, slot, nested_slots]; rfl,
    .step (by rw [nested_slots]; rfl) rfl (by simp) (.self 12)⟩

theorem nested_ascends_outer : (nested a b c d).Ascends 3 [3, 2, 1] := by
  refine .step (by rw [nested_slots]; rfl) rfl ?_
  refine .step (by rw [nested_slots]; rfl) rfl ?_
  exact .top (by rw [nested_slots]; rfl) rfl

theorem nested_ascends_inner : (nested a b c d).Ascends 10 [10, 9, 8, 7, 6, 1] := by
  refine .step (by rw [nested_slots]; rfl) rfl ?_
  refine .step (by rw [nested_slots]; rfl) rfl ?_
  refine .step (by rw [nested_slots]; rfl) rfl ?_
  refine .step (by rw [nested_slots]; rfl) rfl ?_
  refine .step (by rw [nested_slots]; rfl) rfl ?_
  exact .top (by rw [nested_slots]; rfl) rfl

theorem nested_results {x e : NodeId} (hx : x = 2 ∨ x = 9) : ¬ (nested a b c d).Declares x e := by
  rintro ⟨s, hs, hselect, -⟩
  rw [nested_slots] at hs
  obtain rfl | rfl := hx <;> cases hs <;> cases hselect

variable {name qualifier : String}

theorem nested_means_outer (hname : b.declared? = some name)
    (hsame : Text.sameIgnoringCase name qualifier = true) :
    (nested a b c d).Means 3 qualifier 5 := by
  refine ⟨[2], 1, [], nested_ascends_outer .., nested_declares_outer .., ?_, fun x hx e he => ?_⟩
  · exact ⟨_, name, by rw [nested_slots]; rfl, hname, hsame⟩
  · exact absurd he (nested_results _ _ _ _ (.inl (List.mem_singleton.1 hx)))

theorem nested_means_inner (hname : d.declared? = some name)
    (hsame : Text.sameIgnoringCase name qualifier = true) :
    (nested a b c d).Means 10 qualifier 12 := by
  refine ⟨[9], 8, [7, 6, 1], nested_ascends_inner .., nested_declares_inner .., ?_,
    fun x hx e he => ?_⟩
  · exact ⟨_, name, by rw [nested_slots]; rfl, hname, hsame⟩
  · exact absurd he (nested_results _ _ _ _ (.inr (List.mem_singleton.1 hx)))

end

/-- `SELECT o.name FROM artist o WHERE EXISTS (SELECT o.id FROM painting o)`. -/
def homonyms : Tree :=
  nested ⟨some "o", "name", none⟩ (.table "artist" none (some "o")) ⟨some "o", "id", none⟩
    (.table "painting" none (some "o"))

theorem renderShape_qualifier_homonyms : homonyms.Linked ∧ homonyms.Means 10 "o" 12 ∧
    ∃ delimited : Bool,
      (∀ render sink, sink.style = ⟨.always, '"'⟩ → homonyms.renderShape render 10
        ⟨.column ⟨some "o", "id", none⟩, some 9, [], none⟩ sink =
          .ok (sink.text (QuoteStyle.write ⟨.always, '"'⟩ delimited "o" ++ "." ++
            QuoteStyle.quoteName ⟨.always, '"'⟩ "id"))) ∧
      ∀ render sink, sink.style = ⟨.always, '"'⟩ → homonyms.renderShape render 12
        ⟨.table "painting" none (some "o"), some 11, [], none⟩ sink =
          .ok (sink.text (QuoteStyle.tableText ⟨.always, '"'⟩ delimited "painting" none
            (some "o"))) := by
  have hlinked : homonyms.Linked := nested_linked ..
  have hcolumn : homonyms.slots[10]? = some ⟨.column ⟨some "o", "id", none⟩, some 9, [], none⟩ := by
    rw [homonyms, nested_slots]
    rfl
  have htable : homonyms.slots[12]? =
      some ⟨.table "painting" none (some "o"), some 11, [], none⟩ := by
    rw [homonyms, nested_slots]
    rfl
  have hmeans : homonyms.Means 10 "o" 12 := nested_means_inner _ _ _ _ rfl (by decide)
  have haround : homonyms.AliasedAround 10 "o" :=
    ⟨_, nested_ascends_inner .., 8, by simp, 12, nested_declares_inner .., _, htable, rfl⟩
  obtain ⟨delimited, declared, hqualifier, hname, hiff⟩ := renderShape_qualifier hlinked hcolumn
    rfl rfl htable rfl hmeans ⟨.always, '"'⟩
  obtain rfl := hiff.2 (.inr (.inr (iff_of_true haround rfl)))
  exact ⟨hlinked, hmeans, delimited, hqualifier, hname⟩

/-- `SELECT T.b FROM x t WHERE EXISTS (SELECT t.a FROM t)`. -/
def shadowed : Tree :=
  nested ⟨some "T", "b", none⟩ (.table "x" none (some "t")) ⟨some "t", "a", none⟩
    (.table "t" none none)

/-- The first qualifier means the table with the alias, the second the table of the inner select;
neither is written like the table it means. -/
theorem shadowed_apart : shadowed.Means 3 "T" 5 ∧ shadowed.Means 10 "t" 12 ∧
    (shadowed.render ⟨.always, '"'⟩).toOption.map (·.sql) =
      some "SELECT \"T\".\"b\" FROM \"x\" t WHERE EXISTS (SELECT t.\"a\" FROM \"t\")" := by
  refine ⟨nested_means_outer _ _ _ _ rfl (by decide),
    nested_means_inner _ _ _ _ rfl (by decide), ?_⟩
  obtain ⟨l, hid, hterm, hl, -⟩ := Term.build_layout (nestedTerm ⟨some "T", "b", none⟩
    (.table "x" none (some "t")) ⟨some "t", "a", none⟩ (.table "t" none none))
  rw [shadowed, nested, render_pieces hl hid.symm, hterm]
  decide +kernel

end Tree
end PolyglotSql
