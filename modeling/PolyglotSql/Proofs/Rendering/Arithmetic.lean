import PolyglotSql.Proofs.Rendering.Bindings
import PolyglotSql.Proofs.Rendering.Names
import PolyglotSql.Proofs.Rendering.Precedence

/-!
# PolyglotSql.Proofs.Rendering.Arithmetic

Arithmetic in SQLite, where `MOD` is an operator. Calls lose their brackets on the way, so the text
of an expression is read as the expression only if its operands need no brackets (`Grouped`). Then
the text reads back with the value of the source in every row, wherever the expression stands
(`Piece.shows_grouped`), among the results of a select in particular
(`Translator.translateTree_arithmetic`).
-/

namespace PolyglotSql

open Lexeme

/-! ## Expressions of the source -/

def ArithOp.sql : ArithOp → Sql.BinaryOperator
  | .plus => .plus
  | .minus => .minus
  | .times => .times
  | .divide => .divide
  | .remainder => .remainder

def ArithOp.ofSql? : Sql.BinaryOperator → Option ArithOp
  | .plus => some .plus
  | .minus => some .minus
  | .times => some .times
  | .divide => some .divide
  | .remainder => some .remainder
  | _ => none

theorem ArithOp.ofSql?_sql (op : ArithOp) : ofSql? op.sql = some op := by
  cases op <;> rfl

namespace Sql

/-- The number that a literal spells, if it fits 64 bits. -/
def Literal.natural? : Literal → Option Nat
  | .number digits _ => (Text.readDigits? digits.toList).filter (· < 2 ^ 63)
  | _ => none

/-- The column that a path means, of which the last two parts count. -/
def Path.column? (row : IntRow) (path : Path) : Option Int :=
  match path.reverse with
  | column :: table :: _ => some (row (some table.value) column.value)
  | [column] => some (row none column.value)
  | [] => none

/-- The value of an arithmetic expression; there is none for other expressions. -/
def Expr.value (row : IntRow) : Expr → Option Int
  | .identifier n => some (row none n.value)
  | .compound path => Path.column? row path
  | .literal l _ => l.natural?.map Int.ofNat
  | .unary .minus (.literal l _) => l.natural?.map fun n => -n
  | .nested e => e.value row
  | .binary left op right => do
    let op ← ArithOp.ofSql? op
    op.apply (← left.value row) (← right.value row)
  | .call ⟨path, _, .list _ [.expr x, .expr y] _, _, _, _, _, _⟩ =>
    if Canonical.functionName (pathText path) = "MOD" then do
      ArithOp.remainder.apply (← x.value row) (← y.value row)
    else none
  | _ => none

/-- Arithmetic that groups at a level without the brackets of its calls: what a reader groups in the
operands of `MOD` is what it groups in those of an operator. -/
inductive Expr.Grouped : Expr → ArithLevel → Prop
  | identifier (n : Name) : Grouped (.identifier n) .atom
  | compound (path : Path) : Grouped (.compound path) .atom
  | literal {l : Literal} {k : Nat} (h : l.natural? = some k) (span : Span) :
    Grouped (.literal l span) .atom
  | negative {l : Literal} {k : Nat} (h : l.natural? = some k) (span : Span) :
    Grouped (.unary .minus (.literal l span)) .atom
  | nested {e : Expr} (h : Grouped e .sum) : Grouped (.nested e) .atom
  | binary (op : ArithOp) {left right : Expr} (hleft : Grouped left op.level)
    (hright : Grouped right op.level.above) : Grouped (.binary left op.sql right) op.level
  | mod {path : Path} (hname : Canonical.functionName (pathText path) = "MOD") {x y : Expr}
    (hleft : Grouped x .product) (hright : Grouped y .atom) (parameters : Arguments)
    (clauses : List ArgumentClause) (nullTreatment : Option Phrase) (braced : Bool) :
    Grouped (.call ⟨path, parameters, .list none [.expr x, .expr y] clauses, [], none,
      nullTreatment, none, braced⟩) .product
  | product {e : Expr} (h : Grouped e .atom) : Grouped e .product
  | sum {e : Expr} (h : Grouped e .product) : Grouped e .sum

theorem Literal.value_natural {l : Literal} {k : Nat} (h : l.natural? = some k) :
    l.value = .ok (.integer (.ofNat k)) ∧ k < 2 ^ 63 := by
  unfold natural? at h
  split at h
  · rename_i digits long
    obtain ⟨hdigits, hk⟩ := Option.filter_eq_some_iff.1 h
    have hk : k < 2 ^ 63 := by simpa using hk
    refine ⟨?_, hk⟩
    have hvalue : numberValue? digits = some (.integer (.ofNat k)) := by
      unfold numberValue?
      rw [hdigits]
      exact if_pos hk
    rw [value, hvalue]
  · cases h

end Sql

/-! ## What is written of operations -/

section

variable {above : NodeKind} {around : Around}

/-- The canonical term of an operation. -/
def ArithOp.term (op : ArithOp) (left right : Term) : Term :=
  match op with
  | .remainder => .call "MOD" [left, right]
  | op => left.operation (String.singleton op.sign) right

theorem Canonical.binary_arith (op : ArithOp) (left right : Term) :
    binary op.sql left right = .ok (op.term left right) := by
  cases op <;> rfl

theorem Term.rewriteTop_mod {left right t : Term}
    (h : rewriteTop .sqlite above (call "MOD" [left, right]) = .ok t) :
    t = of (.operation "%") [left, right] := by
  have hupper : call "MOD" [left, right] =
      .mk (.function "MOD" true .canonical) none [left, right] := by
    rfl
  have hrule : Dialect.functionRule .sqlite "MOD" = .operator "%" := by rfl
  rw [hupper, rewriteTop, rewriteCall, hrule] at h
  split at h
  · cases h
  · cases h
    rfl

/-- An operation is written between its operands, remainders among them. -/
theorem Term.rewrite_arith {op : ArithOp} {left right : Term}
    (h : (rewrite .sqlite above (op.term left right)).2 = none) :
    (rewrite .sqlite above (op.term left right)).1 =
        of (.operation (String.singleton op.sign)) [(rewrite .sqlite .expression left).1,
          (rewrite .sqlite .expression right).1] ∧
      (rewrite .sqlite .expression left).2 = none ∧
        (rewrite .sqlite .expression right).2 = none := by
  have htop : rewriteTop .sqlite above (op.term left right) =
      .ok (of (.operation (String.singleton op.sign)) [left, right]) := by
    cases op with
    | remainder =>
      cases hmod : rewriteTop .sqlite above (call "MOD" [left, right]) with
      | error refusal =>
        rw [ArithOp.term, rewrite_error hmod] at h
        cases h
      | ok t =>
        rw [ArithOp.term, hmod, rewriteTop_mod hmod]
        rfl
    | _ => rfl
  obtain ⟨hterm, hchildren⟩ := rewrite_children htop h
  exact ⟨hterm, hchildren left (by simp), hchildren right (by simp)⟩

theorem Term.column_pieces {ref : ColumnRef} {ps : List Piece}
    (hnone : (rewrite .sqlite above (leaf (.column ref))).2 = none)
    (h : (rewrite .sqlite above (leaf (.column ref))).1.pieces around = some ps) :
    ps = Node.columnPieces around ref := by
  have htop : rewriteTop .sqlite above (leaf (.column ref)) = .ok (leaf (.column ref)) := rfl
  rw [(rewrite_children htop hnone).1, pieces_mk] at h
  simpa [Node.shape, Node.form] using h.symm

theorem Term.value_pieces {v : Value} {ps : List Piece}
    (hnone : (rewrite .sqlite above (.value v)).2 = none)
    (h : (rewrite .sqlite above (.value v)).1.pieces around = some ps) : ps = v.pieces none := by
  have htop : rewriteTop .sqlite above (.value v) = .ok (.value v) := rfl
  rw [(rewrite_children htop hnone).1, pieces_mk] at h
  simpa [Node.shape, Node.form] using h.symm

theorem Term.operation_pieces {operator : String} {left right : Term} {ps : List Piece}
    (h : pieces around (of (.operation operator) [left, right]) = some ps) :
    ∃ around qs qs', left.pieces around = some qs ∧ right.pieces around = some qs' ∧
      ps = qs ++ .raw (" " ++ operator ++ " ") :: qs' := by
  rw [of, pieces_mk] at h
  obtain ⟨inner, hinner, rfl⟩ := Option.map_eq_some_iff.1 h
  obtain ⟨own, hown, rfl⟩ := Option.map_eq_some_iff.1 hinner
  obtain ⟨qs, rest, hqs, hrest, rfl⟩ := Part.separated_cons.1 hown
  obtain ⟨qs', rest', hqs', hrest', rfl⟩ := Part.separated_cons.1 hrest
  cases hrest'
  exact ⟨_, qs, qs', hqs, hqs', by simp [Part.lead, Node.sameText]⟩

/-- What is written of an operation is what is written of its operands, with its sign between. -/
theorem Term.arith_pieces {op : ArithOp} {left right : Term} {ps : List Piece}
    (hnone : (rewrite .sqlite above (op.term left right)).2 = none)
    (h : (rewrite .sqlite above (op.term left right)).1.pieces around = some ps) :
    ∃ around qs qs', (rewrite .sqlite .expression left).2 = none ∧
      (rewrite .sqlite .expression left).1.pieces around = some qs ∧
      (rewrite .sqlite .expression right).2 = none ∧
      (rewrite .sqlite .expression right).1.pieces around = some qs' ∧
      ps = qs ++ .raw (" " ++ String.singleton op.sign ++ " ") :: qs' := by
  obtain ⟨hterm, hleft, hright⟩ := rewrite_arith hnone
  rw [hterm] at h
  obtain ⟨around, qs, qs', hqs, hqs', rfl⟩ := operation_pieces h
  exact ⟨around, qs, qs', hleft, hqs, hright, hqs', rfl⟩

theorem Term.group_pieces {t : Term} {ps : List Piece}
    (h : pieces around (of .group [t]) = some ps) :
    ∃ around qs, t.pieces around = some qs ∧ ps = .raw "(" :: (qs ++ [.raw ")"]) := by
  rw [of, pieces_mk] at h
  obtain ⟨inner, hinner, rfl⟩ := Option.map_eq_some_iff.1 h
  obtain ⟨own, hown, rfl⟩ := Option.map_eq_some_iff.1 hinner
  obtain ⟨qs, rest, hqs, hrest, rfl⟩ := Part.separated_cons.1 hown
  cases hrest
  exact ⟨_, qs, hqs, by simp [Part.lead]⟩

end

/-! ## What is read of operations -/

namespace Lexeme

/-- The lexemes of a text, wherever no name goes on behind it. -/
def Spells (quote : Char) (text : List Char) (ls : List Lexeme) : Prop :=
  ∀ rest, Apart quote rest → read quote (text ++ rest) = ls ++ read quote rest

variable {style : QuoteStyle} {quote : Char} {s s' : List Char} {ls ls' : List Lexeme}

theorem Spells.read (h : Spells quote s ls) : read quote s = ls := by
  simpa using h [] apart_nil

theorem Spells.blank (hquote : quote ≠ ' ') (h : Spells quote s ls) :
    Spells quote (' ' :: s) ls := by
  intro rest hrest
  rw [List.cons_append, read_blank hquote, h rest hrest]

theorem Spells.sign {c : Char} (hc : IsSign quote c) (h : Spells quote s ls) :
    Spells quote (c :: s) (.sign c :: ls) := by
  intro rest hrest
  rw [List.cons_append, read_sign hc, h rest hrest, List.cons_append]

theorem spells_nil : Spells quote [] [] :=
  fun _ _ => rfl

theorem Spells.append {c : Char} {cs : List Char} (hpart : Identifier.isPlainPart c = false)
    (hc : c ≠ quote) (h : Spells quote s ls) (h' : Spells quote (c :: cs) ls') :
    Spells quote (s ++ c :: cs) (ls ++ ls') := by
  intro rest hrest
  rw [List.append_assoc, List.append_assoc, ← h' rest hrest]
  exact h _ (apart_cons hpart hc (cs ++ rest))

/-- The signs of arithmetic are signs, and no name goes on with them. -/
theorem isSign_arith (hquote : Placeholder.IsDelimiter quote) {c : Char}
    (hc : c ∈ ['?', '(', ')', '.', '+', '-', '*', '/', '%']) :
    IsSign quote c ∧ Identifier.isPlainPart c = false := by
  simp only [List.mem_cons, List.not_mem_nil, or_false] at hc
  rcases hquote with rfl | rfl <;>
    rcases hc with rfl | rfl | rfl | rfl | rfl | rfl | rfl | rfl | rfl <;> decide

theorem Spells.qualified (hquote : Placeholder.IsDelimiter quote) (h : Spells quote s ls)
    (h' : Spells quote s' ls') : Spells quote (s ++ '.' :: s') (ls ++ .sign '.' :: ls') := by
  obtain ⟨hsign, hpart⟩ := isSign_arith hquote (c := '.') (by simp)
  exact h.append hpart hsign.1 (h'.sign hsign)

theorem Spells.bracket (hquote : Placeholder.IsDelimiter quote) (h : Spells quote s ls) :
    Spells quote ('(' :: (s ++ [')'])) (.sign '(' :: (ls ++ [.sign ')'])) := by
  obtain ⟨hopen, -⟩ := isSign_arith hquote (c := '(') (by simp)
  obtain ⟨hclose, hpart⟩ := isSign_arith hquote (c := ')') (by simp)
  exact (h.append hpart hclose.1 (spells_nil.sign hclose)).sign hopen

theorem Spells.operation (hquote : Placeholder.IsDelimiter quote) (op : ArithOp)
    (h : Spells quote s ls) (h' : Spells quote s' ls') :
    Spells quote (s ++ ' ' :: op.sign :: ' ' :: s') (ls ++ .sign op.sign :: ls') := by
  obtain ⟨hsign, -⟩ := isSign_arith hquote (c := op.sign) (by cases op <;> decide)
  have hblank : quote ≠ ' ' := by
    rcases hquote with rfl | rfl <;> decide
  exact h.append (by decide) hblank.symm (((h'.blank hblank).sign hsign).blank hblank)

theorem spells_question (hquote : Placeholder.IsDelimiter quote) :
    Spells quote ['?'] [.sign '?'] :=
  spells_nil.sign (isSign_arith hquote (by simp)).1

theorem spells_name (hquote : Placeholder.IsDelimiter style.quote) (name : String) :
    Spells style.quote (style.quoteName name).toList [.name name] :=
  fun _ hrest => read_quoteName name (isPlainPart_quote hquote) hrest

theorem spells_alias (hquote : Placeholder.IsDelimiter style.quote) (alias_ : String) :
    Spells style.quote (style.quoteAlias alias_).toList [.name alias_] :=
  fun _ hrest => read_quoteAlias alias_ (isPlainPart_quote hquote) hrest

end Lexeme

namespace Piece

/-- The values that some pieces bind, in turn. -/
def values (ps : List Piece) : List Value :=
  (ps.filterMap boundValue?).map (·.1)

@[simp] theorem values_nil : values [] = [] := rfl

@[simp] theorem values_append (ps qs : List Piece) :
    values (ps ++ qs) = values ps ++ values qs := by
  simp [values]

@[simp] theorem values_raw (s : String) (ps : List Piece) : values (.raw s :: ps) = values ps := rfl

end Piece

theorem Sink.finish_values (style : QuoteStyle) (ps : List Piece) :
    ((Sink.new style).putAll ps).finish.bindings.map (·.value) = Piece.values ps := by
  have hbindings := congrArg (List.map Prod.fst) (putAll_bindings (Sink.new style) ps)
  simpa [finish, Sink.new, Piece.values, Function.comp_def] using hbindings

/-- Pieces that a reader takes for an expression of a level. -/
def Piece.Shows (style : QuoteStyle) (ps : List Piece) (level : ArithLevel) (e : Sql.Expr) : Prop :=
  ∃ ls tree, Lexeme.Spells style.quote (written style ps) ls ∧
    Arith.Reads ls (values ps) tree level ∧ ∀ row, tree.eval row = e.value row

namespace Piece

variable {style : QuoteStyle}

theorem shows_column (hquote : Placeholder.IsDelimiter style.quote) (around : Around)
    (ref : ColumnRef) {e : Sql.Expr} (he : ∀ row, e.value row = some (row ref.table ref.name)) :
    Shows style (Node.columnPieces around ref) .atom e := by
  have hname := Lexeme.spells_name hquote ref.name
  unfold Node.columnPieces
  split
  · rename_i table htable
    rw [htable] at he
    refine ⟨[.name table, .sign '.', .name ref.name], .column (some table) ref.name, ?_, ?_,
      fun row => (he row).symm⟩
    · have htext : Lexeme.Spells style.quote (chars style
          (if around.aliases table then .alias_ table else .name table)) [.name table] := by
        split
        · exact Lexeme.spells_alias hquote table
        · exact Lexeme.spells_name hquote table
      simpa [chars] using htext.qualified hquote hname
    · have hvalues : values [if around.aliases table then .alias_ table else .name table, .raw ".",
          .name ref.name] = [] := by
        split <;> rfl
      rw [hvalues]
      exact Arith.reads_qualified table ref.name
  · rename_i hnone
    rw [hnone] at he
    refine ⟨[.name ref.name], .column none ref.name, ?_, Arith.reads_column ref.name,
      fun row => (he row).symm⟩
    simpa [chars] using hname

theorem shows_integer (hquote : Placeholder.IsDelimiter style.quote) (n : Int64) {e : Sql.Expr}
    (he : ∀ row, e.value row = some n.toInt) :
    Shows style [.bound (.integer n) none] .atom e :=
  ⟨[.sign '?'], .number n, Lexeme.spells_question hquote, Arith.reads_number n,
    fun row => (he row).symm⟩

theorem Shows.product {ps : List Piece} {e : Sql.Expr} (h : Shows style ps .atom e) :
    Shows style ps .product e := by
  obtain ⟨ls, tree, hls, hreads, heval⟩ := h
  exact ⟨ls, tree, hls, hreads.product, heval⟩

theorem Shows.sum {ps : List Piece} {e : Sql.Expr} (h : Shows style ps .product e) :
    Shows style ps .sum e := by
  obtain ⟨ls, tree, hls, hreads, heval⟩ := h
  exact ⟨ls, tree, hls, hreads.sum, heval⟩

theorem Shows.bracket (hquote : Placeholder.IsDelimiter style.quote) {ps : List Piece}
    {e : Sql.Expr} (h : Shows style ps .sum e) :
    Shows style (.raw "(" :: (ps ++ [.raw ")"])) .atom (.nested e) := by
  obtain ⟨ls, tree, hls, hreads, heval⟩ := h
  have hvalues : values (.raw "(" :: (ps ++ [.raw ")"])) = values ps := by
    simp
  refine ⟨_, tree, ?_, hvalues ▸ hreads.bracket, heval⟩
  simpa [chars] using hls.bracket hquote

theorem Shows.operation (hquote : Placeholder.IsDelimiter style.quote) {ps qs : List Piece}
    (op : ArithOp) {left right e : Sql.Expr} (hleft : Shows style ps op.level left)
    (hright : Shows style qs op.level.above right)
    (he : ∀ row, e.value row = do op.apply (← left.value row) (← right.value row)) :
    Shows style (ps ++ .raw (" " ++ String.singleton op.sign ++ " ") :: qs) op.level e := by
  obtain ⟨ls, tree, hls, hreads, heval⟩ := hleft
  obtain ⟨ls', tree', hls', hreads', heval'⟩ := hright
  have hvalues : values (ps ++ .raw (" " ++ String.singleton op.sign ++ " ") :: qs) =
      values ps ++ values qs := by
    simp
  refine ⟨_, .operation op tree tree', ?_, hvalues ▸ hreads.operation op hreads', fun row => ?_⟩
  · simpa [chars] using hls.operation hquote op hls'
  · rw [he, Arith.eval, heval, heval']

end Piece

/-- No arithmetic is a subquery. -/
theorem Sql.Expr.Grouped.nested_term {e : Sql.Expr} {level : ArithLevel} (h : e.Grouped level)
    (scope : Scope) : Canonical.exprTerm scope (.nested e) = do
      return (← Canonical.exprTerm scope e).group := by
  induction h with
  | product _ ih => exact ih
  | sum _ ih => exact ih
  | _ => rfl

theorem Canonical.mod_term {path : Sql.Path} {x y : Sql.Expr} {parameters : Sql.Arguments}
    {clauses : List Sql.ArgumentClause} {nullTreatment : Option Sql.Phrase} {braced : Bool}
    {scope : Scope} {t : Term} (hname : functionName (Sql.pathText path) = "MOD")
    (ht : exprTerm scope (.call ⟨path, parameters, .list none [.expr x, .expr y] clauses, [], none,
      nullTreatment, none, braced⟩) = .ok t) :
    ∃ left right, exprTerm scope x = .ok left ∧ exprTerm scope y = .ok right ∧
      t = ArithOp.remainder.term left right := by
  have hcall : (do
      let terms ← argumentTerms scope [.expr x, .expr y]
      FunctionCatalogue.checkArity (functionName (Sql.pathText path)) 2
      return Term.call (functionName (Sql.pathText path)) terms) = .ok t := ht
  obtain ⟨terms, hterms, hcall⟩ := bind_eq_ok.1 hcall
  obtain ⟨_, -, hcall⟩ := bind_eq_ok.1 hcall
  rw [hname] at hcall
  cases hcall
  obtain ⟨left, hleft, hterms⟩ := bind_eq_ok.1 hterms
  obtain ⟨rest, hrest, hterms⟩ := bind_eq_ok.1 hterms
  cases hterms
  obtain ⟨right, hright, hrest⟩ := bind_eq_ok.1 hrest
  obtain ⟨_, hnil, hrest⟩ := bind_eq_ok.1 hrest
  cases hnil
  cases hrest
  exact ⟨left, right, hleft, hright, rfl⟩

theorem Canonical.columnTerm_value {path : Sql.Path} {scope : Scope} {t : Term}
    (ht : exprTerm scope (.compound path) = .ok t) : ∃ ref, t = .leaf (.column ref) ∧
      ∀ row, (Sql.Expr.compound path).value row = some (row ref.table ref.name) := by
  rw [exprTerm, columnTerm] at ht
  split at ht
  · rename_i column table schemas hpath
    cases ht
    exact ⟨_, rfl, fun row => by rw [Sql.Expr.value, Sql.Path.column?, hpath]⟩
  · rename_i column hpath
    cases ht
    exact ⟨_, rfl, fun row => by rw [Sql.Expr.value, Sql.Path.column?, hpath]⟩
  · cases ht

/-- The text of grouped arithmetic is read as what the source means. -/
theorem Piece.shows_grouped {e : Sql.Expr} {level : ArithLevel} (h : e.Grouped level)
    {scope : Scope} {above : NodeKind} {around : Around} {style : QuoteStyle} {t : Term}
    {ps : List Piece} (hquote : Placeholder.IsDelimiter style.quote)
    (ht : Canonical.exprTerm scope e = .ok t) (hnone : (t.rewrite .sqlite above).2 = none)
    (hps : (t.rewrite .sqlite above).1.pieces around = some ps) :
    Shows style ps level e := by
  -- The induction is on the grouping, not on the expression: that a term holds together tighter than
  -- is asked for is a case of its own, and no case has to compare levels.
  induction h generalizing above around t ps with
  | identifier n =>
    cases ht
    rw [Term.column_pieces hnone hps]
    exact shows_column hquote around _ fun _ => rfl
  | compound path =>
    obtain ⟨ref, rfl, hvalue⟩ := Canonical.columnTerm_value ht
    rw [Term.column_pieces hnone hps]
    exact shows_column hquote around ref hvalue
  | @literal l k h span =>
    obtain ⟨hl, hk⟩ := Sql.Literal.value_natural h
    rw [Canonical.exprTerm, hl] at ht
    cases ht
    rw [Term.value_pieces hnone hps]
    refine shows_integer hquote _ fun row => ?_
    rw [Sql.Expr.value, h, Int64.toInt_ofNat_of_lt hk]
    rfl
  | @negative l k h span =>
    obtain ⟨hl, hk⟩ := Sql.Literal.value_natural h
    rw [Canonical.exprTerm, hl] at ht
    cases ht
    rw [Term.value_pieces hnone hps]
    refine shows_integer hquote _ fun row => ?_
    rw [Sql.Expr.value, h, Int64.toInt_neg, Int64.toInt_ofNat_of_lt hk,
      Int.bmod_eq_of_le (by omega) (by omega)]
    rfl
  | @nested e h ih =>
    rw [h.nested_term] at ht
    obtain ⟨inner, hinner, ht⟩ := bind_eq_ok.1 ht
    cases ht
    have htop : Term.rewriteTop .sqlite above inner.group = .ok (.mk .group none [inner]) := rfl
    obtain ⟨hterm, hbelow⟩ := Term.rewrite_children htop hnone
    rw [hterm] at hps
    obtain ⟨around, qs, hqs, rfl⟩ := Term.group_pieces hps
    exact (ih hinner (hbelow inner (by simp)) hqs).bracket hquote
  | @binary op left right hleft hright ihleft ihright =>
    rw [Canonical.exprTerm] at ht
    obtain ⟨left', hleft', ht⟩ := bind_eq_ok.1 ht
    obtain ⟨right', hright', ht⟩ := bind_eq_ok.1 ht
    rw [Canonical.binary_arith] at ht
    cases ht
    obtain ⟨around, qs, qs', hleftNone, hqs, hrightNone, hqs', rfl⟩ := Term.arith_pieces hnone hps
    refine (ihleft hleft' hleftNone hqs).operation hquote op (ihright hright' hrightNone hqs')
      fun row => ?_
    rw [Sql.Expr.value, ArithOp.ofSql?_sql]
    rfl
  | @mod path hname x y hleft hright parameters clauses nullTreatment braced ihleft ihright =>
    obtain ⟨left', right', hleft', hright', rfl⟩ := Canonical.mod_term hname ht
    obtain ⟨around, qs, qs', hleftNone, hqs, hrightNone, hqs', rfl⟩ := Term.arith_pieces hnone hps
    refine (ihleft hleft' hleftNone hqs).operation hquote .remainder
      (ihright hright' hrightNone hqs') fun row => ?_
    rw [Sql.Expr.value, if_pos hname]
  | product h ih => exact (ih ht hnone hps).product
  | sum h ih => exact (ih ht hnone hps).sum

/-! ## Results of a select -/

/-- The text of a selection for SQLite has what becomes of each result, and then what severs it from
the rest. -/
theorem Selection.result_split (style : QuoteStyle) {sel : Selection} {t : Term} {ps : List Piece}
    (hresult : t ∈ sel.results) (hnone : (sel.toTerm.adapted .sqlite).2 = none)
    (hps : (sel.toTerm.adapted .sqlite).1.pieces .outermost = some ps) :
    ∃ around own front back, (t.rewrite .sqlite .result).2 = none ∧
      (t.rewrite .sqlite .result).1.pieces around = some own ∧ ps = front ++ (own ++ back) ∧
      Lexeme.Severs style.quote (Piece.written style back) := by
  have hadapted : sel.toTerm.adapted .sqlite = Term.rewrite .sqlite .empty sel.toTerm := rfl
  rw [hadapted, toTerm_eq] at hnone hps
  obtain ⟨hterm, hclauses⟩ := Term.rewrite_select hnone
  rw [hterm, List.map_append, List.map_cons] at hps
  obtain ⟨hlist, hresults⟩ := Term.rewrite_children (t := .of .result sel.results)
    (show Term.rewriteTop .sqlite .select _ = .ok (.of .result sel.results) from rfl)
    (hclauses _ (by simp))
  obtain ⟨earlier, later, he⟩ := List.append_of_mem hresult
  rw [hlist, he, List.map_append, List.map_cons] at hps
  obtain ⟨front₁, list, rest₁, _, hitems, hrest₁, rfl⟩ := Term.listed_split (select_form _) hps
  obtain ⟨front₂, own, rest₂, _, hown, hrest₂, rfl⟩ := Term.listed_split rfl hitems
  have hlater : Severs style.quote (Piece.written style rest₂) := by
    refine Part.separated_severs (fun p hp own hown i b => ?_) hrest₂
    exact severs_of_opens (s := ", ".toList) (by decide) _
  have htrailing : ∀ u ∈ clause .fromClause sel.sources ++ sel.trailing, u.Trailing :=
    List.forall_mem_append.2 ⟨trailing_clause (.fromClause _), sel.trailing_trailing⟩
  have hbehind : Severs style.quote (Piece.written style rest₁) := by
    refine severs_clauses (d := .sqlite) (fun p hp => ?_) hrest₁
    obtain ⟨t', ht', rfl⟩ := List.mem_map.1 hp
    obtain ⟨u, hu, rfl⟩ := List.mem_map.1 ht'
    have hrewritten := hclauses u (List.mem_append_right _ (List.mem_cons_of_mem _ hu))
    exact ⟨u, _, htrailing u hu, .rewritten hrewritten, rfl⟩
  refine ⟨_, own, front₁ ++ front₂, rest₂ ++ (rest₁ ++ Node.bracket (isNested .outermost) ")"),
    hresults t hresult, hown, by simp, ?_⟩
  simp only [Piece.written_append]
  exact hlater.append (hbehind.append (severs_bracket _))

namespace Translator

/-- A result of a select that is arithmetic, and groups without the brackets of its calls, has the
same value in the text for SQLite as in the source, row by row. -/
theorem translateTree_arithmetic (mode : QuoteMode) {catalog : Catalog} {q : Sql.Query}
    {s : Sql.Select} {e : Sql.Expr} {level : ArithLevel} {t t' : Tree} {rendered : RenderedSql}
    (hselects : q.Selects s) (hitem : .expr e ∈ s.items) (hgrouped : e.Grouped level)
    (htree : Canonical.tree catalog (.query q) = .ok t)
    (hy : Yields (translateTree ⟨.sqlite, mode⟩) t (.ok rendered) t') :
    ∃ before text after earlier own later tree,
      rendered.sql.toList = before ++ (text ++ after) ∧ Lexeme.Severs '"' after ∧
      rendered.bindings.map (·.value) = earlier ++ (own ++ later) ∧
      Arith.read own (Lexeme.read '"' text) = some tree ∧ ∀ row, tree.eval row = e.value row := by
  let style : QuoteStyle := ⟨mode, '"'⟩
  have hquote : Placeholder.IsDelimiter style.quote := quoteChar_isDelimiter .sqlite
  obtain ⟨sel, rfl, hitems, -⟩ := Canonical.tree_select hselects htree
  obtain ⟨hnone, ps, hps, rfl⟩ := translateTree_selection hy
  obtain ⟨term, hmem, hterm⟩ := Canonical.itemTerms_mem hitems hitem
  obtain ⟨around, own, front, back, hrewritten, hown, rfl, hback⟩ :=
    Selection.result_split style hmem hnone hps
  obtain ⟨ls, tree, hls, hreads, heval⟩ :=
    Piece.shows_grouped hgrouped hquote hterm hrewritten hown
  have hlexemes : Lexeme.read '"' (Piece.written style own) = ls := hls.read
  refine ⟨Piece.written style front, Piece.written style own, Piece.written style back,
    Piece.values front, Piece.values own, Piece.values back, tree, ?_, hback, ?_, ?_, heval⟩
  · rw [Sink.finish_written, Piece.written_append, Piece.written_append]
    rfl
  · rw [Sink.finish_values, Piece.values_append, Piece.values_append]
  · rw [hlexemes]
    exact hreads.toSum.read

/-- `MOD(x, y)`. -/
def modCall (x y : Sql.Expr) : Sql.Expr :=
  .call {
    name := [.bare "MOD"], parameters := .none, arguments := .list none [.expr x, .expr y] []
    withinGroup := [], filter := none, nullTreatment := none, overClause := none, braced := false }

def two : Sql.Expr := .literal (.number "2" false) .empty

/-- `SELECT b - MOD(a * 2, c) FROM t`. -/
def groupedRemainder : Sql.Query :=
  .selecting [.expr (.binary (.identifier (.bare "b")) .minus
    (modCall (.binary (.identifier (.bare "a")) .times two) (.identifier (.bare "c"))))]
    [⟨.named [.bare "t"], []⟩]

theorem translateTree_arithmetic_groupedRemainder : ∃ s e t rendered t',
    groupedRemainder.Selects s ∧ .expr e ∈ s.items ∧ e.Grouped .sum ∧
    Canonical.tree .empty (.query groupedRemainder) = .ok t ∧
    Yields (translateTree ⟨.sqlite, .whenNeeded⟩) t (.ok rendered) t' ∧
    rendered.sql = "SELECT b - a * ? % c FROM t" ∧
    ∃ before text after earlier own later tree,
      rendered.sql.toList = before ++ (text ++ after) ∧ Lexeme.Severs '"' after ∧
      rendered.bindings.map (·.value) = earlier ++ (own ++ later) ∧
      Arith.read own (Lexeme.read '"' text) = some tree ∧ ∀ row, tree.eval row = e.value row := by
  let column (name : String) : Term := .leaf (.column ⟨none, name, none⟩)
  let sel : Selection := { Selection.empty with
    results := [(column "b").operation "-"
      (.call "MOD" [(column "a").operation "*" (.value (.integer 2)), column "c"])]
    sources := [.leaf (.table "t" none none)] }
  have hselects : groupedRemainder.Selects _ := .direct rfl
  have hgrouped : Sql.Expr.Grouped (.binary (.identifier (.bare "b")) .minus
      (modCall (.binary (.identifier (.bare "a")) .times two) (.identifier (.bare "c")))) .sum :=
    .binary .minus (.sum (.product (.identifier _)))
      (.mod rfl (.binary .times (.product (.identifier _)) (.literal (k := 2) rfl _))
        (.identifier _) _ _ _ _)
  have htree : Canonical.tree .empty (.query groupedRemainder) = .ok sel.toTerm.build := by rfl
  have hsql : sel.toTerm.translated ⟨.sqlite, .whenNeeded⟩ =
      some ⟨"SELECT b - a * ? % c FROM t", [⟨1, .integer 2, none⟩]⟩ := by
    rw [Term.translated, Term.adapted_within]
    decide +kernel
  obtain ⟨t', hy⟩ := (translateTree_iff ⟨.sqlite, .whenNeeded⟩ sel.toTerm.build_wellFormed
    sel.toTerm.build_term).2 hsql
  exact ⟨_, _, _, _, t', hselects, List.mem_singleton.2 rfl, hgrouped, htree, hy, rfl,
    translateTree_arithmetic .whenNeeded hselects (List.mem_singleton.2 rfl) hgrouped htree hy⟩

/-- `MOD(a + b, 2)`. -/
def remainderOfSum : Sql.Expr :=
  modCall (.binary (.identifier (.bare "a")) .plus (.identifier (.bare "b"))) two

/-- The operand of a remainder is torn apart where it is a sum. -/
theorem remainderOfSum_regrouped : ∃ t rendered t' tree,
    Canonical.tree .empty (.query (.selecting [.expr remainderOfSum] [⟨.named [.bare "t"], []⟩])) =
      .ok t ∧
    Yields (translateTree ⟨.sqlite, .whenNeeded⟩) t (.ok rendered) t' ∧
    rendered.sql = "SELECT a + b % ? FROM t" ∧
    rendered.bindings.map (·.value) = [.integer 2] ∧
    Arith.read [.integer 2] (Lexeme.read '"' "a + b % ?".toList) = some tree ∧
    tree.eval (fun _ _ => 1) = some 2 ∧ remainderOfSum.value (fun _ _ => 1) = some 0 := by
  let column (name : String) : Term := .leaf (.column ⟨none, name, none⟩)
  let sel : Selection := { Selection.empty with
    results := [.call "MOD" [(column "a").operation "+" (column "b"), .value (.integer 2)]]
    sources := [.leaf (.table "t" none none)] }
  have htree : Canonical.tree .empty
      (.query (.selecting [.expr remainderOfSum] [⟨.named [.bare "t"], []⟩])) =
        .ok sel.toTerm.build := by rfl
  have hsql : sel.toTerm.translated ⟨.sqlite, .whenNeeded⟩ =
      some ⟨"SELECT a + b % ? FROM t", [⟨1, .integer 2, none⟩]⟩ := by
    rw [Term.translated, Term.adapted_within]
    decide +kernel
  obtain ⟨t', hy⟩ := (translateTree_iff ⟨.sqlite, .whenNeeded⟩ sel.toTerm.build_wellFormed
    sel.toTerm.build_term).2 hsql
  exact ⟨_, _, t', .operation .plus (.column none "a")
    (.operation .remainder (.column none "b") (.number 2)), htree, hy, rfl, rfl, by decide +kernel,
    by decide, by decide⟩

end Translator
end PolyglotSql
