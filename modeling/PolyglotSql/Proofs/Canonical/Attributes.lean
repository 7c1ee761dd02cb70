import Mathlib
import PolyglotSql.Proofs.Canonical.Paths
import PolyglotSql.Proofs.Canonical.Selects
import PolyglotSql.Proofs.Schema.Declarations
import PolyglotSql.Proofs.Tree.Building

/-!
# PolyglotSql.Proofs.Canonical.Attributes

What a column reference carries of the declaration of its table. A catalog keeps a table under its
name as it is written, all parts and quotes included; a query looks it up by what stands behind the
last dot, and without an alias its columns may be qualified by the written name only. So the columns
of a table are known exactly if no dot is written in its name, and to a reference that is qualified
by the name's last part only if this is all that is written (`selectedColumn_declared`).
-/

namespace PolyglotSql

namespace Text

theorem lower_upper (s : String) : lower (upper s) = lower s := by
  simp [lower, upper, Function.comp_def]

theorem length_upper (s : String) : (upper s).toList.length = s.toList.length := by
  simp [upper]

theorem sameIgnoringCase_upper (s : String) :
    sameIgnoringCase (upper s) = sameIgnoringCase s := by
  funext t
  rw [sameIgnoringCase, sameIgnoringCase, lower_upper]

theorem sameIgnoringCase_refl (s : String) : sameIgnoringCase s s = true :=
  beq_self_eq_true _

theorem length_eq_of_sameIgnoringCase {s t : String} (h : sameIgnoringCase s t = true) :
    s.toList.length = t.toList.length := by
  have hlower : lower s = lower t := eq_of_beq h
  simpa [lower] using congrArg (·.toList.length) hlower

end Text

namespace Sql

/-! ## Names of tables -/

/-- The name by which a query looks a table up. -/
def lookupName (path : Path) : String :=
  match Text.cutLastDot (pathText path) with
  | some (_, last) => last
  | none => pathText path

/-- A table is looked up by the name that it is kept under only if no dot is written in it. -/
theorem upper_lookupName (path : Path) :
    Text.upper (pathText path) = Text.upper (lookupName path) ↔ '.' ∉ (pathText path).toList := by
  rw [← Text.cutLastDot_eq_none]
  unfold lookupName
  cases hcut : Text.cutLastDot (pathText path) with
  | none => simp
  | some cut =>
    obtain ⟨qualifier, last⟩ := cut
    have htext := (Text.cutLastDot_eq_some.1 hcut).1
    simp only [reduceCtorEq, iff_false]
    intro h
    have hlength := congrArg (·.toList.length) h
    simp only [Text.length_upper, htext, List.length_append, List.length_cons] at hlength
    omega

theorem length_last_le (front : Path) (last : Name) :
    last.text.toList.length ≤ (pathText (front ++ [last])).toList.length := by
  induction front with
  | nil => rw [List.nil_append, pathText_singleton]
  | cons first front ih =>
    obtain ⟨next, rest, hrest⟩ := List.exists_cons_of_ne_nil (List.append_ne_nil_of_right_ne_nil
      front (List.cons_ne_nil last []))
    rw [hrest] at ih
    rw [List.cons_append, hrest, pathText_cons, List.length_append, List.length_cons]
    omega

/-- The last part of a name is what is written of it only without other parts and quotes. -/
theorem sameIgnoringCase_last (front : Path) (last : Name) :
    Text.sameIgnoringCase (pathText (front ++ [last])) last.value = true ↔
      front = [] ∧ last.quote = none := by
  cases front with
  | nil =>
    rw [List.nil_append, pathText_singleton]
    constructor
    · intro h
      exact ⟨rfl, last.length_text.2 (Text.length_eq_of_sameIgnoringCase h)⟩
    · rintro ⟨-, hquote⟩
      rw [Name.text_unquoted hquote, Text.sameIgnoringCase_refl]
  | cons first front =>
    refine iff_of_false (fun h => ?_) (by simp)
    -- What is written before the last part makes the name longer.
    have hlength := Text.length_eq_of_sameIgnoringCase h
    have hlast := last.length_text.1
    have hbehind := length_last_le front last
    obtain ⟨next, rest, hrest⟩ := List.exists_cons_of_ne_nil (List.append_ne_nil_of_right_ne_nil
      front (List.cons_ne_nil last []))
    rw [List.cons_append, hrest, pathText_cons, List.length_append, List.length_cons] at hlength
    rw [hrest] at hbehind
    omega

end Sql

/-! ## References -/

/-- A reference to a column, qualified or not. -/
def Sql.Expr.reference (qualifier : Option Sql.Name) (column : Sql.Name) : Sql.Expr :=
  match qualifier with
  | none => .identifier column
  | some q => .compound [q, column]

/-- The query that selects one column of one table. -/
def Sql.Query.ofColumn (qualifier : Option Sql.Name) (column : Sql.Name) (path : Sql.Path)
    (alias_ : Option Sql.TableAlias) (clauses : Sql.TableClauses) : Sql.Query :=
  .selecting [.expr (.reference qualifier column)] [⟨.table path alias_ clauses, []⟩]

/-- What is known about a column where only one table is in reach. -/
theorem Scope.resolve_enter (catalog : Catalog) (path : Sql.Path) (alias_ : Option Sql.TableAlias)
    (clauses : Sql.TableClauses) (qualifier : Option String) (column : String) :
    (Scope.enter ⟨catalog, []⟩ [⟨.table path alias_ clauses, []⟩]).resolve qualifier column =
      if qualifier.all (Text.sameIgnoringCase
          ((alias_.map (·.name.value)).getD (Sql.pathText path))) then
        (catalog.entity? (Sql.lookupName path)).bind (·.attribute? column)
      else none := by
  have hframes : (Scope.enter ⟨catalog, []⟩ [⟨.table path alias_ clauses, []⟩]).frames =
      [[⟨Text.upper ((alias_.map (·.name.value)).getD (Sql.pathText path)),
        catalog.entity? (Sql.lookupName path)⟩]] := by
    cases alias_ <;> rfl
  simp only [resolve, hframes, List.findSome?_singleton, resolveIn, Text.sameIgnoringCase_upper]

namespace Canonical

/-- The first result of a query's tree, if it is a column. -/
def selectedColumn (catalog : Catalog) (q : Sql.Query) : Option ColumnRef :=
  match tree catalog (.query q) with
  | .error _ => none
  | .ok t =>
    match t.term t.root with
    | .ok (.mk .select _ (.mk .result _ (.mk (.column ref) _ _ :: _) :: _)) => some ref
    | _ => none

variable {qualifier : Option Sql.Name} {column : Sql.Name} {path : Sql.Path}
  {alias_ : Option Sql.TableAlias} {clauses : Sql.TableClauses}

/-- A column of a table is looked up in the table's declaration if the reference is not qualified,
or qualified by the alias, or, without an alias, by the name as it is written. -/
theorem selectedColumn_ofColumn (catalog : Catalog) :
    selectedColumn catalog (.ofColumn qualifier column path alias_ clauses) =
      some ⟨qualifier.map (·.value), column.value,
        if (qualifier.map (·.value)).all (Text.sameIgnoringCase
            ((alias_.map (·.name.value)).getD (Sql.pathText path))) then
          (catalog.entity? (Sql.lookupName path)).bind (·.attribute? column.value)
        else none⟩ := by
  have htree : tree catalog (.query (.ofColumn qualifier column path alias_ clauses)) =
      .ok (Selection.toTerm { Selection.empty with
        results := [Scope.columnTerm (.enter ⟨catalog, []⟩ [⟨.table path alias_ clauses, []⟩])
          (qualifier.map (·.value)) column.value]
        sources := [.tableOf (Sql.pathText path) (alias_.map (·.name.value))] }).build := by
    cases qualifier <;> rfl
  rw [selectedColumn, htree]
  simp only [Term.build_term, ← Scope.resolve_enter catalog path alias_ clauses]
  rfl

/-- The declaration of a table is found by a query exactly if no dot is written in its name. -/
theorem entity?_lookupName {d : Sql.TableDeclaration}
    (hpath : Sql.pathText path = Sql.pathText d.name) :
    (Catalog.ofStatements [.createTable d]).entity? (Sql.lookupName path) =
      if '.' ∈ (Sql.pathText path).toList then none else some d.entity := by
  have hname : d.entity.name = Sql.pathText path := hpath.symm
  have hfound : (Catalog.ofStatements [.createTable d]).entity? (Sql.lookupName path) =
      if Text.upper d.entity.name = Text.upper (Sql.lookupName path) then some d.entity
      else none :=
    Catalog.entity?_insert .empty d.entity _
  rw [hfound, hname]
  by_cases hdot : '.' ∈ (Sql.pathText path).toList
  · rw [if_pos hdot, if_neg (mt (Sql.upper_lookupName path).1 (not_not_intro hdot))]
  · rw [if_neg hdot, if_pos ((Sql.upper_lookupName path).2 hdot)]

/-- What a query knows about a column of the one declared table that it selects from: the first
declaration under the column's name in any case, unless a dot is written in the table's name. A
column that is qualified by the last part of the name is known only if that is the whole name,
without quotes. -/
theorem selectedColumn_declared {d : Sql.TableDeclaration} {c : Sql.ColumnDeclaration}
    (hc : c ∈ d.columns) (hpath : Sql.pathText path = Sql.pathText d.name)
    (hcolumn : column.value = c.name.value) :
    ∃ first, d.columns.find? (fun c' => Text.sameIgnoringCase c'.name.value c.name.value) =
        some first ∧
      selectedColumn (.ofStatements [.createTable d]) (.ofColumn none column path none clauses) =
        some ⟨none, c.name.value,
          if '.' ∈ (Sql.pathText path).toList then none else some first.attribute⟩ ∧
      (∀ a : Sql.TableAlias, ∀ q : Sql.Name, q.value = a.name.value →
        selectedColumn (.ofStatements [.createTable d])
            (.ofColumn (some q) column path (some a) clauses) =
          some ⟨some a.name.value, c.name.value,
            if '.' ∈ (Sql.pathText path).toList then none else some first.attribute⟩) ∧
      (∀ front last, path = front ++ [last] → ∀ q : Sql.Name, q.value = last.value →
        selectedColumn (.ofStatements [.createTable d])
            (.ofColumn (some q) column path none clauses) =
          some ⟨some last.value, c.name.value,
            if front = [] ∧ last.quote = none ∧ '.' ∉ last.value.toList then some first.attribute
            else none⟩) := by
  obtain ⟨first, hfirst⟩ : ∃ first,
      d.columns.find? (fun c' => Text.sameIgnoringCase c'.name.value c.name.value) = some first :=
    Option.isSome_iff_exists.1 (List.find?_isSome.2 ⟨c, hc, Text.sameIgnoringCase_refl _⟩)
  have hattribute : d.entity.attribute? c.name.value = some first.attribute := by
    have hname (c' : Sql.ColumnDeclaration) : c'.attribute.name = c'.name.value :=
      c'.told_attribute.name
    simp only [Sql.TableDeclaration.entity, Entity.attribute?, List.find?_map, Function.comp_def,
      hname, hfirst, Option.map_some]
  have hknown : ((Catalog.ofStatements [.createTable d]).entity? (Sql.lookupName path)).bind
      (·.attribute? column.value) =
        if '.' ∈ (Sql.pathText path).toList then none else some first.attribute := by
    rw [entity?_lookupName hpath, hcolumn]
    split
    · rfl
    · exact hattribute
  refine ⟨first, hfirst, ?_, fun a q hq => ?_, ?_⟩
  · rw [selectedColumn_ofColumn, hknown, hcolumn]
    rfl
  · rw [selectedColumn_ofColumn, hknown, hcolumn, Option.map_some, hq]
    simp [Text.sameIgnoringCase_refl]
  · rintro front last rfl q hq
    rw [selectedColumn_ofColumn, hknown, hcolumn, Option.map_some, hq]
    simp only [Option.map_none, Option.getD_none, Option.all_some, Sql.sameIgnoringCase_last]
    by_cases hlast : front = [] ∧ last.quote = none
    · obtain ⟨rfl, hquote⟩ := hlast
      have htext : Sql.pathText ([] ++ [last]) = last.value := by
        rw [List.nil_append, Sql.pathText_singleton, Sql.Name.text_unquoted hquote]
      rw [htext]
      simp [hquote]
    · rw [if_neg hlast, if_neg fun h => hlast ⟨h.1, h.2.1⟩]

/-- `CREATE TABLE path (c CHAR(3))`. -/
def codeTable (path : Sql.Path) : Sql.TableDeclaration where
  lead := "CREATE TABLE "
  name := path
  afterName := ""
  columns := [⟨.bare "c", "CHAR(3)", []⟩]
  constraints := []
  tail := ""
  emptyList := true
  complete := true

/-- What is declared by `c CHAR(3)`. -/
def codeColumn : Attribute :=
  { Attribute.ofType "c" .char with maxLength := some 3 }

/-- `FROM path`, with nothing else written with the name. -/
def nameOnly : Sql.TableClauses where
  partitions := []
  arguments := none
  ordinality := false
  hints := []
  sample := none

/-- Of a table with a name in quotes, a column is known unless the name qualifies it. -/
theorem selectedColumn_declared_quotedTable :
    (⟨.bare "c", "CHAR(3)", []⟩ ∈ (codeTable [⟨"t", some '"', .empty⟩]).columns) ∧
    (Sql.pathText [⟨"t", some '"', .empty⟩] =
      Sql.pathText (codeTable [⟨"t", some '"', .empty⟩]).name) ∧
    selectedColumn (.ofStatements [.createTable (codeTable [⟨"t", some '"', .empty⟩])])
        (.ofColumn none (.bare "c") [⟨"t", some '"', .empty⟩] none nameOnly) =
      some ⟨none, "c", some codeColumn⟩ ∧
    selectedColumn (.ofStatements [.createTable (codeTable [⟨"t", some '"', .empty⟩])])
        (.ofColumn (some ⟨"t", some '"', .empty⟩) (.bare "c") [⟨"t", some '"', .empty⟩] none
          nameOnly) =
      some ⟨some "t", "c", none⟩ := by
  have hc : ⟨.bare "c", "CHAR(3)", []⟩ ∈ (codeTable [⟨"t", some '"', .empty⟩]).columns := by
    decide
  obtain ⟨first, hfirst, hbare, -, hqualified⟩ :=
    @selectedColumn_declared (.bare "c") _ nameOnly _ _ hc rfl rfl
  have hcode : first.attribute = codeColumn := by
    cases hfirst
    decide
  refine ⟨hc, rfl, ?_, ?_⟩
  · rw [hcode] at hbare
    exact hbare
  · exact hqualified [] _ rfl ⟨"t", some '"', .empty⟩ rfl

/-- Of a table with a schema nothing is known about a column. -/
theorem dottedTable_unknown :
    (codeTable [.bare "s", .bare "t"]).columns.map (·.attribute) = [codeColumn] ∧
    selectedColumn (.ofStatements [.createTable (codeTable [.bare "s", .bare "t"])])
        (.ofColumn none (.bare "c") [.bare "s", .bare "t"] none nameOnly) =
      some ⟨none, "c", none⟩ := by
  refine ⟨by decide, ?_⟩
  rw [selectedColumn_ofColumn]
  decide

end Canonical
end PolyglotSql
