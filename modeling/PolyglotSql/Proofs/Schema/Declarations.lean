import Mathlib.Data.List.Forall2
import PolyglotSql.Schema.Declaration

/-!
# PolyglotSql.Proofs.Schema.Declarations

What a catalog tells about a declared table. A table that is added is found under its own name in
any case, and all others as before (`entity?_insert`), so that the last declaration of a name is the
one that is found (`entity?_last`). Of the primary key, only what the columns state themselves is
told: it is the declared key exactly if no column is in the key by a constraint alone
(`declared_primaryKeys`).
-/

namespace PolyglotSql

/-! ## Tables by name -/

namespace Catalog

theorem find?_insertEntry (key name : String) (e : Entity) (entries : List (String × Entity)) :
    ((insertEntry key e entries).find? fun entry => entry.1 == name).map (·.2) =
      if key = name then some e else (entries.find? fun entry => entry.1 == name).map (·.2) := by
  induction entries with
  | nil => by_cases h : key = name <;> simp [insertEntry, h]
  | cons entry rest ih =>
    obtain ⟨k, d⟩ := entry
    by_cases hkey : key = k
    · subst hkey
      by_cases h : key = name <;> simp [insertEntry, h]
    · by_cases hlt : key < k
      · rw [insertEntry, if_neg hkey, if_pos hlt]
        by_cases h : key = name <;> simp [h]
      · by_cases hk : k = name
        · subst hk
          simp [insertEntry, hkey, hlt]
        · simpa [insertEntry, hkey, hlt, hk] using ih

theorem entity?_insert (c : Catalog) (e : Entity) (name : String) :
    (c.insert e).entity? name =
      if Text.upper e.name = Text.upper name then some e else c.entity? name :=
  find?_insertEntry (Text.upper e.name) (Text.upper name) e c.entries

/-- Statements that declare no table of a name leave what is found under it. -/
theorem entity?_foldl_declare {name : String} {statements : List Sql.Statement}
    (h : ∀ t, .createTable t ∈ statements → Text.upper (Sql.pathText t.name) ≠ Text.upper name)
    (c : Catalog) : (statements.foldl declare c).entity? name = c.entity? name := by
  induction statements generalizing c with
  | nil => rfl
  | cons statement statements ih =>
    rw [List.foldl_cons, ih fun t ht => h t (List.mem_cons_of_mem statement ht)]
    cases statement with
    | createTable t =>
      rw [declare, entity?_insert]
      exact if_neg (h t List.mem_cons_self)
    | _ => rfl

/-- The last declaration of a name is the one that is found under it. -/
theorem entity?_last {before after : List Sql.Statement} {t : Sql.TableDeclaration} {name : String}
    (hname : Text.upper (Sql.pathText t.name) = Text.upper name)
    (hlast : ∀ t', .createTable t' ∈ after →
      Text.upper (Sql.pathText t'.name) ≠ Text.upper name) :
    (ofStatements (before ++ .createTable t :: after)).entity? name = some t.entity := by
  rw [ofStatements, List.foldl_append, List.foldl_cons, entity?_foldl_declare hlast, declare,
    entity?_insert]
  exact if_pos hname

end Catalog

/-! ## Keys -/

namespace Sql

/-- The columns that a constraint makes the primary key, as far as it names any. -/
def TableConstraint.keyNames : TableConstraint → List Name
  | .primaryKey _ columns _ => columns.filterMap (·.name)
  | .other _ => []

/-- Whether a column is declared the primary key itself. -/
def ColumnDeclaration.StatesKey (c : ColumnDeclaration) : Prop :=
  ∃ option ∈ c.options, option.kind = .primaryKey

/-- Whether a column is declared to reject `NULL` itself. -/
def ColumnDeclaration.StatesNotNull (c : ColumnDeclaration) : Prop :=
  ∃ option ∈ c.options, option.kind = .notNull

/-- Whether a constraint on the table makes a column part of the primary key. -/
def TableDeclaration.Constrains (t : TableDeclaration) (c : ColumnDeclaration) : Prop :=
  ∃ constraint ∈ t.constraints, ∃ n ∈ constraint.keyNames,
    Text.sameIgnoringCase n.value c.name.value = true

/-- Whether a column is declared part of the primary key, be it by itself or by a constraint. -/
def TableDeclaration.InKey (t : TableDeclaration) (c : ColumnDeclaration) : Prop :=
  c.StatesKey ∨ t.Constrains c

instance (c : ColumnDeclaration) : Decidable c.StatesKey :=
  inferInstanceAs (Decidable (∃ option ∈ c.options, option.kind = .primaryKey))

instance (t : TableDeclaration) (c : ColumnDeclaration) : Decidable (t.Constrains c) :=
  inferInstanceAs (Decidable (∃ constraint ∈ t.constraints, ∃ n ∈ constraint.keyNames,
    Text.sameIgnoringCase n.value c.name.value = true))

instance (t : TableDeclaration) (c : ColumnDeclaration) : Decidable (t.InKey c) :=
  inferInstanceAs (Decidable (_ ∨ _))

/-- The names of the columns of the declared primary key, in the order of the columns. -/
def TableDeclaration.key (t : TableDeclaration) : List String :=
  (t.columns.filter fun c => t.InKey c).map (·.name.value)

/-- What an attribute tells of the column that it is made from. -/
structure ColumnDeclaration.Told (c : ColumnDeclaration) (a : Attribute) : Prop where
  name : a.name = c.name.value
  primaryKey : a.primaryKey = true ↔ c.StatesKey
  mandatory : a.mandatory = true ↔ c.StatesKey ∨ c.StatesNotNull

theorem ColumnDeclaration.told_attribute (c : ColumnDeclaration) : c.Told c.attribute where
  name := by
    show (Attribute.ofDeclared c.name.value c.type).name = c.name.value
    unfold Attribute.ofDeclared
    split <;> rfl
  primaryKey := by simp [ColumnDeclaration.attribute, StatesKey]
  mandatory := by simp [ColumnDeclaration.attribute, StatesKey, StatesNotNull]

theorem TableDeclaration.told_entity (t : TableDeclaration) :
    List.Forall₂ ColumnDeclaration.Told t.columns t.entity.attributes := by
  simp only [entity, List.forall₂_map_right_iff, List.forall₂_same]
  exact fun c _ => c.told_attribute

/-- The key that is told is what the columns state themselves. -/
theorem TableDeclaration.primaryKeys_entity (t : TableDeclaration) :
    t.entity.primaryKeys.map (·.name) =
      (t.columns.filter fun c => c.StatesKey).map (·.name.value) := by
  have hkey (c : ColumnDeclaration) : c.attribute.primaryKey = decide c.StatesKey :=
    Bool.eq_iff_iff.2 (by simpa using c.told_attribute.primaryKey)
  have hname (c : ColumnDeclaration) : c.attribute.name = c.name.value := c.told_attribute.name
  simp only [entity, Entity.primaryKeys, List.filter_map, List.map_map, Function.comp_def, hkey,
    hname]

/-- It is the declared key exactly if no column is in the key by a constraint alone. -/
theorem TableDeclaration.primaryKeys_eq_key (t : TableDeclaration) :
    t.entity.primaryKeys.map (·.name) = t.key ↔
      ∀ c ∈ t.columns, t.Constrains c → c.StatesKey := by
  rw [primaryKeys_entity, key]
  constructor
  · intro h c hc hconstrains
    -- Of the declared key, the columns that state it themselves are a part, and as many.
    have hpart : (t.columns.filter fun c => c.StatesKey).Sublist
        (t.columns.filter fun c => t.InKey c) :=
      List.monotone_filter_right t.columns fun c hstates =>
        decide_eq_true (.inl (of_decide_eq_true hstates))
    have hsame := hpart.eq_of_length (by simpa using congrArg List.length h)
    have hkey : c ∈ t.columns.filter fun c => t.InKey c :=
      List.mem_filter.2 ⟨hc, decide_eq_true (.inr hconstrains)⟩
    rw [← hsame] at hkey
    exact of_decide_eq_true (List.mem_filter.1 hkey).2
  · intro h
    congr 1
    refine List.filter_congr fun c hc => decide_eq_decide.2 ⟨.inl, ?_⟩
    rintro (hstates | hconstrains)
    · exact hstates
    · exact h c hc hconstrains

end Sql

namespace Catalog

/-- A script that declares a table, and none of its name behind it, has the table's columns under
this name, and of its key what they state themselves. -/
theorem declared_primaryKeys {before after : List Sql.Statement} {t : Sql.TableDeclaration}
    (hlast : ∀ t', .createTable t' ∈ after →
      Text.upper (Sql.pathText t'.name) ≠ Text.upper (Sql.pathText t.name)) :
    (∀ script, Sql.Script.parse script = .ok (before ++ .createTable t :: after) →
      parse script = .ok (ofStatements (before ++ .createTable t :: after))) ∧
    ∃ entity,
      (ofStatements (before ++ .createTable t :: after)).entity? (Sql.pathText t.name) =
        some entity ∧
      List.Forall₂ Sql.ColumnDeclaration.Told t.columns entity.attributes ∧
      entity.primaryKeys.map (·.name) =
        (t.columns.filter fun c => c.StatesKey).map (·.name.value) ∧
      (entity.primaryKeys.map (·.name) = t.key ↔
        ∀ c ∈ t.columns, t.Constrains c → c.StatesKey) := by
  refine ⟨fun script h => ?_, t.entity, entity?_last rfl hlast, t.told_entity,
    t.primaryKeys_entity, t.primaryKeys_eq_key⟩
  rw [parse, h]

/-- `CREATE TABLE name (a INT …, b INT, PRIMARY KEY (a, b))`, the first column with some options. -/
def compositeKey (name : String) (options : List Sql.ColumnOption) : Sql.TableDeclaration where
  lead := "CREATE TABLE "
  name := [.bare name]
  afterName := ""
  columns := [⟨.bare "a", "INT", options⟩, ⟨.bare "b", "INT", []⟩]
  constraints := [.primaryKey "PRIMARY KEY " [⟨some (.bare "a"), "a"⟩, ⟨some (.bare "b"), "b"⟩] ""]
  tail := ""
  emptyList := true
  complete := true

/-- A table whose columns state a part of the key only, before another with the same columns. -/
theorem declared_primaryKeys_partlyStated :
    (∀ t', .createTable t' ∈ [Sql.Statement.createTable (compositeKey "u" [])] →
      Text.upper (Sql.pathText t'.name) ≠ "T") ∧
    ∃ entity, (ofStatements [.createTable (compositeKey "t" [⟨.primaryKey, "PRIMARY KEY"⟩]),
        .createTable (compositeKey "u" [])]).entity? "t" = some entity ∧
      entity.primaryKeys.map (·.name) = ["a"] ∧
      entity.primaryKeys.map (·.name) ≠
        (compositeKey "t" [⟨.primaryKey, "PRIMARY KEY"⟩]).key := by
  have hlast : ∀ t', .createTable t' ∈ [Sql.Statement.createTable (compositeKey "u" [])] →
      Text.upper (Sql.pathText t'.name) ≠ "T" := by
    intro t' h
    cases List.mem_singleton.1 h
    decide
  obtain ⟨-, entity, hentity, -, hkey, hdeclared⟩ :=
    @declared_primaryKeys [] _ (compositeKey "t" [⟨.primaryKey, "PRIMARY KEY"⟩]) hlast
  exact ⟨hlast, entity, hentity, by rw [hkey]; decide, mt hdeclared.1 (by decide)⟩

/-- A key that a constraint alone declares is not told. -/
theorem compositeKey_untold :
    ∃ entity, (ofStatements [.createTable (compositeKey "t" [])]).entity? "t" = some entity ∧
      entity.primaryKeys = [] ∧ (compositeKey "t" []).key = ["a", "b"] :=
  ⟨(compositeKey "t" []).entity, by decide, by decide, by decide⟩

end Catalog
end PolyglotSql
