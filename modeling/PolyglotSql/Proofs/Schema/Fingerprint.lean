import PolyglotSql.Schema.Catalog

/-!
# PolyglotSql.Proofs.Schema.Fingerprint

What the fingerprint of a catalog tells. The items of a column end where they say they end, and what
follows the name of a table differs from what follows the name of a column; so the fingerprint
determines under which names there are tables, and the columns of each (`columns_of_fingerprint`).
The tables' names as they were declared are not in it.
-/

namespace PolyglotSql

open Value (HashItem)

/-! ## Columns -/

theorem SqlType.position_injective {s t : SqlType}
    (h : UInt64.ofNat s.position = UInt64.ofNat t.position) : s = t := by
  have hget (u : SqlType) : SqlType.all[(UInt64.ofNat u.position).toNat]? = some u := by
    cases u <;> rfl
  exact Option.some.inj (by rw [← hget s, h, hget t])

namespace Attribute

theorem hashItems_cons (a : Attribute) :
    ∃ word rest, a.hashItems = .text a.name :: .word word :: rest :=
  ⟨_, _, rfl⟩

private theorem flag_injective {p q : Bool}
    (h : HashItem.byte (if p then 1 else 0) = .byte (if q then 1 else 0)) : p = q := by
  revert h
  cases p <;> cases q <;> decide

/-- The items of a column tell the column, and where they end. -/
theorem hashItems_append {a b : Attribute} {xs ys : List HashItem}
    (h : a.hashItems ++ xs = b.hashItems ++ ys) : a = b ∧ xs = ys := by
  obtain ⟨name, sqlType, maxLength, primaryKey, mandatory⟩ := a
  obtain ⟨name', sqlType', maxLength', primaryKey', mandatory'⟩ := b
  simp only [hashItems, List.cons_append, List.append_assoc, List.cons.injEq, List.nil_append,
    HashItem.text.injEq, HashItem.word.injEq] at h
  obtain ⟨rfl, htype, h⟩ := h
  obtain rfl := SqlType.position_injective htype
  -- a length that is not stated and one that is begin with different words
  have hrest : maxLength = maxLength' ∧
      HashItem.byte (if primaryKey then 1 else 0) = .byte (if primaryKey' then 1 else 0) ∧
      HashItem.byte (if mandatory then 1 else 0) = .byte (if mandatory' then 1 else 0) ∧
      xs = ys := by
    cases maxLength <;> cases maxLength' <;>
      simp only [List.cons_append, List.nil_append, List.cons.injEq, HashItem.word.injEq,
        HashItem.number.injEq] at h
    case none.none => exact ⟨rfl, h.2⟩
    case none.some => exact absurd h.1 (by decide)
    case some.none => exact absurd h.1 (by decide)
    case some.some => exact ⟨congrArg some h.2.1, h.2.2⟩
  obtain ⟨rfl, hkey, hmandatory, rfl⟩ := hrest
  rw [flag_injective hkey, flag_injective hmandatory]
  exact ⟨rfl, rfl⟩

end Attribute

/-! ## Catalogs -/

namespace Catalog

/-- The columns of each table, under the table's upper-case name. -/
def columns (c : Catalog) : List (String × List Attribute) :=
  c.entries.map fun entry => (entry.1, entry.2.attributes)

def columnItems (tables : List (String × List Attribute)) : List HashItem :=
  tables.flatMap fun table => .text table.1 :: table.2.flatMap Attribute.hashItems

theorem fingerprint_eq (c : Catalog) : c.fingerprint = columnItems c.columns := by
  simp only [fingerprint, columnItems, columns, List.flatMap_map]

theorem items_never_word (as : List Attribute) (tables : List (String × List Attribute))
    (word : UInt64) (rest : List HashItem) :
    as.flatMap Attribute.hashItems ++ columnItems tables ≠ .word word :: rest := by
  -- the first item is the name of a column or of the next table
  intro h
  cases as with
  | cons a as => cases h
  | nil =>
    cases tables with
    | nil => cases h
    | cons table tables => cases h

/-- The items of columns, followed by those of tables, tell the columns and where they end. -/
theorem attributes_injective {as bs : List Attribute} {s t : List (String × List Attribute)}
    (h : as.flatMap Attribute.hashItems ++ columnItems s =
      bs.flatMap Attribute.hashItems ++ columnItems t) :
    as = bs ∧ columnItems s = columnItems t := by
  -- a column cannot be taken for a table: the number for its type would stand where names stand
  have hstop {c : Attribute} {cs : List Attribute} {u v : List (String × List Attribute)}
      (h : columnItems u = (c :: cs).flatMap Attribute.hashItems ++ columnItems v) : False := by
    cases u with
    | nil => cases h
    | cons table tables =>
      obtain ⟨word, rest, hitems⟩ := c.hashItems_cons
      simp only [columnItems, List.flatMap_cons, hitems, List.cons_append, List.cons.injEq] at h
      exact items_never_word _ _ _ _ h.2
  induction as generalizing bs with
  | nil =>
    cases bs with
    | nil => exact ⟨rfl, h⟩
    | cons b bs => exact (hstop h).elim
  | cons a as ih =>
    cases bs with
    | nil => exact (hstop h.symm).elim
    | cons b bs =>
      simp only [List.flatMap_cons, List.append_assoc] at h
      obtain ⟨rfl, hrest⟩ := Attribute.hashItems_append h
      obtain ⟨rfl, htables⟩ := ih hrest
      exact ⟨rfl, htables⟩

theorem columnItems_injective {s t : List (String × List Attribute)}
    (h : columnItems s = columnItems t) : s = t := by
  induction s generalizing t with
  | nil =>
    cases t with
    | nil => rfl
    | cons table tables => cases h
  | cons table tables ih =>
    cases t with
    | nil => cases h
    | cons table' tables' =>
      obtain ⟨name, attributes⟩ := table
      obtain ⟨name', attributes'⟩ := table'
      simp only [columnItems, List.flatMap_cons, List.cons_append, List.cons.injEq,
        HashItem.text.injEq] at h
      obtain ⟨rfl, hitems⟩ := h
      obtain ⟨rfl, htables⟩ := attributes_injective hitems
      rw [ih htables]

/-- Catalogs of one fingerprint have tables under the same names, with the same columns. -/
theorem columns_of_fingerprint {c d : Catalog} (h : c.fingerprint = d.fingerprint) :
    c.columns = d.columns := by
  rw [fingerprint_eq, fingerprint_eq] at h
  exact columnItems_injective h

/-! ## What is looked up -/

theorem attributes_entity? (c : Catalog) (name : String) :
    (c.entity? name).map (·.attributes) =
      (c.columns.find? fun table => table.1 == Text.upper name).map (·.2) := by
  simp only [entity?, columns, List.find?_map, Option.map_map, Function.comp_def]

end Catalog
end PolyglotSql
