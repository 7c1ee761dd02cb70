import Mathlib.Data.List.Forall2
import Mathlib.Data.Set.CoeSort
import PolyglotSql.Row

/-!
# PolyglotSql.Proofs.Row.Sameness

When two pending changes concern the same row. Among changes that agree about the identity objects
they share (`Coherent`), concerning the same row is an equivalence, and changes that concern the
same row feed the same items to a hash. Two changes of rows without a key, made through different
objects with values attached, concern the same row exactly if the objects name one entity and hold
the same values for the key columns, one by one (`same_lawful`).
-/

namespace PolyglotSql

/-! ## Values -/

namespace Value

mutual

/-- Two values are the same: floating point numbers bit by bit, lists element by element. -/
def Matches : Value → Value → Prop
  | .null, .null => True
  | .boolean a, .boolean b => a = b
  | .integer a, .integer b => a = b
  | .float x, .float y => x.bits = y.bits
  | .text s, .text t => s = t
  | .list as, .list bs => MatchesAll as bs
  | _, _ => False

def MatchesAll : List Value → List Value → Prop
  | [], [] => True
  | a :: as, b :: bs => Matches a b ∧ MatchesAll as bs
  | _, _ => False

end

mutual

theorem matches_iff (a b : Value) : Matches a b ↔ a = b := by
  cases a with
  | list as =>
    cases b with
    | list bs => simp [Matches, matchesAll_iff as bs]
    | _ => simp [Matches]
  | float x =>
    cases b with
    | float y => cases x; cases y; simp [Matches]
    | _ => simp [Matches]
  | _ => cases b <;> simp [Matches]

theorem matchesAll_iff (as bs : List Value) : MatchesAll as bs ↔ as = bs := by
  cases as with
  | nil => cases bs <;> simp [MatchesAll]
  | cons a as =>
    cases bs with
    | nil => simp [MatchesAll]
    | cons b bs => simp [MatchesAll, matches_iff a b, matchesAll_iff as bs]

end

end Value

/-! ## Maps -/

namespace Columns

def Unrepeated (cs : Columns) : Prop :=
  (cs.map Prod.fst).Nodup

theorem get?_iff_mem {cs : Columns} (h : cs.Unrepeated) {name : String} {v : Value} :
    cs.get? name = some v ↔ (name, v) ∈ cs := by
  induction cs with
  | nil => simp [get?]
  | cons c cs ih =>
    obtain ⟨k, w⟩ := c
    simp only [Unrepeated, List.map_cons, List.nodup_cons, List.mem_map, Prod.exists,
      exists_and_right, exists_eq_right, not_exists] at h
    by_cases hk : k = name
    · subst hk
      simp [get?, h.1 v, eq_comm]
    · have hne : name ≠ k := fun he => hk he.symm
      rw [List.mem_cons, ← ih h.2]
      simp [get?, hk, hne]

theorem mem_put {cs : Columns} {name k : String} {v : Value} :
    k ∈ (cs.put name v).map Prod.fst ↔ k = name ∨ k ∈ cs.map Prod.fst := by
  induction cs with
  | nil => simp [put]
  | cons c cs ih =>
    obtain ⟨l, w⟩ := c
    by_cases hl : l = name
    · simp [put, hl]
    · rw [put, if_neg hl, List.map_cons, List.map_cons, List.mem_cons, List.mem_cons, ih]
      exact or_left_comm

theorem Unrepeated.put {cs : Columns} (h : cs.Unrepeated) (name : String) (v : Value) :
    (cs.put name v).Unrepeated := by
  induction cs with
  | nil => simp [Unrepeated, Columns.put]
  | cons c cs ih =>
    obtain ⟨k, w⟩ := c
    unfold Unrepeated at h ih ⊢
    rw [List.map_cons, List.nodup_cons] at h
    by_cases hk : k = name
    · subst hk
      simpa [Columns.put] using h
    · rw [Columns.put, if_neg hk, List.map_cons, List.nodup_cons, mem_put]
      exact ⟨by simpa [hk] using h.1, ih h.2⟩

/-- Two maps have values that are the same for a column each, or neither has any. -/
def SameEntry (cs : Columns) (k : String) (ds : Columns) (l : String) : Prop :=
  (∀ v, (k, v) ∈ cs → ∃ w, (l, w) ∈ ds ∧ v.Matches w) ∧
    ∀ w, (l, w) ∈ ds → ∃ v, (k, v) ∈ cs ∧ v.Matches w

theorem sameEntry_iff {cs ds : Columns} (h : cs.Unrepeated) (h' : ds.Unrepeated) {k l : String} :
    SameEntry cs k ds l ↔ cs.get? k = ds.get? l := by
  simp only [SameEntry, ← get?_iff_mem h, ← get?_iff_mem h', Value.matches_iff]
  cases cs.get? k <;> cases ds.get? l <;> simp [eq_comm]

end Columns

/-! ## Identities -/

namespace RowId

def attached (id : RowId) : Columns :=
  id.replacement.getD []

theorem attachedValue?_eq (id : RowId) (column : String) :
    id.attachedValue? column = id.attached.get? column := by
  unfold attachedValue? attached
  cases id.replacement <;> rfl

theorem unrepeated_attach {id : RowId} (h : id.attached.Unrepeated) (columns : Columns) :
    (id.attach columns).attached.Unrepeated := by
  show (columns.foldl (fun cs c => Columns.put c.1 c.2 cs) id.attached).Unrepeated
  induction columns generalizing id with
  | nil => exact h
  | cons c columns ih =>
    let first : RowId := { id with replacement := some (id.attached.put c.1 c.2) }
    have hfirst : first.attached.Unrepeated := h.put c.1 c.2
    exact ih hfirst

/-- A row without a key that values are attached for, no column twice. -/
structure Awaits (id : RowId) : Prop where
  temporary : id.isTemporary = true
  attached : id.isAttached = true
  unrepeated : id.attached.Unrepeated

end RowId

/-! ## Changes -/

namespace RowChange

/-- What a change is compared by unless the identity object is shared: the entity with the values
attached for its key, or else with the key. -/
def identity (c : RowChange) : (String × List (Option Value)) ⊕ (String × RowKey) :=
  if c.id.isTemporary && c.id.isAttached then .inl (c.id.entity, c.attachedKey)
  else .inr (c.id.entity, c.id.key)

theorem same_of_apart {a b : RowChange} (h : a.holder ≠ b.holder) :
    a.same b = true ↔ a.identity = b.identity := by
  have hkey (he : a.id.key = b.id.key) : a.id.isTemporary = b.id.isTemporary := by
    simp only [RowId.isTemporary, he]
  simp only [same, if_neg h, identity, RowId.same]
  cases ha : a.id.isTemporary <;> cases hb : b.id.isTemporary <;> rw [ha, hb] at hkey
  case true.true => cases a.id.isAttached <;> cases b.id.isAttached <;> simp
  case false.false => simp
  -- one row has a key and the other has none
  case true.false =>
    have hne : a.id.key ≠ b.id.key := fun he => Bool.noConfusion (hkey he)
    cases a.id.isAttached <;> simp [hne]
  case false.true =>
    have hne : a.id.key ≠ b.id.key := fun he => Bool.noConfusion (hkey he)
    cases b.id.isAttached <;> simp [hne]

theorem hashItems_of_identity {a b : RowChange} (h : a.identity = b.identity) :
    a.hashItems = b.hashItems := by
  unfold identity at h
  unfold hashItems
  split at h <;> split at h
  · rw [if_pos ‹_›, if_pos ‹_›]
    simp only [Sum.inl.injEq, Prod.mk.injEq] at h
    rw [h.1, h.2]
  · cases h
  · cases h
  · rw [if_neg ‹_›, if_neg ‹_›]
    simp only [Sum.inr.injEq, Prod.mk.injEq] at h
    rw [RowId.hashItems, RowId.hashItems, h.1, h.2]

def keyNames (c : RowChange) : List String :=
  c.entity.primaryKeys.map (·.name)

/-- Changes made through one object have its identity, and the keys of their entities are named
alike. -/
def Coherent (rows : Set RowChange) : Prop :=
  ∀ a ∈ rows, ∀ b ∈ rows, a.holder = b.holder → a.id = b.id ∧ a.keyNames = b.keyNames

theorem attachedKey_eq (c : RowChange) :
    c.attachedKey = c.keyNames.map c.id.attached.get? := by
  simp [attachedKey, keyNames, Function.comp_def, RowId.attachedValue?_eq]

theorem Coherent.same_iff {rows : Set RowChange} (h : Coherent rows) {a b : RowChange}
    (ha : a ∈ rows) (hb : b ∈ rows) : a.same b = true ↔ a.identity = b.identity := by
  by_cases hh : a.holder = b.holder
  · obtain ⟨hid, hkeys⟩ := h a ha b hb hh
    simp [same, hh, identity, attachedKey_eq, hid, hkeys]
  · exact same_of_apart hh

/-- Among coherent changes, concerning the same row is an equivalence, and changes that concern the
same row feed the same items to a hash. Two changes through different objects of rows without a key
concern the same row exactly if the objects name one entity and what is attached for the first,
second, and so on of the key columns is the same in both. -/
theorem same_lawful {rows : Set RowChange} (h : Coherent rows) :
    Equivalence (fun a b : rows => a.1.same b.1 = true) ∧
    (∀ a ∈ rows, ∀ b ∈ rows, a.same b = true → a.hashItems = b.hashItems) ∧
    ∀ a b : RowChange, a.holder ≠ b.holder → a.id.Awaits → b.id.Awaits →
      (a.same b = true ↔ a.id.entity = b.id.entity ∧
        List.Forall₂ (fun k l => Columns.SameEntry a.id.attached k b.id.attached l)
          a.keyNames b.keyNames) := by
  refine ⟨⟨fun a => ?_, fun {a b} hab => ?_, fun {a b c} hab hbc => ?_⟩, fun a ha b hb hab => ?_,
    fun a b hholder ha hb => ?_⟩
  · exact (h.same_iff a.2 a.2).2 rfl
  · exact (h.same_iff b.2 a.2).2 ((h.same_iff a.2 b.2).1 hab).symm
  · exact (h.same_iff a.2 c.2).2
      (((h.same_iff a.2 b.2).1 hab).trans ((h.same_iff b.2 c.2).1 hbc))
  · exact hashItems_of_identity ((h.same_iff ha hb).1 hab)
  · have hkeys : List.Forall₂ (fun k l => Columns.SameEntry a.id.attached k b.id.attached l)
        a.keyNames b.keyNames ↔ a.attachedKey = b.attachedKey := by
      simp only [Columns.sameEntry_iff ha.unrepeated hb.unrepeated, attachedKey_eq]
      rw [← List.forall₂_eq_eq_eq, List.forall₂_map_left_iff, List.forall₂_map_right_iff]
    rw [same_of_apart hholder, hkeys]
    simp [identity, ha.temporary, ha.attached, hb.temporary, hb.attached]

/-- A table whose key is a floating point number. -/
def reading : Entity :=
  { name := "READING", attributes := [{ Attribute.ofType "ID" .double with primaryKey := true },
      .ofType "NOTE" .varchar] }

/-- A new row of the table, with values attached for its key. -/
def expected (kind : RowChangeKind) (holder number : Nat) (columns : Columns) : RowChange :=
  { kind, entity := reading, id := (RowId.temporary "READING" number).attach columns, holder,
    values := [] }

/-- A number that no arithmetic comparison finds equal to itself. -/
def notANumber : Value :=
  .float ⟨0x7ff8000000000000⟩

/-- Two rows that are to have one key, attached in different orders and with other columns; the
second is changed twice. -/
def twins : Set RowChange :=
  {c | c = expected .insert 1 1 [("ID", notANumber), ("NOTE", .text "a")] ∨
    c = expected .insert 2 2 [("SIZE", .null), ("ID", notANumber)] ∨
    c = expected .update 2 2 [("SIZE", .null), ("ID", notANumber)]}

theorem same_lawful_twins : Coherent twins ∧
    (expected .insert 1 1 [("ID", notANumber), ("NOTE", .text "a")]).same
      (expected .update 2 2 [("SIZE", .null), ("ID", notANumber)]) = true ∧
    (expected .insert 1 1 [("ID", notANumber), ("NOTE", .text "a")]).hashItems =
      (expected .update 2 2 [("SIZE", .null), ("ID", notANumber)]).hashItems := by
  have hcoherent : Coherent twins := by
    rintro a (rfl | rfl | rfl) b (rfl | rfl | rfl) hholder
    all_goals first | exact ⟨rfl, rfl⟩ | exact absurd hholder (by decide)
  obtain ⟨hequivalence, hhash, hiff⟩ := same_lawful hcoherent
  have hfirst : (expected .insert 1 1 [("ID", notANumber), ("NOTE", .text "a")]).same
      (expected .insert 2 2 [("SIZE", .null), ("ID", notANumber)]) = true := by
    have hnew (number : Nat) : (RowId.temporary "READING" number).attached.Unrepeated :=
      List.nodup_nil
    refine (hiff _ _ (by decide) ⟨rfl, rfl, RowId.unrepeated_attach (hnew 1) _⟩
      ⟨rfl, rfl, RowId.unrepeated_attach (hnew 2) _⟩).2 ⟨rfl, ?_⟩
    exact .cons ((Columns.sameEntry_iff (RowId.unrepeated_attach (hnew 1) _)
      (RowId.unrepeated_attach (hnew 2) _)).2 rfl) .nil
  have hsame := hequivalence.trans (x := ⟨_, .inl rfl⟩) (y := ⟨_, .inr (.inl rfl)⟩)
    (z := ⟨_, .inr (.inr rfl)⟩) hfirst (by rfl)
  exact ⟨hcoherent, hsame, hhash _ (.inl rfl) _ (.inr (.inr rfl)) hsame⟩

end RowChange
end PolyglotSql
