import PolyglotSql.Proofs.Batch.Reuse

/-!
# PolyglotSql.Proofs.Batch.Recall

What a cache still knows of the reports that were put into it. A slot that is left holds the last
report under its key, in the slot of its key (`Recalls`); this survives whatever a full cache gives
up, and another key's report that takes the slot. So a report is found only under exactly its key,
and only until another one is put there (`get?_insertAll`).
-/

namespace PolyglotSql

/-- A report that is put into a cache under a key. -/
structure Insertion (φ δ : Type) where
  key : CacheKey φ
  report : BatchReport
  /-- Lists what is kept in the order in which it is given up, should the cache be full. -/
  order : List (δ × CacheKey φ × BatchReport) → List (δ × CacheKey φ × BatchReport)
  /-- Nothing is left out of the order. -/
  complete : ∀ slots, (order slots).Perm slots

namespace ReportCache

variable {φ δ : Type} [DecidableEq φ]

/-- The last of the reports that were put under exactly this key. -/
def latest? (history : List (Insertion φ δ)) (key : CacheKey φ) : Option BatchReport :=
  ((history.filter fun i => i.key = key).map (·.report)).getLast?

theorem latest?_same (history : List (Insertion φ δ)) (i : Insertion φ δ) :
    latest? (history ++ [i]) i.key = some i.report := by
  simp [latest?, List.filter_append]

theorem latest?_other (history : List (Insertion φ δ)) {i : Insertion φ δ} {key : CacheKey φ}
    (h : i.key ≠ key) : latest? (history ++ [i]) key = latest? history key := by
  simp [latest?, List.filter_append, h]

/-- Every slot is that of its key and holds the last report under it. -/
def Recalls (history : List (Insertion φ δ)) (cache : ReportCache φ δ) : Prop :=
  ∀ slot ∈ cache.slots,
    slot.1 = cache.digest slot.2.1 ∧ latest? history slot.2.1 = some slot.2.2

theorem recalls_new (digest : CacheKey φ → δ) (capacity : Nat) :
    Recalls [] (new capacity digest) :=
  fun _ hslot => absurd hslot List.not_mem_nil

variable [DecidableEq δ]

def after (cache : ReportCache φ δ) (i : Insertion φ δ) : ReportCache φ δ :=
  cache.insertBy i.order i.key i.report

def insertAll (cache : ReportCache φ δ) (history : List (Insertion φ δ)) : ReportCache φ δ :=
  history.foldl after cache

omit [DecidableEq φ] in
@[simp] theorem after_digest (cache : ReportCache φ δ) (i : Insertion φ δ) :
    (cache.after i).digest = cache.digest :=
  makeRoom_digest cache i.order

theorem get?_after (cache : ReportCache φ δ) (i : Insertion φ δ) :
    (cache.after i).get? i.key = some i.report := by
  have hfind : (cache.after i).slots.find? (fun slot => slot.1 = (cache.after i).digest i.key) =
      some ((cache.after i).digest i.key, i.key, i.report) := by
    rw [after, insertBy, put]
    dsimp only
    -- no other slot with the digest is left in front
    rw [List.find?_append, Option.or_eq_right_of_none, List.find?_singleton]
    · simp
    · rw [List.find?_eq_none]
      intro slot hslot
      simpa using (List.mem_filter.1 hslot).2
  rw [get?, hfind]
  exact if_pos rfl

/-- Whatever is given up for it, a new report leaves the others under their keys, but for one in its
own slot. -/
theorem Recalls.after {history : List (Insertion φ δ)} {cache : ReportCache φ δ}
    (h : Recalls history cache) (i : Insertion φ δ) : Recalls (history ++ [i]) (cache.after i) := by
  intro slot hslot
  rw [after_digest]
  obtain ⟨hold, hdigest⟩ | rfl := mem_insertBy i.complete hslot
  · obtain ⟨hslot, hlatest⟩ := h slot hold
    -- a slot with another digest has another key
    have hkey : i.key ≠ slot.2.1 := fun he => hdigest (he ▸ hslot)
    exact ⟨hslot, (latest?_other history hkey).trans hlatest⟩
  · exact ⟨rfl, latest?_same history i⟩

theorem Recalls.insertAll {history : List (Insertion φ δ)} {cache : ReportCache φ δ}
    (h : Recalls history cache) (more : List (Insertion φ δ)) :
    Recalls (history ++ more) (cache.insertAll more) := by
  induction more generalizing history cache with
  | nil => rwa [List.append_nil]
  | cons i more ih =>
    have := ih (h.after i)
    rwa [List.append_assoc] at this

/-- Whatever was put into a cache of any capacity, whichever entries were given up for it, and
whichever keys have one digest: under a key there is nothing, or the last report that was put there
under exactly this key; and a report that has just been put there is found. -/
theorem get?_insertAll (digest : CacheKey φ → δ) (capacity : Nat)
    (history : List (Insertion φ δ)) :
    (∀ key, ((new capacity digest).insertAll history).get? key = none ∨
      ∃ report, ((new capacity digest).insertAll history).get? key = some report ∧
        latest? history key = some report) ∧
    ∀ i : Insertion φ δ, (((new capacity digest).insertAll history).after i).get? i.key =
      some i.report := by
  refine ⟨fun key => ?_, get?_after _⟩
  cases hfound : ((new capacity digest).insertAll history).get? key with
  | none => exact .inl rfl
  | some report =>
    obtain ⟨slot, hslot⟩ := mem_of_get? hfound
    exact .inr ⟨report, rfl, ((recalls_new digest capacity).insertAll history _ hslot).2⟩

/-- A report on an empty script, of whose keys all have one digest. -/
def emptyScript (dialect : Dialect) : Insertion Nat Unit :=
  { key := ⟨dialect, .never, 0, ""⟩, report := ⟨dialect, []⟩, order := List.reverse,
    complete := List.reverse_perm }

/-- The second of two reports with one digest takes the place of the first, which is then found
under neither key. -/
example : ((new 10 fun _ => ()).insertAll [emptyScript .derby, emptyScript .oracle]).get?
    (emptyScript .derby).key = none := by rfl

end ReportCache
end PolyglotSql
