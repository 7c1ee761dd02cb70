import Mathlib.Data.List.Dedup
import PolyglotSql.Proofs.Batch.Recall

/-!
# PolyglotSql.Proofs.Batch.Capacity

How many reports a cache holds. Half of a capacity, rounded up, is at least one, unless the capacity
is zero: so a full cache always has room for the report that it gives up others for
(`makeRoom_size_lt`), and the bound is kept by every insertion. A cache of capacity zero is always
full and gives up nothing, so that it holds one report for every digest that was ever put into it
(`size_insertAll`).
-/

namespace PolyglotSql
namespace ReportCache

variable {φ δ : Type}

@[simp] theorem makeRoom_capacity (cache : ReportCache φ δ)
    (order : List (δ × CacheKey φ × BatchReport) → List (δ × CacheKey φ × BatchReport)) :
    (cache.makeRoom order).capacity = cache.capacity := by
  unfold makeRoom
  split <;> rfl

/-- A cache that is not too full has room for one more once it has made room. -/
theorem makeRoom_size_lt {cache : ReportCache φ δ} (hsome : 0 < cache.capacity)
    (hsize : cache.size ≤ cache.capacity)
    {order : List (δ × CacheKey φ × BatchReport) → List (δ × CacheKey φ × BatchReport)}
    (horder : ∀ slots, (order slots).Perm slots) :
    (cache.makeRoom order).size < cache.capacity := by
  unfold makeRoom
  split
  · have hlength : (order cache.slots).length = cache.size := (horder _).length_eq
    simp only [size, List.length_drop, hlength, halfUp] at *
    -- what is given up is at least one entry, as half is rounded up
    omega
  · omega

/-- A cache of capacity zero gives up nothing. -/
theorem makeRoom_slots_perm {cache : ReportCache φ δ} (hnone : cache.capacity = 0)
    {order : List (δ × CacheKey φ × BatchReport) → List (δ × CacheKey φ × BatchReport)}
    (horder : ∀ slots, (order slots).Perm slots) :
    (cache.makeRoom order).slots.Perm cache.slots := by
  simpa [makeRoom, hnone, halfUp] using horder cache.slots

variable [DecidableEq δ]

@[simp] theorem after_capacity (cache : ReportCache φ δ) (i : Insertion φ δ) :
    (cache.after i).capacity = cache.capacity :=
  makeRoom_capacity cache i.order

theorem put_size_le (cache : ReportCache φ δ) (key : CacheKey φ) (report : BatchReport) :
    (cache.put key report).size ≤ cache.size + 1 := by
  have := List.length_filter_le (fun slot => decide (slot.1 ≠ cache.digest key)) cache.slots
  simp only [put, size, List.length_append, List.length_singleton]
  omega

theorem after_size_le {cache : ReportCache φ δ} (hsome : 0 < cache.capacity)
    (hsize : cache.size ≤ cache.capacity) (i : Insertion φ δ) :
    (cache.after i).size ≤ (cache.after i).capacity := by
  have hroom := makeRoom_size_lt hsome hsize i.complete
  have hput := put_size_le (cache.makeRoom i.order) i.key i.report
  rw [after_capacity]
  exact Nat.le_trans hput hroom

theorem insertAll_size_le {cache : ReportCache φ δ} (hsome : 0 < cache.capacity)
    (hsize : cache.size ≤ cache.capacity) (history : List (Insertion φ δ)) :
    (cache.insertAll history).size ≤ cache.capacity := by
  induction history generalizing cache with
  | nil => exact hsize
  | cons i history ih =>
    have hcapacity : 0 < (cache.after i).capacity := by rwa [after_capacity]
    have := ih hcapacity (after_size_le hsome hsize i)
    rwa [after_capacity] at this

/-! ## Without capacity -/

/-- The digests of a cache are those of a list, each once. -/
def Covers (cache : ReportCache φ δ) (digests : List δ) : Prop :=
  (cache.slots.map Prod.fst).Nodup ∧ ∀ d, d ∈ cache.slots.map Prod.fst ↔ d ∈ digests

theorem Covers.size_eq {cache : ReportCache φ δ} {digests : List δ} (h : cache.Covers digests) :
    cache.size = digests.dedup.length := by
  have hperm : (cache.slots.map Prod.fst).Perm digests.dedup := by
    rw [List.perm_ext_iff_of_nodup h.1 digests.nodup_dedup]
    intro d
    rw [h.2, List.mem_dedup]
  simpa [size] using hperm.length_eq

omit [DecidableEq δ] in
theorem Covers.makeRoom {cache : ReportCache φ δ} {digests : List δ} (h : cache.Covers digests)
    (hnone : cache.capacity = 0)
    {order : List (δ × CacheKey φ × BatchReport) → List (δ × CacheKey φ × BatchReport)}
    (horder : ∀ slots, (order slots).Perm slots) : (cache.makeRoom order).Covers digests := by
  have hperm := (makeRoom_slots_perm hnone horder).map Prod.fst
  refine ⟨hperm.nodup_iff.2 h.1, ?_⟩
  intro d
  rw [hperm.mem_iff, h.2]

theorem Covers.put {cache : ReportCache φ δ} {digests : List δ} (h : cache.Covers digests)
    (key : CacheKey φ) (report : BatchReport) :
    (cache.put key report).Covers (digests ++ [cache.digest key]) := by
  have hslots : (cache.put key report).slots.map Prod.fst =
      (cache.slots.map Prod.fst).filter (· ≠ cache.digest key) ++ [cache.digest key] := by
    simp [ReportCache.put, List.filter_map, Function.comp_def]
  unfold Covers
  rw [hslots]
  constructor
  · rw [List.nodup_append]
    refine ⟨h.1.filter _, by simp, ?_⟩
    intro d hd d' hd'
    have hne := (List.mem_filter.1 hd).2
    rw [List.mem_singleton.1 hd']
    simpa using hne
  · intro d
    by_cases hd : d = cache.digest key <;> simp [hd, ← h.2]

theorem Covers.insertAll {cache : ReportCache φ δ} {digests : List δ} (h : cache.Covers digests)
    (hnone : cache.capacity = 0) (history : List (Insertion φ δ)) :
    (cache.insertAll history).Covers (digests ++ history.map fun i => cache.digest i.key) := by
  induction history generalizing cache digests with
  | nil => rwa [List.map_nil, List.append_nil]
  | cons i history ih =>
    have hafter : (cache.after i).Covers (digests ++ [cache.digest i.key]) := by
      have := (h.makeRoom hnone i.complete).put i.key i.report
      rwa [makeRoom_digest] at this
    have := ih hafter (by rwa [after_capacity])
    rwa [List.append_assoc, after_digest] at this

/-- Whatever is put into a cache, and whichever entries are given up for it: a cache that may hold
any reports never holds more than it may. One that may hold none never gives anything up, and holds
as many reports as there are digests among the keys that were put into it. -/
theorem size_insertAll (digest : CacheKey φ → δ) (capacity : Nat)
    (history : List (Insertion φ δ)) :
    (0 < capacity → ((new capacity digest).insertAll history).size ≤ capacity) ∧
    (capacity = 0 → ((new capacity digest).insertAll history).size =
      (history.map fun i => digest i.key).dedup.length) := by
  constructor
  · intro hsome
    exact insertAll_size_le hsome (Nat.zero_le _) history
  · intro hnone
    have hempty : (new capacity digest).Covers [] := ⟨List.nodup_nil, fun _ => Iff.rfl⟩
    have := hempty.insertAll hnone history
    simpa [new] using this.size_eq

/-- A report on an empty script; a full cache gives up its newest entries for it. -/
def emptyScriptIn (dialect : Dialect) : Insertion Nat Dialect :=
  { key := ⟨dialect, .never, 0, ""⟩, report := ⟨dialect, []⟩, order := List.reverse,
    complete := List.reverse_perm }

/-- Reports under three digests, of which one comes twice. -/
def threeDialects : List (Insertion Nat Dialect) :=
  [emptyScriptIn .derby, emptyScriptIn .oracle, emptyScriptIn .derby, emptyScriptIn .h2]

theorem size_insertAll_threeDialects :
    0 < 2 ∧ ((new 2 CacheKey.dialect).insertAll threeDialects).size ≤ 2 ∧
    0 = 0 ∧ ((new 0 CacheKey.dialect).insertAll threeDialects).size = 3 :=
  ⟨by decide, (size_insertAll CacheKey.dialect 2 threeDialects).1 (by decide), rfl,
    ((size_insertAll CacheKey.dialect 0 threeDialects).2 rfl).trans (by decide)⟩

/-- A cache that may hold no report holds the first one that is put into it. -/
theorem noCapacity_exceeded :
    ¬ ((new 0 CacheKey.dialect).insertAll [emptyScriptIn .derby]).size ≤ 0 := by
  decide

end ReportCache
end PolyglotSql
