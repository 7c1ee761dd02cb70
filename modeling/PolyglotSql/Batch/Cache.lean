import PolyglotSql.Batch.Outcome
import PolyglotSql.Rendering.Quoting

/-!
# PolyglotSql.Batch.Cache

Reports kept for reuse. A report is found again under everything it depends on: dialect, quoting,
schema and script. A digest of these chooses the slot; as digests may collide, the whole key is
kept with the report and compared. A full cache gives up half of its entries before it takes
another.
-/

namespace PolyglotSql

/-- Everything that a report depends on; `φ` is the type by which schemas are told apart. -/
structure CacheKey (φ : Type) where
  dialect : Dialect
  mode : QuoteMode
  schema : φ
  sql : String
deriving DecidableEq

/-- Slots by digest, each with the whole key and the report. -/
structure ReportCache (φ δ : Type) where
  capacity : Nat
  digest : CacheKey φ → δ
  slots : List (δ × CacheKey φ × BatchReport)

namespace ReportCache

variable {φ δ : Type} [DecidableEq φ] [DecidableEq δ]

/-- Number of reports that the process-wide cache holds. -/
def standardCapacity : Nat := 1000

def new (capacity : Nat) (digest : CacheKey φ → δ) : ReportCache φ δ :=
  { capacity, digest, slots := [] }

def size (c : ReportCache φ δ) : Nat :=
  c.slots.length

/-- The report kept under exactly this key. -/
def get? (c : ReportCache φ δ) (key : CacheKey φ) : Option BatchReport :=
  match c.slots.find? fun slot => slot.1 = c.digest key with
  | some (_, stored, report) => if stored = key then some report else none
  | none => none

/-- Half of a number, rounded up. -/
def halfUp (n : Nat) : Nat :=
  (n + 1) / 2

/-- Removes half of the slots of a full cache. `order` lists the slots in the order in which they
are given up. -/
def makeRoom (c : ReportCache φ δ)
    (order : List (δ × CacheKey φ × BatchReport) → List (δ × CacheKey φ × BatchReport)) :
    ReportCache φ δ :=
  if c.capacity ≤ c.size then { c with slots := (order c.slots).drop (halfUp c.capacity) } else c

/-- Puts a report into the slot of its key, in place of whatever was there. -/
def put (c : ReportCache φ δ) (key : CacheKey φ) (report : BatchReport) : ReportCache φ δ :=
  let others := c.slots.filter fun slot => slot.1 ≠ c.digest key
  { c with slots := others ++ [(c.digest key, key, report)] }

/-- Keeps a report, giving up others in the stated order if the cache is full. -/
def insertBy (c : ReportCache φ δ)
    (order : List (δ × CacheKey φ × BatchReport) → List (δ × CacheKey φ × BatchReport))
    (key : CacheKey φ) (report : BatchReport) : ReportCache φ δ :=
  (c.makeRoom order).put key report

/-- Keeps a report; a full cache gives up its oldest entries. -/
def insert (c : ReportCache φ δ) (key : CacheKey φ) (report : BatchReport) : ReportCache φ δ :=
  c.insertBy id key report

/-- Keeps a report without errors, giving up others in the stated order if the cache is full, and
ignores any other. -/
def keepBy (c : ReportCache φ δ)
    (order : List (δ × CacheKey φ × BatchReport) → List (δ × CacheKey φ × BatchReport))
    (key : CacheKey φ) (report : BatchReport) : ReportCache φ δ :=
  if report.allTranslated then c.insertBy order key report else c

end ReportCache
end PolyglotSql
