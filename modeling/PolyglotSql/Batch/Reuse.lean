import PolyglotSql.Batch.Cache
import PolyglotSql.Batch.Script

/-!
# PolyglotSql.Batch.Reuse

Translating scripts with reports kept for reuse. A report is taken from the cache if one is kept
for the same script under the same circumstances; a new one is kept if all its statements were
translated.
-/

namespace PolyglotSql

namespace Translator

variable {φ δ : Type} [DecidableEq φ] [DecidableEq δ]

/-- Under what the report on a script is kept, besides the rules of the dialects. -/
def key (t : Translator) (hash : List Value.HashItem → φ) (catalog : Catalog) (script : String) :
    CacheKey φ :=
  { dialect := t.dialect, mode := t.mode, schema := hash catalog.fingerprint, sql := script }

/-- What becomes of a script, from the cache if possible, and the cache afterwards. `order` lists
entries in the order in which a full cache gives them up. -/
def translateCached (hash : List Value.HashItem → φ)
    (order : List (δ × CacheKey φ × BatchReport) → List (δ × CacheKey φ × BatchReport))
    (cache : ReportCache φ δ) (t : Translator) (catalog : Catalog) (script : String) :
    Except Defect (Except Failure BatchReport) × ReportCache φ δ :=
  let key := t.key hash catalog script
  match cache.get? key with
  | some report => (.ok (.ok report), cache)
  | none =>
    match t.translateScript catalog script with
    | .ok (.ok report) => (.ok (.ok report), cache.keepBy order key report)
    | failed => (failed, cache)

end Translator
end PolyglotSql
