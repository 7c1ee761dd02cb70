import PolyglotSql.Batch.Reuse
import PolyglotSql.Proofs.Canonical.Schemas

/-!
# PolyglotSql.Proofs.Batch.Reuse

Reports kept for reuse change no answer. The key of a report holds everything that translating the
script depends on; what is in the cache is always the report on a script that was asked for before,
under its own key, whatever was given up and whichever digests collide (`Keeps`); so every answer
is the one a fresh translation gives (`answers_eq_fresh`).
-/

namespace PolyglotSql

/-! ## What a translation depends on -/

namespace Translator

theorem translateScript_columns {c d : Catalog} (h : c.columns = d.columns) (t : Translator)
    (script : String) : t.translateScript c script = t.translateScript d script := by
  have houtcome : t.outcome c = t.outcome d := by
    funext index s
    simp only [outcome, translateStatement, Canonical.tree_columns h s]
  simp only [translateScript, report, houtcome]

end Translator

/-! ## What is in a cache -/

namespace ReportCache

variable {φ δ : Type}

theorem mem_makeRoom {cache : ReportCache φ δ}
    {order : List (δ × CacheKey φ × BatchReport) → List (δ × CacheKey φ × BatchReport)}
    (horder : ∀ slots, (order slots).Perm slots) {slot : δ × CacheKey φ × BatchReport}
    (h : slot ∈ (cache.makeRoom order).slots) : slot ∈ cache.slots := by
  unfold makeRoom at h
  split at h
  · exact (horder _).subset (List.mem_of_mem_drop h)
  · exact h

@[simp] theorem makeRoom_digest (cache : ReportCache φ δ)
    (order : List (δ × CacheKey φ × BatchReport) → List (δ × CacheKey φ × BatchReport)) :
    (cache.makeRoom order).digest = cache.digest := by
  unfold makeRoom
  split <;> rfl

variable [DecidableEq δ]

/-- What is in a cache was there before in another slot, or is the report that has just been
inserted. -/
theorem mem_insertBy {cache : ReportCache φ δ}
    {order : List (δ × CacheKey φ × BatchReport) → List (δ × CacheKey φ × BatchReport)}
    (horder : ∀ slots, (order slots).Perm slots) {key : CacheKey φ} {report : BatchReport}
    {slot : δ × CacheKey φ × BatchReport} (h : slot ∈ (cache.insertBy order key report).slots) :
    (slot ∈ cache.slots ∧ slot.1 ≠ cache.digest key) ∨ slot = (cache.digest key, key, report) := by
  rw [insertBy, put, makeRoom_digest, List.mem_append, List.mem_singleton] at h
  obtain hold | rfl := h
  · obtain ⟨hroom, hdigest⟩ := List.mem_filter.1 hold
    exact .inl ⟨mem_makeRoom horder hroom, by simpa using hdigest⟩
  · exact .inr rfl

theorem mem_keepBy {cache : ReportCache φ δ}
    {order : List (δ × CacheKey φ × BatchReport) → List (δ × CacheKey φ × BatchReport)}
    (horder : ∀ slots, (order slots).Perm slots) {key : CacheKey φ} {report : BatchReport}
    {slot : δ × CacheKey φ × BatchReport} (h : slot ∈ (cache.keepBy order key report).slots) :
    slot ∈ cache.slots ∨ slot.2 = (key, report) := by
  unfold keepBy at h
  split at h
  · obtain ⟨hold, -⟩ | rfl := mem_insertBy horder h
    · exact .inl hold
    · exact .inr rfl
  · exact .inl h

variable [DecidableEq φ]

theorem mem_of_get? {cache : ReportCache φ δ} {key : CacheKey φ} {report : BatchReport}
    (h : cache.get? key = some report) : ∃ digest, (digest, key, report) ∈ cache.slots := by
  unfold get? at h
  split at h
  · rename_i digest stored kept hfind
    split at h
    · rename_i hstored
      obtain rfl := hstored
      obtain rfl := Option.some.inj h
      exact ⟨digest, List.mem_of_find?_eq_some hfind⟩
    · cases h
  · cases h

end ReportCache

/-! ## Requests -/

/-- A script to be translated. -/
structure ScriptRequest (φ δ : Type) where
  translator : Translator
  catalog : Catalog
  script : String
  /-- Lists what is kept in the order in which it is given up, should the cache be full. -/
  order : List (δ × CacheKey φ × BatchReport) → List (δ × CacheKey φ × BatchReport)

namespace ScriptRequest

variable {φ δ : Type}

def fresh (r : ScriptRequest φ δ) : Except Defect (Except Failure BatchReport) :=
  r.translator.translateScript r.catalog r.script

def key (hash : List Value.HashItem → φ) (r : ScriptRequest φ δ) : CacheKey φ :=
  r.translator.key hash r.catalog r.script

/-- The hash tells apart the fingerprints of the catalogs that requests come with. -/
def Separates (hash : List Value.HashItem → φ) (requests : List (ScriptRequest φ δ)) : Prop :=
  ∀ r ∈ requests, ∀ r' ∈ requests,
    hash r.catalog.fingerprint = hash r'.catalog.fingerprint →
      r.catalog.fingerprint = r'.catalog.fingerprint

theorem fresh_of_key {hash : List Value.HashItem → φ} {requests : List (ScriptRequest φ δ)}
    (hhash : Separates hash requests) {r r' : ScriptRequest φ δ} (hr : r ∈ requests)
    (hr' : r' ∈ requests) (h : r.key hash = r'.key hash) : r.fresh = r'.fresh := by
  simp only [key, Translator.key, CacheKey.mk.injEq] at h
  obtain ⟨hdialect, hmode, hschema, hscript⟩ := h
  have htranslator : r.translator = r'.translator := by
    cases hr : r.translator
    cases hr' : r'.translator
    simp_all
  have hcolumns := Catalog.columns_of_fingerprint (hhash r hr r' hr' hschema)
  rw [fresh, fresh, htranslator, hscript, Translator.translateScript_columns hcolumns]

/-- All that is in a cache are reports on the scripts of some of the requests, each under the
request's key. -/
def Keeps (hash : List Value.HashItem → φ) (requests : List (ScriptRequest φ δ))
    (cache : ReportCache φ δ) : Prop :=
  ∀ slot ∈ cache.slots, ∃ r ∈ requests, slot.2.1 = r.key hash ∧ r.fresh = .ok (.ok slot.2.2)

variable [DecidableEq φ] [DecidableEq δ]

/-- What a request is answered, and the cache afterwards. -/
def answer (hash : List Value.HashItem → φ) (cache : ReportCache φ δ) (r : ScriptRequest φ δ) :
    Except Defect (Except Failure BatchReport) × ReportCache φ δ :=
  Translator.translateCached hash r.order cache r.translator r.catalog r.script

/-- What requests are answered that come one after the other. -/
def answers (hash : List Value.HashItem → φ) (cache : ReportCache φ δ) :
    List (ScriptRequest φ δ) → List (Except Defect (Except Failure BatchReport))
  | [] => []
  | r :: rest => (answer hash cache r).1 :: answers hash (answer hash cache r).2 rest

theorem answer_hit {hash : List Value.HashItem → φ} {cache : ReportCache φ δ}
    {r : ScriptRequest φ δ} {report : BatchReport} (h : cache.get? (r.key hash) = some report) :
    answer hash cache r = (.ok (.ok report), cache) := by
  rw [key] at h
  simp only [answer, Translator.translateCached, h]

theorem answer_miss {hash : List Value.HashItem → φ} {cache : ReportCache φ δ}
    {r : ScriptRequest φ δ} (h : cache.get? (r.key hash) = none) :
    answer hash cache r = (r.fresh, match r.fresh with
      | .ok (.ok report) => cache.keepBy r.order (r.key hash) report
      | _ => cache) := by
  rw [key] at h
  simp only [answer, Translator.translateCached, h, fresh, key]
  split <;> simp_all

/-- A request is answered as if nothing were kept, and leaves in the cache nothing but reports that
requests were answered with. -/
theorem answer_keeps {hash : List Value.HashItem → φ} {requests : List (ScriptRequest φ δ)}
    {cache : ReportCache φ δ} (hkept : Keeps hash requests cache)
    (hhash : Separates hash requests) {r : ScriptRequest φ δ} (hr : r ∈ requests)
    (horder : ∀ slots, (r.order slots).Perm slots) :
    (answer hash cache r).1 = r.fresh ∧ Keeps hash requests (answer hash cache r).2 := by
  cases hfound : cache.get? (r.key hash) with
  | some report =>
    obtain ⟨digest, hslot⟩ := ReportCache.mem_of_get? hfound
    obtain ⟨r', hr', hkey, hreport⟩ := hkept _ hslot
    rw [answer_hit hfound]
    exact ⟨((fresh_of_key hhash hr hr' hkey).trans hreport).symm, hkept⟩
  | none =>
    rw [answer_miss hfound]
    refine ⟨rfl, ?_⟩
    split
    · rename_i report hfresh
      intro slot hslot
      obtain hold | hnew := ReportCache.mem_keepBy horder hslot
      · exact hkept slot hold
      · exact ⟨r, hr, congrArg Prod.fst hnew, by rw [hnew]; exact hfresh⟩
    · exact hkept

/-- From any cache of reports that requests were answered with, requests are answered as if nothing
were kept. -/
theorem answers_keeps {hash : List Value.HashItem → φ} {requests : List (ScriptRequest φ δ)}
    (hhash : Separates hash requests) {rest : List (ScriptRequest φ δ)} (hrest : rest ⊆ requests)
    (horder : ∀ r ∈ rest, ∀ slots, (r.order slots).Perm slots) {cache : ReportCache φ δ}
    (hkept : Keeps hash requests cache) : answers hash cache rest = rest.map fresh := by
  induction rest generalizing cache with
  | nil => rfl
  | cons r rest ih =>
    rw [List.cons_subset] at hrest
    rw [List.forall_mem_cons] at horder
    obtain ⟨hanswer, hkept⟩ := answer_keeps hkept hhash hrest.1 horder.1
    rw [answers, List.map_cons, hanswer, ih hrest.2 horder.2 hkept]

/-- Requests that come one after the other, to a cache of any capacity that is empty at first, are
answered as if nothing were kept, whatever a full cache gives up and whichever keys have one
digest. -/
theorem answers_eq_fresh (hash : List Value.HashItem → φ) (digest : CacheKey φ → δ)
    (capacity : Nat) (requests : List (ScriptRequest φ δ)) (hhash : Separates hash requests)
    (horder : ∀ r ∈ requests, ∀ slots, (r.order slots).Perm slots) :
    answers hash (.new capacity digest) requests = requests.map fresh :=
  answers_keeps hhash (List.Subset.refl _) horder fun _ hslot => absurd hslot List.not_mem_nil

/-- A hash that only counts what is hashed. -/
def countItems (items : List Value.HashItem) : UInt64 :=
  UInt64.ofNat items.length

/-- A script to be translated for a catalog, where a full cache gives up its newest entries. -/
def newestFirst (dialect : Dialect) (mode : QuoteMode) (catalog : Catalog) (script : String) :
    ScriptRequest UInt64 Unit :=
  { translator := ⟨dialect, mode⟩, catalog, script, order := List.reverse }

/-- Scripts of which one comes twice, one with two catalogs, one with two modes, and one is no
SQL. -/
def mixed : List (ScriptRequest UInt64 Unit) :=
  let songs := Catalog.empty.insert ⟨"song", [.ofType "title" .char]⟩
  [newestFirst .oracle .never .empty "SELECT title FROM song",
    newestFirst .oracle .never songs "SELECT title FROM song",
    newestFirst .oracle .always songs "SELECT title FROM song",
    newestFirst .oracle .never songs "SELECT FROM",
    newestFirst .oracle .never .empty "SELECT title FROM song"]

/-- All keys have one digest, and there is room for one report only. -/
theorem answers_eq_fresh_mixed : Separates countItems mixed ∧
    (∀ r ∈ mixed, ∀ slots, (r.order slots).Perm slots) ∧
    answers countItems (.new 1 fun _ => ()) mixed = mixed.map fresh := by
  have hhash : Separates countItems mixed := by
    unfold Separates
    decide
  have horder : ∀ r ∈ mixed, ∀ slots, (r.order slots).Perm slots := by
    simp [mixed, newestFirst, List.reverse_perm]
  exact ⟨hhash, horder, answers_eq_fresh countItems (fun _ => ()) 1 mixed hhash horder⟩

end ScriptRequest
end PolyglotSql
