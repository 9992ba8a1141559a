import ForgeKit.Lib.JsonRead
import ForgeKit.Lib.Table
import Mathlib.Data.Rat.Defs
import Mathlib.Algebra.Order.Ring.Rat
import Mathlib.Tactic.Linarith

/-!
# The local cache (`yule_storage/local_cache`)

JSON documents under a namespace and a key, in one SQLite table. A row goes when a later save
cleans up, once it has been expired for the retention time.

* `saveJsonCache_of_storable` — a save with a positive ttl keeps its row
* `find?_runAll` — the row stays while other rows are saved
* `find?_runSave_cases` — where the rows after a save come from
-/

namespace ForgeKit.Storage

open Py (Text)
open JsonText

/-- What the functions raise. -/
inductive Raised where
  | valueError
  | unicodeEncodeError
deriving DecidableEq

/-- A text that SQLite can hold. -/
abbrev SqlText := {t : Text // Encodable t}

/-- Binds a text to a parameter of a statement. -/
def bindText (t : Text) : Except Raised SqlText :=
  if h : Encodable t then .ok ⟨t, h⟩ else .error .unicodeEncodeError

/-- A row of `local_cache_entries`. Times are seconds. -/
structure CacheRow where
  key : SqlText × SqlText
  provider : SqlText
  rangeStart : Option SqlText
  rangeEnd : Option SqlText
  scopeHash : SqlText
  payloadJson : SqlText
  metadataJson : SqlText
  fetchedAt : ℚ
  expiresAt : ℚ
  lastAccessedAt : ℚ

/-- `local_cache_entries`, under the namespace and the key of an entry. -/
abbrev Cache := Table (SqlText × SqlText) CacheRow CacheRow.key

/-- The arguments of `save_json_cache`, with the clock and `_should_run_cleanup()`. -/
structure SaveCall where
  ns : Text
  cacheKey : Text
  provider : Text
  rangeStart : Option Text
  rangeEnd : Option Text
  scopeHash : Text
  ttlSeconds : Int
  payload : JsonDict
  metadata : JsonDict
  staleRetentionSeconds : Option Int := some 604800
  now : ℚ
  cleanup : Bool

def bindText? : Option Text → Except Raised (Option SqlText)
  | some t => (bindText t).map some
  | none => .ok none

/-- `json.dumps(dict(d), ensure_ascii=False, sort_keys=True)`. -/
def dumpsDict (d : JsonDict) : Text := dumpsSorted (.obj d.members)

/-- The row that a call writes. -/
def SaveCall.row (call : SaveCall) : Except Raised CacheRow := do
  let ns ← bindText call.ns
  let cacheKey ← bindText call.cacheKey
  let provider ← bindText call.provider
  let rangeStart ← bindText? call.rangeStart
  let rangeEnd ← bindText? call.rangeEnd
  let scopeHash ← bindText call.scopeHash
  let payloadJson ← bindText (dumpsDict call.payload)
  let metadataJson ← bindText (dumpsDict call.metadata)
  .ok
    { key := (ns, cacheKey), provider := provider, rangeStart := rangeStart, rangeEnd := rangeEnd
      scopeHash := scopeHash, payloadJson := payloadJson, metadataJson := metadataJson
      fetchedAt := call.now, expiresAt := call.now + call.ttlSeconds, lastAccessedAt := call.now }

/-- `cleanup_before`. -/
def SaveCall.cleanupBefore (call : SaveCall) : ℚ :=
  match call.staleRetentionSeconds with
  | some n => if 0 < n then call.now - n else call.now
  | none => call.now

/-- `save_json_cache`. -/
def saveJsonCache (cache : Cache) (call : SaveCall) : Except Raised Cache := do
  if call.ttlSeconds ≤ 0 then .ok cache
  else
    let row ← call.row
    let cache := cache.upsert row
    .ok (if call.cleanup then cache.filterRows fun r => ¬ r.expiresAt ≤ call.cleanupBefore
      else cache)

/-- A save by whoever makes it; one that raises is rolled back. -/
def runSave (cache : Cache) (call : SaveCall) : Cache :=
  match saveJsonCache cache call with
  | .ok cache' => cache'
  | .error _ => cache

/-- Saves, one after the other. -/
def runAll (cache : Cache) (calls : List SaveCall) : Cache := calls.foldl runSave cache

/-- `_deserialize_json_object`. -/
def deserializeJsonObject (t : Text) : Option (List (Text × Value)) := (loads t).bind Value.dict?

/-- What `load_json_cache` reads of a row, as its callers use it. -/
structure LocalCacheEntry where
  cacheKey : Text
  payload : List (Text × Value)
  metadata : List (Text × Value)
  isStale : Bool

/-- `is_stale`. -/
def CacheRow.isStale (r : CacheRow) (now : ℚ) (ttlSeconds : Option Int) : Bool :=
  r.expiresAt ≤ now ||
    match ttlSeconds with
    | some n => 0 ≤ n && r.fetchedAt + n ≤ now
    | none => false

/-- `load_json_cache` with `touch=False`. -/
def loadJsonCache (cache : Cache) (ns cacheKey : SqlText) (ttlSeconds : Option Int)
    (allowStale : Bool) (now : ℚ) : Option LocalCacheEntry := do
  let row ← cache.find? (ns, cacheKey)
  if row.isStale now ttlSeconds && !allowStale then none
  else
    let payload ← deserializeJsonObject row.payloadJson.1
    some
      { cacheKey := row.key.2.1, payload := payload
        metadata := (deserializeJsonObject row.metadataJson.1).getD []
        isStale := row.isStale now ttlSeconds }

/-! ## What a save writes -/

theorem bindText_of {t : Text} (h : Encodable t) : bindText t = .ok ⟨t, h⟩ := dif_pos h

theorem bindText_eq_ok {t : Text} {u : SqlText} (h : bindText t = .ok u) : u.1 = t := by
  unfold bindText at h
  split at h
  · cases h
    rfl
  · cases h

theorem exists_of_bind_eq_ok {α β : Type} {x : Except Raised α} {f : α → Except Raised β} {b : β}
    (h : x >>= f = .ok b) : ∃ a, x = .ok a ∧ f a = .ok b := by
  cases x with
  | ok a => exact ⟨a, rfl, h⟩
  | error e => cases h

/-- The row is the one that the call writes. -/
structure SaveCall.Writes (call : SaveCall) (row : CacheRow) : Prop where
  ns : row.key.1.1 = call.ns
  cacheKey : row.key.2.1 = call.cacheKey
  payload : row.payloadJson.1 = dumpsDict call.payload
  metadata : row.metadataJson.1 = dumpsDict call.metadata
  fetchedAt : row.fetchedAt = call.now
  expiresAt : row.expiresAt = call.now + call.ttlSeconds

theorem SaveCall.writes_of_row {call : SaveCall} {row : CacheRow} (h : call.row = .ok row) :
    call.Writes row := by
  obtain ⟨ns, hns, h⟩ := exists_of_bind_eq_ok h
  obtain ⟨cacheKey, hkey, h⟩ := exists_of_bind_eq_ok h
  obtain ⟨_, -, h⟩ := exists_of_bind_eq_ok h
  obtain ⟨_, -, h⟩ := exists_of_bind_eq_ok h
  obtain ⟨_, -, h⟩ := exists_of_bind_eq_ok h
  obtain ⟨_, -, h⟩ := exists_of_bind_eq_ok h
  obtain ⟨payloadJson, hpayload, h⟩ := exists_of_bind_eq_ok h
  obtain ⟨metadataJson, hmetadata, h⟩ := exists_of_bind_eq_ok h
  cases h
  exact ⟨bindText_eq_ok hns, bindText_eq_ok hkey, bindText_eq_ok hpayload,
    bindText_eq_ok hmetadata, rfl, rfl⟩

/-- Every text of the call has an encoding. -/
structure SaveCall.Storable (call : SaveCall) : Prop where
  ns : Encodable call.ns
  cacheKey : Encodable call.cacheKey
  provider : Encodable call.provider
  rangeStart : ∀ t, call.rangeStart = some t → Encodable t
  rangeEnd : ∀ t, call.rangeEnd = some t → Encodable t
  scopeHash : Encodable call.scopeHash
  payload : Encodable (dumpsDict call.payload)
  metadata : Encodable (dumpsDict call.metadata)

theorem exists_bindText? {o : Option Text} (h : ∀ t, o = some t → Encodable t) :
    ∃ u, bindText? o = .ok u := by
  cases o with
  | none => exact ⟨none, rfl⟩
  | some t => exact ⟨some ⟨t, h t rfl⟩, by rw [bindText?, bindText_of (h t rfl)]; rfl⟩

theorem SaveCall.Storable.exists_row {call : SaveCall} (h : call.Storable) :
    ∃ row, call.row = .ok row := by
  obtain ⟨rangeStart, hstart⟩ := exists_bindText? h.rangeStart
  obtain ⟨rangeEnd, hend⟩ := exists_bindText? h.rangeEnd
  let row : CacheRow :=
    { key := (⟨_, h.ns⟩, ⟨_, h.cacheKey⟩), provider := ⟨_, h.provider⟩, rangeStart := rangeStart
      rangeEnd := rangeEnd, scopeHash := ⟨_, h.scopeHash⟩, payloadJson := ⟨_, h.payload⟩
      metadataJson := ⟨_, h.metadata⟩, fetchedAt := call.now
      expiresAt := call.now + call.ttlSeconds, lastAccessedAt := call.now }
  refine ⟨row, ?_⟩
  rw [SaveCall.row, bindText_of h.ns, bindText_of h.cacheKey, bindText_of h.provider, hstart, hend,
    bindText_of h.scopeHash, bindText_of h.payload, bindText_of h.metadata]
  rfl

theorem SaveCall.cleanupBefore_le (call : SaveCall) : call.cleanupBefore ≤ call.now := by
  unfold cleanupBefore
  split
  · next n _ =>
    split
    · next hn =>
      have hn : (0 : ℚ) < n := by exact_mod_cast hn
      linarith
    · exact le_refl _
  · exact le_refl _

/-- **A save with a positive ttl keeps its row**, also when it cleans up. -/
theorem saveJsonCache_of_row {call : SaveCall} {row : CacheRow} (hrow : call.row = .ok row)
    (hpos : 0 < call.ttlSeconds) (cache : Cache) :
    ∃ cache', saveJsonCache cache call = .ok cache' ∧ cache'.find? row.key = some row := by
  have hwrites := call.writes_of_row hrow
  have hfind : (cache.upsert row).find? row.key = some row := by
    rw [Table.find?_upsert, if_pos rfl]
  have hlater : ¬ row.expiresAt ≤ call.cleanupBefore := by
    have hpos : (0 : ℚ) < call.ttlSeconds := by exact_mod_cast hpos
    have hle := call.cleanupBefore_le
    rw [hwrites.expiresAt]
    linarith
  have hsave : saveJsonCache cache call
      = .ok (if call.cleanup then (cache.upsert row).filterRows fun r =>
          ¬ r.expiresAt ≤ call.cleanupBefore else cache.upsert row) := by
    rw [saveJsonCache, if_neg (not_le.mpr hpos), hrow]
    rfl
  refine ⟨_, hsave, ?_⟩
  split
  · rw [Table.find?_filterRows, hfind, Option.filter_some, if_pos (decide_eq_true hlater)]
  · exact hfind

theorem saveJsonCache_of_storable {call : SaveCall} (h : call.Storable)
    (hpos : 0 < call.ttlSeconds) (cache : Cache) :
    ∃ cache' row, saveJsonCache cache call = .ok cache' ∧ cache'.find? row.key = some row ∧
      call.Writes row := by
  obtain ⟨row, hrow⟩ := h.exists_row
  obtain ⟨cache', hsave, hfind⟩ := saveJsonCache_of_row hrow hpos cache
  exact ⟨cache', row, hsave, hfind, call.writes_of_row hrow⟩

/-- **What a save that raises nothing does**: its row is there, and every other row is as it was or
is dropped. -/
theorem saveJsonCache_ok {cache cache' : Cache} {call : SaveCall}
    (h : saveJsonCache cache call = .ok cache') (hpos : 0 < call.ttlSeconds) :
    ∃ row, call.row = .ok row ∧ cache'.find? row.key = some row ∧
      ∀ k, k ≠ row.key → cache'.find? k = cache.find? k ∨ cache'.find? k = none := by
  cases hrow : call.row with
  | error e =>
    rw [saveJsonCache, if_neg (not_le.mpr hpos), hrow] at h
    cases h
  | ok row =>
    obtain ⟨_, hsave, hfind⟩ := saveJsonCache_of_row hrow hpos cache
    cases hsave.symm.trans h
    refine ⟨row, rfl, hfind, fun k hk => ?_⟩
    have hcache : cache' = if call.cleanup then (cache.upsert row).filterRows fun r =>
        ¬ r.expiresAt ≤ call.cleanupBefore else cache.upsert row := by
      rw [saveJsonCache, if_neg (not_le.mpr hpos), hrow] at h
      exact (Except.ok.inj h).symm
    have hupsert : (cache.upsert row).find? k = cache.find? k := by
      rw [Table.find?_upsert, if_neg (Ne.symm hk)]
    rw [hcache]
    split
    · rw [Table.find?_filterRows, hupsert]
      cases hrow' : cache.find? k with
      | none => exact .inl rfl
      | some r =>
        rw [Option.filter_some]
        split
        · exact .inl rfl
        · exact .inr rfl
    · exact .inl hupsert

/-! ## What other saves leave -/

/-- The call writes a row under another key, and its cleanup leaves alone what expires then. -/
def SaveCall.Spares (call : SaveCall) (ns cacheKey : Text) (expiresAt : ℚ) : Prop :=
  (call.ns, call.cacheKey) ≠ (ns, cacheKey) ∧
    (call.cleanup = true → call.cleanupBefore < expiresAt)

theorem find?_runSave {cache : Cache} {call : SaveCall} {row : CacheRow}
    (h : cache.find? row.key = some row)
    (hcall : call.Spares row.key.1.1 row.key.2.1 row.expiresAt) :
    (runSave cache call).find? row.key = some row := by
  unfold runSave saveJsonCache
  by_cases httl : call.ttlSeconds ≤ 0
  · rw [if_pos httl]
    exact h
  · rw [if_neg httl]
    cases hrow : call.row with
    | error e => exact h
    | ok new =>
      have hwrites := call.writes_of_row hrow
      have hne : new.key ≠ row.key := by
        intro heq
        refine hcall.1 ?_
        rw [← hwrites.ns, ← hwrites.cacheKey, heq]
      have hfind : (cache.upsert new).find? row.key = some row := by
        rw [Table.find?_upsert, if_neg hne, h]
      show (if call.cleanup = true then _ else _ : Cache).find? row.key = some row
      split
      · next hclean =>
        have hkeep : ¬ row.expiresAt ≤ call.cleanupBefore := not_le.mpr (hcall.2 hclean)
        rw [Table.find?_filterRows, hfind, Option.filter_some, if_pos (decide_eq_true hkeep)]
      · exact hfind

/-- **The row stays while other rows are saved.** -/
theorem find?_runAll {cache : Cache} {calls : List SaveCall} {row : CacheRow}
    (h : cache.find? row.key = some row)
    (hcalls : ∀ call ∈ calls, call.Spares row.key.1.1 row.key.2.1 row.expiresAt) :
    (runAll cache calls).find? row.key = some row := by
  induction calls generalizing cache with
  | nil => exact h
  | cons call calls ih =>
    exact ih (find?_runSave h (hcalls call List.mem_cons_self))
      fun c hc => hcalls c (List.mem_cons_of_mem _ hc)

/-- **A row after a save** was there before, or is the row of the call. -/
theorem find?_runSave_cases {cache : Cache} {call : SaveCall} {k : SqlText × SqlText}
    {row : CacheRow} (h : (runSave cache call).find? k = some row) :
    cache.find? k = some row ∨ call.Writes row := by
  unfold runSave saveJsonCache at h
  by_cases httl : call.ttlSeconds ≤ 0
  · rw [if_pos httl] at h
    exact .inl h
  · rw [if_neg httl] at h
    cases hrow : call.row with
    | error e =>
      rw [hrow] at h
      exact .inl h
    | ok new =>
      have hupsert : (cache.upsert new).find? k = some row := by
        rw [hrow] at h
        have h : (if call.cleanup = true then (cache.upsert new).filterRows fun r =>
            ¬ r.expiresAt ≤ call.cleanupBefore else cache.upsert new).find? k = some row := h
        split at h
        · rw [Table.find?_filterRows] at h
          exact (Option.filter_eq_some_iff.mp h).1
        · exact h
      rw [Table.find?_upsert] at hupsert
      split at hupsert
      · cases hupsert
        exact .inr (call.writes_of_row hrow)
      · exact .inl hupsert

/-! ## What a load reads -/

theorem encodable_dumpsDict {d : JsonDict} (h : ∀ t ∈ (Value.obj d.members).texts, Encodable t) :
    Encodable (dumpsDict d) :=
  Py.encode_isSome_iff.mp (encode_dumpsSorted h)

theorem valid_payload {cache : Cache} {ns key : SqlText} {ttlSeconds : Option Int}
    {allowStale : Bool} {now : ℚ} {entry : LocalCacheEntry}
    (h : loadJsonCache cache ns key ttlSeconds allowStale now = some entry) :
    (Value.obj entry.payload).Valid := by
  unfold loadJsonCache at h
  obtain ⟨row, -, h⟩ := Option.bind_eq_some_iff.mp h
  split at h
  · cases h
  · obtain ⟨payload, hpayload, h⟩ := Option.bind_eq_some_iff.mp h
    cases h
    obtain ⟨v, hloads, hv⟩ := Option.bind_eq_some_iff.mp hpayload
    have hobj : v = .obj payload := by
      cases v <;> cases hv
      rfl
    exact hobj ▸ valid_of_loads hloads

theorem deserializeJsonObject_dumpsDict (d : JsonDict) :
    deserializeJsonObject (dumpsDict d) = some d.sorted.members := by
  rw [deserializeJsonObject, dumpsDict, loads_dumpsSorted d.valid]
  rfl

theorem isStale_eq_false {row : CacheRow} {now : ℚ} {n : Int} (hexpires : now < row.expiresAt)
    (hfetched : 0 ≤ n → now < row.fetchedAt + n) : row.isStale now (some n) = false := by
  have hexpired : ¬ row.expiresAt ≤ now := not_le.mpr hexpires
  have httl : ¬ (0 ≤ n ∧ row.fetchedAt + n ≤ now) := fun h => absurd h.2 (not_le.mpr (hfetched h.1))
  simp only [CacheRow.isStale, hexpired, decide_false, Bool.false_or, ← Bool.decide_and, httl]

/-- What a load gives of the row that a call wrote. -/
theorem loadJsonCache_of_writes {call : SaveCall} {row : CacheRow} (hrow : call.Writes row)
    {cache : Cache} {ns cacheKey : SqlText} (hfind : cache.find? (ns, cacheKey) = some row)
    {ttlSeconds : Option Int} {allowStale : Bool} {now : ℚ}
    (hfresh : allowStale = true ∨ row.isStale now ttlSeconds = false) :
    loadJsonCache cache ns cacheKey ttlSeconds allowStale now = some
      { cacheKey := call.cacheKey, payload := call.payload.sorted.members
        metadata := call.metadata.sorted.members, isStale := row.isStale now ttlSeconds } := by
  have hstale : ¬ (row.isStale now ttlSeconds && !allowStale) = true := by
    rcases hfresh with hallow | hfresh
    · simp [hallow]
    · simp [hfresh]
  unfold loadJsonCache
  rw [hfind]
  simp only [Option.bind_eq_bind, Option.bind_some]
  rw [if_neg hstale, hrow.payload, hrow.metadata, deserializeJsonObject_dumpsDict,
    deserializeJsonObject_dumpsDict, hrow.cacheKey]
  rfl

end ForgeKit.Storage
