import ForgeKit.Calendar.NaverItems

/-!
# The newest observation of an item

A cached answer is written to the table of item states as if the server had just sent it. What it
brings is older than the row of an item that another range has seen since.

* `newest_kept_iff` — the rows are the newest observations exactly when the cached answers are
* `older_answer_reopens` — a cached answer of one range undoes what another range has seen
-/

namespace ForgeKit.Calendar

open Py (Text lit)
open JsonText
open Storage
open Machine
open IsoTime (Date)
open DayPlan (CalendarEvent CalendarTodo Readers)

section Newest

variable (py : Readers) (hashes : Hashes)

/-- Every record that the server has sent, oldest first. -/
def World.observed (w : World) : List ItemRecord :=
  w.fetched.flatMap fun fetched => fetched.result.records hashes

/-- **The row of each item is the newest observation of it.** -/
def World.UpToDate (w : World) : Prop :=
  ∀ id, (w.states.find? id).map StateRow.record = lastOf id (w.observed hashes)

/-- An answer from the cache brings the newest observation of each of its items. -/
def World.NewestServed (w : World) (call : Call) : Prop :=
  ∀ result, w.answer py hashes call = .cached result →
    ∀ id item, lastOf id (result.records hashes) = some item →
      lastOf id (w.observed hashes) = some item

/-- The server reports the item open in its first results, and completed in all that follow. -/
def Settles (id : ItemId) (fetched : List Fetched) : Prop :=
  ∃ before after, fetched = before ++ after ∧
    (∀ f ∈ before, ∀ item ∈ f.result.records hashes, item.id = id → item.completed = false) ∧
    (∀ f ∈ after, ∀ item ∈ f.result.records hashes, item.id = id → item.completed = true)

variable {py hashes}

/-! ## One call -/

theorem World.find?_sync (w : World) (call : Call) (result : CalendarQueryResult) (id : ItemId) :
    ((w.syncCalendarStateSafely hashes call result).states.find? id).map StateRow.record
      = (lastOf id (result.records hashes)).or ((w.states.find? id).map StateRow.record) := by
  rw [syncCalendarStateSafely, CalendarQueryResult.records]
  cases hitems : itemRecords hashes result.events result.todos with
  | none => rfl
  | some items => exact find?_syncItems ..

theorem World.completed_sync (w : World) (call : Call) (result : CalendarQueryResult) :
    (w.syncCalendarStateSafely hashes call result).completed
      = w.completed ++ completions (syncItems (call.scopeHash hashes).1 call.syncedAt w.states
          (result.records hashes)).2 := by
  rw [syncCalendarStateSafely, CalendarQueryResult.records]
  cases hitems : itemRecords hashes result.events result.todos with
  | none => exact (List.append_nil _).symm
  | some items => rfl

@[simp] theorem World.fetched_sync (w : World) (call : Call) (result : CalendarQueryResult) :
    (w.syncCalendarStateSafely hashes call result).fetched = w.fetched := by
  rw [syncCalendarStateSafely]
  split <;> rfl

@[simp] theorem World.cache_sync (w : World) (call : Call) (result : CalendarQueryResult) :
    (w.syncCalendarStateSafely hashes call result).cache = w.cache := by
  rw [syncCalendarStateSafely]
  split <;> rfl

theorem World.observed_sync (w : World) (call : Call) (result : CalendarQueryResult) :
    (w.syncCalendarStateSafely hashes call result).observed hashes = w.observed hashes := by
  rw [observed, fetched_sync, observed]

/-- The world once the server has answered, and before the states are synchronised. -/
def World.receive (hashes : Hashes) (w : World) (call : Call) (fetched : Fetched) : World :=
  { w with
    cache := runSave w.cache (call.saveCall hashes fetched.result)
    fetched := w.fetched ++ [fetched] }

theorem World.observed_receive (w : World) (call : Call) (fetched : Fetched) :
    (w.receive hashes call fetched).observed hashes
      = w.observed hashes ++ fetched.result.records hashes := by
  rw [observed, receive, List.flatMap_append, List.flatMap_singleton]
  rfl

variable (py hashes) in
/-- What a call can leave. -/
theorem World.step_cases (w : World) (call : Call) :
    (∃ result, w.answer py hashes call = .cached result ∧
      w.listNaverCalendarItems py hashes call = w.syncCalendarStateSafely hashes call result) ∨
    (∃ fetched, w.answer py hashes call = .server fetched ∧
      w.listNaverCalendarItems py hashes call
        = (w.receive hashes call fetched).syncCalendarStateSafely hashes call fetched.result) ∨
    (∃ error, w.answer py hashes call = .failed error ∧
      w.listNaverCalendarItems py hashes call = w) := by
  rw [listNaverCalendarItems]
  cases w.answer py hashes call with
  | cached result => exact .inl ⟨result, rfl, rfl⟩
  | server fetched => exact .inr (.inl ⟨fetched, rfl, rfl⟩)
  | failed error => exact .inr (.inr ⟨error, rfl, rfl⟩)

/-- **One call keeps the rows up to date exactly when its cached answer is.** -/
theorem World.upToDate_step_iff {w : World} (h : w.UpToDate hashes) (call : Call) :
    (w.listNaverCalendarItems py hashes call).UpToDate hashes ↔ w.NewestServed py hashes call := by
  rcases w.step_cases py hashes call with
    ⟨result, hanswer, hstep⟩ | ⟨fetched, hanswer, hstep⟩ | ⟨error, hanswer, hstep⟩
  · rw [hstep]
    constructor
    · intro hnext result' hanswer' id item hitem
      obtain rfl : result = result' := by
        rw [hanswer] at hanswer'
        cases hanswer'
        rfl
      have hrow := hnext id
      rw [find?_sync, observed_sync, hitem, Option.some_or] at hrow
      exact hrow.symm
    · intro hnewest id
      rw [find?_sync, observed_sync, h id]
      cases hlast : lastOf id (result.records hashes) with
      | none => exact Option.none_or
      | some item => rw [Option.some_or, hnewest result hanswer id item hlast]
  · refine iff_of_true ?_ fun result hcached => ?_
    · intro id
      rw [hstep, find?_sync, observed_sync, observed_receive, lastOf_append, ← h id]
      rfl
    · rw [hanswer] at hcached
      cases hcached
  · refine iff_of_true ?_ fun result hcached => ?_
    · rw [hstep]
      exact h
    · rw [hanswer] at hcached
      cases hcached

/-! ## Cached answers are earlier answers of the server -/

/-- Every row of the cache holds a result that the server has sent. -/
def World.CacheFrom (w : World) : Prop :=
  ∀ k row, w.cache.find? k = some row →
    ∃ fetched ∈ w.fetched, row.payloadJson.1 = dumpsDict fetched.result.toDict

theorem World.CacheFrom.of_load {w : World} (h : w.CacheFrom) {k : SqlText × SqlText}
    {ttlSeconds : Option Int} {allowStale : Bool} {now : ℚ} {result : CalendarQueryResult}
    (hload : ((loadJsonCache w.cache k.1 k.2 ttlSeconds allowStale now).bind fun entry =>
      CalendarQueryResult.fromDict py entry.payload) = some result) :
    ∃ fetched ∈ w.fetched, result = fetched.result := by
  obtain ⟨entry, hentry, hread⟩ := Option.bind_eq_some_iff.mp hload
  rw [loadJsonCache] at hentry
  obtain ⟨row, hrow, hentry⟩ := Option.bind_eq_some_iff.mp hentry
  obtain ⟨fetched, hmem, hpayload⟩ := h _ row hrow
  split at hentry
  · cases hentry
  · rw [hpayload, deserializeJsonObject_dumpsDict] at hentry
    cases hentry
    rw [CalendarQueryResult.fromDict_toDict] at hread
    exact ⟨fetched, hmem, (Option.some.inj hread).symm⟩

theorem World.CacheFrom.of_cached {w : World} (h : w.CacheFrom) {call : Call}
    {result : CalendarQueryResult} (hanswer : w.answer py hashes call = .cached result) :
    ∃ fetched ∈ w.fetched, result = fetched.result := by
  rw [World.answer] at hanswer
  cases hfresh : w.freshResult py hashes call with
  | some cachedResult =>
    rw [hfresh] at hanswer
    cases hanswer
    rw [freshResult] at hfresh
    split at hfresh
    · cases hfresh
    · rw [loadCalendarCache] at hfresh
      split at hfresh
      · cases hfresh
      · exact h.of_load (k := (_, _)) hfresh
  | none =>
    rw [hfresh] at hanswer
    cases hserver : call.server with
    | ok fetched =>
      rw [hserver] at hanswer
      cases hanswer
    | error exc =>
      rw [hserver] at hanswer
      cases hstale : w.staleResult py hashes call with
      | none =>
        rw [hstale] at hanswer
        cases hanswer
      | some staleCachedResult =>
        rw [hstale] at hanswer
        have hanswer : (if canUseStaleCacheOnError exc then Answer.cached staleCachedResult
            else .failed exc) = .cached result := hanswer
        split at hanswer
        · cases hanswer
          rw [staleResult] at hstale
          split at hstale
          · cases hstale
          · exact h.of_load (k := (_, _)) hstale
        · cases hanswer

theorem World.CacheFrom.receive {w : World} (h : w.CacheFrom) (call : Call) (fetched : Fetched) :
    (w.receive hashes call fetched).CacheFrom := by
  intro k row hrow
  rcases find?_runSave_cases hrow with hrow | hwrites
  · obtain ⟨f, hmem, hpayload⟩ := h k row hrow
    exact ⟨f, List.mem_append_left _ hmem, hpayload⟩
  · exact ⟨fetched, List.mem_append_right _ List.mem_cons_self, hwrites.payload⟩

theorem World.CacheFrom.step {w : World} (h : w.CacheFrom) (call : Call) :
    (w.listNaverCalendarItems py hashes call).CacheFrom := by
  have hsync : ∀ (v : World) (result : CalendarQueryResult), v.CacheFrom →
      (v.syncCalendarStateSafely hashes call result).CacheFrom := by
    intro v result hv k row hrow
    rw [cache_sync] at hrow
    rw [fetched_sync]
    exact hv k row hrow
  rcases w.step_cases py hashes call with
    ⟨result, -, hstep⟩ | ⟨fetched, -, hstep⟩ | ⟨error, -, hstep⟩
  · rw [hstep]
    exact hsync w result h
  · rw [hstep]
    exact hsync _ _ (h.receive call fetched)
  · rw [hstep]
    exact h

/-! ## How often a todo counts as completed -/

/-- Until the last result the server has settled as well, and all the last result says is one. -/
theorem Settles.of_concat {id : ItemId} {fetched : List Fetched} {f : Fetched}
    (h : Settles hashes id (fetched ++ [f])) :
    Settles hashes id fetched ∧
      ((∀ item ∈ f.result.records hashes, item.id = id → item.completed = true) ∨
        ∀ g ∈ fetched ++ [f], ∀ item ∈ g.result.records hashes, item.id = id →
          item.completed = false) := by
  obtain ⟨before, after, heq, hopen, hdone⟩ := h
  rcases List.eq_nil_or_concat after with rfl | ⟨after, g, rfl⟩
  · rw [List.append_nil] at heq
    subst heq
    refine ⟨⟨fetched, [], (List.append_nil _).symm, fun g hg => ?_, by simp⟩, .inr hopen⟩
    exact hopen g (List.mem_append_left _ hg)
  · rw [List.concat_eq_append, ← List.append_assoc] at heq
    obtain ⟨rfl, hlast⟩ := List.append_inj' heq rfl
    obtain rfl := List.singleton_inj.mp hlast
    refine ⟨⟨before, after, rfl, hopen, fun g hg => ?_⟩, .inl ?_⟩
    · exact hdone g (by simp [hg])
    · exact hdone f (by simp)

/-- Each result that the server has sent says one thing of the item. -/
theorem Settles.of_mem {id : ItemId} {fetched : List Fetched} (h : Settles hashes id fetched)
    {f : Fetched} (hf : f ∈ fetched) :
    (∀ item ∈ f.result.records hashes, item.id = id → item.completed = true) ∨
      ∀ item ∈ f.result.records hashes, item.id = id → item.completed = false := by
  obtain ⟨before, after, rfl, hopen, hdone⟩ := h
  rcases List.mem_append.mp hf with hf | hf
  · exact .inr (hopen f hf)
  · exact .inl (hdone f hf)

/-- A todo that stays completed has counted once, at most, and then its newest record is
completed. -/
def World.CountedOnce (hashes : Hashes) (w : World) (id : ItemId) : Prop :=
  Settles hashes id w.fetched → w.completed.count id = 0 ∨ w.completed.count id = 1 ∧
    ∃ item, lastOf id (w.observed hashes) = some item ∧ item.completed = true

theorem World.UpToDate.done {w : World} (h : w.UpToDate hashes) {id : ItemId} {item : ItemRecord}
    (hlast : lastOf id (w.observed hashes) = some item) (hitem : item.completed = true) :
    Done w.states id := by
  intro row hrow
  have hrecord := h id
  rw [hrow, hlast] at hrecord
  rw [Option.some.inj hrecord, hitem]

/-- Completed records count as completed only where the item has an open row. -/
theorem count_completions_of_row {id : ItemId} {items : List ItemRecord}
    (h : ∀ item ∈ items, item.id = id → item.completed = true) (scopeHash : Text) (now : ℚ)
    {table : StateTable} (hrow : lastOf id items ≠ none → Done table id) :
    (completions (syncItems scopeHash now table items).2).count id = 0 := by
  by_cases hlast : lastOf id items = none
  · refine count_completions_of_open (fun item hitem hid => ?_) scopeHash now table
    exact absurd hid (lastOf_eq_none_iff.mp hlast item hitem)
  · exact count_completions_of_done h scopeHash now (hrow hlast)

theorem World.CountedOnce.cached {w : World} (hup : w.UpToDate hashes) (hcache : w.CacheFrom)
    {id : ItemId} (h : w.CountedOnce hashes id) {call : Call} {result : CalendarQueryResult}
    (hanswer : w.answer py hashes call = .cached result) (hnewest : w.NewestServed py hashes call) :
    (w.syncCalendarStateSafely hashes call result).CountedOnce hashes id := by
  intro hsettles
  rw [fetched_sync] at hsettles
  have hzero : (completions (syncItems (call.scopeHash hashes).1 call.syncedAt w.states
      (result.records hashes)).2).count id = 0 := by
    obtain ⟨f, hf, rfl⟩ := hcache.of_cached hanswer
    rcases hsettles.of_mem hf with hdone | hopen
    · refine count_completions_of_row hdone _ _ fun hsome => ?_
      obtain ⟨item, hlast⟩ := Option.ne_none_iff_exists'.mp hsome
      obtain ⟨hmem, hid⟩ := mem_of_lastOf hlast
      exact hup.done (hnewest _ hanswer id item hlast) (hdone item hmem hid)
    · exact count_completions_of_open hopen _ _ _
  rw [completed_sync, List.count_append, hzero, Nat.add_zero, observed_sync]
  exact h hsettles

theorem World.CountedOnce.server {w : World} (hup : w.UpToDate hashes) {id : ItemId}
    (h : w.CountedOnce hashes id) (call : Call) (f : Fetched) :
    ((w.receive hashes call f).syncCalendarStateSafely hashes call f.result).CountedOnce hashes id := by
  intro hsettles
  rw [fetched_sync] at hsettles
  obtain ⟨hbefore, hlast⟩ := Settles.of_concat hsettles
  rw [completed_sync, List.count_append, observed_sync, observed_receive, lastOf_append]
  obtain ⟨new, hnew⟩ : ∃ n, (completions (syncItems (call.scopeHash hashes).1 call.syncedAt w.states
    (f.result.records hashes)).2).count id = n := ⟨_, rfl⟩
  have hstates : (w.receive hashes call f).states = w.states := rfl
  have hcompleted : (w.receive hashes call f).completed = w.completed := rfl
  rw [hstates, hcompleted, hnew]
  rcases hlast with hdone | hopen
  · rcases h hbefore with hzero | ⟨hone, item, hitem, hcompleted⟩
    · -- the item may count now; then it is the newest record, and completed
      by_cases hnone : lastOf id (f.result.records hashes) = none
      · have hnew0 : new = 0 := hnew ▸ count_completions_of_row hdone _ _ fun hsome =>
          absurd hnone hsome
        exact .inl (by omega)
      · obtain ⟨item, hitem⟩ := Option.ne_none_iff_exists'.mp hnone
        obtain ⟨hmem, hid⟩ := mem_of_lastOf hitem
        have hle : new ≤ 1 := hnew ▸ count_completions_of_completed hdone _ _ _
        rw [hzero, hitem, Option.some_or, Nat.zero_add]
        rcases Nat.le_one_iff_eq_zero_or_eq_one.mp hle with hnew0 | hnew1
        · exact .inl hnew0
        · exact .inr ⟨hnew1, item, rfl, hdone item hmem hid⟩
    · have hnew0 : new = 0 := hnew ▸ count_completions_of_row hdone _ _ fun _ =>
        hup.done hitem hcompleted
      refine .inr ⟨by omega, ?_⟩
      cases hlast : lastOf id (f.result.records hashes) with
      | none => exact ⟨item, by rw [Option.none_or, hitem], hcompleted⟩
      | some newest =>
        obtain ⟨hmem, hid⟩ := mem_of_lastOf hlast
        exact ⟨newest, Option.some_or, hdone newest hmem hid⟩
  · have hnew0 : new = 0 := hnew ▸ count_completions_of_open
      (hopen f (List.mem_append_right _ List.mem_cons_self)) _ _ _
    rcases h hbefore with hzero | ⟨-, item, hitem, hcompleted⟩
    · exact .inl (by omega)
    · -- all that the server has sent of the item is open
      obtain ⟨hmem, hid⟩ := mem_of_lastOf hitem
      obtain ⟨g, hg, hmem⟩ := List.mem_flatMap.mp hmem
      rw [hopen g (List.mem_append_left _ hg) item hmem hid] at hcompleted
      cases hcompleted

/-! ## Runs -/

/-- What every call keeps that brings nothing older than the rows. -/
structure World.Newest (hashes : Hashes) (w : World) : Prop where
  upToDate : w.UpToDate hashes
  cacheFrom : w.CacheFrom
  countedOnce : ∀ id, w.CountedOnce hashes id

theorem World.newest_empty : World.empty.Newest hashes where
  upToDate _ := rfl
  cacheFrom k row h := by cases h
  countedOnce _ _ := .inl rfl

theorem World.Newest.step {w : World} (h : w.Newest hashes) (call : Call)
    (hnewest : w.NewestServed py hashes call) :
    (w.listNaverCalendarItems py hashes call).Newest hashes where
  upToDate := (upToDate_step_iff h.upToDate call).mpr hnewest
  cacheFrom := h.cacheFrom.step call
  countedOnce id := by
    rcases w.step_cases py hashes call with
      ⟨result, hanswer, hstep⟩ | ⟨fetched, -, hstep⟩ | ⟨error, -, hstep⟩
    · rw [hstep]
      exact (h.countedOnce id).cached h.upToDate h.cacheFrom hanswer hnewest
    · rw [hstep]
      exact (h.countedOnce id).server h.upToDate call fetched
    · rw [hstep]
      exact h.countedOnce id

variable (py hashes)

/--
**The rows are the newest observations, and a todo that stays completed counts once, exactly when
each cached answer brings the newest observation of its items.**
-/
theorem newest_kept_iff (calls : List Call) :
    (Always (World.listNaverCalendarItems py hashes) (World.UpToDate hashes) World.empty calls ∧
        ∀ id, Settles hashes id
            (run (World.listNaverCalendarItems py hashes) World.empty calls).fetched →
          (run (World.listNaverCalendarItems py hashes) World.empty calls).completed.count id ≤ 1)
      ↔ EachStep (World.listNaverCalendarItems py hashes) (World.NewestServed py hashes)
          World.empty calls := by
  have hiff : Always (World.listNaverCalendarItems py hashes) (World.UpToDate hashes) World.empty
      calls ↔ EachStep (World.listNaverCalendarItems py hashes) (World.NewestServed py hashes)
        World.empty calls :=
    always_iff_eachStep (A := fun _ => True) (I := fun _ => True) (fun _ _ _ _ => trivial)
      (fun w call _ _ h => World.upToDate_step_iff h call) trivial World.newest_empty.upToDate
      fun _ _ => trivial
  refine ⟨fun h => hiff.mp h.1, fun h => ⟨hiff.mpr h, fun id hsettles => ?_⟩⟩
  have hnewest := always_of_guard (A := fun _ => True) (I := World.Newest hashes)
    (fun w call _ hw hcall => hw.step call hcall) World.newest_empty (fun _ _ => trivial) h
  have hlast := always_iff_prefix.mp hnewest calls (List.prefix_refl _)
  rcases hlast.countedOnce id hsettles with hzero | ⟨hone, -⟩
  · exact hzero ▸ Nat.zero_le 1
  · exact hone.le

end Newest

/-! ## Two ranges with one todo -/

section Reopened

variable {py : Readers} {hashes : Hashes}

/-- A fresh row of the cache is the answer. -/
theorem World.answer_of_writes {w : World} {call saved : Call} {row : CacheRow} {fetched : Fetched}
    (hfind : w.cache.find? (calendarCacheNamespace, call.cacheKey hashes) = some row)
    (hrow : (saved.saveCall hashes fetched.result).Writes row)
    (hfresh : row.isStale call.now (some call.ttlSeconds) = false)
    (hforce : call.forceRefresh = false) (httl : 0 < call.ttlSeconds) :
    w.answer py hashes call = .cached fetched.result := by
  have hload : w.freshResult py hashes call = some fetched.result := by
    rw [freshResult, hforce, if_neg Bool.false_ne_true, loadCalendarCache, if_neg (not_le.mpr httl),
      loadJsonCache_of_writes hrow hfind (.inr hfresh)]
    exact CalendarQueryResult.fromDict_toDict py fetched
  rw [World.answer, hload]

/-- A range that has no row is asked for. -/
theorem World.answer_of_absent {w : World} {call : Call} {fetched : Fetched}
    (hfind : w.cache.find? (calendarCacheNamespace, call.cacheKey hashes) = none)
    (hserver : call.server = .ok fetched) : w.answer py hashes call = .server fetched := by
  have hload : w.freshResult py hashes call = none := by
    rw [freshResult, loadCalendarCache, loadJsonCache, hfind]
    split
    · rfl
    · split <;> rfl
  rw [World.answer, hload, hserver]

theorem World.step_of_server {w : World} {call : Call} {fetched : Fetched}
    (h : w.answer py hashes call = .server fetched) :
    w.listNaverCalendarItems py hashes call
      = (w.receive hashes call fetched).syncCalendarStateSafely hashes call fetched.result := by
  rw [listNaverCalendarItems, h]
  rfl

theorem World.step_of_cached {w : World} {call : Call} {result : CalendarQueryResult}
    (h : w.answer py hashes call = .cached result) :
    w.listNaverCalendarItems py hashes call = w.syncCalendarStateSafely hashes call result := by
  rw [listNaverCalendarItems, h]

theorem key_of_writes {call : Call} {result : CalendarQueryResult} {row : CacheRow}
    (h : (call.saveCall hashes result).Writes row) :
    row.key = (calendarCacheNamespace, call.cacheKey hashes) :=
  Prod.ext (Subtype.ext h.ns) (Subtype.ext h.cacheKey)

theorem World.find?_sync_single {w : World} {call : Call} {result : CalendarQueryResult}
    {item : ItemRecord} (h : result.records hashes = [item]) :
    ((w.syncCalendarStateSafely hashes call result).states.find? item.id).map StateRow.record
      = some item := by
  rw [find?_sync, h, lastOf_cons, if_pos rfl]
  rfl

/-- A completed record of a todo counts when the row is open. -/
theorem World.count_sync_single {w : World} {call : Call} {result : CalendarQueryResult}
    {item old : ItemRecord} (h : result.records hashes = [item])
    (hrow : (w.states.find? item.id).map StateRow.record = some old)
    (htodo : item.itemType = lit "todo") (hopen : old.completed = false)
    (hdone : item.completed = true) (hhash : old.stateHash ≠ item.stateHash) :
    (w.syncCalendarStateSafely hashes call result).completed.count item.id
      = w.completed.count item.id + 1 := by
  obtain ⟨row, hfind, rfl⟩ := Option.map_eq_some_iff.mp hrow
  have hchange : changeOf item (w.states.find? item.id) = .updated true := by
    rw [hfind, changeOf, if_pos hhash, htodo, hopen, hdone]
    rfl
  rw [completed_sync, List.count_append, h, syncItems, completions_cons, List.count_append]
  show _ + (List.count item.id (if changeOf item _ = .updated true then [item.id] else []) + 0) = _
  rw [hchange, if_pos rfl, List.count_singleton_self]

/-- One range is fetched, then another, and both are asked for again while their rows are fresh. -/
structure AskedAgain (hashes : Hashes) (first second third fourth : Call) (f g : Fetched) :
    Prop where
  server_first : first.server = .ok f
  server_second : second.server = .ok g
  apart : second.cacheKey hashes ≠ first.cacheKey hashes
  ttl_first : 0 < first.ttlSeconds
  ttl_second : 0 < second.ttlSeconds
  spared : second.savedAt < first.savedAt + first.ttlSeconds
  key_third : third.cacheKey hashes = first.cacheKey hashes
  key_fourth : fourth.cacheKey hashes = second.cacheKey hashes
  force_third : third.forceRefresh = false
  force_fourth : fourth.forceRefresh = false
  ttl_third : third.ttlSeconds = first.ttlSeconds
  ttl_fourth : fourth.ttlSeconds = second.ttlSeconds
  fresh_third : third.now < first.savedAt + first.ttlSeconds
  fresh_fourth : fourth.now < second.savedAt + second.ttlSeconds

variable (py) in
/-- The last two answers are the first two, and the states are synchronised with them again. -/
theorem AskedAgain.states {first second third fourth : Call} {f g : Fetched}
    (h : AskedAgain hashes first second third fourth f g) :
    ∃ w1 w2 w3 w4 : World,
      w1 = (World.empty.receive hashes first f).syncCalendarStateSafely hashes first f.result ∧
      w2 = (w1.receive hashes second g).syncCalendarStateSafely hashes second g.result ∧
      w3 = w2.syncCalendarStateSafely hashes third f.result ∧
      w4 = w3.syncCalendarStateSafely hashes fourth g.result ∧
      run (World.listNaverCalendarItems py hashes) World.empty [first, second, third] = w3 ∧
      run (World.listNaverCalendarItems py hashes) World.empty [first, second, third, fourth] = w4 := by
  obtain ⟨cacheA, rowA, hsaveA, hfindA, hrowA⟩ := saveJsonCache_of_storable
    (storable_saveCall hashes first f) h.ttl_first World.empty.cache
  obtain ⟨cacheB, rowB, hsaveB, hfindB, hrowB⟩ := saveJsonCache_of_storable
    (storable_saveCall hashes second g) h.ttl_second cacheA
  have hrunA : runSave World.empty.cache (first.saveCall hashes f.result) = cacheA := by
    rw [runSave, hsaveA]
  have hrunB : runSave cacheA (second.saveCall hashes g.result) = cacheB := by
    rw [runSave, hsaveB]
  have hkeyA := key_of_writes hrowA
  have hkeyB := key_of_writes hrowB
  obtain ⟨w1, hw1⟩ : ∃ w1, w1 = (World.empty.receive hashes first f).syncCalendarStateSafely hashes
    first f.result := ⟨_, rfl⟩
  obtain ⟨w2, hw2⟩ : ∃ w2, w2 = (w1.receive hashes second g).syncCalendarStateSafely hashes
    second g.result := ⟨_, rfl⟩
  have hcache1 : w1.cache = cacheA := by
    rw [hw1, World.cache_sync, ← hrunA, World.receive]
  have hcache2 : w2.cache = cacheB := by
    rw [hw2, World.cache_sync, ← hrunB, ← hcache1, World.receive]
  -- the second range has no row yet
  have hmiss : w1.cache.find? (calendarCacheNamespace, second.cacheKey hashes) = none := by
    rw [hcache1, ← hrunA]
    refine Option.eq_none_iff_forall_ne_some.mpr fun row hrow => ?_
    rcases find?_runSave_cases hrow with hrow' | hwrites
    · cases hrow'
    · have hkey := (Table.find?_key hrow).symm.trans (key_of_writes hwrites)
      exact h.apart (congrArg Prod.snd hkey)
  -- the second save leaves the row of the first range
  have hkept : cacheB.find? rowA.key = some rowA := by
    rw [← hrunB]
    refine find?_runSave hfindA ⟨fun heq => h.apart (Subtype.ext ?_), fun _ => ?_⟩
    · rw [hkeyA] at heq
      exact congrArg Prod.snd heq
    · rw [hrowA.expiresAt]
      exact lt_of_le_of_lt (SaveCall.cleanupBefore_le _) h.spared
  have h1 : World.empty.listNaverCalendarItems py hashes first = w1 := by
    rw [hw1]
    exact World.step_of_server (World.answer_of_absent rfl h.server_first)
  have h2 : w1.listNaverCalendarItems py hashes second = w2 := by
    rw [hw2]
    exact World.step_of_server (World.answer_of_absent hmiss h.server_second)
  have h3 : w2.listNaverCalendarItems py hashes third
      = w2.syncCalendarStateSafely hashes third f.result := by
    refine World.step_of_cached (World.answer_of_writes ?_ hrowA ?_ h.force_third ?_)
    · rw [hcache2, h.key_third, ← hkeyA, hkept]
    · refine isStale_eq_false ?_ fun _ => ?_
      · rw [hrowA.expiresAt]
        exact h.fresh_third
      · rw [hrowA.fetchedAt, h.ttl_third]
        exact h.fresh_third
    · rw [h.ttl_third]
      exact h.ttl_first
  obtain ⟨w3, hw3⟩ : ∃ w3, w3 = w2.syncCalendarStateSafely hashes third f.result := ⟨_, rfl⟩
  have hcache3 : w3.cache = cacheB := by rw [hw3, World.cache_sync, hcache2]
  have h4 : w3.listNaverCalendarItems py hashes fourth
      = w3.syncCalendarStateSafely hashes fourth g.result := by
    refine World.step_of_cached (World.answer_of_writes ?_ hrowB ?_ h.force_fourth ?_)
    · rw [hcache3, h.key_fourth, ← hkeyB, hfindB]
    · refine isStale_eq_false ?_ fun _ => ?_
      · rw [hrowB.expiresAt]
        exact h.fresh_fourth
      · rw [hrowB.fetchedAt, h.ttl_fourth]
        exact h.fresh_fourth
    · rw [h.ttl_fourth]
      exact h.ttl_second
  refine ⟨w1, w2, w3, _, hw1, hw2, hw3, rfl, ?_, ?_⟩
  · rw [run_cons, run_cons, run_cons, run_nil, h1, h2, h3, hw3]
  · rw [run_cons, run_cons, run_cons, run_cons, run_nil, h1, h2, h3, ← hw3, h4]

variable (py) in
/-- **A todo that is seen open in one range and then completed in another is opened again**, and
counts as completed twice. -/
theorem AskedAgain.reopens {first second third fourth : Call} {f g : Fetched}
    (h : AskedAgain hashes first second third fourth f g) {a b : ItemRecord}
    (ha : f.result.records hashes = [a]) (hb : g.result.records hashes = [b]) (hid : a.id = b.id)
    (htodo : b.itemType = lit "todo") (haopen : a.completed = false) (hbdone : b.completed = true)
    (hhash : a.stateHash ≠ b.stateHash) :
    ¬ Always (World.listNaverCalendarItems py hashes) (World.UpToDate hashes) World.empty
        [first, second, third, fourth] ∧
      Settles hashes b.id (run (World.listNaverCalendarItems py hashes) World.empty
        [first, second, third, fourth]).fetched ∧
      2 ≤ (run (World.listNaverCalendarItems py hashes) World.empty
        [first, second, third, fourth]).completed.count b.id := by
  obtain ⟨w1, w2, w3, w4, hw1, hw2, hw3, hw4, hrun3, hrun4⟩ := h.states py
  have hrow1 : (w1.states.find? b.id).map StateRow.record = some a := by
    rw [hw1, ← hid]
    exact World.find?_sync_single ha
  have hrow3 : (w3.states.find? b.id).map StateRow.record = some a := by
    rw [hw3, ← hid]
    exact World.find?_sync_single ha
  have hfetched : w4.fetched = [f, g] := by
    rw [hw4, World.fetched_sync, hw3, World.fetched_sync, hw2, World.fetched_sync, World.receive,
      hw1, World.fetched_sync, World.receive]
    rfl
  refine ⟨fun halways => ?_, ?_, ?_⟩
  · have hup := always_iff_prefix.mp halways [first, second, third] ⟨[fourth], rfl⟩ b.id
    have hobserved : w3.observed hashes = [a, b] := by
      rw [hw3, World.observed_sync, hw2, World.observed_sync, World.observed_receive, hw1,
        World.observed_sync, World.observed_receive, ha, hb]
      rfl
    rw [hrun3, hrow3, hobserved, lastOf_cons, lastOf_cons, if_pos rfl] at hup
    have hab : a = b := Option.some.inj hup
    rw [hab, hbdone] at haopen
    cases haopen
  · rw [hrun4, hfetched]
    refine ⟨[f], [g], rfl, fun f' hf' item hitem _ => ?_, fun g' hg' item hitem _ => ?_⟩
    · rw [List.mem_singleton.mp hf', ha, List.mem_singleton] at hitem
      rw [hitem, haopen]
    · rw [List.mem_singleton.mp hg', hb, List.mem_singleton] at hitem
      rw [hitem, hbdone]
  · have hcount2 : w2.completed.count b.id = w1.completed.count b.id + 1 := by
      rw [hw2]
      exact World.count_sync_single (w := w1.receive hashes second g) hb hrow1 htodo haopen hbdone
        hhash
    have hcount3 : w2.completed.count b.id ≤ w3.completed.count b.id := by
      rw [hw3, World.completed_sync, List.count_append]
      exact Nat.le_add_right _ _
    have hcount4 : w4.completed.count b.id = w3.completed.count b.id + 1 := by
      rw [hw4]
      exact World.count_sync_single hb hrow3 htodo haopen hbdone hhash
    rw [hrun4]
    omega

end Reopened

/-- A text stands for its own hash. -/
def plainHash (t : Text) : SqlText := if h : Encodable t then ⟨t, h⟩ else ⟨[], encodable_of_ascii rfl⟩

def plainHashes : Hashes where
  value := plainHash
  parts ts := ⟨(joinColons ts).filter fun c => c.val < 0x80, encodable_of_ascii (by simp)⟩

/-- Readers that refuse what no cache holds. -/
def strictReaders : Readers where
  str _ := []
  int _ := none
  bool _ := true
  isoDate _ := none
  isoDateTime _ := none
  fallbackItemUid _ _ := none

def sampleTodo (completed : Bool) : CalendarTodo where
  itemUid := lit "t1"
  title := lit "report"
  start := none
  due := some (lit "2026-05-02")
  startAllDay := false
  dueAllDay := true
  status := if completed then lit "COMPLETED" else lit "NEEDS-ACTION"
  completed := completed
  completedAt := none
  priority := none
  percentComplete := none
  calendarName := lit "work"
  source := lit "naver-caldav"
  description := []
  lastModified := none

def mayFirst : Date := (Date.mk? 2026 5 1).get (by decide)

def maySecond : Date := (Date.mk? 2026 5 2).get (by decide)

/-- The todo is open when the first range is asked for, and completed when the second is. -/
def sampleStart (completed : Bool) : Date := if completed then maySecond else mayFirst

def sampleFetched (completed : Bool) : Fetched where
  result := ⟨lit "naver-caldav", sampleStart completed, maySecond, [], [sampleTodo completed]⟩
  events _ h := by cases h
  todos todo h := by
    obtain rfl := List.mem_singleton.mp h
    cases completed <;> decide
  texts := by cases completed <;> exact encodable_of_all (by decide +kernel)

/-- A query on the second of May, at so many seconds. -/
def sampleCall (completed : Bool) (now : ℚ) : Call where
  startDate := sampleStart completed
  endDate := maySecond
  config := ⟨lit "https://caldav.calendar.naver.com", lit "yule", none, none, false, some 600⟩
  today := maySecond
  now := now
  savedAt := now
  syncedAt := now
  cleanup := true
  server := .ok (sampleFetched completed)

/-- Both ranges are fetched, and then both are answered from the cache. -/
def sampleCalls : List Call :=
  [sampleCall false 0, sampleCall true 60, sampleCall false 120, sampleCall true 180]

theorem plainHashes_hashValue {t u : Text} (h : plainHashes.hashValue t = some u) : u = t := by
  rw [Hashes.hashValue] at h
  split at h
  · next hencodable =>
    have h : some (plainHash t).1 = some u := h
    rw [plainHash, dif_pos hencodable] at h
    exact (Option.some.inj h).symm
  · cases h

/-- The sample's todo has one record. -/
theorem exists_records (completed : Bool) :
    ∃ item, (sampleFetched completed).result.records plainHashes = [item] ∧
      item.itemType = lit "todo" ∧ item.completed = completed ∧
      item.stateHash = dumpsDict (sampleTodo completed).toDict ∧
      item.id = (lit "naver-caldav", lit "todo", lit "todo::t1::2026-05-02::::work") := by
  have h := (sampleFetched completed).itemRecords_eq plainHashes
  generalize (sampleFetched completed).result.records plainHashes = items at h
  have hevents : (sampleFetched completed).result.events = [] := rfl
  have htodos : (sampleFetched completed).result.todos = [sampleTodo completed] := rfl
  rw [itemRecords, hevents, htodos, List.mapM_cons, List.mapM_nil, List.mapM_nil] at h
  cases hitem : todoRecord plainHashes (sampleTodo completed) with
  | none =>
    rw [hitem] at h
    cases h
  | some item =>
    rw [hitem] at h
    refine ⟨item, (Option.some.inj h).symm, ?_⟩
    rw [todoRecord] at hitem
    obtain ⟨itemKey, hkey, hitem⟩ := Option.bind_eq_some_iff.mp hitem
    obtain ⟨stateHash, hstate, hitem⟩ := Option.bind_eq_some_iff.mp hitem
    cases hitem
    rw [plainHashes_hashValue hstate, ItemRecord.id, plainHashes_hashValue hkey]
    refine ⟨rfl, rfl, rfl, ?_⟩
    cases completed <;> decide

theorem dumps_sampleTodo : dumpsDict (sampleTodo false).toDict ≠ dumpsDict (sampleTodo true).toDict := by
  intro heq
  have hmembers := congrArg deserializeJsonObject heq
  rw [deserializeJsonObject_dumpsDict, deserializeJsonObject_dumpsDict] at hmembers
  have htodo := congrArg (CalendarTodo.fromDict strictReaders) (Option.some.inj hmembers)
  rw [CalendarTodo.fromDict_toDict _ (by decide), CalendarTodo.fromDict_toDict _ (by decide)] at htodo
  have hcompleted : false = true := congrArg CalendarTodo.completed (Option.some.inj htodo)
  cases hcompleted

theorem askedAgain_sample : AskedAgain plainHashes (sampleCall false 0) (sampleCall true 60)
    (sampleCall false 120) (sampleCall true 180) (sampleFetched false) (sampleFetched true) where
  server_first := rfl
  server_second := rfl
  apart := by decide
  ttl_first := by decide
  ttl_second := by decide
  spared := by decide +kernel
  key_third := rfl
  key_fourth := rfl
  force_third := rfl
  force_fourth := rfl
  ttl_third := rfl
  ttl_fourth := rfl
  fresh_third := by decide +kernel
  fresh_fourth := by decide +kernel

/-- **A todo is open again after it was seen completed, and counts as completed twice.** -/
theorem older_answer_reopens :
    ¬ Always (World.listNaverCalendarItems strictReaders plainHashes) (World.UpToDate plainHashes)
        World.empty sampleCalls ∧
      ∃ id, Settles plainHashes id
          (run (World.listNaverCalendarItems strictReaders plainHashes) World.empty
            sampleCalls).fetched ∧
        ¬ (run (World.listNaverCalendarItems strictReaders plainHashes) World.empty
          sampleCalls).completed.count id ≤ 1 := by
  obtain ⟨a, ha, -, haopen, hahash, haid⟩ := exists_records false
  obtain ⟨b, hb, hbtodo, hbdone, hbhash, hbid⟩ := exists_records true
  have hhash : a.stateHash ≠ b.stateHash := by
    rw [hahash, hbhash]
    exact dumps_sampleTodo
  obtain ⟨halways, hsettles, hcount⟩ := askedAgain_sample.reopens strictReaders ha hb
    (haid.trans hbid.symm) hbtodo haopen hbdone hhash
  exact ⟨halways, b.id, hsettles, not_le.mpr hcount⟩

end ForgeKit.Calendar
