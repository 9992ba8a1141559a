import ForgeKit.Calendar.ItemStates
import ForgeKit.Lib.Machine

/-!
# Calendar queries (`yule_integrations/calendar`)

A query is answered from the cache of its own range, from the server, or, when the server fails,
from what is left of the cache. Each answer is written to the one table of item states.

* `CalendarQueryResult.fromDict_toDict` — a result is read from the cache as the server sent it
* `Fetched.itemRecords_eq` — every item that the server sends has a record
-/

namespace ForgeKit.Calendar

open Py (Text lit)
open IsoTime (Date)
open JsonText
open Storage
open DayPlan (CalendarEvent CalendarTodo Readers)

/-! ## Results -/

/-- `CalendarQueryResult`. -/
structure CalendarQueryResult where
  source : Text
  startDate : Date
  endDate : Date
  events : List CalendarEvent
  todos : List CalendarTodo
deriving DecidableEq

/-- `CalendarQueryResult.to_dict`. -/
def CalendarQueryResult.toDict (result : CalendarQueryResult) : JsonDict where
  members :=
    [(lit "source", .str result.source), (lit "start_date", .str result.startDate.isoformat),
      (lit "end_date", .str result.endDate.isoformat),
      (lit "event_count", ofInt result.events.length), (lit "todo_count", ofInt result.todos.length),
      (lit "events", ofDicts (result.events.map CalendarEvent.toDict)),
      (lit "todos", ofDicts (result.todos.map CalendarTodo.toDict))]
  valid := ⟨by simp only [List.map_cons, List.map_nil]; decide, trivial, trivial, trivial, trivial,
    trivial, valid_ofDicts _, valid_ofDicts _, trivial⟩

/-- `[read(x) for x in payload.get(k, [])]`. -/
def recordsAt {α : Type} (read : List (Text × Value) → Option α) (d : List (Text × Value))
    (k : Text) : Option (List α) := do
  let vs ← items ((d.lookup k).getD (.arr []))
  vs.mapM fun v => v.dict?.bind read

/-- `CalendarQueryResult.from_dict`. -/
def CalendarQueryResult.fromDict (py : Readers) (d : List (Text × Value)) :
    Option CalendarQueryResult := do
  let source ← rawText d (lit "source")
  let startDate ← (rawText d (lit "start_date")).bind (Date.fromisoformat py.isoDate)
  let endDate ← (rawText d (lit "end_date")).bind (Date.fromisoformat py.isoDate)
  let events ← recordsAt (CalendarEvent.fromDict py) d (lit "events")
  let todos ← recordsAt (CalendarTodo.fromDict py) d (lit "todos")
  some ⟨source, startDate, endDate, events, todos⟩

/-- What the server sends: `extract_uid` gives every item a uid, and the texts were UTF-8. -/
structure Fetched where
  result : CalendarQueryResult
  events : ∀ event ∈ result.events, event.itemUid ≠ []
  todos : ∀ todo ∈ result.todos, todo.itemUid ≠ []
  texts : ∀ t ∈ (Value.obj result.toDict.members).texts, Encodable t

theorem recordsAt_sorted {α : Type} {read : List (Text × Value) → Option α} {write : α → JsonDict}
    {d : JsonDict} {k : Text} {xs : List α}
    (h : d.members.lookup k = some (ofDicts (xs.map write)))
    (hread : ∀ x ∈ xs, read (write x).sorted.members = some x) :
    recordsAt read d.sorted.members k = some xs := by
  rw [recordsAt, lookup_sorted_of h, sortKeys_ofDicts]
  show List.mapM (fun v : Value => v.dict?.bind read)
    (((xs.map write).map JsonDict.sorted).map fun d => Value.obj d.members) = some xs
  rw [List.map_map, List.map_map]
  have hmapM := @mapM_map_of_forall α Value (fun v => v.dict?.bind read)
    (fun x => .obj (write x).sorted.members) id xs hread
  exact hmapM.trans (congrArg some (List.map_id xs))

theorem CalendarQueryResult.fromDict_toDict (py : Readers) (fetched : Fetched) :
    fromDict py fetched.result.toDict.sorted.members = some fetched.result := by
  rw [fromDict, rawText_sorted (t := fetched.result.source) rfl,
    rawText_sorted (t := fetched.result.startDate.isoformat) rfl,
    rawText_sorted (t := fetched.result.endDate.isoformat) rfl,
    recordsAt_sorted (k := lit "events") rfl
      fun event he => CalendarEvent.fromDict_toDict py (fetched.events event he),
    recordsAt_sorted (k := lit "todos") rfl
      fun todo ht => CalendarTodo.fromDict_toDict py (fetched.todos todo ht),
    Option.bind_some, Option.bind_some, Date.read_isoformat, Date.read_isoformat]
  rfl

/-! ## The cache of queries -/

/-- `CALENDAR_CACHE_NAMESPACE`. -/
def calendarCacheNamespace : SqlText :=
  ⟨lit "calendar-query-results", encodable_of_ascii (by decide)⟩

/-- `CALENDAR_CACHE_PROVIDER`. -/
def calendarCacheProvider : Text := lit "naver-caldav"

/-- `a < b`. -/
def Before (a b : Date) : Prop :=
  a.year < b.year ∨ a.year = b.year ∧ (a.month < b.month ∨ a.month = b.month ∧ a.day < b.day)

instance (a b : Date) : Decidable (Before a b) := inferInstanceAs (Decidable (_ ∨ _ ∧ (_ ∨ _ ∧ _)))

/-- `resolve_calendar_cache_ttl_seconds`. -/
def resolveCalendarCacheTtlSeconds (startDate endDate : Date) (configuredTtlSeconds : Option Int)
    (today : Date) : Int :=
  match configuredTtlSeconds with
  | some n => n
  | none => if Before endDate today then 86400 else if Before today startDate then 1800 else 300

/-- `load_calendar_cache`. -/
def loadCalendarCache (py : Readers) (cache : Cache) (cacheKey : SqlText) (ttlSeconds : Int)
    (now : ℚ) : Option CalendarQueryResult := do
  if ttlSeconds ≤ 0 then none
  else
    let entry ← loadJsonCache cache calendarCacheNamespace cacheKey (some ttlSeconds) false now
    CalendarQueryResult.fromDict py entry.payload

/-- `load_stale_calendar_cache`. -/
def loadStaleCalendarCache (py : Readers) (cache : Cache) (cacheKey : SqlText) (now : ℚ) :
    Option CalendarQueryResult := do
  let entry ← loadJsonCache cache calendarCacheNamespace cacheKey none true now
  CalendarQueryResult.fromDict py entry.payload

/-! ## Queries -/

/-- `NaverCalDAVConfig`, but for the password and the timeout. -/
structure NaverCalDAVConfig where
  url : Text
  username : Text
  calendarName : Option Text := none
  todoCalendarName : Option Text := none
  includeAllTodos : Bool := false
  cacheSeconds : Option Int := none

/-- What `_can_use_stale_cache_on_error` reads of a `CalendarIntegrationError`. -/
structure CalendarIntegrationError where
  retryable : Bool
  category : Text

/-- `_can_use_stale_cache_on_error`. -/
def canUseStaleCacheOnError (error : CalendarIntegrationError) : Bool :=
  error.retryable || error.category ∈ [lit "network", lit "query", lit "unknown"]

/-- A call of `list_naver_calendar_items`, with what it meets: the configuration, the day, the
clock, and what `_fetch_naver_calendar_items` would answer. -/
structure Call where
  startDate : Date
  endDate : Date
  forceRefresh : Bool := false
  config : NaverCalDAVConfig
  today : Date
  now : ℚ
  savedAt : ℚ
  syncedAt : ℚ
  cleanup : Bool
  server : Except CalendarIntegrationError Fetched

section Queries

variable (py : Readers) (hashes : Hashes)

def Call.ttlSeconds (call : Call) : Int :=
  resolveCalendarCacheTtlSeconds call.startDate call.endDate call.config.cacheSeconds call.today

/-- `cache_scope_hash`. -/
def Call.scopeHash (call : Call) : SqlText :=
  hashes.parts [lit "calendar-query-v1", call.config.url, call.config.username,
    call.config.calendarName.getD [], call.config.todoCalendarName.getD [],
    if call.config.includeAllTodos then lit "True" else lit "False"]

/-- `cache_key`. -/
def Call.cacheKey (call : Call) : SqlText :=
  hashes.parts [(call.scopeHash hashes).1, call.startDate.isoformat, call.endDate.isoformat]

/-- How `save_calendar_cache` calls `save_json_cache`. -/
def Call.saveCall (call : Call) (result : CalendarQueryResult) : SaveCall where
  ns := calendarCacheNamespace.1
  cacheKey := (call.cacheKey hashes).1
  provider := calendarCacheProvider
  rangeStart := some call.startDate.isoformat
  rangeEnd := some call.endDate.isoformat
  scopeHash := (call.scopeHash hashes).1
  ttlSeconds := call.ttlSeconds
  payload := result.toDict
  metadata :=
    { members := [(lit "source", .str result.source),
        (lit "event_count", ofInt result.events.length),
        (lit "todo_count", ofInt result.todos.length)]
      valid := ⟨by simp only [List.map_cons, List.map_nil]; decide, trivial, trivial, trivial,
        trivial⟩ }
  now := call.savedAt
  cleanup := call.cleanup

/-- The database, with what the server has sent so far and which todos were counted as completed. -/
structure World where
  cache : Cache
  states : StateTable
  fetched : List Fetched
  completed : List ItemId

/-- Nothing has been asked yet. -/
def World.empty : World := ⟨Table.empty, Table.empty, [], []⟩

/-- `_sync_calendar_state_safely`. -/
def World.syncCalendarStateSafely (w : World) (call : Call) (result : CalendarQueryResult) : World :=
  match itemRecords hashes result.events result.todos with
  | none => w
  | some items =>
    let (states, changes) := syncItems (call.scopeHash hashes).1 call.syncedAt w.states items
    { w with states := states, completed := w.completed ++ completions changes }

/-- Where an answer comes from. -/
inductive Answer where
  | cached (result : CalendarQueryResult)
  | server (fetched : Fetched)
  | failed (error : CalendarIntegrationError)

/-- `load_calendar_cache`, unless the call forces a refresh. -/
def World.freshResult (w : World) (call : Call) : Option CalendarQueryResult :=
  if call.forceRefresh then none
  else loadCalendarCache py w.cache (call.cacheKey hashes) call.ttlSeconds call.now

/-- `stale_cached_result`. -/
def World.staleResult (w : World) (call : Call) : Option CalendarQueryResult :=
  if call.forceRefresh then none
  else loadStaleCalendarCache py w.cache (call.cacheKey hashes) call.now

/-- Which answer `list_naver_calendar_items` gives. -/
def World.answer (w : World) (call : Call) : Answer :=
  match w.freshResult py hashes call with
  | some cachedResult => .cached cachedResult
  | none =>
    match call.server with
    | .ok fetched => .server fetched
    | .error exc =>
      match w.staleResult py hashes call with
      | some staleCachedResult =>
        if canUseStaleCacheOnError exc then .cached staleCachedResult else .failed exc
      | none => .failed exc

/-- `list_naver_calendar_items`: what it leaves. -/
def World.listNaverCalendarItems (w : World) (call : Call) : World :=
  match w.answer py hashes call with
  | .cached result => w.syncCalendarStateSafely hashes call result
  | .server fetched =>
    { w with
      cache := runSave w.cache (call.saveCall hashes fetched.result)
      fetched := w.fetched ++ [fetched] }.syncCalendarStateSafely hashes call fetched.result
  | .failed _ => w

end Queries

/-! ## The records of what the server sends -/

theorem texts_ofDicts {ds : List JsonDict} {d : JsonDict} (h : d ∈ ds) {t : Text}
    (ht : t ∈ (Value.obj d.members).texts) : t ∈ (ofDicts ds).texts := by
  show t ∈ elemTexts (ds.map fun d => .obj d.members)
  induction ds with
  | nil => cases h
  | cons e ds ih =>
    rcases List.mem_cons.mp h with rfl | h
    · exact List.mem_append_left _ ht
    · exact List.mem_append_right _ (ih h)

theorem hashValue_of {t : Text} (hashes : Hashes) (h : Encodable t) :
    hashes.hashValue t = some (hashes.value t).1 := if_pos h

theorem encodable_joinColons {parts : List Text} (h : ∀ t ∈ parts, Encodable t) :
    Encodable (joinColons parts) := by
  intro c hc
  have hc : c ∈ (lit "::").intercalate parts := hc
  induction parts with
  | nil => simp at hc
  | cons t parts ih =>
    cases parts with
    | nil =>
      rw [List.intercalate_singleton] at hc
      exact h t List.mem_cons_self c hc
    | cons u parts =>
      rw [List.intercalate_cons_cons, List.mem_append, List.mem_append] at hc
      rcases hc with (hc | hc) | hc
      · exact h t List.mem_cons_self c hc
      · exact encodable_of_ascii (t := lit "::") (by decide) c hc
      · exact ih (fun v hv => h v (List.mem_cons_of_mem _ hv)) hc hc

theorem exists_eventRecord (hashes : Hashes) {event : CalendarEvent}
    (h : ∀ t ∈ (Value.obj event.toDict.members).texts, Encodable t) :
    ∃ item, eventRecord hashes event = some item := by
  have hmem : ∀ t ∈ [event.itemUid, event.start, event.stop, event.calendarName],
      t ∈ (Value.obj event.toDict.members).texts := by
    intro t ht
    simp only [List.mem_cons, List.not_mem_nil, or_false] at ht
    rcases ht with rfl | rfl | rfl | rfl <;>
      simp [CalendarEvent.toDict, Value.texts, memberTexts]
  have hkey : Encodable (joinColons
      [lit "event", event.itemUid, event.start, event.stop, event.calendarName]) := by
    refine encodable_joinColons fun t ht => ?_
    rcases List.mem_cons.mp ht with rfl | ht
    · exact encodable_of_ascii (by decide)
    · exact h t (hmem t ht)
  rw [eventRecord, hashValue_of hashes hkey, hashValue_of hashes (encodable_dumpsDict h)]
  exact ⟨_, rfl⟩

theorem exists_todoRecord (hashes : Hashes) {todo : CalendarTodo}
    (h : ∀ t ∈ (Value.obj todo.toDict.members).texts, Encodable t) :
    ∃ item, todoRecord hashes todo = some item := by
  have hopt : ∀ o : Option Text, (∀ t ∈ (ofText? o).texts, Encodable t) → Encodable (o.getD []) := by
    intro o ho
    cases o with
    | none => exact encodable_of_ascii rfl
    | some t => exact ho t (by simp [ofText?, Value.texts])
  have hmem : ∀ v ∈ [Value.str todo.itemUid, ofText? todo.due, ofText? todo.start,
      .str todo.calendarName], ∀ t ∈ v.texts, t ∈ (Value.obj todo.toDict.members).texts := by
    intro v hv t ht
    simp only [List.mem_cons, List.not_mem_nil, or_false] at hv
    show t ∈ memberTexts todo.toDict.members
    rw [memberTexts_eq_flatMap, List.mem_flatMap]
    rcases hv with rfl | rfl | rfl | rfl
    · exact ⟨(lit "item_uid", .str todo.itemUid), by simp [CalendarTodo.toDict],
        List.mem_cons_of_mem _ ht⟩
    · exact ⟨(lit "due", ofText? todo.due), by simp [CalendarTodo.toDict],
        List.mem_cons_of_mem _ ht⟩
    · exact ⟨(lit "start", ofText? todo.start), by simp [CalendarTodo.toDict],
        List.mem_cons_of_mem _ ht⟩
    · exact ⟨(lit "calendar_name", .str todo.calendarName), by simp [CalendarTodo.toDict],
        List.mem_cons_of_mem _ ht⟩
  have htext : ∀ v ∈ [Value.str todo.itemUid, ofText? todo.due, ofText? todo.start,
      .str todo.calendarName], ∀ t ∈ v.texts, Encodable t := fun v hv t ht => h t (hmem v hv t ht)
  have hkey : Encodable (joinColons [lit "todo", todo.itemUid, todo.due.getD [],
      todo.start.getD [], todo.calendarName]) := by
    refine encodable_joinColons fun t ht => ?_
    simp only [List.mem_cons, List.not_mem_nil, or_false] at ht
    rcases ht with rfl | rfl | rfl | rfl | rfl
    · exact encodable_of_ascii (by decide)
    · exact htext (.str todo.itemUid) (by simp) _ (by simp [Value.texts])
    · exact hopt _ (htext (ofText? todo.due) (by simp))
    · exact hopt _ (htext (ofText? todo.start) (by simp))
    · exact htext (.str todo.calendarName) (by simp) _ (by simp [Value.texts])
  rw [todoRecord, hashValue_of hashes hkey, hashValue_of hashes (encodable_dumpsDict h)]
  exact ⟨_, rfl⟩

theorem exists_mapM {α β : Type} {f : α → Option β} {xs : List α} (h : ∀ x ∈ xs, ∃ y, f x = some y) :
    ∃ ys, xs.mapM f = some ys := by
  induction xs with
  | nil => exact ⟨[], rfl⟩
  | cons x xs ih =>
    obtain ⟨y, hy⟩ := h x List.mem_cons_self
    obtain ⟨ys, hys⟩ := ih fun z hz => h z (List.mem_cons_of_mem _ hz)
    exact ⟨y :: ys, by rw [List.mapM_cons, hy, hys]; rfl⟩

theorem Fetched.mem_texts (fetched : Fetched) {k : Text} {v : Value}
    (h : (k, v) ∈ fetched.result.toDict.members) {t : Text} (ht : t ∈ v.texts) : Encodable t := by
  refine fetched.texts t ?_
  show t ∈ memberTexts fetched.result.toDict.members
  rw [memberTexts_eq_flatMap, List.mem_flatMap]
  exact ⟨(k, v), h, List.mem_cons_of_mem _ ht⟩

theorem Fetched.exists_itemRecords (hashes : Hashes) (fetched : Fetched) :
    ∃ items, itemRecords hashes fetched.result.events fetched.result.todos = some items := by
  have hevents : ∃ records, fetched.result.events.mapM (eventRecord hashes) = some records :=
    exists_mapM fun event he => exists_eventRecord hashes fun t ht =>
      fetched.mem_texts (k := lit "events")
        (v := ofDicts (fetched.result.events.map CalendarEvent.toDict))
        (by simp [CalendarQueryResult.toDict]) (texts_ofDicts (List.mem_map_of_mem he) ht)
  have htodos : ∃ records, fetched.result.todos.mapM (todoRecord hashes) = some records :=
    exists_mapM fun todo htodo => exists_todoRecord hashes fun t ht =>
      fetched.mem_texts (k := lit "todos")
        (v := ofDicts (fetched.result.todos.map CalendarTodo.toDict))
        (by simp [CalendarQueryResult.toDict]) (texts_ofDicts (List.mem_map_of_mem htodo) ht)
  obtain ⟨eventRecords, heventRecords⟩ := hevents
  obtain ⟨todoRecords, htodoRecords⟩ := htodos
  exact ⟨eventRecords ++ todoRecords, by rw [itemRecords, heventRecords, htodoRecords]; rfl⟩

/-- The save of what the server sent does not raise. -/
theorem storable_saveCall (hashes : Hashes) (call : Call) (fetched : Fetched) :
    (call.saveCall hashes fetched.result).Storable where
  ns := calendarCacheNamespace.2
  cacheKey := (call.cacheKey hashes).2
  provider := encodable_of_ascii (t := calendarCacheProvider) (by decide)
  rangeStart := by
    rintro t ⟨⟩
    exact IsoTime.encodable_isoformat _
  rangeEnd := by
    rintro t ⟨⟩
    exact IsoTime.encodable_isoformat _
  scopeHash := (call.scopeHash hashes).2
  payload := encodable_dumpsDict fetched.texts
  metadata := by
    refine encodable_dumpsDict fun t ht => ?_
    simp only [Call.saveCall, Value.texts, memberTexts, ofInt, List.nil_append, List.cons_append,
      List.mem_cons, List.not_mem_nil, or_false] at ht
    rcases ht with rfl | rfl | rfl | rfl
    · exact encodable_of_ascii (by decide)
    · exact fetched.mem_texts (k := lit "source") (v := .str fetched.result.source)
        (by simp [CalendarQueryResult.toDict]) (by simp [Value.texts])
    · exact encodable_of_ascii (by decide)
    · exact encodable_of_ascii (by decide)

/-- The records of a result. -/
def CalendarQueryResult.records (hashes : Hashes) (result : CalendarQueryResult) :
    List ItemRecord :=
  (itemRecords hashes result.events result.todos).getD []

/-- No result of the server is left out of the table. -/
theorem Fetched.itemRecords_eq (hashes : Hashes) (fetched : Fetched) :
    itemRecords hashes fetched.result.events fetched.result.todos
      = some (fetched.result.records hashes) := by
  obtain ⟨items, hitems⟩ := fetched.exists_itemRecords hashes
  rw [CalendarQueryResult.records, hitems, Option.getD_some]

end ForgeKit.Calendar
