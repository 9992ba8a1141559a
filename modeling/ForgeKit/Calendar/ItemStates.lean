import ForgeKit.DayPlan.SourceItems
import ForgeKit.Storage.LocalCache

/-!
# The state of calendar items (`yule_storage/calendar_state`)

One row for each item, written anew by every result that is synchronised, in the order of the items
of the result. An item is known by its source, its type and the hash of its identity.

* `find?_syncItems` — the row of an item is the last record of it
* `count_completions_of_open`, `count_completions_of_completed` — how often an item counts as completed
-/

namespace ForgeKit.Calendar

open Py (Text lit)
open JsonText
open Storage (SqlText dumpsDict)
open DayPlan (CalendarEvent CalendarTodo)

/-! ## Records -/

/-- `sha256(…).hexdigest()`, of a text and of a list of texts. -/
structure Hashes where
  value : Text → SqlText
  parts : List Text → SqlText

/-- `_hash_value`; a text without an encoding raises. -/
def Hashes.hashValue (hashes : Hashes) (t : Text) : Option Text :=
  if Encodable t then some (hashes.value t).1 else none

/-- A record of `_build_item_record`. -/
structure ItemRecord where
  source : Text
  itemType : Text
  itemKey : Text
  externalUid : Text
  calendarName : Text
  title : Text
  startAt : Option Text
  endAt : Option Text
  dueAt : Option Text
  allDay : Bool
  status : Text
  completed : Bool
  completedAt : Option Text
  priority : Option Int
  percentComplete : Option Int
  description : Text
  lastModified : Option Text
  categoryColor : Option Text
  payloadJson : Text
  stateHash : Text
deriving DecidableEq

/-- What the table knows an item by. -/
abbrev ItemId := Text × Text × Text

def ItemRecord.id (item : ItemRecord) : ItemId := (item.source, item.itemType, item.itemKey)

/-- `"::".join(parts)`. -/
def joinColons (parts : List Text) : Text := (lit "::").intercalate parts

/-- The record of an event in `_iter_event_records`. -/
def eventRecord (hashes : Hashes) (event : CalendarEvent) : Option ItemRecord := do
  let itemKey ← hashes.hashValue
    (joinColons [lit "event", event.itemUid, event.start, event.stop, event.calendarName])
  let stateHash ← hashes.hashValue (dumpsDict event.toDict)
  some
    { source := event.source, itemType := lit "event", itemKey := itemKey
      externalUid := event.itemUid, calendarName := event.calendarName, title := event.title
      startAt := some event.start, endAt := some event.stop, dueAt := none, allDay := event.allDay
      status := lit "CONFIRMED", completed := false, completedAt := none, priority := none
      percentComplete := none, description := event.description
      lastModified := event.lastModified, categoryColor := event.categoryColor
      payloadJson := dumpsDict event.toDict, stateHash := stateHash }

/-- The record of a todo in `_iter_todo_records`. -/
def todoRecord (hashes : Hashes) (todo : CalendarTodo) : Option ItemRecord := do
  let itemKey ← hashes.hashValue
    (joinColons [lit "todo", todo.itemUid, todo.due.getD [], todo.start.getD [], todo.calendarName])
  let stateHash ← hashes.hashValue (dumpsDict todo.toDict)
  some
    { source := todo.source, itemType := lit "todo", itemKey := itemKey
      externalUid := todo.itemUid, calendarName := todo.calendarName, title := todo.title
      startAt := todo.start, endAt := none, dueAt := todo.due
      allDay := todo.startAllDay || todo.dueAllDay, status := todo.status
      completed := todo.completed, completedAt := todo.completedAt, priority := todo.priority
      percentComplete := todo.percentComplete, description := todo.description
      lastModified := todo.lastModified, categoryColor := todo.categoryColor
      payloadJson := dumpsDict todo.toDict, stateHash := stateHash }

/-- `[*_iter_event_records(events), *_iter_todo_records(todos)]`. -/
def itemRecords (hashes : Hashes) (events : List CalendarEvent) (todos : List CalendarTodo) :
    Option (List ItemRecord) := do
  let eventRecords ← events.mapM (eventRecord hashes)
  let todoRecords ← todos.mapM (todoRecord hashes)
  some (eventRecords ++ todoRecords)

/-! ## The table -/

/-- A row of `calendar_item_states`. -/
structure StateRow where
  record : ItemRecord
  scopeHash : Text
  firstSeenAt : ℚ
  lastSeenAt : ℚ
  lastChangedAt : ℚ
deriving DecidableEq

def StateRow.id (row : StateRow) : ItemId := row.record.id

/-- `calendar_item_states`, under source, item type and item key. -/
abbrev StateTable := Table ItemId StateRow StateRow.id

/-- What an item counts as. -/
inductive Change where
  | inserted
  | updated (completes : Bool)
  | unchanged
deriving DecidableEq

/-- What the item counts as, with the row that it finds. -/
def changeOf (item : ItemRecord) : Option StateRow → Change
  | none => .inserted
  | some row =>
    if row.record.stateHash ≠ item.stateHash then
      .updated (item.itemType = lit "todo" && !row.record.completed && item.completed)
    else .unchanged

/-- The row that the item leaves, with the row that it finds. -/
def rowOf (scopeHash : Text) (now : ℚ) (item : ItemRecord) : Option StateRow → StateRow
  | none => ⟨item, scopeHash, now, now, now⟩
  | some row =>
    ⟨item, scopeHash, row.firstSeenAt, now,
      if row.record.stateHash ≠ item.stateHash then now else row.lastChangedAt⟩

/-- The loop of `sync_calendar_query_result`. -/
def syncItems (scopeHash : Text) (now : ℚ) :
    StateTable → List ItemRecord → StateTable × List (ItemId × Change)
  | table, [] => (table, [])
  | table, item :: items =>
    let found := table.find? item.id
    let (table, changes) := syncItems scopeHash now (table.upsert (rowOf scopeHash now item found)) items
    (table, (item.id, changeOf item found) :: changes)

/-- `CalendarStateSyncSummary`. -/
structure CalendarStateSyncSummary where
  insertedCount : Nat := 0
  updatedCount : Nat := 0
  unchangedCount : Nat := 0
  completedTransitionCount : Nat := 0
deriving DecidableEq

/-- The counts of `sync_calendar_query_result`. -/
def summaryOf (changes : List (ItemId × Change)) : CalendarStateSyncSummary where
  insertedCount := changes.countP fun c => c.2 = .inserted
  updatedCount := changes.countP fun c => c.2 = .updated true || c.2 = .updated false
  unchangedCount := changes.countP fun c => c.2 = .unchanged
  completedTransitionCount := changes.countP fun c => c.2 = .updated true

/-- The items that are counted as completed, one for each time. -/
def completions (changes : List (ItemId × Change)) : List ItemId :=
  (changes.filter fun c => c.2 = .updated true).map Prod.fst

/-! ## The last record of an item -/

/-- The last record of the item. -/
def lastOf (id : ItemId) (items : List ItemRecord) : Option ItemRecord :=
  items.reverse.find? fun item => item.id = id

theorem lastOf_append (id : ItemId) (items later : List ItemRecord) :
    lastOf id (items ++ later) = (lastOf id later).or (lastOf id items) := by
  rw [lastOf, List.reverse_append, List.find?_append]
  rfl

theorem lastOf_cons (id : ItemId) (item : ItemRecord) (items : List ItemRecord) :
    lastOf id (item :: items)
      = (lastOf id items).or (if item.id = id then some item else none) := by
  rw [← List.singleton_append, lastOf_append]
  congr 1
  by_cases h : item.id = id
  · simp [lastOf, h]
  · simp [lastOf, h]

theorem mem_of_lastOf {id : ItemId} {items : List ItemRecord} {item : ItemRecord}
    (h : lastOf id items = some item) : item ∈ items ∧ item.id = id := by
  refine ⟨List.mem_reverse.mp (List.mem_of_find?_eq_some h), ?_⟩
  simpa using List.find?_some h

theorem lastOf_eq_none_iff {id : ItemId} {items : List ItemRecord} :
    lastOf id items = none ↔ ∀ item ∈ items, item.id ≠ id := by
  rw [lastOf, List.find?_eq_none]
  simp

/-! ## What a synchronisation leaves -/

theorem rowOf_record (scopeHash : Text) (now : ℚ) (item : ItemRecord) (found : Option StateRow) :
    (rowOf scopeHash now item found).record = item := by
  cases found <;> rfl

theorem find?_upsert_rowOf (scopeHash : Text) (now : ℚ) (table : StateTable) (item : ItemRecord)
    (id : ItemId) :
    (table.upsert (rowOf scopeHash now item (table.find? item.id))).find? id
      = if item.id = id then some (rowOf scopeHash now item (table.find? item.id))
        else table.find? id := by
  have hid : (rowOf scopeHash now item (table.find? item.id)).id = item.id :=
    congrArg ItemRecord.id (rowOf_record ..)
  rw [Table.find?_upsert, hid]

/-- **The row of an item is the last record of it.** -/
theorem find?_syncItems (scopeHash : Text) (now : ℚ) (table : StateTable) (items : List ItemRecord)
    (id : ItemId) :
    ((syncItems scopeHash now table items).1.find? id).map StateRow.record
      = (lastOf id items).or ((table.find? id).map StateRow.record) := by
  induction items generalizing table with
  | nil => rfl
  | cons item items ih =>
    have hstep : ((table.upsert (rowOf scopeHash now item (table.find? item.id))).find? id).map
        StateRow.record
        = (if item.id = id then some item else none).or ((table.find? id).map StateRow.record) := by
      rw [find?_upsert_rowOf]
      split
      · rw [Option.map_some, rowOf_record, Option.some_or]
      · rw [Option.none_or]
    rw [syncItems]
    show ((syncItems scopeHash now _ items).1.find? id).map StateRow.record = _
    rw [ih, hstep, lastOf_cons, Option.or_assoc]

theorem completions_cons (c : ItemId × Change) (changes : List (ItemId × Change)) :
    completions (c :: changes)
      = (if c.2 = .updated true then [c.1] else []) ++ completions changes := by
  unfold completions
  by_cases h : c.2 = .updated true
  · simp [h]
  · simp [h]

/-- An item counts as completed only where a completed record finds an open row. -/
theorem changeOf_eq_completes {item : ItemRecord} {found : Option StateRow}
    (h : changeOf item found = .updated true) :
    item.completed = true ∧ ∃ row, found = some row ∧ row.record.completed = false := by
  cases found with
  | none => cases h
  | some row =>
    by_cases hchanged : row.record.stateHash ≠ item.stateHash
    · rw [changeOf, if_pos hchanged] at h
      simp only [Change.updated.injEq, Bool.and_eq_true, Bool.not_eq_true'] at h
      exact ⟨h.2, row, rfl, h.1.2⟩
    · rw [changeOf, if_neg hchanged] at h
      cases h

theorem count_completions_of_open {id : ItemId} {items : List ItemRecord}
    (h : ∀ item ∈ items, item.id = id → item.completed = false) (scopeHash : Text) (now : ℚ)
    (table : StateTable) : (completions (syncItems scopeHash now table items).2).count id = 0 := by
  induction items generalizing table with
  | nil => rfl
  | cons item items ih =>
    rw [syncItems, completions_cons, List.count_append,
      ih fun i hi => h i (List.mem_cons_of_mem _ hi)]
    show List.count id (if changeOf item _ = .updated true then [item.id] else []) + 0 = 0
    split
    · next hchange =>
      have hne : item.id ≠ id := fun hid => by
        have hopen := h item List.mem_cons_self hid
        rw [(changeOf_eq_completes hchange).1] at hopen
        cases hopen
      rw [List.count_singleton, if_neg (by simpa using hne)]
    · rfl

/-- The row of the item is completed, when there is one. -/
def Done (table : StateTable) (id : ItemId) : Prop :=
  ∀ row, table.find? id = some row → row.record.completed = true

theorem count_completions_of_done {id : ItemId} {items : List ItemRecord}
    (h : ∀ item ∈ items, item.id = id → item.completed = true) (scopeHash : Text) (now : ℚ)
    {table : StateTable} (hdone : Done table id) :
    (completions (syncItems scopeHash now table items).2).count id = 0 := by
  induction items generalizing table with
  | nil => rfl
  | cons item items ih =>
    have hnext : Done (table.upsert (rowOf scopeHash now item (table.find? item.id))) id := by
      intro row hrow
      rw [find?_upsert_rowOf] at hrow
      split at hrow
      · next hid =>
        cases hrow
        rw [rowOf_record]
        exact h item List.mem_cons_self hid
      · exact hdone row hrow
    rw [syncItems, completions_cons, List.count_append,
      ih (fun i hi => h i (List.mem_cons_of_mem _ hi)) hnext]
    show List.count id (if changeOf item _ = .updated true then [item.id] else []) + 0 = 0
    split
    · next hchange =>
      have hne : item.id ≠ id := fun hid => by
        obtain ⟨-, row, hrow, hopen⟩ := changeOf_eq_completes hchange
        rw [hid] at hrow
        rw [hdone row hrow] at hopen
        cases hopen
      rw [List.count_singleton, if_neg (by simpa using hne)]
    · rfl

theorem count_completions_of_completed {id : ItemId} {items : List ItemRecord}
    (h : ∀ item ∈ items, item.id = id → item.completed = true) (scopeHash : Text) (now : ℚ)
    (table : StateTable) : (completions (syncItems scopeHash now table items).2).count id ≤ 1 := by
  induction items generalizing table with
  | nil => exact Nat.zero_le _
  | cons item items ih =>
    have hrest := fun i hi => h i (List.mem_cons_of_mem item hi)
    rw [syncItems, completions_cons, List.count_append]
    by_cases hid : item.id = id
    · have hdone : Done (table.upsert (rowOf scopeHash now item (table.find? item.id))) id := by
        intro row hrow
        rw [find?_upsert_rowOf, if_pos hid] at hrow
        cases hrow
        rw [rowOf_record]
        exact h item List.mem_cons_self hid
      rw [count_completions_of_done hrest scopeHash now hdone]
      split
      · exact List.count_le_length
      · exact Nat.zero_le _
    · have hzero : List.count id (if changeOf item (table.find? item.id) = .updated true
          then [item.id] else []) = 0 := by
        split
        · rw [List.count_singleton, if_neg (by simpa using hid)]
        · rfl
      show List.count id (if changeOf item _ = .updated true then [item.id] else []) + _ ≤ 1
      rw [hzero, Nat.zero_add]
      exact ih hrest _

end ForgeKit.Calendar
