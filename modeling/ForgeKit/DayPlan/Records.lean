import ForgeKit.DayPlan.SourceItems

/-!
# The records of a daily plan (`yule_planning/models`)

Each record has a `to_dict` and a `from_dict`, written apart. The snapshot of a plan keeps the dict
as JSON text with sorted keys, so what `from_dict` is given is the sorted dict.

* `PlanningTimeBlock.fromDict_toDict`, `ReminderItem.fromDict_toDict`, … — a record is read back
* `PlanningCheckpoint.fromDict_toDict`, `PlanningScheduledBriefing.fromDict_toDict` — but for a text
  that is empty and has a default
-/

namespace ForgeKit.DayPlan

open Py (Text lit)
open IsoTime (Date)
open JsonText

/-- `t or default`. -/
def orDefault (default t : Text) : Text := if t = [] then default else t

/-! ## What the plan is made from -/

/-- `PlanningSourceStatus`. -/
structure PlanningSourceStatus where
  sourceId : Text
  sourceType : Text
  ok : Bool
  itemCount : Int
  warning : Option Text := none
deriving DecidableEq

/-- `PlanningSourceStatus.to_dict`. -/
def PlanningSourceStatus.toDict (status : PlanningSourceStatus) : JsonDict where
  members :=
    [(lit "source_id", .str status.sourceId), (lit "source_type", .str status.sourceType),
      (lit "ok", .bool status.ok), (lit "item_count", ofInt status.itemCount),
      (lit "warning", ofText? status.warning)]
  valid := ⟨by simp only [List.map_cons, List.map_nil]; decide, trivial, trivial, trivial, trivial,
    valid_ofText? _, trivial⟩

/-- `PlanningSourceStatus.from_dict`. -/
def PlanningSourceStatus.fromDict (py : Conversions) (d : List (Text × Value)) :
    Option PlanningSourceStatus := do
  let sourceId ← strAt py d (lit "source_id")
  let sourceType ← strAt py d (lit "source_type")
  let ok ← boolAt py d (lit "ok")
  let itemCount ← intAt py d (lit "item_count")
  let warning := optStr py d (lit "warning")
  some ⟨sourceId, sourceType, ok, itemCount, warning⟩

theorem PlanningSourceStatus.fromDict_toDict (py : Conversions) (status : PlanningSourceStatus) :
    fromDict py status.toDict.sorted.members = some status := by
  rw [fromDict, strAt_sorted (t := status.sourceId) py rfl,
    strAt_sorted (t := status.sourceType) py rfl, boolAt_sorted (b := status.ok) py rfl,
    intAt_sorted (n := status.itemCount) py rfl, optStr_sorted (o := status.warning) py rfl]
  rfl

/-- `_estimated_minutes_from_value`. -/
def estimatedMinutesFromValue (py : Conversions) : Value → Option Int
  | .null => some 30
  | .str [] => some 30
  | v => (py.intOf v).map (max 15)

/-- `ReminderItem`. -/
structure ReminderItem where
  itemId : Text
  title : Text
  description : Text := []
  dueDate : Option Text := none
  priorityHint : Option Text := none
  estimatedMinutes : Int := 30
  tags : List Text := []
deriving DecidableEq

/-- `ReminderItem.to_dict`. -/
def ReminderItem.toDict (item : ReminderItem) : JsonDict where
  members :=
    [(lit "item_id", .str item.itemId), (lit "title", .str item.title),
      (lit "description", .str item.description), (lit "due_date", ofText? item.dueDate),
      (lit "priority_hint", ofText? item.priorityHint),
      (lit "estimated_minutes", ofInt item.estimatedMinutes), (lit "tags", ofTexts item.tags)]
  valid := ⟨by simp only [List.map_cons, List.map_nil]; decide, trivial, trivial, trivial,
    valid_ofText? _, valid_ofText? _, trivial, valid_ofTexts _, trivial⟩

/-- `ReminderItem.from_dict`. -/
def ReminderItem.fromDict (py : Conversions) (d : List (Text × Value)) : Option ReminderItem := do
  let itemId := py.strOf (py.orElse (get d (lit "item_id")) (py.orElse (get d (lit "id"))
    (py.orElse (get d (lit "title")) (.str (lit "reminder")))))
  let title := strOr py d (lit "title") (lit "(untitled reminder)")
  let description := strOr py d (lit "description") []
  let dueDate := optStr py d (lit "due_date")
  let priorityHint := optStr py d (lit "priority_hint")
  let estimatedMinutes ← estimatedMinutesFromValue py (get d (lit "estimated_minutes"))
  let tags := match d.lookup (lit "tags") with
    | some (.arr vs) => vs.map py.strOf
    | _ => []
  some ⟨itemId, title, description, dueDate, priorityHint, estimatedMinutes, tags⟩

/-- What `load_reminder_items` gives. -/
structure ReminderItem.Loaded (item : ReminderItem) : Prop where
  itemId : item.itemId ≠ []
  title : item.title ≠ []
  minutes : 15 ≤ item.estimatedMinutes

theorem ReminderItem.fromDict_toDict (py : Conversions) {item : ReminderItem} (h : item.Loaded) :
    fromDict py item.toDict.sorted.members = some item := by
  have hid : ∀ w, py.strOf (py.orElse (get item.toDict.sorted.members (lit "item_id")) w)
      = item.itemId := by
    intro w
    rw [get_sorted (v := .str item.itemId) rfl]
    show py.strOf (if decide (item.itemId ≠ []) = true then .str item.itemId else w) = item.itemId
    rw [if_pos (decide_eq_true h.itemId)]
    rfl
  have hminutes : estimatedMinutesFromValue py
      (get item.toDict.sorted.members (lit "estimated_minutes")) = some item.estimatedMinutes := by
    rw [get_sorted (v := ofInt item.estimatedMinutes) rfl]
    show ((Number.ofInt item.estimatedMinutes).toInt?.or _).map (max 15) = _
    rw [toInt?_ofInt, Option.some_or, Option.map_some, max_eq_right h.minutes]
  have htags : item.toDict.sorted.members.lookup (lit "tags") = some (ofTexts item.tags) := by
    rw [lookup_sorted_of (v := ofTexts item.tags) rfl, sortKeys_ofTexts]
  rw [fromDict, hid, hminutes, htags, strOr_sorted (t := item.title) py rfl, if_neg h.title,
    strOr_sorted_nil (t := item.description) py rfl, optStr_sorted (o := item.dueDate) py rfl,
    optStr_sorted (o := item.priorityHint) py rfl]
  show some (ReminderItem.mk _ _ _ _ _ _ ((item.tags.map Value.str).map py.strOf)) = some item
  rw [List.map_map]
  exact congrArg (fun tags => some { item with tags := tags }) (List.map_id' item.tags)

/-! ## What the plan is made of -/

/-- `DailyPlanSummary`. -/
structure DailyPlanSummary where
  fixedEventCount : Int
  allDayEventCount : Int
  todoCount : Int
  githubIssueCount : Int
  reminderCount : Int
  recommendedTaskCount : Int
  availableFocusMinutes : Int
deriving DecidableEq

/-- `DailyPlanSummary.to_dict`. -/
def DailyPlanSummary.toDict (summary : DailyPlanSummary) : JsonDict where
  members :=
    [(lit "fixed_event_count", ofInt summary.fixedEventCount),
      (lit "all_day_event_count", ofInt summary.allDayEventCount),
      (lit "todo_count", ofInt summary.todoCount),
      (lit "github_issue_count", ofInt summary.githubIssueCount),
      (lit "reminder_count", ofInt summary.reminderCount),
      (lit "recommended_task_count", ofInt summary.recommendedTaskCount),
      (lit "available_focus_minutes", ofInt summary.availableFocusMinutes)]
  valid := ⟨by simp only [List.map_cons, List.map_nil]; decide, trivial, trivial, trivial, trivial,
    trivial, trivial, trivial, trivial⟩

/-- `DailyPlanSummary.from_dict`. -/
def DailyPlanSummary.fromDict (py : Conversions) (d : List (Text × Value)) :
    Option DailyPlanSummary := do
  let fixedEventCount ← intAt py d (lit "fixed_event_count")
  let allDayEventCount ← intAt py d (lit "all_day_event_count")
  let todoCount ← intAt py d (lit "todo_count")
  let githubIssueCount ← intAt py d (lit "github_issue_count")
  let reminderCount ← intAt py d (lit "reminder_count")
  let recommendedTaskCount ← intAt py d (lit "recommended_task_count")
  let availableFocusMinutes ← intAt py d (lit "available_focus_minutes")
  some ⟨fixedEventCount, allDayEventCount, todoCount, githubIssueCount, reminderCount,
    recommendedTaskCount, availableFocusMinutes⟩

theorem DailyPlanSummary.fromDict_toDict (py : Conversions) (summary : DailyPlanSummary) :
    fromDict py summary.toDict.sorted.members = some summary := by
  rw [fromDict, intAt_sorted (n := summary.fixedEventCount) py rfl,
    intAt_sorted (n := summary.allDayEventCount) py rfl,
    intAt_sorted (n := summary.todoCount) py rfl,
    intAt_sorted (n := summary.githubIssueCount) py rfl,
    intAt_sorted (n := summary.reminderCount) py rfl,
    intAt_sorted (n := summary.recommendedTaskCount) py rfl,
    intAt_sorted (n := summary.availableFocusMinutes) py rfl]
  rfl

/-- `PlanningTaskCandidate`. -/
structure PlanningTaskCandidate where
  taskId : Text
  sourceType : Text
  title : Text
  description : Text
  dueDate : Option Text
  priorityScore : Int
  priorityLevel : Text
  estimatedMinutes : Int
  reasons : List Text
  codingCandidate : Bool
  categoryColor : Option Text := none
  categoryLabel : Option Text := none
  flexible : Bool := false
deriving DecidableEq

/-- `PlanningTaskCandidate.to_dict`. -/
def PlanningTaskCandidate.toDict (task : PlanningTaskCandidate) : JsonDict where
  members :=
    [(lit "task_id", .str task.taskId), (lit "source_type", .str task.sourceType),
      (lit "title", .str task.title), (lit "description", .str task.description),
      (lit "due_date", ofText? task.dueDate), (lit "priority_score", ofInt task.priorityScore),
      (lit "priority_level", .str task.priorityLevel),
      (lit "estimated_minutes", ofInt task.estimatedMinutes),
      (lit "reasons", ofTexts task.reasons), (lit "coding_candidate", .bool task.codingCandidate),
      (lit "category_color", ofText? task.categoryColor),
      (lit "category_label", ofText? task.categoryLabel), (lit "flexible", .bool task.flexible)]
  valid := ⟨by simp only [List.map_cons, List.map_nil]; decide, trivial, trivial, trivial, trivial,
    valid_ofText? _, trivial, trivial, trivial, valid_ofTexts _, trivial, valid_ofText? _,
    valid_ofText? _, trivial, trivial⟩

/-- `PlanningTaskCandidate.from_dict`. -/
def PlanningTaskCandidate.fromDict (py : Conversions) (d : List (Text × Value)) :
    Option PlanningTaskCandidate := do
  let taskId ← strAt py d (lit "task_id")
  let sourceType ← strAt py d (lit "source_type")
  let title ← strAt py d (lit "title")
  let description := strOr py d (lit "description") []
  let dueDate := optStr py d (lit "due_date")
  let priorityScore ← intAt py d (lit "priority_score")
  let priorityLevel ← strAt py d (lit "priority_level")
  let estimatedMinutes ← intAt py d (lit "estimated_minutes")
  let reasons ← textsAt py d (lit "reasons")
  let codingCandidate ← boolAt py d (lit "coding_candidate")
  let categoryColor := optStr py d (lit "category_color")
  let categoryLabel := optStr py d (lit "category_label")
  let flexible := boolOrFalse py d (lit "flexible")
  some ⟨taskId, sourceType, title, description, dueDate, priorityScore, priorityLevel,
    estimatedMinutes, reasons, codingCandidate, categoryColor, categoryLabel, flexible⟩

theorem PlanningTaskCandidate.fromDict_toDict (py : Conversions) (task : PlanningTaskCandidate) :
    fromDict py task.toDict.sorted.members = some task := by
  rw [fromDict, strAt_sorted (t := task.taskId) py rfl, strAt_sorted (t := task.sourceType) py rfl,
    strAt_sorted (t := task.title) py rfl, strOr_sorted_nil (t := task.description) py rfl,
    optStr_sorted (o := task.dueDate) py rfl, intAt_sorted (n := task.priorityScore) py rfl,
    strAt_sorted (t := task.priorityLevel) py rfl,
    intAt_sorted (n := task.estimatedMinutes) py rfl, textsAt_sorted (l := task.reasons) py rfl,
    boolAt_sorted (b := task.codingCandidate) py rfl,
    optStr_sorted (o := task.categoryColor) py rfl, optStr_sorted (o := task.categoryLabel) py rfl,
    boolOrFalse_sorted (b := task.flexible) py rfl]
  rfl

/-- `PlanningTimeBlock`. -/
structure PlanningTimeBlock where
  start : Text
  stop : Text
  blockType : Text
  title : Text
  taskId : Option Text
  locked : Bool
deriving DecidableEq

/-- `PlanningTimeBlock.to_dict`. -/
def PlanningTimeBlock.toDict (block : PlanningTimeBlock) : JsonDict where
  members :=
    [(lit "start", .str block.start), (lit "end", .str block.stop),
      (lit "block_type", .str block.blockType), (lit "title", .str block.title),
      (lit "task_id", ofText? block.taskId), (lit "locked", .bool block.locked)]
  valid := ⟨by simp only [List.map_cons, List.map_nil]; decide, trivial, trivial, trivial, trivial,
    valid_ofText? _, trivial, trivial⟩

/-- `PlanningTimeBlock.from_dict`. -/
def PlanningTimeBlock.fromDict (py : Conversions) (d : List (Text × Value)) :
    Option PlanningTimeBlock := do
  let start ← strAt py d (lit "start")
  let stop ← strAt py d (lit "end")
  let blockType ← strAt py d (lit "block_type")
  let title ← strAt py d (lit "title")
  let taskId := optStr py d (lit "task_id")
  let locked ← boolAt py d (lit "locked")
  some ⟨start, stop, blockType, title, taskId, locked⟩

theorem PlanningTimeBlock.fromDict_toDict (py : Conversions) (block : PlanningTimeBlock) :
    fromDict py block.toDict.sorted.members = some block := by
  rw [fromDict, strAt_sorted (t := block.start) py rfl, strAt_sorted (t := block.stop) py rfl,
    strAt_sorted (t := block.blockType) py rfl, strAt_sorted (t := block.title) py rfl,
    optStr_sorted (o := block.taskId) py rfl, boolAt_sorted (b := block.locked) py rfl]
  rfl

/-- `PlanningExecutionBlock`. -/
structure PlanningExecutionBlock where
  blockId : Text
  sourceEventUid : Text
  sourceEventTitle : Text
  start : Text
  stop : Text
  title : Text
  description : Text
deriving DecidableEq

/-- `PlanningExecutionBlock.to_dict`. -/
def PlanningExecutionBlock.toDict (block : PlanningExecutionBlock) : JsonDict where
  members :=
    [(lit "block_id", .str block.blockId), (lit "source_event_uid", .str block.sourceEventUid),
      (lit "source_event_title", .str block.sourceEventTitle), (lit "start", .str block.start),
      (lit "end", .str block.stop), (lit "title", .str block.title),
      (lit "description", .str block.description)]
  valid := ⟨by simp only [List.map_cons, List.map_nil]; decide, trivial, trivial, trivial, trivial,
    trivial, trivial, trivial, trivial⟩

/-- `PlanningExecutionBlock.from_dict`. -/
def PlanningExecutionBlock.fromDict (py : Conversions) (d : List (Text × Value)) :
    Option PlanningExecutionBlock := do
  let blockId ← strAt py d (lit "block_id")
  let sourceEventUid ← strAt py d (lit "source_event_uid")
  let sourceEventTitle ← strAt py d (lit "source_event_title")
  let start ← strAt py d (lit "start")
  let stop ← strAt py d (lit "end")
  let title ← strAt py d (lit "title")
  let description := strOr py d (lit "description") []
  some ⟨blockId, sourceEventUid, sourceEventTitle, start, stop, title, description⟩

theorem PlanningExecutionBlock.fromDict_toDict (py : Conversions) (block : PlanningExecutionBlock) :
    fromDict py block.toDict.sorted.members = some block := by
  rw [fromDict, strAt_sorted (t := block.blockId) py rfl,
    strAt_sorted (t := block.sourceEventUid) py rfl,
    strAt_sorted (t := block.sourceEventTitle) py rfl, strAt_sorted (t := block.start) py rfl,
    strAt_sorted (t := block.stop) py rfl, strAt_sorted (t := block.title) py rfl,
    strOr_sorted_nil (t := block.description) py rfl]
  rfl

/-- `PlanningBlockBriefing`. -/
structure PlanningBlockBriefing where
  briefingId : Text
  start : Text
  stop : Text
  title : Text
  blockType : Text
  sourceRef : Option Text
  briefing : Text
deriving DecidableEq

/-- `PlanningBlockBriefing.to_dict`. -/
def PlanningBlockBriefing.toDict (briefing : PlanningBlockBriefing) : JsonDict where
  members :=
    [(lit "briefing_id", .str briefing.briefingId), (lit "start", .str briefing.start),
      (lit "end", .str briefing.stop), (lit "title", .str briefing.title),
      (lit "block_type", .str briefing.blockType), (lit "source_ref", ofText? briefing.sourceRef),
      (lit "briefing", .str briefing.briefing)]
  valid := ⟨by simp only [List.map_cons, List.map_nil]; decide, trivial, trivial, trivial, trivial,
    trivial, valid_ofText? _, trivial, trivial⟩

/-- `PlanningBlockBriefing.from_dict`. -/
def PlanningBlockBriefing.fromDict (py : Conversions) (d : List (Text × Value)) :
    Option PlanningBlockBriefing := do
  let briefingId ← strAt py d (lit "briefing_id")
  let start ← strAt py d (lit "start")
  let stop ← strAt py d (lit "end")
  let title ← strAt py d (lit "title")
  let blockType ← strAt py d (lit "block_type")
  let sourceRef := optStr py d (lit "source_ref")
  let briefing ← strAt py d (lit "briefing")
  some ⟨briefingId, start, stop, title, blockType, sourceRef, briefing⟩

theorem PlanningBlockBriefing.fromDict_toDict (py : Conversions) (briefing : PlanningBlockBriefing) :
    fromDict py briefing.toDict.sorted.members = some briefing := by
  rw [fromDict, strAt_sorted (t := briefing.briefingId) py rfl,
    strAt_sorted (t := briefing.start) py rfl, strAt_sorted (t := briefing.stop) py rfl,
    strAt_sorted (t := briefing.title) py rfl, strAt_sorted (t := briefing.blockType) py rfl,
    optStr_sorted (o := briefing.sourceRef) py rfl, strAt_sorted (t := briefing.briefing) py rfl]
  rfl

/-- `PlanningCheckpoint`. -/
structure PlanningCheckpoint where
  checkpointId : Text
  remindAt : Text
  sourceEventUid : Text
  sourceEventTitle : Text
  blockId : Text
  blockTitle : Text
  blockStart : Text
  blockEnd : Text
  prompt : Text
  kind : Text := lit "wrap_up"
deriving DecidableEq

/-- `PlanningCheckpoint.to_dict`. -/
def PlanningCheckpoint.toDict (checkpoint : PlanningCheckpoint) : JsonDict where
  members :=
    [(lit "checkpoint_id", .str checkpoint.checkpointId),
      (lit "remind_at", .str checkpoint.remindAt),
      (lit "source_event_uid", .str checkpoint.sourceEventUid),
      (lit "source_event_title", .str checkpoint.sourceEventTitle),
      (lit "block_id", .str checkpoint.blockId), (lit "block_title", .str checkpoint.blockTitle),
      (lit "block_start", .str checkpoint.blockStart), (lit "block_end", .str checkpoint.blockEnd),
      (lit "prompt", .str checkpoint.prompt), (lit "kind", .str checkpoint.kind)]
  valid := ⟨by simp only [List.map_cons, List.map_nil]; decide, trivial, trivial, trivial, trivial,
    trivial, trivial, trivial, trivial, trivial, trivial, trivial⟩

/-- `PlanningCheckpoint.from_dict`. -/
def PlanningCheckpoint.fromDict (py : Conversions) (d : List (Text × Value)) :
    Option PlanningCheckpoint := do
  let checkpointId ← strAt py d (lit "checkpoint_id")
  let remindAt ← strAt py d (lit "remind_at")
  let sourceEventUid ← strAt py d (lit "source_event_uid")
  let sourceEventTitle ← strAt py d (lit "source_event_title")
  let blockId ← strAt py d (lit "block_id")
  let blockTitle ← strAt py d (lit "block_title")
  let blockStart ← strAt py d (lit "block_start")
  let blockEnd ← strAt py d (lit "block_end")
  let prompt ← strAt py d (lit "prompt")
  let kind := strOr py d (lit "kind") (lit "wrap_up")
  some ⟨checkpointId, remindAt, sourceEventUid, sourceEventTitle, blockId, blockTitle, blockStart,
    blockEnd, prompt, kind⟩

/-- What comes back: an empty kind is the default. -/
def PlanningCheckpoint.defaulted (checkpoint : PlanningCheckpoint) : PlanningCheckpoint :=
  { checkpoint with kind := orDefault (lit "wrap_up") checkpoint.kind }

theorem PlanningCheckpoint.fromDict_toDict (py : Conversions)
    (checkpoint : PlanningCheckpoint) : fromDict py checkpoint.toDict.sorted.members = some checkpoint.defaulted := by
  rw [fromDict, strAt_sorted (t := checkpoint.checkpointId) py rfl,
    strAt_sorted (t := checkpoint.remindAt) py rfl,
    strAt_sorted (t := checkpoint.sourceEventUid) py rfl,
    strAt_sorted (t := checkpoint.sourceEventTitle) py rfl,
    strAt_sorted (t := checkpoint.blockId) py rfl,
    strAt_sorted (t := checkpoint.blockTitle) py rfl,
    strAt_sorted (t := checkpoint.blockStart) py rfl,
    strAt_sorted (t := checkpoint.blockEnd) py rfl, strAt_sorted (t := checkpoint.prompt) py rfl,
    strOr_sorted (t := checkpoint.kind) py rfl]
  rfl

/-- `PlanningScheduledBriefing`. -/
structure PlanningScheduledBriefing where
  briefingId : Text
  briefingType : Text
  title : Text
  sendAt : Text
  content : Text
  source : Text := lit "rules"
deriving DecidableEq

/-- `PlanningScheduledBriefing.to_dict`. -/
def PlanningScheduledBriefing.toDict (briefing : PlanningScheduledBriefing) : JsonDict where
  members :=
    [(lit "briefing_id", .str briefing.briefingId),
      (lit "briefing_type", .str briefing.briefingType), (lit "title", .str briefing.title),
      (lit "send_at", .str briefing.sendAt), (lit "content", .str briefing.content),
      (lit "source", .str briefing.source)]
  valid := ⟨by simp only [List.map_cons, List.map_nil]; decide, trivial, trivial, trivial, trivial,
    trivial, trivial, trivial⟩

/-- `PlanningScheduledBriefing.from_dict`. -/
def PlanningScheduledBriefing.fromDict (py : Conversions) (d : List (Text × Value)) :
    Option PlanningScheduledBriefing := do
  let briefingId ← strAt py d (lit "briefing_id")
  let briefingType ← strAt py d (lit "briefing_type")
  let title ← strAt py d (lit "title")
  let sendAt ← strAt py d (lit "send_at")
  let content ← strAt py d (lit "content")
  let source := strOr py d (lit "source") (lit "rules")
  some ⟨briefingId, briefingType, title, sendAt, content, source⟩

/-- What comes back: an empty source is the default. -/
def PlanningScheduledBriefing.defaulted (briefing : PlanningScheduledBriefing) : PlanningScheduledBriefing :=
  { briefing with source := orDefault (lit "rules") briefing.source }

theorem PlanningScheduledBriefing.fromDict_toDict (py : Conversions)
    (briefing : PlanningScheduledBriefing) : fromDict py briefing.toDict.sorted.members = some briefing.defaulted := by
  rw [fromDict, strAt_sorted (t := briefing.briefingId) py rfl,
    strAt_sorted (t := briefing.briefingType) py rfl, strAt_sorted (t := briefing.title) py rfl,
    strAt_sorted (t := briefing.sendAt) py rfl, strAt_sorted (t := briefing.content) py rfl,
    strOr_sorted (t := briefing.source) py rfl]
  rfl

end ForgeKit.DayPlan
