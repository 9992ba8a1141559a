import ForgeKit.Lib.IsoTime

/-!
# Calendar items and GitHub items (`yule_integrations`)

The records that the loaders give to the planner, each with its `to_dict` and `from_dict`. A
`from_dict` is given what `json.loads` read, with sorted keys.

* `CalendarEvent.fromDict_toDict`, `GitHubIssue.fromDict_toDict`, … — a record is read back
-/

namespace ForgeKit.DayPlan

open Py (Text lit)
open IsoTime (Date DateTime)
open JsonText

/-- What the readers rest on and is not carried over: `str`, `int` and `bool` of other kinds of
values, the ISO forms that `isoformat` does not write, and `build_fallback_item_uid`. -/
structure Readers extends Conversions where
  isoDate : Text → Option Date
  isoDateTime : Text → Option DateTime
  fallbackItemUid : Text → List Value → Option Text

/-! ## Calendar items -/

/-- `payload.get("item_uid") or build_fallback_item_uid(kind, *parts)`. -/
def itemUidAt (py : Readers) (d : List (Text × Value)) (kind : Text) (parts : List Value) :
    Option Text :=
  if py.truthy (get d (lit "item_uid")) then rawText d (lit "item_uid")
  else py.fallbackItemUid kind parts

theorem itemUidAt_sorted (py : Readers) {d : JsonDict} {t : Text} (ht : t ≠ [])
    (h : d.members.lookup (lit "item_uid") = some (.str t)) (kind : Text) (parts : List Value) :
    itemUidAt py d.sorted.members kind parts = some t := by
  have htrue : py.truthy (get d.sorted.members (lit "item_uid")) = true := by
    rw [get_sorted h]
    exact decide_eq_true ht
  rw [itemUidAt, if_pos htrue, rawText_sorted h]

/-- `CalendarEvent`. -/
structure CalendarEvent where
  itemUid : Text
  title : Text
  start : Text
  stop : Text
  allDay : Bool
  calendarName : Text
  source : Text
  description : Text
  lastModified : Option Text
  categoryColor : Option Text := none
deriving DecidableEq

/-- `CalendarEvent.to_dict`. -/
def CalendarEvent.toDict (event : CalendarEvent) : JsonDict where
  members :=
    [(lit "item_uid", .str event.itemUid), (lit "title", .str event.title),
      (lit "start", .str event.start), (lit "end", .str event.stop),
      (lit "all_day", .bool event.allDay), (lit "calendar_name", .str event.calendarName),
      (lit "source", .str event.source), (lit "description", .str event.description),
      (lit "last_modified", ofText? event.lastModified),
      (lit "category_color", ofText? event.categoryColor)]
  valid := ⟨by simp only [List.map_cons, List.map_nil]; decide, trivial, trivial, trivial, trivial,
    trivial, trivial, trivial, trivial, valid_ofText? _, valid_ofText? _, trivial⟩

/-- `CalendarEvent.from_dict`. -/
def CalendarEvent.fromDict (py : Readers) (d : List (Text × Value)) : Option CalendarEvent := do
  let itemUid ← itemUidAt py d (lit "event")
    [getOr d (lit "calendar_name") [], getOr d (lit "title") [], getOr d (lit "start") [],
      getOr d (lit "end") []]
  let title ← rawText d (lit "title")
  let start ← rawText d (lit "start")
  let stop ← rawText d (lit "end")
  let allDay ← rawBool d (lit "all_day")
  let calendarName ← rawText d (lit "calendar_name")
  let source ← rawText d (lit "source")
  let description ← rawTextOr d (lit "description") []
  let lastModified ← rawText? d (lit "last_modified")
  let categoryColor ← rawText? d (lit "category_color")
  some ⟨itemUid, title, start, stop, allDay, calendarName, source, description, lastModified,
    categoryColor⟩

theorem CalendarEvent.fromDict_toDict (py : Readers) {event : CalendarEvent}
    (h : event.itemUid ≠ []) : fromDict py event.toDict.sorted.members = some event := by
  rw [fromDict, itemUidAt_sorted (t := event.itemUid) py h rfl,
    rawText_sorted (t := event.title) rfl, rawText_sorted (t := event.start) rfl,
    rawText_sorted (t := event.stop) rfl, rawBool_sorted (b := event.allDay) rfl,
    rawText_sorted (t := event.calendarName) rfl, rawText_sorted (t := event.source) rfl,
    rawTextOr_sorted (t := event.description) rfl, rawText?_sorted (o := event.lastModified) rfl,
    rawText?_sorted (o := event.categoryColor) rfl]
  rfl

/-- `CalendarTodo`. -/
structure CalendarTodo where
  itemUid : Text
  title : Text
  start : Option Text
  due : Option Text
  startAllDay : Bool
  dueAllDay : Bool
  status : Text
  completed : Bool
  completedAt : Option Text
  priority : Option Int
  percentComplete : Option Int
  calendarName : Text
  source : Text
  description : Text
  lastModified : Option Text
  categoryColor : Option Text := none
deriving DecidableEq

/-- `CalendarTodo.to_dict`. -/
def CalendarTodo.toDict (todo : CalendarTodo) : JsonDict where
  members :=
    [(lit "item_uid", .str todo.itemUid), (lit "title", .str todo.title),
      (lit "start", ofText? todo.start), (lit "due", ofText? todo.due),
      (lit "start_all_day", .bool todo.startAllDay), (lit "due_all_day", .bool todo.dueAllDay),
      (lit "status", .str todo.status), (lit "completed", .bool todo.completed),
      (lit "completed_at", ofText? todo.completedAt), (lit "priority", ofInt? todo.priority),
      (lit "percent_complete", ofInt? todo.percentComplete),
      (lit "calendar_name", .str todo.calendarName), (lit "source", .str todo.source),
      (lit "description", .str todo.description), (lit "last_modified", ofText? todo.lastModified),
      (lit "category_color", ofText? todo.categoryColor)]
  valid := ⟨by simp only [List.map_cons, List.map_nil]; decide, trivial, trivial, valid_ofText? _,
    valid_ofText? _, trivial, trivial, trivial, trivial, valid_ofText? _, valid_ofInt? _,
    valid_ofInt? _, trivial, trivial, trivial, valid_ofText? _, valid_ofText? _, trivial⟩

/-- `CalendarTodo.from_dict`. -/
def CalendarTodo.fromDict (py : Readers) (d : List (Text × Value)) : Option CalendarTodo := do
  let itemUid ← itemUidAt py d (lit "todo")
    [getOr d (lit "calendar_name") [], getOr d (lit "title") [],
      py.orElse (get d (lit "due")) (.str []), py.orElse (get d (lit "start")) (.str [])]
  let title ← rawText d (lit "title")
  let start ← rawText? d (lit "start")
  let due ← rawText? d (lit "due")
  let startAllDay ← rawBool d (lit "start_all_day")
  let dueAllDay ← rawBool d (lit "due_all_day")
  let status ← rawText d (lit "status")
  let completed ← rawBool d (lit "completed")
  let completedAt ← rawText? d (lit "completed_at")
  let priority ← rawInt? d (lit "priority")
  let percentComplete ← rawInt? d (lit "percent_complete")
  let calendarName ← rawText d (lit "calendar_name")
  let source ← rawText d (lit "source")
  let description ← rawTextOr d (lit "description") []
  let lastModified ← rawText? d (lit "last_modified")
  let categoryColor ← rawText? d (lit "category_color")
  some ⟨itemUid, title, start, due, startAllDay, dueAllDay, status, completed, completedAt,
    priority, percentComplete, calendarName, source, description, lastModified, categoryColor⟩

theorem CalendarTodo.fromDict_toDict (py : Readers) {todo : CalendarTodo}
    (h : todo.itemUid ≠ []) : fromDict py todo.toDict.sorted.members = some todo := by
  rw [fromDict, itemUidAt_sorted (t := todo.itemUid) py h rfl,
    rawText_sorted (t := todo.title) rfl, rawText?_sorted (o := todo.start) rfl,
    rawText?_sorted (o := todo.due) rfl, rawBool_sorted (b := todo.startAllDay) rfl,
    rawBool_sorted (b := todo.dueAllDay) rfl, rawText_sorted (t := todo.status) rfl,
    rawBool_sorted (b := todo.completed) rfl, rawText?_sorted (o := todo.completedAt) rfl,
    rawInt?_sorted (o := todo.priority) rfl, rawInt?_sorted (o := todo.percentComplete) rfl,
    rawText_sorted (t := todo.calendarName) rfl, rawText_sorted (t := todo.source) rfl,
    rawTextOr_sorted (t := todo.description) rfl, rawText?_sorted (o := todo.lastModified) rfl,
    rawText?_sorted (o := todo.categoryColor) rfl]
  rfl

/-! ## GitHub items -/

/-- `_normalize_string_tuple`. -/
def normalizeStringTuple : Value → List Text
  | .arr vs => vs.filterMap fun v =>
    match v with
    | .str t => if t = [] then none else some t
    | _ => none
  | _ => []

/-- `_optional_string`. -/
def optionalString (py : Conversions) : Value → Option Text
  | .null => none
  | v => if Py.strip (py.strOf v) = [] then none else some (Py.strip (py.strOf v))

/-- A text that is `None` or stripped and not empty. -/
def Trimmed (o : Option Text) : Prop := ∀ t, o = some t → t ≠ [] ∧ Py.strip t = t

theorem normalizeStringTuple_ofTexts {ts : List Text} (h : ∀ t ∈ ts, t ≠ []) :
    normalizeStringTuple (ofTexts ts).sortKeys = ts := by
  rw [sortKeys_ofTexts]
  show (ts.map Value.str).filterMap _ = ts
  rw [List.filterMap_map]
  induction ts with
  | nil => rfl
  | cons t ts ih =>
    have ht : t ≠ [] := h t List.mem_cons_self
    rw [List.filterMap_cons]
    simp only [Function.comp_apply, if_neg ht]
    exact congrArg (t :: ·) (ih fun u hu => h u (List.mem_cons_of_mem _ hu))

theorem optionalString_ofText? (py : Conversions) {o : Option Text} (h : Trimmed o) :
    optionalString py (ofText? o).sortKeys = o := by
  rw [sortKeys_ofText?]
  cases o with
  | none => rfl
  | some t =>
    obtain ⟨hne, hstrip⟩ := h t rfl
    show (if Py.strip t = [] then none else some (Py.strip t)) = some t
    rw [hstrip, if_neg hne]

/-- `GitHubIssue`. -/
structure GitHubIssue where
  number : Int
  repository : Text
  title : Text
  url : Text
  owner : Text
  scope : Text
  labels : List Text := []
  body : Text := []
  assignees : List Text := []
  updatedAt : Option Text := none
deriving DecidableEq

/-- `GitHubIssue.to_dict`. -/
def GitHubIssue.toDict (issue : GitHubIssue) : JsonDict where
  members :=
    [(lit "number", ofInt issue.number), (lit "repository", .str issue.repository),
      (lit "title", .str issue.title), (lit "url", .str issue.url),
      (lit "owner", .str issue.owner), (lit "scope", .str issue.scope),
      (lit "labels", ofTexts issue.labels), (lit "body", .str issue.body),
      (lit "assignees", ofTexts issue.assignees), (lit "updated_at", ofText? issue.updatedAt)]
  valid := ⟨by simp only [List.map_cons, List.map_nil]; decide, trivial, trivial, trivial, trivial,
    trivial, trivial, valid_ofTexts _, trivial, valid_ofTexts _, valid_ofText? _, trivial⟩

/-- `GitHubIssue.from_dict`. -/
def GitHubIssue.fromDict (py : Conversions) (d : List (Text × Value)) : Option GitHubIssue := do
  let number ← intAt py d (lit "number")
  let repository ← strAt py d (lit "repository")
  let title ← strAt py d (lit "title")
  let url ← strAt py d (lit "url")
  let owner ← strAt py d (lit "owner")
  let scope ← strAt py d (lit "scope")
  let labels := normalizeStringTuple (get d (lit "labels"))
  let body := strOr py d (lit "body") []
  let assignees := normalizeStringTuple (get d (lit "assignees"))
  let updatedAt := optionalString py (get d (lit "updated_at"))
  some ⟨number, repository, title, url, owner, scope, labels, body, assignees, updatedAt⟩

/-- What `list_open_issues` gives. -/
structure GitHubIssue.Loaded (issue : GitHubIssue) : Prop where
  labels : ∀ t ∈ issue.labels, t ≠ []
  assignees : ∀ t ∈ issue.assignees, t ≠ []
  updatedAt : Trimmed issue.updatedAt

theorem GitHubIssue.fromDict_toDict (py : Conversions) {issue : GitHubIssue}
    (h : issue.Loaded) : fromDict py issue.toDict.sorted.members = some issue := by
  rw [fromDict, intAt_sorted (n := issue.number) py rfl,
    strAt_sorted (t := issue.repository) py rfl, strAt_sorted (t := issue.title) py rfl,
    strAt_sorted (t := issue.url) py rfl, strAt_sorted (t := issue.owner) py rfl,
    strAt_sorted (t := issue.scope) py rfl, get_sorted (v := ofTexts issue.labels) rfl,
    normalizeStringTuple_ofTexts h.labels, strOr_sorted_nil (t := issue.body) py rfl,
    get_sorted (v := ofTexts issue.assignees) rfl, normalizeStringTuple_ofTexts h.assignees,
    get_sorted (v := ofText? issue.updatedAt) rfl, optionalString_ofText? py h.updatedAt]
  rfl

/-- `GitHubPullRequest`. -/
structure GitHubPullRequest where
  number : Int
  repository : Text
  title : Text
  url : Text
  owner : Text
  scope : Text
  state : Text := lit "open"
  draft : Bool := false
  labels : List Text := []
  body : Text := []
  assignees : List Text := []
  updatedAt : Option Text := none
  reviewDecision : Option Text := none
deriving DecidableEq

/-- `GitHubPullRequest.to_dict`. -/
def GitHubPullRequest.toDict (pull : GitHubPullRequest) : JsonDict where
  members :=
    [(lit "number", ofInt pull.number), (lit "repository", .str pull.repository),
      (lit "title", .str pull.title), (lit "url", .str pull.url), (lit "owner", .str pull.owner),
      (lit "scope", .str pull.scope), (lit "state", .str pull.state),
      (lit "draft", .bool pull.draft), (lit "labels", ofTexts pull.labels),
      (lit "body", .str pull.body), (lit "assignees", ofTexts pull.assignees),
      (lit "updated_at", ofText? pull.updatedAt),
      (lit "review_decision", ofText? pull.reviewDecision)]
  valid := ⟨by simp only [List.map_cons, List.map_nil]; decide, trivial, trivial, trivial, trivial,
    trivial, trivial, trivial, trivial, valid_ofTexts _, trivial, valid_ofTexts _, valid_ofText? _,
    valid_ofText? _, trivial⟩

/-- `GitHubPullRequest.from_dict`. -/
def GitHubPullRequest.fromDict (py : Conversions) (d : List (Text × Value)) :
    Option GitHubPullRequest := do
  let number ← intAt py d (lit "number")
  let repository ← strAt py d (lit "repository")
  let title ← strAt py d (lit "title")
  let url ← strAt py d (lit "url")
  let owner ← strAt py d (lit "owner")
  let scope ← strAt py d (lit "scope")
  let state := strOr py d (lit "state") (lit "open")
  let draft := boolOrFalse py d (lit "draft")
  let labels := normalizeStringTuple (get d (lit "labels"))
  let body := strOr py d (lit "body") []
  let assignees := normalizeStringTuple (get d (lit "assignees"))
  let updatedAt := optionalString py (get d (lit "updated_at"))
  let reviewDecision := optionalString py (get d (lit "review_decision"))
  some ⟨number, repository, title, url, owner, scope, state, draft, labels, body, assignees,
    updatedAt, reviewDecision⟩

/-- What `list_open_pull_requests` gives. -/
structure GitHubPullRequest.Loaded (pull : GitHubPullRequest) : Prop where
  state : pull.state ≠ []
  labels : ∀ t ∈ pull.labels, t ≠ []
  assignees : ∀ t ∈ pull.assignees, t ≠ []
  updatedAt : Trimmed pull.updatedAt
  reviewDecision : Trimmed pull.reviewDecision

theorem GitHubPullRequest.fromDict_toDict (py : Conversions) {pull : GitHubPullRequest}
    (h : pull.Loaded) : fromDict py pull.toDict.sorted.members = some pull := by
  rw [fromDict, intAt_sorted (n := pull.number) py rfl, strAt_sorted (t := pull.repository) py rfl,
    strAt_sorted (t := pull.title) py rfl, strAt_sorted (t := pull.url) py rfl,
    strAt_sorted (t := pull.owner) py rfl, strAt_sorted (t := pull.scope) py rfl,
    strOr_sorted (t := pull.state) py rfl, if_neg h.state,
    boolOrFalse_sorted (b := pull.draft) py rfl, get_sorted (v := ofTexts pull.labels) rfl,
    normalizeStringTuple_ofTexts h.labels, strOr_sorted_nil (t := pull.body) py rfl,
    get_sorted (v := ofTexts pull.assignees) rfl, normalizeStringTuple_ofTexts h.assignees,
    get_sorted (v := ofText? pull.updatedAt) rfl, optionalString_ofText? py h.updatedAt,
    get_sorted (v := ofText? pull.reviewDecision) rfl, optionalString_ofText? py h.reviewDecision]
  rfl

end ForgeKit.DayPlan
