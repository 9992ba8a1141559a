import ForgeKit.DayPlan.Records

/-!
# The envelope of a daily plan (`yule_planning/models`)

The inputs of a plan and the plan, as the snapshot keeps them.

* `DailyPlanEnvelope.fromDict_toDict` — the envelope is read back, but for empty texts with a default
-/

namespace ForgeKit.DayPlan

open Py (Text lit)
open IsoTime (Date)
open JsonText

/-- `PlanningInputs`. -/
structure PlanningInputs where
  planDate : Date
  timezone : Text
  sourceStatuses : List PlanningSourceStatus
  warnings : List Text
  calendarEvents : List CalendarEvent
  calendarTodos : List CalendarTodo
  githubIssues : List GitHubIssue
  reminders : List ReminderItem
  githubPullRequests : List GitHubPullRequest := []
deriving DecidableEq

/-- `PlanningInputs.to_dict`. -/
def PlanningInputs.toDict (inputs : PlanningInputs) : JsonDict where
  members :=
    [(lit "plan_date", .str inputs.planDate.isoformat), (lit "timezone", .str inputs.timezone),
      (lit "source_statuses", ofDicts (inputs.sourceStatuses.map PlanningSourceStatus.toDict)),
      (lit "warnings", ofTexts inputs.warnings),
      (lit "calendar_events", ofDicts (inputs.calendarEvents.map CalendarEvent.toDict)),
      (lit "calendar_todos", ofDicts (inputs.calendarTodos.map CalendarTodo.toDict)),
      (lit "github_issues", ofDicts (inputs.githubIssues.map GitHubIssue.toDict)),
      (lit "reminders", ofDicts (inputs.reminders.map ReminderItem.toDict)),
      (lit "github_pull_requests",
        ofDicts (inputs.githubPullRequests.map GitHubPullRequest.toDict))]
  valid := ⟨by simp only [List.map_cons, List.map_nil]; decide, trivial, trivial, valid_ofDicts _,
    valid_ofTexts _, valid_ofDicts _, valid_ofDicts _, valid_ofDicts _, valid_ofDicts _,
    valid_ofDicts _, trivial⟩

/-- `date.fromisoformat(str(payload[k]))`. -/
def dateAt (py : Readers) (d : List (Text × Value)) (k : Text) : Option Date := do
  let t ← strAt py.toConversions d k
  Date.fromisoformat py.isoDate t

theorem dateAt_sorted (py : Readers) {d : JsonDict} {k : Text} {a : Date}
    (h : d.members.lookup k = some (.str a.isoformat)) :
    dateAt py d.sorted.members k = some a := by
  rw [dateAt, strAt_sorted _ h]
  exact a.read_isoformat _

/-- `PlanningInputs.from_dict`. -/
def PlanningInputs.fromDict (py : Readers) (d : List (Text × Value)) : Option PlanningInputs := do
  let planDate ← dateAt py d (lit "plan_date")
  let timezone ← strAt py.toConversions d (lit "timezone")
  let sourceStatuses ← dictsAt (PlanningSourceStatus.fromDict py.toConversions) d
    (lit "source_statuses")
  let warnings ← textsAt py.toConversions d (lit "warnings")
  let calendarEvents ← dictsAt (CalendarEvent.fromDict py) d (lit "calendar_events")
  let calendarTodos ← dictsAt (CalendarTodo.fromDict py) d (lit "calendar_todos")
  let githubIssues ← dictsAt (GitHubIssue.fromDict py.toConversions) d (lit "github_issues")
  let reminders ← dictsAt (ReminderItem.fromDict py.toConversions) d (lit "reminders")
  let githubPullRequests ← dictsAt (GitHubPullRequest.fromDict py.toConversions) d
    (lit "github_pull_requests")
  some ⟨planDate, timezone, sourceStatuses, warnings, calendarEvents, calendarTodos, githubIssues,
    reminders, githubPullRequests⟩

/-- The items came through their loaders. -/
structure PlanningInputs.Loaded (inputs : PlanningInputs) : Prop where
  events : ∀ event ∈ inputs.calendarEvents, event.itemUid ≠ []
  todos : ∀ todo ∈ inputs.calendarTodos, todo.itemUid ≠ []
  issues : ∀ issue ∈ inputs.githubIssues, issue.Loaded
  reminders : ∀ item ∈ inputs.reminders, item.Loaded
  pulls : ∀ pull ∈ inputs.githubPullRequests, pull.Loaded

theorem PlanningInputs.fromDict_toDict (py : Readers) {inputs : PlanningInputs}
    (h : inputs.Loaded) : fromDict py inputs.toDict.sorted.members = some inputs := by
  rw [fromDict, dateAt_sorted (a := inputs.planDate) py rfl,
    strAt_sorted (t := inputs.timezone) _ rfl,
    dictsAt_sorted (k := lit "source_statuses") rfl
      fun status _ => status.fromDict_toDict py.toConversions,
    textsAt_sorted (l := inputs.warnings) _ rfl,
    dictsAt_sorted (k := lit "calendar_events") rfl
      fun event he => CalendarEvent.fromDict_toDict py (h.events event he),
    dictsAt_sorted (k := lit "calendar_todos") rfl
      fun todo ht => CalendarTodo.fromDict_toDict py (h.todos todo ht),
    dictsAt_sorted (k := lit "github_issues") rfl
      fun issue hi => GitHubIssue.fromDict_toDict _ (h.issues issue hi),
    dictsAt_sorted (k := lit "reminders") rfl
      fun item hi => ReminderItem.fromDict_toDict _ (h.reminders item hi),
    dictsAt_sorted (k := lit "github_pull_requests") rfl
      fun pull hp => GitHubPullRequest.fromDict_toDict _ (h.pulls pull hp)]
  rfl

/-- `DailyPlan`. -/
structure DailyPlan where
  planDate : Date
  timezone : Text
  sourceStatuses : List PlanningSourceStatus
  warnings : List Text
  summary : DailyPlanSummary
  fixedSchedule : List PlanningTimeBlock
  executionBlocks : List PlanningExecutionBlock
  prioritizedTasks : List PlanningTaskCandidate
  suggestedTimeBlocks : List PlanningTimeBlock
  morningBriefing : Text
  timeBlockBriefings : List PlanningBlockBriefing
  checkpoints : List PlanningCheckpoint
  briefings : List PlanningScheduledBriefing
  codingAgentHandoff : List PlanningTaskCandidate
  discordBriefing : Text
  morningBriefingSource : Text
  discordBriefingSource : Text
deriving DecidableEq

/-- `DailyPlan.to_dict`. -/
def DailyPlan.toDict (plan : DailyPlan) : JsonDict where
  members :=
    [(lit "plan_date", .str plan.planDate.isoformat), (lit "timezone", .str plan.timezone),
      (lit "source_statuses", ofDicts (plan.sourceStatuses.map PlanningSourceStatus.toDict)),
      (lit "warnings", ofTexts plan.warnings), (lit "summary", .obj plan.summary.toDict.members),
      (lit "fixed_schedule", ofDicts (plan.fixedSchedule.map PlanningTimeBlock.toDict)),
      (lit "execution_blocks", ofDicts (plan.executionBlocks.map PlanningExecutionBlock.toDict)),
      (lit "prioritized_tasks", ofDicts (plan.prioritizedTasks.map PlanningTaskCandidate.toDict)),
      (lit "suggested_time_blocks", ofDicts (plan.suggestedTimeBlocks.map PlanningTimeBlock.toDict)),
      (lit "morning_briefing", .str plan.morningBriefing),
      (lit "time_block_briefings",
        ofDicts (plan.timeBlockBriefings.map PlanningBlockBriefing.toDict)),
      (lit "checkpoints", ofDicts (plan.checkpoints.map PlanningCheckpoint.toDict)),
      (lit "briefings", ofDicts (plan.briefings.map PlanningScheduledBriefing.toDict)),
      (lit "coding_agent_handoff",
        ofDicts (plan.codingAgentHandoff.map PlanningTaskCandidate.toDict)),
      (lit "discord_briefing", .str plan.discordBriefing),
      (lit "morning_briefing_source", .str plan.morningBriefingSource),
      (lit "discord_briefing_source", .str plan.discordBriefingSource)]
  valid := ⟨by simp only [List.map_cons, List.map_nil]; decide, trivial, trivial, valid_ofDicts _,
    valid_ofTexts _, plan.summary.toDict.valid, valid_ofDicts _, valid_ofDicts _, valid_ofDicts _,
    valid_ofDicts _, trivial, valid_ofDicts _, valid_ofDicts _, valid_ofDicts _, valid_ofDicts _,
    trivial, trivial, trivial, trivial⟩

/-- `DailyPlan.from_dict`. -/
def DailyPlan.fromDict (py : Readers) (d : List (Text × Value)) : Option DailyPlan := do
  let planDate ← dateAt py d (lit "plan_date")
  let timezone ← strAt py.toConversions d (lit "timezone")
  let sourceStatuses ← dictsAt (PlanningSourceStatus.fromDict py.toConversions) d
    (lit "source_statuses")
  let warnings ← textsAt py.toConversions d (lit "warnings")
  let summary ← (dictAt d (lit "summary")).bind (DailyPlanSummary.fromDict py.toConversions)
  let fixedSchedule ← dictsAt (PlanningTimeBlock.fromDict py.toConversions) d (lit "fixed_schedule")
  let executionBlocks ← dictsAt (PlanningExecutionBlock.fromDict py.toConversions) d
    (lit "execution_blocks")
  let prioritizedTasks ← dictsAt (PlanningTaskCandidate.fromDict py.toConversions) d
    (lit "prioritized_tasks")
  let suggestedTimeBlocks ← dictsAt (PlanningTimeBlock.fromDict py.toConversions) d
    (lit "suggested_time_blocks")
  let morningBriefing ← strAt py.toConversions d (lit "morning_briefing")
  let timeBlockBriefings ← dictsAt (PlanningBlockBriefing.fromDict py.toConversions) d
    (lit "time_block_briefings")
  let checkpoints ← dictsAt (PlanningCheckpoint.fromDict py.toConversions) d (lit "checkpoints")
  let briefings ← dictsAt (PlanningScheduledBriefing.fromDict py.toConversions) d (lit "briefings")
  let codingAgentHandoff ← dictsAt (PlanningTaskCandidate.fromDict py.toConversions) d
    (lit "coding_agent_handoff")
  let discordBriefing ← strAt py.toConversions d (lit "discord_briefing")
  let morningBriefingSource := strOr py.toConversions d (lit "morning_briefing_source") (lit "rules")
  let discordBriefingSource := strOr py.toConversions d (lit "discord_briefing_source") (lit "rules")
  some ⟨planDate, timezone, sourceStatuses, warnings, summary, fixedSchedule, executionBlocks,
    prioritizedTasks, suggestedTimeBlocks, morningBriefing, timeBlockBriefings, checkpoints,
    briefings, codingAgentHandoff, discordBriefing, morningBriefingSource, discordBriefingSource⟩

/-- What comes back: an empty kind or source is the default. -/
def DailyPlan.defaulted (plan : DailyPlan) : DailyPlan :=
  { plan with
    checkpoints := plan.checkpoints.map PlanningCheckpoint.defaulted
    briefings := plan.briefings.map PlanningScheduledBriefing.defaulted
    morningBriefingSource := orDefault (lit "rules") plan.morningBriefingSource
    discordBriefingSource := orDefault (lit "rules") plan.discordBriefingSource }

theorem DailyPlan.fromDict_toDict (py : Readers) (plan : DailyPlan) :
    fromDict py plan.toDict.sorted.members = some plan.defaulted := by
  have hsummary : (dictAt plan.toDict.sorted.members (lit "summary")).bind
      (DailyPlanSummary.fromDict py.toConversions) = some plan.summary := by
    rw [dictAt_sorted (e := plan.summary.toDict) rfl]
    exact plan.summary.fromDict_toDict _
  rw [fromDict, dateAt_sorted (a := plan.planDate) py rfl,
    strAt_sorted (t := plan.timezone) _ rfl,
    dictsAt_sorted (k := lit "source_statuses") rfl
      fun status _ => status.fromDict_toDict py.toConversions,
    textsAt_sorted (l := plan.warnings) _ rfl, hsummary,
    dictsAt_sorted (k := lit "fixed_schedule") rfl
      fun block _ => block.fromDict_toDict py.toConversions,
    dictsAt_sorted (k := lit "execution_blocks") rfl
      fun block _ => block.fromDict_toDict py.toConversions,
    dictsAt_sorted (k := lit "prioritized_tasks") rfl
      fun task _ => task.fromDict_toDict py.toConversions,
    dictsAt_sorted (k := lit "suggested_time_blocks") rfl
      fun block _ => block.fromDict_toDict py.toConversions,
    strAt_sorted (t := plan.morningBriefing) _ rfl,
    dictsAt_sorted (k := lit "time_block_briefings") rfl
      fun briefing _ => briefing.fromDict_toDict py.toConversions,
    dictsAt_sorted_map (k := lit "checkpoints") rfl
      fun checkpoint _ => checkpoint.fromDict_toDict py.toConversions,
    dictsAt_sorted_map (k := lit "briefings") rfl
      fun briefing _ => briefing.fromDict_toDict py.toConversions,
    dictsAt_sorted (k := lit "coding_agent_handoff") rfl
      fun task _ => task.fromDict_toDict py.toConversions,
    strAt_sorted (t := plan.discordBriefing) _ rfl,
    strOr_sorted (t := plan.morningBriefingSource) _ rfl,
    strOr_sorted (t := plan.discordBriefingSource) _ rfl]
  rfl

/-- The texts that have a default are not empty, as `build_daily_plan` makes them. -/
structure DailyPlan.Named (plan : DailyPlan) : Prop where
  kind : ∀ checkpoint ∈ plan.checkpoints, checkpoint.kind ≠ []
  source : ∀ briefing ∈ plan.briefings, briefing.source ≠ []
  morning : plan.morningBriefingSource ≠ []
  discord : plan.discordBriefingSource ≠ []

theorem DailyPlan.defaulted_of_named {plan : DailyPlan} (h : plan.Named) :
    plan.defaulted = plan := by
  have hcheckpoints : plan.checkpoints.map PlanningCheckpoint.defaulted = plan.checkpoints := by
    refine (List.map_congr_left fun checkpoint hc => ?_).trans (List.map_id' _)
    rw [PlanningCheckpoint.defaulted, orDefault, if_neg (h.kind checkpoint hc)]
  have hbriefings : plan.briefings.map PlanningScheduledBriefing.defaulted = plan.briefings := by
    refine (List.map_congr_left fun briefing hb => ?_).trans (List.map_id' _)
    rw [PlanningScheduledBriefing.defaulted, orDefault, if_neg (h.source briefing hb)]
  rw [DailyPlan.defaulted, hcheckpoints, hbriefings, orDefault, orDefault, if_neg h.morning,
    if_neg h.discord]

/-- `DailyPlanEnvelope`. -/
structure DailyPlanEnvelope where
  inputs : PlanningInputs
  dailyPlan : DailyPlan
deriving DecidableEq

/-- `DailyPlanEnvelope.to_dict`. -/
def DailyPlanEnvelope.toDict (envelope : DailyPlanEnvelope) : JsonDict where
  members :=
    [(lit "inputs", .obj envelope.inputs.toDict.members),
      (lit "daily_plan", .obj envelope.dailyPlan.toDict.members)]
  valid := ⟨by simp only [List.map_cons, List.map_nil]; decide, envelope.inputs.toDict.valid,
    envelope.dailyPlan.toDict.valid, trivial⟩

/-- `DailyPlanEnvelope.from_dict`. -/
def DailyPlanEnvelope.fromDict (py : Readers) (d : List (Text × Value)) :
    Option DailyPlanEnvelope := do
  let inputs ← (dictAt d (lit "inputs")).bind (PlanningInputs.fromDict py)
  let dailyPlan ← (dictAt d (lit "daily_plan")).bind (DailyPlan.fromDict py)
  some ⟨inputs, dailyPlan⟩

/-- What comes back of an envelope. -/
def DailyPlanEnvelope.defaulted (envelope : DailyPlanEnvelope) : DailyPlanEnvelope :=
  { envelope with dailyPlan := envelope.dailyPlan.defaulted }

/-- **The envelope is read back**, but for empty texts that have a default. -/
theorem DailyPlanEnvelope.fromDict_toDict (py : Readers) {envelope : DailyPlanEnvelope}
    (h : envelope.inputs.Loaded) :
    fromDict py envelope.toDict.sorted.members = some envelope.defaulted := by
  rw [fromDict, dictAt_sorted (e := envelope.inputs.toDict) rfl,
    dictAt_sorted (e := envelope.dailyPlan.toDict) rfl, Option.bind_some, Option.bind_some,
    PlanningInputs.fromDict_toDict py h, DailyPlan.fromDict_toDict]
  rfl

end ForgeKit.DayPlan
