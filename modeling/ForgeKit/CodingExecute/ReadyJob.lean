import ForgeKit.CodingExecute.SessionWriters
import ForgeKit.JobQueue.FollowupMarker

/-!
# Promoting a session twice (`work_order_coding_continuation.py`, `coding/job.py`)

A session with an issue is promoted once its proposal becomes a coding job that is ready. The worker,
the startup repair and the repair of stranded sessions all promote, each whenever it comes by.

* `promote_again` — what a second promotion with the same arguments does
* `followsAnchor_iff` — when a promotion is done once and follows its anchor
-/

namespace ForgeKit

namespace Continuation

/-! ## Proposals and jobs -/

/-- `CodingAuthorizationProposal`, as `proposal_from_dict` makes it. -/
structure CodingAuthorizationProposal where
  sessionId : Json
  userRequest : String
  executorRole : String
  reviewRoles : List Json
  participantRoles : List Json
  writeScope : List Json
  forbiddenScope : List Json
  reason : String
  safetyRules : List Json
  approvalRequired : Bool
  metadata : Dict Json
  lifecycleMode : String
  researchLeads : List Json

/-- `proposal_from_dict`; `none` is an exception. -/
def proposalFromDict (payload : Dict Json) : Option CodingAuthorizationProposal := do
  let lifecycleMode := payload.strOr "lifecycle_mode" "implementation"
  let reviewRoles ← (payload.getJson "review_roles").items?
  let participantRoles ← (payload.getJson "participant_roles").items?
  let writeScope ← (payload.getJson "write_scope").items?
  let forbiddenScope ← (payload.getJson "forbidden_scope").items?
  let safetyRules ← (payload.getJson "safety_rules").items?
  let metadata ← Followup.dictOf (payload.getJson "metadata")
  let researchLeads ← (payload.getJson "research_leads").items?
  some
    { sessionId := payload.getJson "session_id"
      userRequest := payload.strOr "user_request" ""
      executorRole := payload.strOr "executor_role"
        (if lifecycleMode = "research_only" then "" else "tech-lead")
      reviewRoles
      participantRoles
      writeScope
      forbiddenScope
      reason := payload.strOr "reason" ""
      safetyRules
      approvalRequired := WorkOrder.boolOrTrue payload "approval_required"
      metadata
      lifecycleMode
      researchLeads }

/-- What `load_role_profile` does. -/
inductive ProfileRead where
  | found (profile : Dict Json)
  | fileNotFound
  | raises

/-- The profile that a job is built with. -/
def ProfileRead.profile? : ProfileRead → Option (Dict Json)
  | found profile => some profile
  | fileNotFound => some []
  | raises => none

/-- What a promotion calls elsewhere. -/
structure JobEnv where
  /-- `recommend_authorization`, as `_rebuild_proposal_payload` serialises it. -/
  recommend : String → String → Option (Dict Json)
  loadRoleProfile : String → ProfileRead
  /-- `generate_executor_prompt`; `none` is an exception. -/
  executorPrompt : CodingAuthorizationProposal → Dict Json → Option String
  /-- `_coerce_dt(text).isoformat()` of a text that is not empty. -/
  coerceDt : String → Option String

/-- What the clock says to a call. -/
structure Clock where
  /-- `_now_iso(now)`. -/
  time : String
  time_ne : time ≠ ""
  createdAt : String

/-- `CodingJob`. -/
structure CodingJob where
  proposal : CodingAuthorizationProposal
  status : String
  generatedPrompt : String
  createdAt : String
  approvedAt : Option String
  roleDomainFocus : String

/-- `CodingJob.to_dict`. -/
def CodingJob.toDict (job : CodingJob) : Dict Json :=
  [("session_id", job.proposal.sessionId), ("user_request", .str job.proposal.userRequest),
   ("executor_role", .str job.proposal.executorRole), ("review_roles", .arr job.proposal.reviewRoles),
   ("participant_roles", .arr job.proposal.participantRoles),
   ("write_scope", .arr job.proposal.writeScope),
   ("forbidden_scope", .arr job.proposal.forbiddenScope),
   ("safety_rules", .arr job.proposal.safetyRules), ("reason", .str job.proposal.reason),
   ("status", .str job.status), ("generated_prompt", .str job.generatedPrompt),
   ("created_at", .str job.createdAt), ("approved_at", optText job.approvedAt),
   ("metadata", .obj [("proposal_metadata", .obj job.proposal.metadata),
     ("role_domain_focus", .str job.roleDomainFocus)])]

/-- `_coerce_dt(approved_at) or _coerce_dt(_now_iso(now))`. -/
def JobEnv.approvedAt (env : JobEnv) (clock : Clock) (approvedAt : String) : Option String :=
  (if approvedAt = "" then none else env.coerceDt approvedAt).or (env.coerceDt clock.time)

/-- `build_coding_job_from_proposal`, with the status `ready`. -/
def buildCodingJobFromProposal (env : JobEnv) (clock : Clock) (approvedAt : String)
    (proposal : CodingAuthorizationProposal) : Option CodingJob :=
  if proposal.lifecycleMode = "research_only" then none
  else do
    let profile ← (env.loadRoleProfile proposal.executorRole).profile?
    let prompt ← env.executorPrompt proposal profile
    some
      { proposal
        status := "ready"
        generatedPrompt := prompt
        createdAt := clock.createdAt
        approvedAt := env.approvedAt clock approvedAt
        roleDomainFocus := ((profile.get? "domain_focus").getD (.str "")).toStr }

/-- The calls of a promotion at a time. -/
def JobEnv.deps (env : JobEnv) (clock : Clock) (args : Args) : Deps where
  recommend := env.recommend
  buildJob payload := (proposalFromDict payload).bind fun proposal =>
    (buildCodingJobFromProposal env clock args.order.approvedAt proposal).map CodingJob.toDict

/-- `promote_session_to_coding_ready` at a time. -/
def promoteAt (env : JobEnv) (clock : Clock) (args : Args) (session : WorkflowSession) : Outcome :=
  promoteSessionToCodingReady (env.deps clock args) { args with time := clock.time } session

/-! ## What a promotion has to do -/

/-- `str(value)`, with nothing for an empty value. -/
def textOrNone : Option String → Json
  | some t => if t = "" then .null else .str t
  | none => .null

/-- The metadata of a job carries exactly the anchor of a call. -/
structure Carries (args : Args) (metadata : Dict Json) : Prop where
  repo : metadata.getJson "repo_full_name" = textOrNone args.order.repo
  issueNumber : (metadata.getJson "issue_number").toInt? = (args.anchor.getJson "issue_number").toInt?
  approvalId : metadata.getJson "approval_id" = textOrNone (some args.order.approvalId)
  dryRun : metadata.getJson "dry_run" = .bool args.order.dryRun

/-- The coding job is ready for exactly the anchor of a call. -/
def ReadyFor (args : Args) (extra : Dict Json) : Prop :=
  ∃ job metadata : Dict Json, extra.get? codingJobKey = some (.obj job) ∧
    PyText.lower (job.strOr "status" "") = "ready" ∧
    job.getJson "metadata" = .obj metadata ∧ Carries args metadata

/--
Two promotions with the same arguments, the second of the session that the first leaves. A job that
is said to be ready for the anchor already has to be ready for it.
-/
structure FollowsAnchor (env : JobEnv) (clock clock' : Clock) (args : Args)
    (session : WorkflowSession) : Prop where
  once : (promoteAt env clock' args
    { session with extra := (promoteAt env clock args session).newExtra }).promoted = false
  unchanged : (promoteAt env clock' args
    { session with extra := (promoteAt env clock args session).newExtra }).newExtra =
      (promoteAt env clock args session).newExtra
  ready : (promoteAt env clock args session).noopReason ∈
      [none, some "coding_job_already_ready_same_anchor"] →
    ReadyFor args (promoteAt env clock args session).newExtra

/-- The proposal that a promotion works with. -/
def proposalFor (deps : Deps) (session : WorkflowSession) : Option (Dict Json) :=
  (storedProposal session.extra).or
    (rebuildProposalPayload deps session.prompt session.sessionId)

/-- A job can be built from a proposal. -/
def Builds (env : JobEnv) (payload : Dict Json) : Prop :=
  ∃ proposal profile, proposalFromDict payload = some proposal ∧
    proposal.lifecycleMode ≠ "research_only" ∧
    (env.loadRoleProfile proposal.executorRole).profile? = some profile ∧
    (env.executorPrompt proposal profile).isSome = true

/-! ## Markers -/

/-- The marker is there, with a time and with these details. -/
def Marked (extra : Dict Json) (marker : String) (detail : Dict Json) : Prop :=
  ∃ (bucket : Dict Json) (time : Json), extra.get? progressKey = some (.obj bucket) ∧
    bucket.get? marker = some (.obj
      [("at", time), ("detail", .obj (detail.filter fun e => isNotNone e.2))]) ∧ time.truthy = true

theorem set_of_get? {β : Type*} {d : Dict β} {k : String} {v : β} (h : d.get? k = some v) :
    d.set k v = d := by
  induction d with
  | nil => cases h
  | cons e d ih =>
    obtain ⟨k', v'⟩ := e
    rw [Dict.get?] at h
    rw [Dict.set]
    split at h
    · next hk =>
      cases h
      rw [if_pos hk, hk]
    · next hk => rw [if_neg hk, ih h]

/-- The entry of a marker after it was made sure of. -/
theorem get?_ensureProgressMarker (extra : Dict Json) (marker time : String) (detail : Dict Json) :
    ∃ bucket : Dict Json,
      (ensureProgressMarker extra marker time detail).get? progressKey = some (.obj bucket) ∧
      (∃ first : Json, bucket.get? marker = some (.obj
        [("at", first), ("detail", .obj (detail.filter fun e => isNotNone e.2))]) ∧
        (time ≠ "" → first.truthy = true)) ∧
      ∀ marker', marker' ≠ marker → bucket.get? marker' =
        (((extra.getJson progressKey).obj?).getD []).get? marker' := by
  unfold ensureProgressMarker
  dsimp only
  refine ⟨_, Dict.get?_set_self _ _ _, ⟨_, Dict.get?_set_self _ _ _, fun htime => ?_⟩,
    fun marker' hne => Dict.get?_set_ne _ _ hne⟩
  have hstr : (Json.str time).truthy = true := by simpa [Json.truthy] using htime
  split
  · rw [Json.orElse]
    split
    · assumption
    · exact hstr
  · exact hstr

theorem marked_ensureProgressMarker {extra : Dict Json} {marker time : String} {detail : Dict Json}
    (htime : time ≠ "") :
    Marked (ensureProgressMarker extra marker time detail) marker detail := by
  obtain ⟨bucket, hbucket, ⟨first, hfirst, htruthy⟩, -⟩ :=
    get?_ensureProgressMarker extra marker time detail
  exact ⟨bucket, first, hbucket, hfirst, htruthy htime⟩

/-- A marker that is there stays as it is. -/
theorem ensureProgressMarker_of_marked {extra : Dict Json} {marker time : String}
    {detail : Dict Json} (h : Marked extra marker detail) :
    ensureProgressMarker extra marker time detail = extra := by
  obtain ⟨bucket, first, hbucket, hentry, htruthy⟩ := h
  have hprogress : extra.getJson progressKey = .obj bucket := by
    rw [Dict.getJson, hbucket, Option.getD_some]
  have hmarker : Dict.getJson bucket marker = .obj
      [("at", first), ("detail", .obj (detail.filter fun e => isNotNone e.2))] := by
    rw [Dict.getJson, hentry, Option.getD_some]
  have hat : (Dict.getJson [("at", first),
      ("detail", Json.obj (detail.filter fun e => isNotNone e.2))] "at").orElse (.str time) = first :=
    if_pos htruthy
  unfold ensureProgressMarker
  dsimp only
  rw [hprogress, Json.obj?, Option.getD_some, hmarker, Json.obj?]
  dsimp only
  rw [hat, set_of_get? hentry, set_of_get? hbucket]

theorem Marked.congr {extra extra' : Dict Json} {marker : String} {detail : Dict Json}
    (h : Marked extra marker detail) (hkey : extra'.get? progressKey = extra.get? progressKey) :
    Marked extra' marker detail := by
  obtain ⟨bucket, first, hbucket, hentry⟩ := h
  exact ⟨bucket, first, hkey.trans hbucket, hentry⟩

theorem Marked.ensureProgressMarker {extra : Dict Json} {marker marker' time : String}
    {detail detail' : Dict Json} (h : Marked extra marker detail) (hne : marker ≠ marker') :
    Marked (ensureProgressMarker extra marker' time detail') marker detail := by
  obtain ⟨bucket, first, hbucket, hentry, htruthy⟩ := h
  obtain ⟨bucket', hbucket', -, hother⟩ := get?_ensureProgressMarker extra marker' time detail'
  refine ⟨bucket', first, hbucket', ?_, htruthy⟩
  rw [hother marker hne, Dict.getJson, hbucket, Option.getD_some, Json.obj?, Option.getD_some, hentry]

/-! ## The parts of a promotion -/

/-- `anchor_issue_number`. -/
def issueOf (args : Args) : Option Int := (args.anchor.getJson "issue_number").toInt?

/-- The details of `issue_created`. -/
def issueDetail (args : Args) : Dict Json :=
  [("issue_number", optInt (issueOf args)), ("html_url", args.anchor.getJson "html_url"),
   ("created_via", args.anchor.getJson "created_via")]

/-- The proposal, with the `extra` that holds it. -/
def proposed (deps : Deps) (prompt sessionId : String) (extra : Dict Json) :
    Option (Dict Json × Dict Json) :=
  match storedProposal extra with
  | some stored => some (stored, extra)
  | none => (rebuildProposalPayload deps prompt sessionId).map fun rebuilt =>
    (rebuilt, extra.set codingProposalKey (.obj rebuilt))

/-- What comes of a proposal. -/
def finish (deps : Deps) (args : Args) (proposal extra : Dict Json) : Outcome :=
  if alreadyReady extra (issueOf args) then
    { promoted := false, codingJob := (extra.getJson codingJobKey).obj?, newExtra := extra
      noopReason := some "coding_job_already_ready_same_anchor" }
  else
    match deps.buildJob proposal with
    | none => { promoted := false, newExtra := extra, noopReason := some "coding_job_build_failed" }
    | some job =>
      { promoted := true, codingJob := some (withReadyJob args extra job).2
        newExtra := (withReadyJob args extra job).1 }

theorem finish_of_ready {deps : Deps} {args : Args} {proposal extra : Dict Json}
    (h : alreadyReady extra (issueOf args) = true) : finish deps args proposal extra =
      { promoted := false, codingJob := (extra.getJson codingJobKey).obj?, newExtra := extra
        noopReason := some "coding_job_already_ready_same_anchor" } := if_pos h

theorem finish_of_failed {deps : Deps} {args : Args} {proposal extra : Dict Json}
    (h : ¬alreadyReady extra (issueOf args) = true) (hbuild : deps.buildJob proposal = none) :
    finish deps args proposal extra =
      { promoted := false, newExtra := extra, noopReason := some "coding_job_build_failed" } := by
  rw [finish, if_neg h, hbuild]

theorem finish_of_built {deps : Deps} {args : Args} {proposal extra job : Dict Json}
    (h : ¬alreadyReady extra (issueOf args) = true) (hbuild : deps.buildJob proposal = some job) :
    finish deps args proposal extra =
      { promoted := true, codingJob := some (withReadyJob args extra job).2
        newExtra := (withReadyJob args extra job).1 } := by
  rw [finish, if_neg h, hbuild]

theorem promote_eq (deps : Deps) (args : Args) (session : WorkflowSession) :
    promoteSessionToCodingReady deps args session =
      match proposed deps session.prompt session.sessionId
        (ensureProgressMarker session.extra "issue_created" args.time (issueDetail args)) with
      | none =>
        { promoted := false
          newExtra := ensureProgressMarker session.extra "issue_created" args.time (issueDetail args)
          noopReason := some "no_coding_proposal" }
      | some (proposal, extra) => finish deps args proposal extra := by
  unfold promoteSessionToCodingReady
  rfl

variable {deps : Deps} {args : Args} {extra extra' proposal : Dict Json} {prompt sessionId : String}

/-- Where a proposal is held: an empty one is rebuilt each time. -/
structure Holds (deps : Deps) (prompt sessionId : String) (extra proposal : Dict Json) : Prop where
  held : extra.get? codingProposalKey = some (.obj proposal)
  empty : proposal.isEmpty = true → rebuildProposalPayload deps prompt sessionId = some proposal

theorem storedProposal_of_get? (h : extra.get? codingProposalKey = some (.obj proposal)) :
    storedProposal extra = if proposal.isEmpty then none else some proposal := by
  rw [storedProposal, Dict.getJson, h]
  rfl

theorem holds_of_proposed (h : proposed deps prompt sessionId extra = some (proposal, extra')) :
    Holds deps prompt sessionId extra' proposal ∧
      ∀ key, key ≠ codingProposalKey → extra'.get? key = extra.get? key := by
  unfold proposed at h
  cases hstored : storedProposal extra with
  | some stored =>
    rw [hstored] at h
    cases h
    obtain ⟨d, hd, hif⟩ := Option.bind_eq_some_iff.mp hstored
    split at hif
    · cases hif
    · next hne =>
      cases hif
      refine ⟨⟨?_, fun hempty => absurd hempty hne⟩, fun _ _ => rfl⟩
      rw [Dict.getJson] at hd
      cases hget : extra.get? codingProposalKey with
      | none =>
        rw [hget] at hd
        cases hd
      | some v =>
        rw [hget, Option.getD_some] at hd
        cases v <;> cases hd
        rfl
  | none =>
    rw [hstored] at h
    obtain ⟨rebuilt, hrebuilt, h⟩ := Option.map_eq_some_iff.mp h
    cases h
    exact ⟨⟨Dict.get?_set_self _ _ _, fun _ => hrebuilt⟩, fun key hkey => Dict.get?_set_ne _ _ hkey⟩

/-- A proposal that is held is found again. -/
theorem Holds.proposed (h : Holds deps prompt sessionId extra proposal) :
    proposed deps prompt sessionId extra = some (proposal, extra) := by
  unfold Continuation.proposed
  rw [storedProposal_of_get? h.held]
  by_cases hempty : proposal.isEmpty = true
  · rw [if_pos hempty, h.empty hempty]
    show some (proposal, extra.set codingProposalKey (.obj proposal)) = _
    rw [set_of_get? h.held]
  · rw [if_neg hempty]

theorem Holds.congr (h : Holds deps prompt sessionId extra proposal)
    (hkey : extra'.get? codingProposalKey = extra.get? codingProposalKey) :
    Holds deps prompt sessionId extra' proposal := ⟨hkey.trans h.held, h.empty⟩

theorem alreadyReady_congr {issueNumber : Option Int}
    (h : extra'.get? codingJobKey = extra.get? codingJobKey) :
    alreadyReady extra' issueNumber = alreadyReady extra issueNumber := by
  simp only [alreadyReady, Dict.getJson, h]

/-! ## The job that is built -/

theorem getJson_setText_ne {metadata : Dict Json} {key k : String} {value : Option String}
    (h : k ≠ key) : (setText metadata key value).getJson k = metadata.getJson k := by
  unfold setText
  split
  · split
    · rfl
    · exact Dict.getJson_set_ne _ _ h
  · rfl

theorem getJson_setText_self {metadata : Dict Json} {key : String} {value : Option String}
    (h : metadata.getJson key = .null) :
    (setText metadata key value).getJson key = textOrNone value := by
  cases value with
  | none => exact h
  | some text =>
    unfold setText textOrNone
    dsimp only
    split
    · exact h
    · exact Dict.getJson_set_self _ _ _

/-- The number of an issue, if there is one. -/
def setNumber (metadata : Dict Json) : Option Int → Dict Json
  | some n => metadata.set "issue_number" (.int n)
  | none => metadata

/-- The URL of an issue, if there is one. -/
def setUrl (metadata : Dict Json) (url : Json) : Dict Json :=
  if url.truthy then metadata.set "issue_url" (.str url.toStr) else metadata

theorem getJson_setUrl_ne {metadata : Dict Json} {url : Json} {key : String} (h : key ≠ "issue_url") :
    (setUrl metadata url).getJson key = metadata.getJson key := by
  unfold setUrl
  split
  · exact Dict.getJson_set_ne _ _ h
  · rfl

theorem getJson_setNumber_ne {metadata : Dict Json} {n : Option Int} {key : String}
    (h : key ≠ "issue_number") : (setNumber metadata n).getJson key = metadata.getJson key := by
  cases n with
  | none => rfl
  | some n => exact Dict.getJson_set_ne _ _ h

theorem toInt?_setNumber {metadata : Dict Json} {n : Option Int}
    (h : metadata.getJson "issue_number" = .null) :
    ((setNumber metadata n).getJson "issue_number").toInt? = n := by
  cases n with
  | none =>
    rw [setNumber, h]
    rfl
  | some n =>
    rw [setNumber, Dict.getJson_set_self]
    rfl

theorem stampedMetadata_eq (args : Args) (metadata : Dict Json) :
    stampedMetadata args metadata =
      (setText (setText (setText ((setText (setText
        (setUrl (setNumber metadata (issueOf args)) (args.anchor.getJson "html_url"))
        "repo_full_name" args.order.repo) "base_branch" args.order.baseBranch).set
        "dry_run" (.bool args.order.dryRun)) "approval_id" (some args.order.approvalId))
        "approved_by" (some args.order.approvedBy)) "approved_at" (some args.order.approvedAt)).set
        "github_work_order_anchor" (.obj args.anchor) := by
  unfold stampedMetadata setUrl issueOf
  cases (args.anchor.getJson "issue_number").toInt? <;> rfl

/-- **What is stamped on fresh metadata is exactly the anchor of the call.** -/
theorem carries_stampedMetadata {metadata : Dict Json}
    (hrepo : metadata.getJson "repo_full_name" = .null)
    (hissue : metadata.getJson "issue_number" = .null)
    (happroval : metadata.getJson "approval_id" = .null) :
    Carries args (stampedMetadata args metadata) := by
  rw [stampedMetadata_eq]
  constructor
  · rw [Dict.getJson_set_ne _ _ (by decide), getJson_setText_ne (by decide),
      getJson_setText_ne (by decide), getJson_setText_ne (by decide),
      Dict.getJson_set_ne _ _ (by decide), getJson_setText_ne (by decide), getJson_setText_self]
    rw [getJson_setUrl_ne (by decide), getJson_setNumber_ne (by decide), hrepo]
  · rw [Dict.getJson_set_ne _ _ (by decide), getJson_setText_ne (by decide),
      getJson_setText_ne (by decide), getJson_setText_ne (by decide),
      Dict.getJson_set_ne _ _ (by decide), getJson_setText_ne (by decide),
      getJson_setText_ne (by decide), getJson_setUrl_ne (by decide), toInt?_setNumber hissue]
    rfl
  · rw [Dict.getJson_set_ne _ _ (by decide), getJson_setText_ne (by decide),
      getJson_setText_ne (by decide), getJson_setText_self]
    rw [Dict.getJson_set_ne _ _ (by decide), getJson_setText_ne (by decide),
      getJson_setText_ne (by decide), getJson_setUrl_ne (by decide), getJson_setNumber_ne (by decide),
      happroval]
  · rw [Dict.getJson_set_ne _ _ (by decide), getJson_setText_ne (by decide),
      getJson_setText_ne (by decide), getJson_setText_ne (by decide), Dict.getJson_set_self]

variable {env : JobEnv} {clock clock' : Clock} {session : WorkflowSession} {job : Dict Json}

theorem buildCodingJob_eq_some_iff {approvedAt : String} {parsed : CodingAuthorizationProposal}
    {built : CodingJob} : buildCodingJobFromProposal env clock approvedAt parsed = some built ↔
      parsed.lifecycleMode ≠ "research_only" ∧ ∃ profile prompt,
        (env.loadRoleProfile parsed.executorRole).profile? = some profile ∧
        env.executorPrompt parsed profile = some prompt ∧
        built = { proposal := parsed, status := "ready", generatedPrompt := prompt
                  createdAt := clock.createdAt, approvedAt := env.approvedAt clock approvedAt
                  roleDomainFocus := ((profile.get? "domain_focus").getD (.str "")).toStr } := by
  unfold buildCodingJobFromProposal
  split
  · next h => simp [h]
  · next h =>
    simp only [Option.bind_eq_bind, Option.bind_eq_some_iff, Option.some.injEq, ne_eq, h,
      not_false_eq_true, true_and]
    constructor
    · rintro ⟨profile, hprofile, prompt, hprompt, rfl⟩
      exact ⟨profile, prompt, hprofile, hprompt, rfl⟩
    · rintro ⟨profile, prompt, hprofile, hprompt, rfl⟩
      exact ⟨profile, hprofile, prompt, hprompt, rfl⟩

theorem toDict_of_buildJob (h : (env.deps clock args).buildJob proposal = some job) :
    ∃ built : CodingJob, job = built.toDict ∧ built.status = "ready" := by
  obtain ⟨parsed, -, h⟩ := Option.bind_eq_some_iff.mp h
  obtain ⟨built, hbuilt, rfl⟩ := Option.map_eq_some_iff.mp h
  obtain ⟨-, profile, prompt, -, -, rfl⟩ := buildCodingJob_eq_some_iff.mp hbuilt
  exact ⟨_, rfl, rfl⟩

/-- Whether a job is built does not depend on the time. -/
theorem isSome_buildJob :
    ((env.deps clock args).buildJob proposal).isSome = true ↔ Builds env proposal := by
  rw [Option.isSome_iff_exists]
  constructor
  · rintro ⟨job, h⟩
    obtain ⟨parsed, hparsed, h⟩ := Option.bind_eq_some_iff.mp h
    obtain ⟨built, hbuilt, -⟩ := Option.map_eq_some_iff.mp h
    obtain ⟨hmode, profile, prompt, hprofile, hprompt, -⟩ := buildCodingJob_eq_some_iff.mp hbuilt
    exact ⟨parsed, profile, hparsed, hmode, hprofile, by rw [hprompt]; rfl⟩
  · rintro ⟨parsed, profile, hparsed, hmode, hprofile, hprompt⟩
    obtain ⟨prompt, hprompt⟩ := Option.isSome_iff_exists.mp hprompt
    have hbuilt : ∃ built,
        buildCodingJobFromProposal env clock args.order.approvedAt parsed = some built :=
      ⟨_, buildCodingJob_eq_some_iff.mpr ⟨hmode, profile, prompt, hprofile, hprompt, rfl⟩⟩
    obtain ⟨built, hbuilt⟩ := hbuilt
    exact ⟨built.toDict, Option.bind_eq_some_iff.mpr
      ⟨parsed, hparsed, Option.map_eq_some_iff.mpr ⟨built, hbuilt, rfl⟩⟩⟩

/-- **The job that is built is ready for exactly the anchor of the call.** -/
theorem readyFor_withReadyJob (h : (env.deps clock args).buildJob proposal = some job) :
    ReadyFor args (withReadyJob { args with time := clock.time } extra job).1 := by
  obtain ⟨built, rfl, hstatus⟩ := toDict_of_buildJob h
  have hready : (built.toDict.set "metadata" (.obj (stampedMetadata { args with time := clock.time }
      [("proposal_metadata", .obj built.proposal.metadata),
        ("role_domain_focus", .str built.roleDomainFocus)]))).get? "status" = some (.str "ready") := by
    rw [Dict.get?_set_ne _ _ (by decide), ← hstatus]
    rfl
  refine ⟨_, _, (ensureProgressMarker_get?_ne (by decide)).trans (Dict.get?_set_self _ _ _), ?_,
    Dict.getJson_set_self _ _ _, ?_⟩
  · have hstr := Dict.strOr_str_self hready
    exact (congrArg PyText.lower hstr).trans (by decide)
  · exact @carries_stampedMetadata args _ rfl rfl rfl

theorem alreadyReady_of_readyFor {n : Int} (h : ReadyFor args extra) (hissue : issueOf args = some n) :
    alreadyReady extra (some n) = true := by
  obtain ⟨job, metadata, hjob, hstatus, hmetadata, hcarries⟩ := h
  have htruthy : (Json.obj metadata).truthy = true := by
    cases metadata with
    | nil => cases hcarries.dryRun
    | cons e metadata => rfl
  have hnumber : (metadata.getJson "issue_number").toInt? = some n := hcarries.issueNumber.trans hissue
  rw [alreadyReady, Dict.getJson, hjob, Option.getD_some, Json.obj?]
  dsimp only
  rw [hstatus, hmetadata, Json.orElse, if_pos htruthy, Json.obj?, Option.bind_some, hnumber]
  simp

theorem readyFor_congr (h : extra'.get? codingJobKey = extra.get? codingJobKey) :
    ReadyFor args extra' ↔ ReadyFor args extra := by
  rw [ReadyFor, ReadyFor, h]

/-! ## The second promotion -/

/-- A session that holds its proposal and its marker is not changed before the job is looked at. -/
theorem promoteAt_of_settled (hmarked : Marked extra "issue_created" (issueDetail args))
    (hholds : Holds (env.deps clock args) session.prompt session.sessionId extra proposal)
    (clock' : Clock) :
    promoteAt env clock' args { session with extra := extra } =
      finish (env.deps clock' args) { args with time := clock'.time } proposal extra := by
  have hholds' : Holds (env.deps clock' args) session.prompt session.sessionId extra proposal :=
    ⟨hholds.held, hholds.empty⟩
  rw [promoteAt, promote_eq]
  have hsame : ensureProgressMarker extra "issue_created" clock'.time
      (issueDetail { args with time := clock'.time }) = extra :=
    ensureProgressMarker_of_marked hmarked
  dsimp only
  rw [hsame, hholds'.proposed]

theorem proposalFor_eq (deps : Deps) (session : WorkflowSession) (time : String)
    (detail : Dict Json) : proposalFor deps session =
      (proposed deps session.prompt session.sessionId
        (ensureProgressMarker session.extra "issue_created" time detail)).map Prod.fst := by
  rw [proposalFor, proposed, storedProposal_ensureProgressMarker]
  cases storedProposal session.extra with
  | some stored => rfl
  | none =>
    rw [Option.none_or, Option.map_map]
    exact Option.map_id'.symm

theorem alreadyReady_none (extra : Dict Json) : alreadyReady extra none = false := by
  unfold alreadyReady
  split
  · rfl
  · simp

/-- What the first promotion makes of the session, up to the job. -/
theorem promoteAt_first {marked : Dict Json}
    (hmarked : ensureProgressMarker session.extra "issue_created" clock.time (issueDetail args) =
      marked) :
    promoteAt env clock args session =
      match proposed (env.deps clock args) session.prompt session.sessionId marked with
      | none =>
        { promoted := false, newExtra := marked, noopReason := some "no_coding_proposal" }
      | some (proposal, extra) =>
        finish (env.deps clock args) { args with time := clock.time } proposal extra := by
  subst hmarked
  exact promote_eq (env.deps clock args) { args with time := clock.time } session

/-- What both promotions make of a session that holds its proposal. -/
theorem followsAnchor_of_first
    (hmarked : Marked extra "issue_created" (issueDetail args))
    (hholds : Holds (env.deps clock args) session.prompt session.sessionId extra proposal)
    (hfirst : promoteAt env clock args session =
      finish (env.deps clock args) { args with time := clock.time } proposal extra) :
    FollowsAnchor env clock clock' args session ↔
      (Builds env proposal → (issueOf args).isSome = true) ∧
        (alreadyReady extra (issueOf args) = true → ReadyFor args extra) := by
  have hagain := promoteAt_of_settled hmarked hholds clock'
  by_cases hready : alreadyReady extra (issueOf args) = true
  · -- nothing is built, and the session stays as it is
    have hnoop : ∀ c, finish (env.deps c args) { args with time := c.time } proposal extra =
        { promoted := false, codingJob := (extra.getJson codingJobKey).obj?, newExtra := extra
          noopReason := some "coding_job_already_ready_same_anchor" } := fun c =>
      finish_of_ready hready
    have hissue : (issueOf args).isSome = true := by
      cases hn : issueOf args with
      | some n => rfl
      | none =>
        rw [hn, alreadyReady_none] at hready
        cases hready
    rw [hnoop] at hfirst hagain
    constructor
    · intro h
      have hfor := h.ready (by rw [hfirst]; simp)
      rw [hfirst] at hfor
      exact ⟨fun _ => hissue, fun _ => hfor⟩
    · rintro ⟨-, hfor⟩
      refine ⟨?_, ?_, fun _ => ?_⟩
      · rw [hfirst, hagain]
      · rw [hfirst, hagain]
      · rw [hfirst]
        exact hfor hready
  · cases hbuild : (env.deps clock args).buildJob proposal with
    | none =>
      have hbuilds : ¬Builds env proposal := by
        intro h
        have hsome : ((env.deps clock args).buildJob proposal).isSome = true := isSome_buildJob.mpr h
        rw [hbuild] at hsome
        cases hsome
      have hfailed : ∀ c, finish (env.deps c args) { args with time := c.time } proposal extra =
          { promoted := false, newExtra := extra
            noopReason := some "coding_job_build_failed" } := fun c => by
        have hnone : (env.deps c args).buildJob proposal = none := by
          rw [← Option.not_isSome_iff_eq_none, isSome_buildJob]
          exact hbuilds
        exact finish_of_failed hready hnone
      rw [hfailed] at hfirst hagain
      refine iff_of_true ⟨?_, ?_, ?_⟩ ⟨fun h => absurd h hbuilds, fun h => absurd h hready⟩
      · rw [hfirst, hagain]
      · rw [hfirst, hagain]
      · rw [hfirst]
        simp
    | some job =>
      have hbuilds : Builds env proposal := isSome_buildJob.mp (by rw [hbuild]; rfl)
      have hfinish : finish (env.deps clock args) { args with time := clock.time } proposal extra =
          { promoted := true
            codingJob := some (withReadyJob { args with time := clock.time } extra job).2
            newExtra := (withReadyJob { args with time := clock.time } extra job).1 } :=
        finish_of_built hready hbuild
      have hfor := @readyFor_withReadyJob args extra _ _ _ _ hbuild
      rw [hfinish] at hfirst
      generalize (withReadyJob { args with time := clock.time } extra job).2 = stamped at hfirst
      generalize hextra' : (withReadyJob { args with time := clock.time } extra job).1 = extra'
        at hfirst hfor
      -- the session that the first promotion leaves is settled as well
      have hmarked' : Marked extra' "issue_created" (issueDetail args) := by
        rw [← hextra']
        exact (hmarked.congr (Dict.get?_set_ne _ _ (by decide))).ensureProgressMarker (by decide)
      have hholds' : Holds (env.deps clock args) session.prompt session.sessionId extra' proposal :=
        hholds.congr (by
          rw [← hextra']
          exact withReadyJob_get?_ne (by decide) (by decide))
      have hsecond := promoteAt_of_settled hmarked' hholds' clock'
      cases hissue : issueOf args with
      | some n =>
        have hready' : alreadyReady extra' (issueOf args) = true := by
          rw [hissue]
          exact alreadyReady_of_readyFor hfor hissue
        have hnoop : finish (env.deps clock' args) { args with time := clock'.time } proposal extra' =
            { promoted := false, codingJob := (extra'.getJson codingJobKey).obj?, newExtra := extra'
              noopReason := some "coding_job_already_ready_same_anchor" } :=
          finish_of_ready hready'
        rw [hnoop] at hsecond
        refine iff_of_true ⟨?_, ?_, fun _ => ?_⟩
          ⟨fun _ => rfl, fun h => absurd (hissue ▸ h) hready⟩
        · rw [hfirst, hsecond]
        · rw [hfirst, hsecond]
        · rw [hfirst]
          exact hfor
      | none =>
        -- without a number there is no job to compare with
        refine iff_of_false (fun h => ?_) fun h => nomatch h.1 hbuilds
        have hsome : ((env.deps clock' args).buildJob proposal).isSome = true :=
          isSome_buildJob.mpr hbuilds
        obtain ⟨job', hjob'⟩ := Option.isSome_iff_exists.mp hsome
        have hnot : ¬alreadyReady extra' (issueOf args) = true := by
          rw [hissue, alreadyReady_none]
          exact Bool.false_ne_true
        have hbuilt : finish (env.deps clock' args) { args with time := clock'.time } proposal extra' =
            { promoted := true
              codingJob := some (withReadyJob { args with time := clock'.time } extra' job').2
              newExtra := (withReadyJob { args with time := clock'.time } extra' job').1 } :=
          finish_of_built hnot hjob'
        have honce := h.once
        rw [hfirst, hsecond, hbuilt] at honce
        cases honce

/--
**A promotion is done once and follows its anchor if and only if** the anchor has the number of an
issue, unless no job can be built, and a job that is ready for that issue is ready for the whole
anchor.
-/
theorem followsAnchor_iff (env : JobEnv) (clock clock' : Clock) (args : Args)
    (session : WorkflowSession) :
    FollowsAnchor env clock clock' args session ↔
      ∀ proposal, proposalFor (env.deps clock args) session = some proposal →
        (Builds env proposal → (issueOf args).isSome = true) ∧
        (alreadyReady session.extra (issueOf args) = true → ReadyFor args session.extra) := by
  have hproposal := proposalFor_eq (env.deps clock args) session clock.time (issueDetail args)
  have hmarked := @marked_ensureProgressMarker session.extra "issue_created" clock.time
    (issueDetail args) clock.time_ne
  have hjob : (ensureProgressMarker session.extra "issue_created" clock.time
      (issueDetail args)).get? codingJobKey = session.extra.get? codingJobKey :=
    ensureProgressMarker_get?_ne (by decide)
  generalize hextra : ensureProgressMarker session.extra "issue_created" clock.time
    (issueDetail args) = marked at hproposal hmarked hjob
  have hfirst := @promoteAt_first args env _ _ _ hextra
  cases hprop : proposed (env.deps clock args) session.prompt session.sessionId marked with
  | none =>
    rw [hprop] at hproposal hfirst
    have hnone : proposed (env.deps clock' args) session.prompt session.sessionId marked = none := hprop
    have hagain : promoteAt env clock' args { session with extra := marked } =
        { promoted := false, newExtra := marked, noopReason := some "no_coding_proposal" } := by
      have hsame : ensureProgressMarker marked "issue_created" clock'.time (issueDetail args) =
        marked := ensureProgressMarker_of_marked hmarked
      have hsecond := @promoteAt_first args env _ { session with extra := marked } _ hsame
      rw [hnone] at hsecond
      exact hsecond
    refine iff_of_true ⟨?_, ?_, ?_⟩ fun proposal h => ?_
    · rw [hfirst, hagain]
    · rw [hfirst, hagain]
    · rw [hfirst]
      simp
    · rw [hproposal] at h
      cases h
  | some found =>
    obtain ⟨proposal, extra⟩ := found
    rw [hprop] at hproposal hfirst
    obtain ⟨hholds, hkeys⟩ := holds_of_proposed hprop
    have hmarked' := hmarked.congr (hkeys progressKey (by decide))
    have hjob' : extra.get? codingJobKey = session.extra.get? codingJobKey :=
      (hkeys codingJobKey (by decide)).trans hjob
    rw [followsAnchor_of_first hmarked' hholds hfirst, alreadyReady_congr hjob', readyFor_congr hjob',
      hproposal]
    exact ⟨fun h p hp => by cases hp; exact h, fun h => h proposal rfl⟩

/-- An anchor without the number of an issue, as a dry run leaves it: the second promotion builds the
job again. -/
theorem not_followsAnchor_dryRun :
    ¬∀ (env : JobEnv) (clock clock' : Clock) (args : Args) (session : WorkflowSession),
      FollowsAnchor env clock clock' args session := by
  intro h
  let env : JobEnv :=
    { recommend := fun _ _ => none, loadRoleProfile := fun _ => .fileNotFound
      executorPrompt := fun _ _ => some "", coerceDt := some }
  let clock : Clock := ⟨"2026-05-15T09:00:00+00:00", by decide, "2026-05-15T09:00:00+00:00"⟩
  let order : WorkOrder.GitHubWorkOrder :=
    { proposalId := "proposal-1", sessionId := "session-1", approvalId := "approval-1"
      approvedBy := "masterway", approvedAt := "2026-05-15T09:00:00+00:00"
      requestSummary := "로그인", repo := some "octo/app" }
  let args : Args :=
    { anchor := [("issue_number", .null), ("created_via", .str "dry_run_plan")], order, time := "" }
  let session : WorkflowSession :=
    { sessionId := "session-1"
      extra := [("coding_proposal", .obj [("executor_role", .str "backend-engineer")])] }
  have honce := (h env clock clock args session).once
  revert honce
  decide

end Continuation

end ForgeKit
