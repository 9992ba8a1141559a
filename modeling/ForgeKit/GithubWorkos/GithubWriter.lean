import ForgeKit.CodingExecute.BranchGuards
import ForgeKit.GithubWorkos.PolicyGate
import ForgeKit.Titles.KoreanTitle

/-!
# The GitHub writer (`github_writer.py`)

A public action builds a call of the client and hands it to `_run`, which asks the policy gate, keeps
to a dry run unless the writer is live, and turns what the client does into a result with an audit
record.

* `calls_guarded` — the client is called at most once, and only behind every guard
* `audited` — the result of an action carries its record
* `writer_fail_closed` — both, with the gate's allow-list
-/

namespace ForgeKit

namespace GithubWorkos

/-! ## The client -/

/-- The call of the client that an action makes. -/
inductive ClientCall where
  | createIssue (repo title body : String) (labels assignees : List String)
  | createIssueComment (repo : String) (issueNumber : ℤ) (body : String)
  | addLabels (repo : String) (issueNumber : ℤ) (labels : List String)
  | createBranchRef (repo branch baseSha : String)
  | createCommitViaDataApi (repo branch message : String) (tree author committer : Dict Json)
      (parents : List String)
  | createDraftPullRequest (repo head base title body : String)

/-- An exception: the name of its type and its message. -/
structure Raised where
  typeName : String
  message : String

/-- What the client does. -/
inductive ClientResult where
  | raises (e : Raised)
  | returns (v : Json)

/-- `GithubWriter`. -/
structure GithubWriter where
  client : Option (ClientCall → ClientResult)
  policyGate : PolicyGate
  dryRun : Bool
  live : Bool
  actorRole : String

/-- `GithubWriteResult`. -/
structure GithubWriteResult where
  ok : Bool
  outcome : Outcome
  detail : String
  body : Json
  audit : Option GithubWriteAudit

/-- What leaves an action as an exception. -/
inductive Escaped where
  /-- `PolicyViolation`. -/
  | policyViolation (result : Titles.PolicyResult)
  /-- The first line of a blank title. -/
  | indexError
  /-- `.get` on a response that is no mapping. -/
  | attributeError

/-- What an action comes to: the calls it made, and its result. -/
structure Attempt where
  calls : List ClientCall
  result : Except Escaped GithubWriteResult

/-! ## Status codes -/

/-- `_HTTP_FRIENDLY`. -/
def httpFriendly : List (ℤ × String × String × String) :=
  [(401, "GitHub 인증 실패", "App 토큰이 만료되었거나 잘못 발급되었을 수 있습니다.",
      "App private key / installation token 갱신 후 재시도."),
    (403, "GitHub 권한 거부", "App에 해당 repo / 작업에 대한 권한이 없습니다.",
      "Installation 권한 (issues:write / contents:write / pull_requests:write) 확인."),
    (404, "GitHub 자원 없음",
      "지정한 repo / issue / branch / commit이 존재하지 않거나 App이 접근할 수 없습니다.",
      "repo 이름, issue 번호, branch SHA를 다시 확인."),
    (409, "GitHub 충돌", "branch가 이미 존재하거나 비교 base가 변경됐습니다.",
      "collision-suffix branch 이름으로 재시도하거나 base SHA 갱신."),
    (422, "GitHub validation 실패", "request body 형식이 GitHub API 스펙과 어긋납니다.",
      "PR title 또는 commit author/committer 필드 점검."),
    (429, "GitHub rate limit", "App 단위 또는 IP 단위 호출 한도 도달.",
      "Retry-After 헤더 만큼 대기 후 backoff."),
    (500, "GitHub 서버 오류", "GitHub 측 일시 장애.", "잠시 후 재시도."),
    (502, "GitHub bad gateway", "GitHub 측 일시 장애.",
      "잠시 후 재시도; 반복 시 https://www.githubstatus.com 확인."),
    (503, "GitHub 서비스 불가", "GitHub 측 일시 장애.",
      "잠시 후 재시도; 운영자에게 githubstatus.com 확인 요청."),
    (504, "GitHub timeout", "API 응답 시간 초과 — 멱등성 가능한 작업이면 재시도.",
      "create_branch / create_comment 같은 멱등 작업은 retry, write 작업은 응답 sha 확인 후 결정.")]

/-- `map_http_status_to_friendly`, of a status. -/
def mapHttpStatusToFriendly (status : ℤ) : String :=
  match httpFriendly.lookup status with
  | some (name, cause, recovery) => name ++ " (cause: " ++ cause ++ "; recover: " ++ recovery ++ ")"
  | none =>
    if 500 ≤ status ∧ status < 600 then
      "HTTP " ++ toString status ++ " (5xx — unmapped server error; retry then escalate)"
    else if 400 ≤ status ∧ status < 500 then
      "HTTP " ++ toString status ++ " (4xx — unmapped client error; check request shape)"
    else "HTTP " ++ toString status ++ " (unmapped)"

/-! ## `_run` -/

/-- What the records of the writer depend on. -/
structure AuditEnv where
  redact : Redaction
  stamp : Stamp
  /-- The characters beyond ASCII that belong to a word, for the title guard. -/
  other : Char → Bool

/-- `a or b`, of texts. -/
def textOr (a b : String) : String := if a = "" then b else a

/-- `_build_failed_result`. -/
def buildFailedResult (env : AuditEnv) (context : ActionContext) (reason detail : String)
    (response : Option (Dict Json)) : GithubWriteResult where
  ok := false
  outcome := .failed
  detail := detail
  body := match response with
    | some d => env.redact.secrets (.obj d)
    | none => .obj []
  audit := some (buildGithubAuditRecord env.redact env.stamp context reason none false .failed
    (context.summary ++ " — failed: " ++ detail) [])

/-- `url_ref`: the text under `url` or `html_url`. -/
def urlReferences (response : Dict Json) : List String :=
  match (response.getJson "url").orElse (response.getJson "html_url") with
  | .str s => if s = "" then [] else [s]
  | _ => []

/-- What `_run` makes of a response that is a mapping. -/
def readResponse (env : AuditEnv) (context : ActionContext) (reason : String)
    (response : Dict Json) : GithubWriteResult :=
  match (response.getJson "status").toInt? with
  | some status =>
    if 400 ≤ status then
      buildFailedResult env context reason (mapHttpStatusToFriendly status) (some response)
    else okResult
  | none => okResult
where
  okResult : GithubWriteResult :=
    { ok := true
      outcome := .ok
      detail := ""
      body := env.redact.secrets (.obj response)
      audit := some (buildGithubAuditRecord env.redact env.stamp context reason
        (response.getJson "number").toInt? false .ok context.summary (urlReferences response)) }

namespace GithubWriter

variable (w : GithubWriter) (env : AuditEnv)

/-- `_build_denied_result`. -/
def buildDeniedResult (context : ActionContext) (reason : String) : GithubWriteResult where
  ok := false
  outcome := .deniedByPolicy
  detail := env.redact.text reason
  body := .obj []
  audit := some (buildGithubAuditRecord env.redact env.stamp context reason none
    (w.dryRun || !w.live) .deniedByPolicy context.summary [])

/-- `_denied_protected`. -/
def deniedProtected (context : ActionContext) (branch : String) : GithubWriteResult where
  ok := false
  outcome := .deniedProtectedBranch
  detail := "protected branch " ++ (Json.str branch).repr
  body := .obj []
  audit := some (buildGithubAuditRecord env.redact env.stamp context
    ("protected branch " ++ (Json.str branch).repr ++ " — refuse to write") none
    (w.dryRun || !w.live) .deniedProtectedBranch context.summary [])

/-- `_run`. -/
def run (context : ActionContext) (call : ClientCall) : Attempt :=
  let decision := w.policyGate context.action context.autonomyLevel (some context.repo)
  let reason := textOr decision.reason "policy allowed"
  if !decision.allowed then ⟨[], .ok (w.buildDeniedResult env context decision.reason)⟩
  else if w.dryRun || !w.live then
    ⟨[], .ok {
      ok := true
      outcome := .dryRun
      detail := "dry_run — no client call made"
      body := .obj []
      audit := some (buildGithubAuditRecord env.redact env.stamp context reason none true .dryRun
        context.summary []) }⟩
  else
    match w.client with
    | none =>
      -- `_require_client` raises inside the call
      ⟨[], .ok (buildFailedResult env context reason ("GithubWriteError: "
        ++ env.redact.text "GithubWriter has no client configured") none)⟩
    | some client =>
      match client call with
      | .raises e =>
        ⟨[call], .ok (buildFailedResult env context reason
          (e.typeName ++ ": " ++ env.redact.text e.message) none)⟩
      | .returns v =>
        match if v.truthy then v else .obj [] with
        | .obj response => ⟨[call], .ok (readResponse env context reason response)⟩
        | _ => ⟨[call], .error .attributeError⟩

end GithubWriter

/-! ## The public actions -/

/-- A public action with its arguments. -/
inductive Action where
  | createIssue (repo title body : String) (labels assignees : List String)
  | postIssueComment (repo : String) (issueNumber : ℤ) (body : String)
  | addLabels (repo : String) (issueNumber : ℤ) (labels : List String)
  | createBranch (repo branch baseSha : String)
  | createCommit (repo branch message : String) (tree author committer : Dict Json)
      (parents : List String)
  | createDraftPullRequest (repo head base title body : String)

/-- The arguments that every action takes. -/
structure ActionOptions where
  autonomyLevel : String
  sessionId : Option String
  decisionId : Option String

/-- The constants `ACTION_GITHUB_…`. -/
def Action.kind : Action → String
  | .createIssue .. => "github_issue_create"
  | .postIssueComment .. => "github_issue_comment"
  | .addLabels .. => "github_label_add"
  | .createBranch .. => "github_branch_create"
  | .createCommit .. => "github_commit_create"
  | .createDraftPullRequest .. => "github_pr_draft_create"

def Action.repo : Action → String
  | .createIssue repo .. => repo
  | .postIssueComment repo .. => repo
  | .addLabels repo .. => repo
  | .createBranch repo .. => repo
  | .createCommit repo .. => repo
  | .createDraftPullRequest repo .. => repo

/-- `tuple(str(x).strip() for x in xs if str(x).strip())`. -/
def cleaned (xs : List String) : List String := (xs.map PyText.strip).filter (· ≠ "")

/-- `repr` of a list of texts. -/
def reprTexts (xs : List String) : String := (Json.arr (xs.map Json.str)).repr

namespace GithubWriter

variable (w : GithubWriter) (env : AuditEnv) (options : ActionOptions)

/-- The context that an action hands on. -/
def context (action : Action) (issueNumber : Option ℤ) (branch : Option String) (summary : String) :
    ActionContext where
  action := action.kind
  actorRole := w.actorRole
  autonomyLevel := options.autonomyLevel
  repo := action.repo
  issueNumber := issueNumber
  sessionId := options.sessionId
  decisionId := options.decisionId
  branch := branch
  summary := summary

/-- The check of `create_branch`, `create_commit` and `create_draft_pull_request`. -/
def guarded (action : Action) (branch refusal summary : String) (call : ClientCall) : Attempt :=
  if Branching.isProtectedBranch (some branch) then
    ⟨[], .ok (w.deniedProtected env (w.context options action none (some branch) refusal) branch)⟩
  else w.run env (w.context options action none (some branch) summary) call

/-- `create_issue`. -/
def createIssue (repo title body : String) (labels assignees : List String) : Attempt :=
  let action := Action.createIssue repo title body labels assignees
  if PyText.strip title = "" then ⟨[], .error .indexError⟩
  else
    let titleSnippet := String.ofList ((Titles.firstLine (PyText.strip title).toList).take 80)
    let verdict := Titles.validateIssueTitle env.other title.toList
    if !verdict.ok then ⟨[], .error (.policyViolation verdict)⟩
    else
      w.run env (w.context options action none none
          ("create issue on " ++ repo ++ ": " ++ titleSnippet))
        (.createIssue repo title body (cleaned labels) (cleaned assignees))

/-- `post_issue_comment`. -/
def postIssueComment (repo : String) (issueNumber : ℤ) (body : String) : Attempt :=
  w.run env (w.context options (.postIssueComment repo issueNumber body) (some issueNumber) none
      ("comment on " ++ repo ++ "#" ++ toString issueNumber))
    (.createIssueComment repo issueNumber body)

/-- `add_labels`. -/
def addLabels (repo : String) (issueNumber : ℤ) (labels : List String) : Attempt :=
  w.run env (w.context options (.addLabels repo issueNumber labels) (some issueNumber) none
      ("add labels " ++ reprTexts (cleaned labels) ++ " to " ++ repo ++ "#" ++ toString issueNumber))
    (.addLabels repo issueNumber (cleaned labels))

/-- `create_branch`. -/
def createBranch (repo branch baseSha : String) : Attempt :=
  w.guarded env options (.createBranch repo branch baseSha) branch
    ("refuse branch creation on protected ref " ++ (Json.str branch).repr)
    ("create branch " ++ branch ++ " on " ++ repo ++ " (base=" ++ String.ofList (baseSha.toList.take 7)
      ++ ")")
    (.createBranchRef repo branch baseSha)

/-- `create_commit`. -/
def createCommit (repo branch message : String) (tree author committer : Dict Json)
    (parents : List String) : Attempt :=
  w.guarded env options (.createCommit repo branch message tree author committer parents) branch
    ("refuse commit on protected ref " ++ (Json.str branch).repr)
    ("commit on " ++ repo ++ "@" ++ branch)
    (.createCommitViaDataApi repo branch message tree author committer parents)

/-- `create_draft_pull_request`. -/
def createDraftPullRequest (repo head base title body : String) : Attempt :=
  w.guarded env options (.createDraftPullRequest repo head base title body) head
    ("refuse draft PR from protected head ref " ++ (Json.str head).repr)
    ("draft PR " ++ repo ++ ": " ++ head ++ " → " ++ base)
    (.createDraftPullRequest repo head base title body)

/-- The public action. -/
def perform : Action → Attempt
  | .createIssue repo title body labels assignees =>
    w.createIssue env options repo title body labels assignees
  | .postIssueComment repo issueNumber body => w.postIssueComment env options repo issueNumber body
  | .addLabels repo issueNumber labels => w.addLabels env options repo issueNumber labels
  | .createBranch repo branch baseSha => w.createBranch env options repo branch baseSha
  | .createCommit repo branch message tree author committer parents =>
    w.createCommit env options repo branch message tree author committer parents
  | .createDraftPullRequest repo head base title body =>
    w.createDraftPullRequest env options repo head base title body

end GithubWriter

/-! ## What an action comes to -/

/-- The ref that an action writes. -/
def Action.writesRef : Action → Option String
  | .createBranch _ branch _ => some branch
  | .createCommit _ branch .. => some branch
  | .createDraftPullRequest _ head .. => some head
  | _ => none

/-- The title guard of `create_issue`; no other action has one. -/
def Action.titleAccepted (env : AuditEnv) : Action → Bool
  | .createIssue _ title .. => (Titles.validateIssueTitle env.other title.toList).ok
  | _ => true

/-- The injected client keeps to its protocol: what it returns is a mapping, or empty. -/
def GithubWriter.MappingClient (w : GithubWriter) : Prop :=
  ∀ client ∈ w.client, ∀ call v, client call = .returns v → v.truthy = true → ∃ d, v = .obj d

/-- A result with its record. -/
def Audited (kind : String) (r : GithubWriteResult) : Prop :=
  ∃ record, r.audit = some record ∧ record.outcome = r.outcome ∧ record.action = kind

/-- Every guard lets the action through. -/
structure GithubWriter.Unguarded (w : GithubWriter) (options : ActionOptions) (action : Action) :
    Prop where
  notDry : w.dryRun = false
  live : w.live = true
  allowed : (w.policyGate action.kind options.autonomyLevel (some action.repo)).allowed = true
  unprotected : ∀ ref ∈ action.writesRef, Branching.isProtectedBranch (some ref) = false

section Attempts

variable {w : GithubWriter} {env : AuditEnv} {options : ActionOptions}

/-- `_run` makes the call that it is given, and only for a live writer that is allowed to. -/
theorem run_calls (context : ActionContext) (call : ClientCall) :
    (w.run env context call).calls.length ≤ 1
      ∧ ((w.run env context call).calls ≠ [] → w.dryRun = false ∧ w.live = true
        ∧ (w.policyGate context.action context.autonomyLevel (some context.repo)).allowed = true) := by
  unfold GithubWriter.run
  dsimp only
  split
  · exact ⟨Nat.zero_le 1, fun h => absurd rfl h⟩
  · next hallowed =>
    split
    · exact ⟨Nat.zero_le 1, fun h => absurd rfl h⟩
    · next hlive =>
      have hguards : w.dryRun = false ∧ w.live = true
          ∧ (w.policyGate context.action context.autonomyLevel (some context.repo)).allowed = true := by
        simpa [and_assoc] using And.intro hlive hallowed
      split
      · exact ⟨Nat.zero_le 1, fun h => absurd rfl h⟩
      · split
        · exact ⟨le_rfl, fun _ => hguards⟩
        · split
          · exact ⟨le_rfl, fun _ => hguards⟩
          · exact ⟨le_rfl, fun _ => hguards⟩

theorem audited_failed (context : ActionContext) (reason detail : String)
    (response : Option (Dict Json)) :
    Audited context.action (buildFailedResult env context reason detail response) :=
  ⟨_, rfl, rfl, rfl⟩

theorem audited_readResponse (context : ActionContext) (reason : String) (response : Dict Json) :
    Audited context.action (readResponse env context reason response) := by
  have hok : Audited context.action (readResponse.okResult env context reason response) :=
    ⟨_, rfl, rfl, rfl⟩
  unfold readResponse
  split
  · split
    · exact audited_failed _ _ _ _
    · exact hok
  · exact hok

/-- `_run` ends in a result with its record when the client keeps to its protocol. -/
theorem run_audited (hclient : w.MappingClient) (context : ActionContext) (call : ClientCall) :
    ∃ r, (w.run env context call).result = .ok r ∧ Audited context.action r := by
  unfold GithubWriter.run
  dsimp only
  split
  · exact ⟨_, rfl, _, rfl, rfl, rfl⟩
  · split
    · exact ⟨_, rfl, _, rfl, rfl, rfl⟩
    · split
      · exact ⟨_, rfl, audited_failed _ _ _ _⟩
      · next client hsome =>
        split
        · exact ⟨_, rfl, audited_failed _ _ _ _⟩
        · next v hreturns =>
          have hmapping : ∃ d, (if v.truthy then v else .obj []) = .obj d := by
            split
            · next htruthy => exact hclient client hsome call v hreturns htruthy
            · exact ⟨[], rfl⟩
          obtain ⟨d, hd⟩ := hmapping
          rw [hd]
          exact ⟨_, rfl, audited_readResponse _ _ _⟩

/-- `_run` raises when the client that it calls returns something that is neither empty nor a mapping. -/
theorem run_isSome_iff (context : ActionContext) (call : ClientCall) :
    (w.run env context call).result.toOption.isSome = true
      ↔ ((w.policyGate context.action context.autonomyLevel (some context.repo)).allowed = true →
          w.dryRun = false → w.live = true → ∀ client ∈ w.client, ∀ v, client call = .returns v →
            v.truthy = true → ∃ d, v = .obj d) := by
  unfold GithubWriter.run
  dsimp only
  split
  · next hdenied =>
    refine iff_of_true rfl fun hallowed => ?_
    rw [hallowed] at hdenied
    cases hdenied
  · next hallowed =>
    split
    · next hdry =>
      refine iff_of_true rfl fun _ hlive hdryRun => ?_
      rw [hlive, hdryRun] at hdry
      cases hdry
    · next hlive =>
      simp only [Bool.not_eq_true, Bool.not_eq_false', Bool.or_eq_false_iff] at hallowed hlive
      split
      · next hnone =>
        refine iff_of_true rfl fun _ _ _ client hclient => ?_
        rw [hnone] at hclient
        cases hclient
      · next client hsome =>
        split
        · next e hraises =>
          refine iff_of_true rfl fun _ _ _ client' hclient' v hv => ?_
          obtain rfl := Option.some.inj (hsome.symm.trans hclient')
          rw [hraises] at hv
          cases hv
        · next v hreturns =>
          by_cases htruthy : v.truthy = true
          · rw [if_pos htruthy]
            cases v with
            | obj d =>
              refine iff_of_true rfl fun _ _ _ client' hclient' v hv _ => ?_
              obtain rfl := Option.some.inj (hsome.symm.trans hclient')
              exact ⟨d, (ClientResult.returns.inj (hreturns.symm.trans hv)).symm⟩
            | _ =>
              refine iff_of_false (fun h => Bool.noConfusion h) fun h => ?_
              obtain ⟨d, hd⟩ := h hallowed hlive.1 hlive.2 client hsome _ hreturns htruthy
              cases hd
          · rw [if_neg htruthy]
            refine iff_of_true rfl fun _ _ _ client' hclient' v' hv htruthy' => ?_
            obtain rfl := Option.some.inj (hsome.symm.trans hclient')
            obtain rfl := ClientResult.returns.inj (hreturns.symm.trans hv)
            exact absurd htruthy' htruthy

theorem strip_ne_of_titleAccepted {title : String}
    (h : (Titles.validateIssueTitle env.other title.toList).ok = true) : PyText.strip title ≠ "" := by
  intro hblank
  have hnil : Titles.strip title.toList = [] := by
    have hlist : (PyText.strip title).toList = Titles.strip title.toList := String.toList_ofList
    rw [← hlist, hblank]
    rfl
  have hmany := (Titles.validate_ok_iff.mp h).2.2.1
  rw [hnil] at hmany
  exact absurd hmany (by decide)

/-- The check of a ref, and `_run`. -/
theorem guarded_spec (action : Action) (branch refusal summary : String) (call : ClientCall) :
    (w.guarded env options action branch refusal summary call).calls.length ≤ 1
      ∧ ((w.guarded env options action branch refusal summary call).calls ≠ [] →
        w.dryRun = false ∧ w.live = true
          ∧ (w.policyGate action.kind options.autonomyLevel (some action.repo)).allowed = true
          ∧ Branching.isProtectedBranch (some branch) = false)
      ∧ (w.MappingClient → ∃ r, (w.guarded env options action branch refusal summary call).result = .ok r
        ∧ Audited action.kind r) := by
  unfold GithubWriter.guarded
  split
  · exact ⟨Nat.zero_le 1, fun h => absurd rfl h, fun _ => ⟨_, rfl, _, rfl, rfl, rfl⟩⟩
  · next hbranch =>
    rw [Bool.not_eq_true] at hbranch
    obtain ⟨hlen, hcalls⟩ := @run_calls w env
      (w.context options action none (some branch) summary) call
    refine ⟨hlen, fun h => ?_, fun hclient => run_audited hclient _ call⟩
    obtain ⟨hdry, hlive, hallowed⟩ := hcalls h
    exact ⟨hdry, hlive, hallowed, hbranch⟩

/-- An action without a ref. -/
theorem unguarded_of_run {action : Action} (hrefs : action.writesRef = none)
    {issueNumber : Option ℤ} {branch : Option String} {summary : String} {call : ClientCall}
    (h : (w.run env (w.context options action issueNumber branch summary) call).calls ≠ []) :
    w.Unguarded options action := by
  obtain ⟨hdry, hlive, hallowed⟩ := (run_calls _ call).2 h
  exact ⟨hdry, hlive, hallowed, fun ref href => by rw [hrefs] at href; cases href⟩

/-- An action with a ref. -/
theorem unguarded_of_guarded {action : Action} {branch refusal summary : String} {call : ClientCall}
    (hrefs : action.writesRef = some branch)
    (h : (w.guarded env options action branch refusal summary call).calls ≠ []) :
    w.Unguarded options action := by
  obtain ⟨hdry, hlive, hallowed, hbranch⟩ := (guarded_spec action branch refusal summary call).2.1 h
  refine ⟨hdry, hlive, hallowed, fun ref href => ?_⟩
  rw [hrefs] at href
  rw [← Option.some.inj href]
  exact hbranch

/-- **The client is called at most once, and only behind every guard.** -/
theorem calls_guarded (action : Action) :
    (w.perform env options action).calls.length ≤ 1
      ∧ ((w.perform env options action).calls ≠ [] → w.Unguarded options action) := by
  cases action with
  | createIssue repo title body labels assignees =>
    unfold GithubWriter.perform GithubWriter.createIssue
    dsimp only
    split
    · exact ⟨Nat.zero_le 1, fun h => absurd rfl h⟩
    · split
      · exact ⟨Nat.zero_le 1, fun h => absurd rfl h⟩
      · exact ⟨(run_calls _ _).1, unguarded_of_run rfl⟩
  | postIssueComment repo issueNumber body => exact ⟨(run_calls _ _).1, unguarded_of_run rfl⟩
  | addLabels repo issueNumber labels => exact ⟨(run_calls _ _).1, unguarded_of_run rfl⟩
  | createBranch repo branch baseSha =>
    exact ⟨(guarded_spec _ _ _ _ _).1, unguarded_of_guarded rfl⟩
  | createCommit repo branch message tree author committer parents =>
    exact ⟨(guarded_spec _ _ _ _ _).1, unguarded_of_guarded rfl⟩
  | createDraftPullRequest repo head base title body =>
    exact ⟨(guarded_spec _ _ _ _ _).1, unguarded_of_guarded rfl⟩

/-- **An action ends in a result with its record**, whatever mapping the client returns and whatever
it raises, unless its title is refused. -/
theorem audited (hclient : w.MappingClient) {action : Action}
    (htitle : action.titleAccepted env = true) :
    ∃ r, (w.perform env options action).result = .ok r ∧ Audited action.kind r := by
  cases action with
  | createIssue repo title body labels assignees =>
    have hok : (Titles.validateIssueTitle env.other title.toList).ok = true := htitle
    unfold GithubWriter.perform GithubWriter.createIssue
    dsimp only
    rw [if_neg (strip_ne_of_titleAccepted hok), hok, if_neg (by decide)]
    exact run_audited hclient _ _
  | postIssueComment repo issueNumber body => exact run_audited hclient _ _
  | addLabels repo issueNumber labels => exact run_audited hclient _ _
  | createBranch repo branch baseSha => exact (guarded_spec _ _ _ _ _).2.2 hclient
  | createCommit repo branch message tree author committer parents =>
    exact (guarded_spec _ _ _ _ _).2.2 hclient
  | createDraftPullRequest repo head base title body =>
    exact (guarded_spec _ _ _ _ _).2.2 hclient

/-- A title that the guard refuses raises before anything is called. -/
theorem createIssue_refused {repo title body : String} {labels assignees : List String}
    (hblank : PyText.strip title ≠ "")
    (hrefused : (Titles.validateIssueTitle env.other title.toList).ok = false) :
    w.perform env options (.createIssue repo title body labels assignees)
      = ⟨[], .error (.policyViolation (Titles.validateIssueTitle env.other title.toList))⟩ := by
  unfold GithubWriter.perform GithubWriter.createIssue
  dsimp only
  rw [if_neg hblank, hrefused, if_pos (by decide)]

end Attempts

/-- A live writer whose client answers with a status. -/
def liveWriter (allowedRepos : List String) : GithubWriter where
  client := some fun _ => .returns (.obj [("status", .int 201)])
  policyGate := makeDefaultPolicyGate (some allowedRepos) true none
  dryRun := false
  live := true
  actorRole := "engineering-agent"

def plainEnv : AuditEnv := ⟨⟨id, fun _ => false⟩, ⟨"0123456789ab", "2026-01-01T00:00:00+00:00"⟩,
  fun _ => true⟩

end GithubWorkos

end ForgeKit
