import ForgeKit.Lib.Json

/-!
# The default policy gate and the audit record (`github_writer.py`, `audit.py`)

The gate decides from the action, the autonomy level of the caller and the repository. Every
attempted action leaves one record. The regular expressions that find secrets in a text, and the
names of sensitive keys, are parameters; how they are applied to a payload is not.

* `gate_mono` — with an allow-list that has an entry, a larger list allows no less
-/

namespace ForgeKit

namespace GithubWorkos

/-- `PolicyGateDecision`. -/
structure PolicyGateDecision where
  allowed : Bool
  reason : String := ""
  autonomyLevel : String := ""

/-- `PolicyGate`: the action, the autonomy level and the repository. -/
abbrev PolicyGate := String → String → Option String → PolicyGateDecision

/-- `_AUTONOMY_RANK`. -/
def autonomyRanks : List (String × ℕ) := [("L0", 0), ("L1", 1), ("L2", 2), ("L3", 3), ("L4", 4)]

/-- `str.upper`, for the five levels: no character beyond ASCII has an upper case among theirs. -/
def upper (s : String) : String := String.ofList (s.toList.map Char.toUpper)

/-- `_autonomy_rank`. -/
def autonomyRank (level : String) : ℕ := (autonomyRanks.lookup (upper (PyText.strip level))).getD 0

/-- `_DEFAULT_MIN_AUTONOMY`. -/
def defaultMinAutonomy : List (String × String) :=
  [("github_issue_comment", "L1"), ("github_label_add", "L1"), ("github_branch_create", "L2"),
    ("github_commit_create", "L2"), ("github_pr_draft_create", "L2"), ("github_issue_create", "L2"),
    ("github_pr_ready", "L3"), ("github_push", "L3"), ("github_merge", "L3")]

/-- The allow-list as the gate keeps it; `none` is no restriction. -/
def cleanedRepos (allowedRepos : Option (List String)) : Option (List String) :=
  match allowedRepos with
  | none => none
  | some [] => none
  | some repos =>
    some ((repos.filter fun r => PyText.strip r ≠ "").map fun r => PyText.lower (PyText.strip r))

/-- The repository passes the allow-list. -/
def repoAllowed (repos : Option (List String)) (repo : Option String) : Bool :=
  match repos, repo with
  | none, _ => true
  | some _, none => false
  | some repos, some repo => repo ≠ "" && repos.contains (PyText.lower (PyText.strip repo))

/-- `repr` of an optional text. -/
def reprOpt (value : Option String) : String :=
  match value with
  | none => "None"
  | some s => (Json.str s).repr

/-- `make_default_policy_gate`. -/
def makeDefaultPolicyGate (allowedRepos : Option (List String)) (requireApprovalForL3 : Bool)
    (approvalToken : Option String) : PolicyGate := fun action autonomyLevel repo =>
  let action := PyText.strip action
  let level := upper (PyText.strip autonomyLevel)
  match defaultMinAutonomy.lookup action with
  | none =>
    { allowed := false, autonomyLevel := level
      reason := "unknown action " ++ (Json.str action).repr ++ "; default policy denies" }
  | some minRequired =>
    if !repoAllowed (cleanedRepos allowedRepos) repo then
      { allowed := false, autonomyLevel := level
        reason := "repo " ++ reprOpt repo ++ " not in allow-list" }
    else if autonomyRank level < autonomyRank minRequired then
      { allowed := false, autonomyLevel := level
        reason := "action " ++ action ++ " requires " ++ minRequired ++ ", caller has "
          ++ (if level = "" then "L0" else level) }
    else if requireApprovalForL3 && decide (autonomyRank "L3" ≤ autonomyRank level)
        && decide (PyText.strip (approvalToken.getD "") = "") then
      { allowed := false, autonomyLevel := level, reason := "L3+ action requires an approval token" }
    else
      { allowed := true, autonomyLevel := level, reason := "allowed (min=" ++ minRequired ++ ")" }

/-! ## What depends on the allow-list -/

/-- What the gate asks for apart from the repository. -/
def asksFor (requireApprovalForL3 : Bool) (approvalToken : Option String) (action level : String) :
    Bool :=
  match defaultMinAutonomy.lookup (PyText.strip action) with
  | none => false
  | some minRequired =>
    decide (autonomyRank minRequired ≤ autonomyRank (upper (PyText.strip level)))
      && !(requireApprovalForL3
        && decide (autonomyRank "L3" ≤ autonomyRank (upper (PyText.strip level)))
        && decide (PyText.strip (approvalToken.getD "") = ""))

variable {requireApprovalForL3 : Bool} {approvalToken : Option String}

/-- **The gate is the allow-list and what else it asks for.** -/
theorem gate_allowed_iff (allowedRepos : Option (List String)) (action level : String)
    (repo : Option String) :
    (makeDefaultPolicyGate allowedRepos requireApprovalForL3 approvalToken action level repo).allowed
        = true
      ↔ repoAllowed (cleanedRepos allowedRepos) repo = true
        ∧ asksFor requireApprovalForL3 approvalToken action level = true := by
  unfold makeDefaultPolicyGate asksFor
  dsimp only
  cases defaultMinAutonomy.lookup (PyText.strip action) with
  | none => simp
  | some minRequired =>
    dsimp only
    cases repoAllowed (cleanedRepos allowedRepos) repo with
    | false => simp
    | true =>
      rw [if_neg (by decide)]
      by_cases hrank : autonomyRank (upper (PyText.strip level)) < autonomyRank minRequired
      · rw [if_pos hrank]
        simp [not_le.mpr hrank]
      · rw [if_neg hrank, decide_eq_true (not_lt.mp hrank)]
        generalize (requireApprovalForL3
          && decide (autonomyRank "L3" ≤ autonomyRank (upper (PyText.strip level)))
          && decide (PyText.strip (approvalToken.getD "") = "")) = tokenMissing
        cases tokenMissing <;> simp

theorem repoAllowed_mono {repos repos' : List String} (hne : repos ≠ []) (hsub : repos ⊆ repos')
    {repo : Option String} (h : repoAllowed (cleanedRepos (some repos)) repo = true) :
    repoAllowed (cleanedRepos (some repos')) repo = true := by
  obtain ⟨r, rs, rfl⟩ := List.exists_cons_of_ne_nil hne
  obtain ⟨r', rs', rfl⟩ := List.exists_cons_of_ne_nil fun hnil : repos' = [] => by
    rw [hnil] at hsub
    cases hsub List.mem_cons_self
  cases repo with
  | none => exact h
  | some repo =>
    simp only [cleanedRepos, repoAllowed, Bool.and_eq_true, List.contains_iff_mem] at h ⊢
    obtain ⟨hrepo, hmem⟩ := h
    obtain ⟨entry, hentry, heq⟩ := List.mem_map.mp hmem
    obtain ⟨hin, hblank⟩ := List.mem_filter.mp hentry
    exact ⟨hrepo, List.mem_map.mpr ⟨entry, List.mem_filter.mpr ⟨hsub hin, hblank⟩, heq⟩⟩

/-- **A larger allow-list allows no less**, when the smaller one has an entry. -/
theorem gate_mono {repos repos' : List String} (hne : repos ≠ []) (hsub : repos ⊆ repos')
    {action level : String} {repo : Option String}
    (h : (makeDefaultPolicyGate (some repos) requireApprovalForL3 approvalToken action level
      repo).allowed = true) :
    (makeDefaultPolicyGate (some repos') requireApprovalForL3 approvalToken action level
      repo).allowed = true := by
  rw [gate_allowed_iff] at h ⊢
  exact ⟨repoAllowed_mono hne hsub h.1, h.2⟩

end GithubWorkos

end ForgeKit

namespace ForgeKit

namespace GithubWorkos

/-- How secrets are found. -/
structure Redaction where
  /-- `redact_secrets` on a text. -/
  text : String → String
  /-- `_is_sensitive_key`. -/
  isSensitiveKey : String → Bool

namespace Redaction

variable (redact : Redaction)

mutual

/-- `redact_secrets`. -/
def secrets : Json → Json
  | .str s => .str (redact.text s)
  | .obj d => .obj (members d)
  | .arr xs => .arr (items xs)
  | .null => .null
  | .bool b => .bool b
  | .int n => .int n
  | .float q => .float q

def items : List Json → List Json
  | [] => []
  | x :: xs => secrets x :: items xs

def members : List (String × Json) → List (String × Json)
  | [] => []
  | (k, v) :: d => (k, if redact.isSensitiveKey k then .str "<redacted>" else secrets v) :: members d

end

end Redaction

/-- The outcomes of an attempted action. -/
inductive Outcome where
  | dryRun
  | ok
  | deniedByPolicy
  | deniedProtectedBranch
  | failed
deriving DecidableEq, Repr

def Outcome.value : Outcome → String
  | .dryRun => "dry_run"
  | .ok => "ok"
  | .deniedByPolicy => "denied_by_policy"
  | .deniedProtectedBranch => "denied_protected_branch"
  | .failed => "failed"

/-- `GithubWriteAudit`, without `job_id`, which the writer leaves empty. -/
structure GithubWriteAudit where
  entryId : String
  action : String
  actorRole : String
  autonomyLevel : String
  policyReason : String
  targetRepo : Option String
  issueNumber : Option ℤ
  sessionId : Option String
  prNumber : Option ℤ
  branch : Option String
  dryRun : Bool
  outcome : Outcome
  summary : String
  references : List String
  decisionId : Option String
  actor : String
  recordedAt : String

/-- `_optional_str`. -/
def optionalStr (value : Option String) : Option String :=
  value.bind fun text => if PyText.strip text = "" then none else some (PyText.strip text)

/-- The new id and the time of a record. -/
structure Stamp where
  entryId : String
  recordedAt : String

/-- What the records of one action have in common. -/
structure ActionContext where
  action : String
  actorRole : String
  autonomyLevel : String
  repo : String
  issueNumber : Option ℤ
  sessionId : Option String
  decisionId : Option String
  branch : Option String
  summary : String

/-- `build_github_audit_record`. -/
def buildGithubAuditRecord (redact : Redaction) (stamp : Stamp) (context : ActionContext)
    (policyReason : String) (prNumber : Option ℤ) (dryRun : Bool) (outcome : Outcome)
    (summary : String) (references : List String) : GithubWriteAudit where
  entryId := stamp.entryId
  action := context.action
  actorRole := context.actorRole
  autonomyLevel := context.autonomyLevel
  policyReason := redact.text policyReason
  targetRepo := optionalStr (some context.repo)
  issueNumber := context.issueNumber
  sessionId := optionalStr context.sessionId
  prNumber := prNumber
  branch := optionalStr context.branch
  dryRun := dryRun
  outcome := outcome
  summary := redact.text summary
  references := (references.filter fun r => PyText.strip r ≠ "").map redact.text
  decisionId := optionalStr context.decisionId
  actor := "github-agent-workos"
  recordedAt := stamp.recordedAt

end GithubWorkos

end ForgeKit
