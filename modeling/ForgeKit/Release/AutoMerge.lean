import ForgeKit.Lib.Escalation
import ForgeKit.Lib.JsonRoundTrip
import ForgeKit.Lib.PyCase

/-!
# When a pull request is merged without a human (`release/auto_merge_decider.py`)

A pull request gets a risk class from its diff and its metadata, and eight conditions decide whether
it may be merged. A base branch is looked up by its name; below `refs/heads/` only by the last segment
of its name.

* `eligible_iff` — what a pull request that may be merged has
* `classifyRisk_mono`, `eligible_of_grows` — a snapshot with more in it is not judged more mildly
* `autoMerge_sound_iff` — for which base branches the decision is sound in every spelling
-/

namespace ForgeKit.Release

open Py (Text CodePoint lit strip lower upper ofChar isSpace)

/-! ## Classes and snapshots -/

inductive RiskClass where
  | low
  | medium
  | high
  | critical
deriving DecidableEq, Repr

namespace RiskClass

/-- `_CLASS_ORDER`. -/
def order : RiskClass → Nat
  | low => 0
  | medium => 1
  | high => 2
  | critical => 3

/-- The `value` of the class. -/
def value : RiskClass → Text
  | low => lit "LOW"
  | medium => lit "MEDIUM"
  | high => lit "HIGH"
  | critical => lit "CRITICAL"

theorem order_injective {r s : RiskClass} (h : r.order = s.order) : r = s := by
  cases r <;> cases s <;> first | rfl | exact absurd h (by decide)

end RiskClass

structure PrDiffSummary where
  filesChanged : Int := 0
  linesAdded : Int := 0
  linesRemoved : Int := 0
  modulesTouched : List Text := []
  hasSecretKeywords : Bool := false
  touchesProtectedBranchPolicy : Bool := false

/-- `total_lines`. -/
def PrDiffSummary.totalLines (diff : PrDiffSummary) : Int :=
  max 0 diff.linesAdded + max 0 diff.linesRemoved

structure PrMetadata where
  prNumber : Int := 0
  baseBranch : Text := []
  isDraft : Bool := false
  mergeable : Text := []
  mergeState : Text := []
  statusCheckState : Text := []
  labels : List Text := []

structure RiskSignal where
  name : Text
  weight : RiskClass
  evidence : Text

structure AutoMergeVerdict where
  eligible : Bool
  riskClass : RiskClass
  reason : Text
  blockerSignatures : List Text
  satisfiedConditions : List Text
  failedConditions : List Text

/-! ## Branches, modules and labels -/

/-- `PROTECTED_BRANCHES`. -/
def protectedBranches : List Text :=
  [lit "main", lit "master", lit "develop", lit "release", lit "prod", lit "production"]

/-- `_PROTECTED_BRANCH_PREFIXES`. -/
def protectedBranchPrefixes : List Text := [lit "release/", lit "hotfix/"]

def slash : CodePoint := ofChar '/'

def headsPrefix : Text := lit "refs/heads/"

/-- `candidate.rsplit("/", 1)[-1]`. -/
def lastSegment (candidate : Text) : Text := candidate.rtakeWhile (· ≠ slash)

/-- `_is_protected_branch`. -/
def isProtectedBranch (name : Text) : Bool :=
  if name = [] then false
  else
    let candidate := lower (strip name)
    if protectedBranches.contains candidate then true
    else if Py.startsWith candidate headsPrefix then
      let candidate := lastSegment candidate
      if protectedBranches.contains candidate then true
      else protectedBranchPrefixes.any fun start => Py.startsWith candidate start
    else protectedBranchPrefixes.any fun start => Py.startsWith candidate start

/-- `_HIGH_RISK_MODULE_PREFIXES`. -/
def highRiskModulePrefixes : List Text :=
  [lit "apps/engineering-agent/src/yule_engineering/agents/security/",
    lit "apps/engineering-agent/src/yule_engineering/agents/safety/",
    lit "policies/runtime/agents/engineering-agent/issue-pr-conventions"]

/-- `_LIVE_LLM_MODULE_PREFIXES`. -/
def liveLlmModulePrefixes : List Text :=
  [lit "apps/engineering-agent/src/yule_engineering/agents/job_queue/coding_executor_live",
    lit "apps/engineering-agent/src/yule_engineering/agents/job_queue/claude_subprocess_adapter"]

/-- `_module_matches`. -/
def moduleMatches (start module : Text) : Bool :=
  Py.startsWith ((strip module).dropWhile fun c => c = ofChar '.' ∨ c = slash) start

/-- A character of a token of a label, `[a-z0-9]`. -/
def isLabelChar (c : CodePoint) : Bool :=
  (0x61 ≤ c.val && c.val ≤ 0x7A) || (0x30 ≤ c.val && c.val ≤ 0x39)

/-- `_normalise_label`. -/
def normaliseLabel (label : Text) : Text :=
  let text := lower (strip label)
  let tokens := (text.splitOnP fun c => !isLabelChar c).filter (· ≠ [])
  tokens.getLast?.getD text

/-! ## The risk class -/

def largeDiffLinesThreshold : Int := 600

def mediumDiffLinesThreshold : Int := 150

def largeFilesThreshold : Int := 20

def mediumFilesThreshold : Int := 6

/-- `str` of an integer. -/
def strInt (n : Int) : Text := (JsonText.Number.ofInt n).word

variable (diff : PrDiffSummary) (metadata : PrMetadata)

def baseline : RiskSignal where
  name := lit "baseline.pr"
  weight := .low
  evidence := lit "pr=#" ++ strInt metadata.prNumber

/-- The base branch is protected. -/
def protectedBase : Option RiskSignal :=
  if isProtectedBranch (lower (strip metadata.baseBranch)) then
    some
      { name := lit "rule.protected_branch.base", weight := .high
        evidence := lit "base_branch=" ++ metadata.baseBranch }
  else none

def secretKeyword : Option RiskSignal :=
  if diff.hasSecretKeywords then
    some
      { name := lit "rule.secret.keyword", weight := .high
        evidence := lit "diff.has_secret_keywords=True" }
  else none

def policyEdit : Option RiskSignal :=
  if diff.touchesProtectedBranchPolicy then
    some
      { name := lit "rule.protected_branch.policy_edit", weight := .critical
        evidence := lit "diff.touches_protected_branch_policy=True" }
  else none

/-- The first prefix of the list that a module has. -/
def modulePrefix (name : Text) (starts : List Text) : Option RiskSignal :=
  (starts.find? fun start => diff.modulesTouched.any fun m => moduleMatches start (strip m)).map
    fun start => { name := name, weight := .high, evidence := lit "module_prefix=" ++ start }

/-- The size of the diff. -/
def diffSize : Option RiskSignal :=
  let totalLines := diff.totalLines
  let filesChanged := max 0 diff.filesChanged
  let evidence := lit "files=" ++ (strInt filesChanged ++ (lit ", lines=" ++ strInt totalLines))
  if largeDiffLinesThreshold ≤ totalLines ∨ largeFilesThreshold ≤ filesChanged then
    some { name := lit "rule.diff.large", weight := .medium, evidence := evidence }
  else if mediumDiffLinesThreshold ≤ totalLines ∨ mediumFilesThreshold ≤ filesChanged then
    some { name := lit "rule.diff.medium", weight := .medium, evidence := evidence }
  else none

/-- `label_set`. -/
def labelSet : List Text := (metadata.labels.filter (· ≠ [])).map normaliseLabel

/-- One of two labels is set. -/
def labelRule (signal : RiskSignal) (label label' : Text) : Option RiskSignal :=
  if (labelSet metadata).contains label || (labelSet metadata).contains label' then some signal
  else none

/-- The rules, in the order in which they fire. -/
def rules : List (Option RiskSignal) :=
  [protectedBase metadata, secretKeyword diff, policyEdit diff,
    modulePrefix diff (lit "rule.module.security_or_safety") highRiskModulePrefixes,
    modulePrefix diff (lit "rule.module.live_llm") liveLlmModulePrefixes, diffSize diff,
    labelRule metadata
      { name := lit "rule.label.security", weight := .high
        evidence := lit "labels contain security/secret" }
      (lit "security") (lit "secret"),
    labelRule metadata
      { name := lit "rule.label.deploy", weight := .critical
        evidence := lit "labels contain deploy/production" }
      (lit "deploy") (lit "production")]

/-- `classify_risk`. -/
def classifyRisk : RiskClass × List RiskSignal :=
  Escalation.classify RiskClass.order RiskSignal.weight (baseline metadata) (rules diff metadata)

/-! ## The eight conditions -/

/-- What the caller knows besides the snapshot. -/
structure Inputs where
  cycleAuthorized : Bool
  ciOk : Option Bool := none
  governanceOk : Option Bool := none
  pasteGuardClean : Option Bool := none
  acceptanceCriteriaReported : Option Bool := none
  forcePushDetected : Bool := false
  noVerifyDetected : Bool := false
  protectedBranchDirectPush : Bool := false

/-- One call of `_record`. -/
structure Condition where
  name : Text
  ok : Bool
  signature : Text

variable (inputs : Inputs)

/-- The state of the checks, as it is compared. -/
def checkState : Text := lower (strip metadata.statusCheckState)

def ciOkValue : Bool :=
  match inputs.ciOk with
  | none => checkState metadata == lit "success"
  | some ciOk => ciOk && [[], lit "success"].contains (checkState metadata)

def mergeableAndClean : Bool :=
  upper (strip metadata.mergeable) == lit "MERGEABLE" && upper (strip metadata.mergeState) == lit "CLEAN"
    && !metadata.isDraft

/-- The conditions, in the order in which they are recorded. -/
def conditions : List Condition :=
  let riskClass := (classifyRisk diff metadata).1
  let baseProtected := isProtectedBranch (lower (strip metadata.baseBranch))
  [{ name := lit "ci_regression_ok", ok := ciOkValue metadata inputs
     signature := lit "automerge.ci.regression_failed" },
    { name := lit "governance_regression_ok", ok := inputs.governanceOk.getD false
      signature := lit "automerge.governance.regression_failed" },
    { name := lit "mergeable_and_clean", ok := mergeableAndClean metadata
      signature := lit "automerge.merge_state.not_clean" },
    { name := lit "risk_class_low", ok := riskClass = .low
      signature := if riskClass = .high ∨ riskClass = .critical then
          lit "automerge.risk-class.high-without-approval"
        else lit "automerge.risk-class.not_low" },
    { name := lit "no_protected_branch_direct_push"
      ok := !inputs.protectedBranchDirectPush && !baseProtected
      signature := if baseProtected then lit "automerge.protected_branch.base"
        else lit "automerge.protected_branch.direct_push" },
    { name := lit "no_force_or_no_verify"
      ok := !inputs.forcePushDetected && !inputs.noVerifyDetected
      signature := if inputs.forcePushDetected then lit "automerge.force_push.detected"
        else lit "automerge.no_verify.detected" },
    { name := lit "paste_guard_clean", ok := inputs.pasteGuardClean.getD false
      signature := lit "automerge.paste_guard.secret_detected" },
    { name := lit "acceptance_criteria_reported", ok := inputs.acceptanceCriteriaReported.getD false
      signature := lit "automerge.acceptance.missing_report" }]

/-- `_build_reason`. -/
def buildReason (eligible : Bool) (riskClass : RiskClass) (failed : List Text) : Text :=
  if eligible then lit "all 8 conditions satisfied; risk_class=" ++ riskClass.value
  else if riskClass = .high ∨ riskClass = .critical then
    lit "blocked — risk_class=" ++ (riskClass.value ++ lit " requires operator approval")
  else if failed ≠ [] then lit "blocked — failed_conditions=" ++ (lit ",").intercalate failed
  else lit "blocked — risk_class=" ++ riskClass.value

/-- `evaluate_auto_merge`. -/
def evaluateAutoMerge : AutoMergeVerdict :=
  let riskClass := (classifyRisk diff metadata).1
  let recorded := conditions diff metadata inputs
  if inputs.cycleAuthorized = false then
    { eligible := false, riskClass := riskClass
      reason := lit "cycle not authorized — YULE_AUTOMERGE_CYCLE empty/false"
      blockerSignatures := [lit "automerge.cycle.not_authorized"], satisfiedConditions := []
      failedConditions := recorded.map (·.name) }
  else
    let failed := recorded.filter (!·.ok)
    let eligible := failed.isEmpty && riskClass = .low
    { eligible := eligible, riskClass := riskClass
      reason := buildReason eligible riskClass (failed.map (·.name))
      -- a signature is added once, where it is first reported
      blockerSignatures := (failed.map (·.signature)).eraseDups
      satisfiedConditions := (recorded.filter (·.ok)).map (·.name)
      failedConditions := failed.map (·.name) }

/-! ## What is eligible -/

/-- The eight documented conditions, each of them given. -/
structure Holds : Prop where
  /-- The result of the tests is given by the caller or by the state of the checks. -/
  ciGiven : inputs.ciOk ≠ none ∨ checkState metadata ≠ []
  ciFlag : inputs.ciOk ≠ some false
  ciState : checkState metadata ≠ [] → checkState metadata = lit "success"
  governance : inputs.governanceOk = some true
  mergeable : upper (strip metadata.mergeable) = lit "MERGEABLE"
  clean : upper (strip metadata.mergeState) = lit "CLEAN"
  notDraft : metadata.isDraft = false
  riskLow : (classifyRisk diff metadata).1 = .low
  noDirectPush : inputs.protectedBranchDirectPush = false
  noForcePush : inputs.forcePushDetected = false
  noNoVerify : inputs.noVerifyDetected = false
  pasteGuard : inputs.pasteGuardClean = some true
  acceptance : inputs.acceptanceCriteriaReported = some true

variable {diff metadata inputs}

theorem ciOkValue_iff : ciOkValue metadata inputs = true ↔
    (inputs.ciOk ≠ none ∨ checkState metadata ≠ []) ∧ inputs.ciOk ≠ some false
      ∧ (checkState metadata ≠ [] → checkState metadata = lit "success") := by
  unfold ciOkValue
  generalize checkState metadata = state
  have hsuccess : lit "success" ≠ [] := by decide
  cases inputs.ciOk with
  | none =>
    rw [beq_iff_eq]
    constructor
    · rintro rfl
      exact ⟨.inr hsuccess, Option.some_ne_none _ ∘ Eq.symm, fun _ => rfl⟩
    · rintro ⟨hgiven, -, hstate⟩
      exact hstate (hgiven.resolve_left fun h => h rfl)
  | some ciOk =>
    cases ciOk with
    | false => simp
    | true =>
      simp only [Bool.true_and, List.contains_iff_mem, List.mem_cons, List.not_mem_nil, or_false]
      constructor
      · rintro (rfl | rfl)
        · exact ⟨.inl (Option.some_ne_none _), by decide, fun h => absurd rfl h⟩
        · exact ⟨.inr hsuccess, by decide, fun _ => rfl⟩
      · rintro ⟨-, -, hstate⟩
        by_cases hnil : state = []
        · exact .inl hnil
        · exact .inr (hstate hnil)

theorem mergeableAndClean_iff : mergeableAndClean metadata = true ↔
    upper (strip metadata.mergeable) = lit "MERGEABLE"
      ∧ upper (strip metadata.mergeState) = lit "CLEAN" ∧ metadata.isDraft = false := by
  simp only [mergeableAndClean, Bool.and_eq_true, beq_iff_eq, Bool.not_eq_true', and_assoc]

/-- Every condition is recorded as met. -/
theorem conditions_ok_iff : (∀ c ∈ conditions diff metadata inputs, c.ok = true) ↔
    Holds diff metadata inputs ∧ isProtectedBranch (lower (strip metadata.baseBranch)) = false := by
  have hgiven : ∀ o : Option Bool, o.getD false = true ↔ o = some true := by decide
  simp only [conditions, List.forall_mem_cons, List.not_mem_nil, false_imp_iff, implies_true,
    and_true, ciOkValue_iff, mergeableAndClean_iff, hgiven, decide_eq_true_eq, Bool.and_eq_true,
    Bool.not_eq_true']
  constructor
  · rintro ⟨⟨hgiven, hflag, hstate⟩, hgovernance, ⟨hmergeable, hclean, hdraft⟩, hlow,
      ⟨hdirect, hbase⟩, ⟨hforce, hverify⟩, hpaste, hacceptance⟩
    exact ⟨⟨hgiven, hflag, hstate, hgovernance, hmergeable, hclean, hdraft, hlow, hdirect, hforce,
      hverify, hpaste, hacceptance⟩, hbase⟩
  · rintro ⟨h, hbase⟩
    exact ⟨⟨h.ciGiven, h.ciFlag, h.ciState⟩, h.governance, ⟨h.mergeable, h.clean, h.notDraft⟩,
      h.riskLow, ⟨h.noDirectPush, hbase⟩, ⟨h.noForcePush, h.noNoVerify⟩, h.pasteGuard, h.acceptance⟩

/-- **What is eligible has the eight conditions**, in an authorized cycle, and its base branch is not
one that the code calls protected. -/
theorem eligible_iff : (evaluateAutoMerge diff metadata inputs).eligible = true ↔
    inputs.cycleAuthorized = true ∧ Holds diff metadata inputs
      ∧ isProtectedBranch (lower (strip metadata.baseBranch)) = false := by
  rw [← conditions_ok_iff]
  unfold evaluateAutoMerge
  dsimp only
  split
  · next hcycle => simp [hcycle]
  · next hcycle =>
    rw [Bool.not_eq_false] at hcycle
    simp only [Bool.and_eq_true, List.isEmpty_iff, List.filter_eq_nil_iff, Bool.not_eq_true',
      Bool.not_eq_false, decide_eq_true_eq, hcycle, true_and, and_iff_left_iff_imp]
    exact fun hall => (conditions_ok_iff.mp hall).1.riskLow

/-! ## More in a snapshot -/

variable {diff' : PrDiffSummary} {labels labels' : List Text} {inputs' : Inputs}

/-- The second diff has no less of anything. -/
structure DiffGrows (diff diff' : PrDiffSummary) : Prop where
  files : diff.filesChanged ≤ diff'.filesChanged
  added : diff.linesAdded ≤ diff'.linesAdded
  removed : diff.linesRemoved ≤ diff'.linesRemoved
  modules : diff.modulesTouched ⊆ diff'.modulesTouched
  secrets : diff.hasSecretKeywords = true → diff'.hasSecretKeywords = true
  policy : diff.touchesProtectedBranchPolicy = true → diff'.touchesProtectedBranchPolicy = true

/-- The second inputs differ in risk flags that were raised. -/
structure InputsGrow (inputs inputs' : Inputs) : Prop where
  same : { inputs with
    forcePushDetected := inputs'.forcePushDetected
    noVerifyDetected := inputs'.noVerifyDetected
    protectedBranchDirectPush := inputs'.protectedBranchDirectPush } = inputs'
  force : inputs.forcePushDetected = true → inputs'.forcePushDetected = true
  noVerify : inputs.noVerifyDetected = true → inputs'.noVerifyDetected = true
  directPush : inputs.protectedBranchDirectPush = true → inputs'.protectedBranchDirectPush = true

theorem mem_rules {s : RiskSignal} : some s ∈ rules diff metadata ↔
    protectedBase metadata = some s ∨ secretKeyword diff = some s ∨ policyEdit diff = some s
      ∨ modulePrefix diff (lit "rule.module.security_or_safety") highRiskModulePrefixes = some s
      ∨ modulePrefix diff (lit "rule.module.live_llm") liveLlmModulePrefixes = some s
      ∨ diffSize diff = some s
      ∨ labelRule metadata
          { name := lit "rule.label.security", weight := .high
            evidence := lit "labels contain security/secret" }
          (lit "security") (lit "secret") = some s
      ∨ labelRule metadata
          { name := lit "rule.label.deploy", weight := .critical
            evidence := lit "labels contain deploy/production" }
          (lit "deploy") (lit "production") = some s := by
  simp only [rules, List.mem_cons, List.not_mem_nil, or_false, @eq_comm _ (some s)]

/-- A rule about modules fires for more modules as well, with the same weight. -/
theorem modulePrefix_of_grows (h : DiffGrows diff diff') {name : Text} {starts : List Text}
    {s : RiskSignal} (hs : modulePrefix diff name starts = some s) :
    ∃ s', modulePrefix diff' name starts = some s' ∧ s.weight.order ≤ s'.weight.order := by
  obtain ⟨start, hstart, rfl⟩ := Option.map_eq_some_iff.mp hs
  have hany := List.find?_some hstart
  obtain ⟨m, hm, hmatch⟩ := List.any_eq_true.mp hany
  have hfound : (starts.find? fun start =>
      diff'.modulesTouched.any fun m => moduleMatches start (strip m)).isSome = true := by
    rw [List.find?_isSome]
    exact ⟨start, List.mem_of_find?_eq_some hstart, List.any_eq_true.mpr ⟨m, h.modules hm, hmatch⟩⟩
  obtain ⟨start', hstart'⟩ := Option.isSome_iff_exists.mp hfound
  exact ⟨_, Option.map_eq_some_iff.mpr ⟨start', hstart', rfl⟩, Nat.le_refl _⟩

theorem diffSize_isSome_iff : (diffSize diff).isSome = true ↔
    mediumDiffLinesThreshold ≤ diff.totalLines ∨ mediumFilesThreshold ≤ max 0 diff.filesChanged := by
  unfold diffSize
  dsimp only
  split
  · next hlarge =>
    refine iff_of_true rfl (hlarge.imp ?_ ?_)
    · exact (show mediumDiffLinesThreshold ≤ largeDiffLinesThreshold by decide).trans
    · exact (show mediumFilesThreshold ≤ largeFilesThreshold by decide).trans
  · split
    · next hmedium => exact iff_of_true rfl hmedium
    · next hmedium => exact iff_of_false (by simp) hmedium

theorem weight_of_diffSize {s : RiskSignal} (h : diffSize diff = some s) : s.weight = .medium := by
  unfold diffSize at h
  dsimp only at h
  split at h
  · cases h
    rfl
  · obtain ⟨-, h⟩ := Option.ite_none_right_eq_some.mp h
    cases h
    rfl

theorem diffSize_of_grows (h : DiffGrows diff diff') {s : RiskSignal} (hs : diffSize diff = some s) :
    ∃ s', diffSize diff' = some s' ∧ s.weight.order ≤ s'.weight.order := by
  have hlines : diff.totalLines ≤ diff'.totalLines :=
    add_le_add (max_le_max (le_refl 0) h.added) (max_le_max (le_refl 0) h.removed)
  have hfiles : max 0 diff.filesChanged ≤ max 0 diff'.filesChanged :=
    max_le_max (le_refl 0) h.files
  have hsize := diffSize_isSome_iff.mp (Option.isSome_of_eq_some hs)
  obtain ⟨s', hs'⟩ := Option.isSome_iff_exists.mp
    (diffSize_isSome_iff.mpr (hsize.imp (fun h => h.trans hlines) fun h => h.trans hfiles))
  exact ⟨s', hs', by rw [weight_of_diffSize hs, weight_of_diffSize hs']⟩

theorem labelRule_of_subset (h : labels ⊆ labels') {signal s : RiskSignal} {label label' : Text}
    (hs : labelRule { metadata with labels := labels } signal label label' = some s) :
    labelRule { metadata with labels := labels' } signal label label' = some s := by
  have hset : ∀ l, (labelSet { metadata with labels := labels }).contains l = true →
      (labelSet { metadata with labels := labels' }).contains l = true := by
    intro l hl
    rw [List.contains_iff_mem] at hl ⊢
    exact List.map_subset _ (List.filter_subset _ h) hl
  unfold labelRule at hs ⊢
  rw [Option.ite_none_right_eq_some] at hs ⊢
  refine hs.imp_left fun hlabel => ?_
  rw [Bool.or_eq_true] at hlabel ⊢
  exact hlabel.imp (hset _) (hset _)

/-- **A snapshot with more in it is in no lower class.** -/
theorem classifyRisk_mono (metadata : PrMetadata) (h : DiffGrows diff diff') (hlabels : labels ⊆ labels') :
    (classifyRisk diff { metadata with labels := labels }).1.order
      ≤ (classifyRisk diff' { metadata with labels := labels' }).1.order := by
  refine Escalation.rank_classify_mono (Nat.le_refl _) fun s hs => ?_
  simp only [mem_rules] at hs ⊢
  rcases hs with hs | hs | hs | hs | hs | hs | hs | hs
  · exact ⟨s, .inl hs, Nat.le_refl _⟩
  · refine ⟨s, .inr (.inl ?_), Nat.le_refl _⟩
    unfold secretKeyword at hs ⊢
    rw [Option.ite_none_right_eq_some] at hs ⊢
    exact hs.imp_left h.secrets
  · refine ⟨s, .inr (.inr (.inl ?_)), Nat.le_refl _⟩
    unfold policyEdit at hs ⊢
    rw [Option.ite_none_right_eq_some] at hs ⊢
    exact hs.imp_left h.policy
  · obtain ⟨s', hs', hle⟩ := modulePrefix_of_grows h hs
    exact ⟨s', .inr (.inr (.inr (.inl hs'))), hle⟩
  · obtain ⟨s', hs', hle⟩ := modulePrefix_of_grows h hs
    exact ⟨s', .inr (.inr (.inr (.inr (.inl hs')))), hle⟩
  · obtain ⟨s', hs', hle⟩ := diffSize_of_grows h hs
    exact ⟨s', .inr (.inr (.inr (.inr (.inr (.inl hs'))))), hle⟩
  · exact ⟨s, .inr (.inr (.inr (.inr (.inr (.inr (.inl (labelRule_of_subset hlabels hs))))))),
      Nat.le_refl _⟩
  · exact ⟨s, .inr (.inr (.inr (.inr (.inr (.inr (.inr (labelRule_of_subset hlabels hs))))))),
      Nat.le_refl _⟩

/-- **What is not eligible does not become eligible by adding to it.** -/
theorem eligible_of_grows (metadata : PrMetadata) (h : DiffGrows diff diff') (hlabels : labels ⊆ labels')
    (hinputs : InputsGrow inputs inputs')
    (heligible : (evaluateAutoMerge diff' { metadata with labels := labels' } inputs').eligible
      = true) :
    (evaluateAutoMerge diff { metadata with labels := labels } inputs).eligible = true := by
  rw [eligible_iff] at heligible ⊢
  obtain ⟨hcycle, hholds, hbase⟩ := heligible
  obtain ⟨hsame, hforce, hverify, hdirect⟩ := hinputs
  have hflag : ∀ {a b : Bool}, (a = true → b = true) → b = false → a = false := by decide
  have hlow : (classifyRisk diff { metadata with labels := labels }).1 = .low := by
    have hle := classifyRisk_mono metadata h hlabels
    rw [hholds.riskLow] at hle
    exact RiskClass.order_injective (Nat.le_zero.mp hle)
  rw [← hsame] at hcycle hholds
  exact ⟨hcycle, ⟨hholds.ciGiven, hholds.ciFlag, hholds.ciState, hholds.governance, hholds.mergeable,
    hholds.clean, hholds.notDraft, hlow, hflag hdirect hholds.noDirectPush,
    hflag hforce hholds.noForcePush, hflag hverify hholds.noNoVerify, hholds.pasteGuard,
    hholds.acceptance⟩, hbase⟩

/-! ## Base branches -/

/-- A branch, as it is named below `refs/heads/`. -/
structure Branch where
  name : Text
  nonempty : name ≠ []
  noSpace : ∀ c ∈ name, isSpace c = false

namespace Branch

variable (b : Branch)

/-- The name as it is compared. -/
def key : Text := lower b.name

/-- The full name of the ref. -/
def ref : Text := headsPrefix ++ b.name

/-- The branch is one that is never merged into without a human. -/
def Protected : Prop :=
  b.key ∈ protectedBranches ∨ ∃ start ∈ protectedBranchPrefixes, start <+: b.key

/-- The last segment of the name is protected where the whole name is. -/
def SpelledAlike : Prop :=
  headsPrefix <+: b.key ∨ slash ∉ b.key
    ∨ ((∃ start ∈ protectedBranchPrefixes, start <+: b.key) ↔ lastSegment b.key ∈ protectedBranches)

/-- No protected branch is eligible, in neither spelling, and the spelling decides nothing. -/
def Sound : Prop :=
  ∀ (diff : PrDiffSummary) (metadata : PrMetadata) (inputs : Inputs),
    let named := { metadata with baseBranch := b.name }
    let spelled := { metadata with baseBranch := b.ref }
    ((evaluateAutoMerge diff named inputs).eligible = true → ¬b.Protected)
      ∧ ((evaluateAutoMerge diff spelled inputs).eligible = true → ¬b.Protected)
      ∧ (evaluateAutoMerge diff named inputs).eligible = (evaluateAutoMerge diff spelled inputs).eligible
      ∧ (classifyRisk diff named).1 = (classifyRisk diff spelled).1

end Branch

theorem lastSegment_of_not_mem {t : Text} (h : slash ∉ t) : lastSegment t = t := by
  refine List.rtakeWhile_eq_self_iff.mpr fun c hc => ?_
  exact decide_eq_true fun heq => h (heq ▸ hc)

theorem slash_notMem_lastSegment (t : Text) : slash ∉ lastSegment t := fun h => by
  simpa using List.mem_rtakeWhile_imp h

/-- What stands before a slash is not in the last segment. -/
theorem lastSegment_append {t u : Text} (ht : t.getLast? = some slash) :
    lastSegment (t ++ u) = lastSegment u := by
  obtain ⟨t, rfl⟩ := List.getLast?_eq_some_iff.mp ht
  unfold lastSegment List.rtakeWhile
  rw [List.reverse_append, List.reverse_append, List.takeWhile_append]
  split
  · next hall =>
    rw [List.reverse_singleton, List.singleton_append, List.takeWhile_cons_of_neg (by simp),
      List.append_nil]
    exact congrArg List.reverse (List.IsPrefix.eq_of_length (List.takeWhile_prefix _) hall).symm
  · rfl

theorem slash_notMem_of_protected {t : Text} (h : t ∈ protectedBranches) : slash ∉ t := by
  have hall : (protectedBranches.all fun u => !u.contains slash) = true := by decide
  simpa using List.all_eq_true.mp hall t h

/-- What starts as a release branch has a slash in it. -/
theorem slash_mem_of_start {start t : Text} (hstart : start ∈ protectedBranchPrefixes)
    (h : start <+: t) : slash ∈ t := by
  have hall : (protectedBranchPrefixes.all fun u => u.contains slash) = true := by decide
  exact h.subset (by simpa using List.all_eq_true.mp hall start hstart)

/-- No ref below `refs/heads/` starts as a release branch. -/
theorem not_start_of_heads {start t : Text} (hstart : start ∈ protectedBranchPrefixes)
    (hheads : headsPrefix <+: t) : ¬start <+: t := fun h => by
  have hall : (protectedBranchPrefixes.all fun u => !u.isPrefixOf headsPrefix
    && !headsPrefix.isPrefixOf u) = true := by decide
  have hneither := List.all_eq_true.mp hall start hstart
  simp only [Bool.and_eq_true, Bool.not_eq_true', ← Bool.not_eq_true, List.isPrefixOf_iff_prefix]
    at hneither
  exact (List.prefix_or_prefix_of_prefix h hheads).elim hneither.1 hneither.2

/-- **What the code calls protected**: a name of the list, a release branch, or a ref with a name of
the list as its last segment. -/
theorem isProtectedBranch_iff {t : Text} (hnil : t ≠ []) (hspace : ∀ c ∈ t, isSpace c = false) :
    isProtectedBranch (lower (strip t)) = true ↔
      lower t ∈ protectedBranches ∨ (∃ start ∈ protectedBranchPrefixes, start <+: lower t)
        ∨ (headsPrefix <+: lower t ∧ lastSegment (lower t) ∈ protectedBranches) := by
  have hlower : lower t ≠ [] := by
    obtain ⟨c, t, rfl⟩ := List.exists_cons_of_ne_nil hnil
    rcases Py.lowerCode_cases c with ⟨-, h⟩ | ⟨-, h⟩ | ⟨-, -, h⟩ | ⟨-, -, -, h⟩ <;>
      simp [lower, h]
  have hcandidate : lower (strip (lower (strip t))) = lower t := by
    rw [Py.strip_eq_self hspace, Py.strip_eq_self (Py.isSpace_lower hspace), Py.lower_lower]
  unfold isProtectedBranch
  dsimp only
  rw [hcandidate, Py.strip_eq_self hspace, if_neg hlower]
  simp only [List.contains_iff_mem, Py.startsWith, List.isPrefixOf_iff_prefix]
  split
  · next hmem => simp [hmem]
  · next hmem =>
    split
    · next hheads =>
      have hlast : ¬∃ start ∈ protectedBranchPrefixes, start <+: lastSegment (lower t) := by
        rintro ⟨start, hstart, h⟩
        exact slash_notMem_lastSegment _ (slash_mem_of_start hstart h)
      have hnone : ¬∃ start ∈ protectedBranchPrefixes, start <+: lower t := by
        rintro ⟨start, hstart, h⟩
        exact not_start_of_heads hstart hheads h
      split
      · next hlast' => simp [hheads, hlast']
      · next hlast' =>
        simp only [hmem, hnone, hlast', and_false, or_false]
        simpa using hlast
    · next hheads => simp [hmem, hheads]

namespace Branch

variable {b : Branch}

theorem noSpace_ref : ∀ c ∈ b.ref, isSpace c = false := by
  intro c hc
  have hheads : (headsPrefix.all fun c => !isSpace c) = true := by decide
  rcases List.mem_append.mp hc with hc | hc
  · simpa using List.all_eq_true.mp hheads c hc
  · exact b.noSpace c hc

/-- The name as the code looks it up. -/
def named (b : Branch) : Bool := isProtectedBranch (lower (strip b.name))

/-- The full name of the ref as the code looks it up. -/
def spelled (b : Branch) : Bool := isProtectedBranch (lower (strip b.ref))

theorem named_iff : b.named = true ↔
    b.Protected ∨ (headsPrefix <+: b.key ∧ lastSegment b.key ∈ protectedBranches) :=
  (isProtectedBranch_iff b.nonempty b.noSpace).trans or_assoc.symm

/-- Below `refs/heads/` only the last segment counts. -/
theorem spelled_iff : b.spelled = true ↔ lastSegment b.key ∈ protectedBranches := by
  have hlower : lower b.ref = headsPrefix ++ b.key := by
    show lower (headsPrefix ++ b.name) = _
    rw [Py.lower_append]
    rfl
  have hheads : headsPrefix <+: headsPrefix ++ b.key := List.prefix_append _ _
  have hmem : headsPrefix ++ b.key ∉ protectedBranches := fun h =>
    slash_notMem_of_protected h (hheads.subset (by decide))
  have hnone : ¬∃ start ∈ protectedBranchPrefixes, start <+: headsPrefix ++ b.key := by
    rintro ⟨start, hstart, h⟩
    exact not_start_of_heads hstart hheads h
  have hnil : b.ref ≠ [] := List.append_ne_nil_of_left_ne_nil (by simp [headsPrefix, lit]) _
  unfold spelled
  rw [isProtectedBranch_iff hnil noSpace_ref, hlower,
    lastSegment_append (by decide)]
  simp only [hmem, hnone, hheads, true_and, false_or]

/-- **The two spellings are looked up alike** for the branches that `SpelledAlike` describes. -/
theorem named_eq_spelled_iff : b.named = b.spelled ↔ b.SpelledAlike := by
  rw [Bool.eq_iff_iff, named_iff, spelled_iff, SpelledAlike, Protected]
  by_cases hheads : headsPrefix <+: b.key
  · have hnone : ¬∃ start ∈ protectedBranchPrefixes, start <+: b.key := by
      rintro ⟨start, hstart, h⟩
      exact not_start_of_heads hstart hheads h
    have hmem : b.key ∉ protectedBranches := fun h =>
      slash_notMem_of_protected h (hheads.subset (by decide))
    simp only [hheads, hnone, hmem, false_or, true_and, true_or, iff_self]
  · by_cases hslash : slash ∈ b.key
    · have hmem : b.key ∉ protectedBranches := fun h => slash_notMem_of_protected h hslash
      simp only [hheads, hslash, hmem, false_or, false_and, or_false, not_true]
    · have hnone : ¬∃ start ∈ protectedBranchPrefixes, start <+: b.key := by
        rintro ⟨start, hstart, h⟩
        exact hslash (slash_mem_of_start hstart h)
      simp only [hheads, hslash, hnone, lastSegment_of_not_mem hslash, false_and, or_false,
        not_false_eq_true, true_or, or_true, iff_self]

end Branch

/-! ## The decision for a base branch -/

variable {base base' : Text}

/-- The class depends on the base branch through its protection only. -/
theorem classifyRisk_congr
    (h : isProtectedBranch (lower (strip base)) = isProtectedBranch (lower (strip base'))) :
    (classifyRisk diff { metadata with baseBranch := base }).1
      = (classifyRisk diff { metadata with baseBranch := base' }).1 := by
  have hle : ∀ {base base' : Text},
      isProtectedBranch (lower (strip base)) = isProtectedBranch (lower (strip base')) →
        (classifyRisk diff { metadata with baseBranch := base }).1.order
          ≤ (classifyRisk diff { metadata with baseBranch := base' }).1.order := by
    intro base base' h
    refine Escalation.rank_classify_mono (Nat.le_refl _) fun s hs => ?_
    rw [mem_rules] at hs
    rcases hs with hs | hs
    · obtain ⟨hprotected, hs⟩ := Option.ite_none_right_eq_some.mp hs
      refine ⟨{ s with evidence := lit "base_branch=" ++ base' }, mem_rules.mpr (.inl ?_), Nat.le_refl _⟩
      obtain rfl := Option.some.inj hs
      exact if_pos (h.symm.trans hprotected)
    · exact ⟨s, mem_rules.mpr (.inr hs), Nat.le_refl _⟩
  exact RiskClass.order_injective (Nat.le_antisymm (hle h) (hle h.symm))

theorem eligible_congr
    (h : isProtectedBranch (lower (strip base)) = isProtectedBranch (lower (strip base'))) :
    (evaluateAutoMerge diff { metadata with baseBranch := base } inputs).eligible
      = (evaluateAutoMerge diff { metadata with baseBranch := base' } inputs).eligible := by
  have himp : ∀ {base base' : Text},
      isProtectedBranch (lower (strip base)) = isProtectedBranch (lower (strip base')) →
        (evaluateAutoMerge diff { metadata with baseBranch := base } inputs).eligible = true →
          (evaluateAutoMerge diff { metadata with baseBranch := base' } inputs).eligible = true := by
    intro base base' h heligible
    obtain ⟨hcycle, hholds, hbase⟩ := eligible_iff.mp heligible
    exact eligible_iff.mpr ⟨hcycle, { hholds with
      riskLow := (classifyRisk_congr h).symm.trans hholds.riskLow }, h.symm.trans hbase⟩
  exact Bool.eq_iff_iff.mpr ⟨himp h, himp h.symm⟩

/-- A pull request with nothing against it but its base branch. -/
def cleanMetadata (base : Text) : PrMetadata where
  baseBranch := base
  mergeable := lit "MERGEABLE"
  mergeState := lit "CLEAN"
  statusCheckState := lit "SUCCESS"

/-- Every input is given, and good. -/
def cleanInputs : Inputs where
  cycleAuthorized := true
  ciOk := some true
  governanceOk := some true
  pasteGuardClean := some true
  acceptanceCriteriaReported := some true

/-- The clean pull request is judged by its base branch alone. -/
theorem eligible_clean_iff (base : Text) :
    (evaluateAutoMerge {} (cleanMetadata base) cleanInputs).eligible = true ↔
      isProtectedBranch (lower (strip base)) = false := by
  rw [eligible_iff]
  constructor
  · exact fun h => h.2.2
  · intro h
    have hlow : (classifyRisk {} (cleanMetadata base)).1 = .low := by
      have hnone : protectedBase (cleanMetadata base) = none := by
        unfold protectedBase
        rw [if_neg (by rw [show (cleanMetadata base).baseBranch = base from rfl, h]; decide)]
      unfold classifyRisk rules
      rw [hnone]
      rfl
    exact ⟨rfl, ⟨.inl (by decide), by decide, fun _ => rfl, rfl, rfl, rfl, rfl, hlow, rfl, rfl, rfl, rfl,
      rfl⟩, h⟩

theorem Branch.sound_iff (b : Branch) : b.Sound ↔ b.SpelledAlike := by
  rw [← Branch.named_eq_spelled_iff]
  constructor
  · intro h
    obtain ⟨-, -, hsame, -⟩ := h {} (cleanMetadata []) cleanInputs
    have hnamed := eligible_clean_iff b.name
    have hspelled := eligible_clean_iff b.ref
    have hfalse : b.named = false ↔ b.spelled = false :=
      hnamed.symm.trans ((Bool.eq_iff_iff.mp hsame).trans hspelled)
    rw [Bool.eq_iff_iff, ← not_iff_not, Bool.not_eq_true, Bool.not_eq_true]
    exact hfalse
  · intro h diff metadata inputs
    have hsame : (evaluateAutoMerge diff { metadata with baseBranch := b.name } inputs).eligible
        = (evaluateAutoMerge diff { metadata with baseBranch := b.ref } inputs).eligible :=
      eligible_congr h
    have hnot : (evaluateAutoMerge diff { metadata with baseBranch := b.name } inputs).eligible = true →
        ¬b.Protected := fun heligible hprotected => by
      have hbase : b.named = false := (eligible_iff.mp heligible).2.2
      rw [Branch.named_iff.mpr (.inl hprotected)] at hbase
      cases hbase
    exact ⟨hnot, fun heligible => hnot (hsame.trans heligible), hsame, classifyRisk_congr h⟩

/-- **For which base branches eligibility is sound.** What is eligible has the eight conditions, and
more in a snapshot gives no lower class and no eligibility. A base branch is judged soundly, and alike
in both spellings, exactly when it is `SpelledAlike`. -/
theorem autoMerge_sound_iff (b : Branch) :
    (∀ (diff : PrDiffSummary) (metadata : PrMetadata) (inputs : Inputs),
      (evaluateAutoMerge diff metadata inputs).eligible = true →
        inputs.cycleAuthorized = true ∧ Holds diff metadata inputs
          ∧ isProtectedBranch (lower (strip metadata.baseBranch)) = false)
      ∧ (∀ (diff diff' : PrDiffSummary) (metadata : PrMetadata) (labels : List Text)
          (inputs inputs' : Inputs), DiffGrows diff diff' → metadata.labels ⊆ labels →
            InputsGrow inputs inputs' →
          (classifyRisk diff metadata).1.order
              ≤ (classifyRisk diff' { metadata with labels := labels }).1.order
            ∧ ((evaluateAutoMerge diff metadata inputs).eligible = false →
              (evaluateAutoMerge diff' { metadata with labels := labels } inputs').eligible = false))
      ∧ (b.Sound ↔ b.SpelledAlike) := by
  refine ⟨fun diff metadata inputs h => ?_, fun diff diff' metadata labels inputs inputs' h hlabels
    hinputs => ⟨classifyRisk_mono metadata h hlabels, fun hno => ?_⟩, b.sound_iff⟩
  · obtain ⟨hcycle, hholds, hbase⟩ := eligible_iff.mp h
    exact ⟨hcycle, hholds, hbase⟩
  · rw [← Bool.not_eq_true] at hno ⊢
    exact fun heligible => hno (eligible_of_grows metadata h hlabels hinputs heligible)

/-- A branch of a feature. -/
def featureBranch : Branch where
  name := lit "feature/rag"
  nonempty := by simp [lit]
  noSpace := by
    have hall : ((lit "feature/rag").all fun c => !isSpace c) = true := by decide
    exact fun c hc => by simpa using List.all_eq_true.mp hall c hc

/-- The clean pull request into a feature branch has the eight conditions, and the branch is judged
alike in both spellings. -/
theorem featureBranch_sound :
    Holds {} (cleanMetadata featureBranch.name) cleanInputs ∧ featureBranch.Sound := by
  obtain ⟨hholds, -, hsound⟩ := autoMerge_sound_iff featureBranch
  refine ⟨(hholds {} (cleanMetadata featureBranch.name) cleanInputs ?_).2.1,
    hsound.mpr (.inr (.inr (iff_of_false ?_ (by decide))))⟩
  · exact (eligible_clean_iff _).mpr (by decide)
  · rintro ⟨start, hstart, h⟩
    have hall : (protectedBranchPrefixes.all fun u => !u.isPrefixOf featureBranch.key) = true := by
      decide
    simpa [List.isPrefixOf_iff_prefix.mpr h] using List.all_eq_true.mp hall start hstart

/-- A branch of a release. -/
def releaseBranch : Branch where
  name := lit "release/2026-05"
  nonempty := by simp [lit]
  noSpace := by
    have hall : ((lit "release/2026-05").all fun c => !isSpace c) = true := by decide
    exact fun c hc => by simpa using List.all_eq_true.mp hall c hc

/-- **A pull request into `refs/heads/release/2026-05` is eligible**, while one into `release/2026-05`
is not. -/
theorem releaseBranch_eligible :
    releaseBranch.Protected
      ∧ (evaluateAutoMerge {} (cleanMetadata releaseBranch.ref) cleanInputs).eligible = true
      ∧ (evaluateAutoMerge {} (cleanMetadata releaseBranch.name) cleanInputs).eligible = false := by
  refine ⟨.inr ⟨lit "release/", by simp [protectedBranchPrefixes], ?_⟩,
    (eligible_clean_iff _).mpr (by decide), ?_⟩
  · exact List.isPrefixOf_iff_prefix.mp (by decide)
  · rw [← Bool.not_eq_true, eligible_clean_iff, Bool.not_eq_false]
    decide

end ForgeKit.Release
