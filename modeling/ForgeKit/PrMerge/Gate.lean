import ForgeKit.Lib.Json

/-!
# The merge gate (`pr_approval.py`)

`evaluateMergeGate` is the last check before a pull request is merged: five steps over the
proposal of the approval card and a fresh snapshot, the first failing one named in the result.

* `evaluateMergeGate_allowed` — what the five steps check
* `gate_sound_iff` — when an allowed merge meets the five documented conditions: the fourth step
  never looks at the names of the required checks, and the fifth one passes an empty sha
-/

namespace ForgeKit

/-- What is known of a pull request when its approval card is written. -/
structure PRMergeProposal where
  repo : String
  prNumber : Int
  prTitle : String := ""
  prUrl : String
  headSha : String
  baseBranch : String
  draft : Bool
  mergeableState : String
  summaryMd : String := ""
  scopeLabels : List String := []
  risk : String := "UNKNOWN"
  checkRunsSummary : String := ""
  branchProtectionSummary : String := ""
  bodyExcerpt : String := ""
  requestedBy : String := ""
  extra : Dict Json := []

/-- The pull request, its check runs and the branch protection at gate time. -/
structure PRMergeStatusSnapshot where
  draft : Bool
  mergeable : Option Bool
  mergeableState : String
  headSha : String
  checkConclusions : List String
  requiredStatusChecks : List String := []
  requiredApprovingReviews : Int := 0
  actualApprovingReviews : Int := 0
  branchProtectionAvailable : Bool := true

namespace MergeGate

/-- `_GATE_STEPS`. -/
inductive Step where
  | draft
  | mergeable
  | checksGreen
  | branchProtection
  | shaRace
deriving DecidableEq, Repr

def Step.value : Step → String
  | draft => "draft"
  | mergeable => "mergeable"
  | checksGreen => "checks_green"
  | branchProtection => "branch_protection"
  | shaRace => "sha_race"

/-- `PRMergeGateResult`. -/
structure Result where
  allowed : Bool
  failedStep : Option Step := none
  reason : String := ""
  checksSummary : String := ""
deriving DecidableEq, Repr

/-- The conclusions that do not hold up a merge. -/
def greenConclusions : List String := ["success", "neutral", "skipped"]

def isGreen (conclusion : String) : Bool := greenConclusions.contains (PyText.lower conclusion)

/-- `", ".join(sorted(set(xs)))`. -/
def joinSorted (xs : List String) : String :=
  ", ".intercalate (xs.dedup.mergeSort fun a b => decide (a ≤ b))

/-- `sha[:7]`. -/
def shortSha (sha : String) : String := String.ofList (sha.toList.take 7)

/-- The fifth step compares the shas when both are there. -/
def shaChanged (proposal : PRMergeProposal) (snapshot : PRMergeStatusSnapshot) : Bool :=
  snapshot.headSha != "" && proposal.headSha != "" && snapshot.headSha != proposal.headSha

/-- `evaluate_merge_gate`. -/
def evaluateMergeGate (proposal : PRMergeProposal) (snapshot : PRMergeStatusSnapshot) : Result :=
  let state := PyText.lower snapshot.mergeableState
  let conclusions := snapshot.checkConclusions.map PyText.lower
  let failing := conclusions.filter fun c => !greenConclusions.contains c
  -- 1. draft
  if snapshot.draft then
    { allowed := false, failedStep := some .draft, reason := "draft PR — 승인 받아도 merge 거부" }
  -- 2. mergeable; an unknown `mergeable` passes
  else if state ≠ "clean" then
    { allowed := false, failedStep := some .mergeable
      reason := "mergeable_state='" ++ state ++ "' (clean 아님)" }
  else if snapshot.mergeable = some false then
    { allowed := false, failedStep := some .mergeable
      reason := "mergeable=False — conflict 또는 base 변경" }
  -- 3. check runs
  else if conclusions = [] then
    { allowed := false, failedStep := some .checksGreen
      reason := "check_runs 결과 없음 — CI 미실행 또는 권한 부족"
      checksSummary := "no check runs" }
  else if failing ≠ [] then
    { allowed := false, failedStep := some .checksGreen
      reason := "check_runs not green (" ++ toString failing.length ++ " failing)"
      checksSummary := joinSorted failing }
  -- 4. branch protection; the required status checks are not looked at
  else if !snapshot.branchProtectionAvailable then
    { allowed := false, failedStep := some .branchProtection
      reason := "branch protection 조회 실패 — 권한 부족, 안전 측 거부" }
  else if snapshot.actualApprovingReviews < snapshot.requiredApprovingReviews then
    { allowed := false, failedStep := some .branchProtection
      reason := "required reviews " ++ toString snapshot.requiredApprovingReviews ++ ", actual "
        ++ toString snapshot.actualApprovingReviews }
  -- 5. sha race
  else if shaChanged proposal snapshot then
    { allowed := false, failedStep := some .shaRace
      reason := "head_sha 변경됨: card 시점 " ++ shortSha proposal.headSha ++ ", 현재 "
        ++ shortSha snapshot.headSha }
  else
    { allowed := true, reason := "모든 gate 통과"
      checksSummary := toString conclusions.length ++ " checks green" }

/-! ## What the steps check -/

/-- What the first four steps check: everything but the shas. -/
structure FirstFourPass (snapshot : PRMergeStatusSnapshot) : Prop where
  notDraft : snapshot.draft = false
  clean : PyText.lower snapshot.mergeableState = "clean"
  mergeable : snapshot.mergeable ≠ some false
  someRun : snapshot.checkConclusions ≠ []
  green : ∀ c ∈ snapshot.checkConclusions, isGreen c = true
  readable : snapshot.branchProtectionAvailable = true
  reviews : snapshot.requiredApprovingReviews ≤ snapshot.actualApprovingReviews

/-- The gate opens exactly when the first four steps pass and no change of the sha is seen. -/
theorem evaluateMergeGate_allowed {proposal : PRMergeProposal}
    {snapshot : PRMergeStatusSnapshot} :
    (evaluateMergeGate proposal snapshot).allowed = true
      ↔ FirstFourPass snapshot ∧ shaChanged proposal snapshot = false := by
  have hfailing : ((snapshot.checkConclusions.map PyText.lower).filter
      fun c => !greenConclusions.contains c) = []
        ↔ ∀ c ∈ snapshot.checkConclusions, isGreen c = true := by
    simp [List.filter_eq_nil_iff, isGreen]
  constructor
  · intro h
    simp only [evaluateMergeGate] at h
    split_ifs at h with h1 h2 h3 h4 h5 h6 h7 h8
    refine ⟨⟨by simpa using h1, by simpa using h2, h3, by simpa using h4, ?_, by simpa using h6,
      by simpa using h7⟩, by simpa using h8⟩
    exact hfailing.mp (by simpa using h5)
  · rintro ⟨h, hsha⟩
    simp only [evaluateMergeGate]
    rw [if_neg (by simp [h.notDraft]), if_neg (by simp [h.clean]), if_neg h.mergeable,
      if_neg (by simpa using h.someRun), if_neg (not_not.mpr (hfailing.mpr h.green)),
      if_neg (by simp [h.readable]), if_neg (Int.not_lt.mpr h.reviews), if_neg (by simp [hsha])]

/-! ## The documented conditions -/

/-- A check run, as `list_check_runs` hands it to the executor. -/
structure CheckRun where
  name : String
  conclusion : String
deriving DecidableEq, Repr

/-- The names of the checks that passed. -/
def passedChecks (runs : List CheckRun) : List String :=
  (runs.filter fun r => isGreen r.conclusion).map CheckRun.name

/-- The five conditions on a merge, over the check runs that the snapshot was taken from. -/
structure Conditions (proposal : PRMergeProposal) (snapshot : PRMergeStatusSnapshot)
    (runs : List CheckRun) : Prop where
  notDraft : snapshot.draft = false
  clean : PyText.lower snapshot.mergeableState = "clean" ∧ snapshot.mergeable ≠ some false
  green : runs ≠ [] ∧ ∀ r ∈ runs, isGreen r.conclusion = true
  protection : snapshot.branchProtectionAvailable = true
    ∧ (∀ name ∈ snapshot.requiredStatusChecks, name ∈ passedChecks runs)
    ∧ snapshot.requiredApprovingReviews ≤ snapshot.actualApprovingReviews
  sha : snapshot.headSha = proposal.headSha

theorem shaChanged_eq_false {proposal : PRMergeProposal} {snapshot : PRMergeStatusSnapshot} :
    shaChanged proposal snapshot = false
      ↔ snapshot.headSha = proposal.headSha ∨ snapshot.headSha = "" ∨ proposal.headSha = "" := by
  by_cases h1 : snapshot.headSha = ""
  · simp [shaChanged, h1]
  · by_cases h2 : proposal.headSha = ""
    · simp [shaChanged, h2]
    · simp [shaChanged, h1, h2]

theorem conditions_iff {proposal : PRMergeProposal} {snapshot : PRMergeStatusSnapshot}
    {runs : List CheckRun} (hruns : snapshot.checkConclusions = runs.map CheckRun.conclusion)
    (h : FirstFourPass snapshot) :
    Conditions proposal snapshot runs
      ↔ (∀ name ∈ snapshot.requiredStatusChecks, name ∈ passedChecks runs)
        ∧ snapshot.headSha = proposal.headSha := by
  constructor
  · intro hc
    exact ⟨hc.protection.2.1, hc.sha⟩
  · rintro ⟨hrequired, hsha⟩
    have hgreen := h.green
    have hsome := h.someRun
    rw [hruns] at hgreen hsome
    exact ⟨h.notDraft, ⟨h.clean, h.mergeable⟩, ⟨by simpa using hsome, by simpa using hgreen⟩,
      ⟨h.readable, hrequired, h.reviews⟩, hsha⟩

/--
**When an allowed merge meets the documented conditions.**

For every proposal and every snapshot, with the check runs it was taken from: if the gate allows
the merge then the five conditions hold, exactly unless the first four steps pass and either

* a required check is not among the passed ones, and the fifth step sees no change, or
* exactly one of the shas is empty.
-/
theorem gate_sound_iff (proposal : PRMergeProposal) (snapshot : PRMergeStatusSnapshot)
    (runs : List CheckRun) (hruns : snapshot.checkConclusions = runs.map CheckRun.conclusion) :
    ((evaluateMergeGate proposal snapshot).allowed = true → Conditions proposal snapshot runs)
      ↔ ¬(FirstFourPass snapshot
        ∧ ((∃ name ∈ snapshot.requiredStatusChecks, name ∉ passedChecks runs)
            ∧ shaChanged proposal snapshot = false
          ∨ ¬(snapshot.headSha = "" ↔ proposal.headSha = ""))) := by
  rw [evaluateMergeGate_allowed, shaChanged_eq_false]
  constructor
  · rintro hsound ⟨hfour, hslip⟩
    have hmeets : (snapshot.headSha = proposal.headSha ∨ snapshot.headSha = ""
        ∨ proposal.headSha = "") →
        (∀ name ∈ snapshot.requiredStatusChecks, name ∈ passedChecks runs)
          ∧ snapshot.headSha = proposal.headSha :=
      fun hsha => (conditions_iff hruns hfour).mp (hsound ⟨hfour, hsha⟩)
    -- an allowed merge meets both conditions, so neither slip can have happened
    rcases hslip with ⟨⟨name, hname, hmissing⟩, hsha⟩ | hone
    · exact hmissing ((hmeets hsha).1 name hname)
    · by_cases h1 : snapshot.headSha = ""
      · exact hone (by rw [(hmeets (.inr (.inl h1))).2])
      · by_cases h2 : proposal.headSha = ""
        · exact hone (by rw [(hmeets (.inr (.inr h2))).2])
        · exact hone (iff_of_false h1 h2)
  · rintro hslip ⟨hfour, hsha⟩
    refine (conditions_iff hruns hfour).mpr ⟨?_, ?_⟩
    · intro name hname
      by_contra hmissing
      exact hslip ⟨hfour, .inl ⟨⟨name, hname, hmissing⟩, hsha⟩⟩
    · -- the shas are equal, or one is empty and then so is the other
      have hboth : snapshot.headSha = "" ↔ proposal.headSha = "" := by
        by_contra hone
        exact hslip ⟨hfour, .inr hone⟩
      rcases hsha with h | h | h
      · exact h
      · rw [h, hboth.mp h]
      · rw [h, hboth.mpr h]

/-- The card of a pull request. -/
def someProposal (headSha : String) : PRMergeProposal :=
  { repo := "owner/name", prNumber := 7, prUrl := "url", headSha, baseBranch := "main",
    draft := true, mergeableState := "unknown" }

/-- A clean pull request with one green check. -/
def lintedSnapshot (required : List String) : PRMergeStatusSnapshot :=
  { draft := false, mergeable := some true, mergeableState := "clean", headSha := "def",
    checkConclusions := ["success"], requiredStatusChecks := required }

theorem gate_sound_iff_lint :
    ((evaluateMergeGate (someProposal "def") (lintedSnapshot ["lint"])).allowed = true →
        Conditions (someProposal "def") (lintedSnapshot ["lint"]) [⟨"lint", "success"⟩])
      ↔ ¬(FirstFourPass (lintedSnapshot ["lint"])
        ∧ ((∃ name ∈ ["lint"], name ∉ passedChecks [⟨"lint", "success"⟩])
            ∧ shaChanged (someProposal "def") (lintedSnapshot ["lint"]) = false
          ∨ ¬("def" = "" ↔ "def" = ""))) :=
  gate_sound_iff (someProposal "def") (lintedSnapshot ["lint"]) [⟨"lint", "success"⟩] rfl

/-- A card without a sha is merged with a required check that never ran. -/
theorem not_gate_sound_missingCheck :
    (evaluateMergeGate (someProposal "") (lintedSnapshot ["security"])).allowed = true
      ∧ ¬Conditions (someProposal "") (lintedSnapshot ["security"]) [⟨"lint", "success"⟩] := by
  refine ⟨by decide, fun h => ?_⟩
  exact absurd (h.protection.2.1 "security" (by decide)) (by decide)

end MergeGate

end ForgeKit
