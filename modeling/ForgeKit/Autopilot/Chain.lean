import ForgeKit.Lib.PyStr

/-!
# The internal approval chain (`autopilot/approval`, `autopilot/chain`)

A finding is routed to an owner and signed off at the approval level of its wording. Only what was
signed off at the internal level may be executed.

* `classifyLevel` — the level of a text
-/

namespace ForgeKit.Autopilot

open Py (Text lit)

/-! ## Approval levels -/

def l0Collect : Text := lit "L0_collect"

def l1Propose : Text := lit "L1_propose"

def l2InternalApprove : Text := lit "L2_internal_approve"

def l3UserApprove : Text := lit "L3_user_approve"

def l4Restricted : Text := lit "L4_restricted"

/-- `ALL_LEVELS`, from the lowest. -/
def allLevels : List Text :=
  [l0Collect, l1Propose, l2InternalApprove, l3UserApprove, l4Restricted]

/-- `_RESTRICTED`. -/
def restrictedWords : List Text :=
  [lit "deploy", lit "배포", lit "secret", lit "비밀", lit "infra", lit "인프라", lit "iam",
    lit "migration", lit "마이그레이션", lit "production", lit "프로덕션", lit "destructive",
    lit "rm -rf"]

/-- `_RISKY`. -/
def riskyWords : List Text :=
  [lit "rewrite", lit "대규모", lit "broad", lit "schema", lit "auth", lit "권한", lit "삭제",
    lit "delete"]

/-- `classify_level`. -/
def classifyLevel (text riskClass : Text) : Text :=
  let blob := Py.lower (text ++ lit " " ++ riskClass)
  if riskClass = lit "blocked" ∨ restrictedWords.any (Py.contains blob) = true then l4Restricted
  else if riskClass = lit "risky" ∨ riskyWords.any (Py.contains blob) = true then l3UserApprove
  else l2InternalApprove

theorem classifyLevel_cases (text riskClass : Text) :
    classifyLevel text riskClass = l2InternalApprove ∨
      classifyLevel text riskClass = l3UserApprove ∨
      classifyLevel text riskClass = l4Restricted := by
  simp only [classifyLevel]
  split
  · exact .inr (.inr rfl)
  · split
    · exact .inr (.inl rfl)
    · exact .inl rfl

/-- **The internal level** is that of a text without a word that makes it risky or restricted. -/
theorem classifyLevel_internal_iff {text riskClass : Text} :
    classifyLevel text riskClass = l2InternalApprove ↔
      (riskClass ≠ lit "blocked" ∧ riskClass ≠ lit "risky") ∧
        ∀ word ∈ restrictedWords ++ riskyWords,
          Py.contains (Py.lower (text ++ lit " " ++ riskClass)) word = false := by
  have hlevels : l4Restricted ≠ l2InternalApprove ∧ l3UserApprove ≠ l2InternalApprove := by decide
  have hnone : ∀ (words : List Text) (blob : Text), ¬words.any (Py.contains blob) = true ↔
      ∀ word ∈ words, Py.contains blob word = false := by
    intro words blob
    simp only [Bool.not_eq_true, List.any_eq_false]
  rw [classifyLevel, List.forall_mem_append]
  split
  · next h =>
    refine iff_of_false hlevels.1 ?_
    rintro ⟨⟨hblocked, -⟩, hwords, -⟩
    exact h.elim hblocked ((hnone _ _).mpr hwords)
  · next h =>
    split
    · next h' =>
      refine iff_of_false hlevels.2 ?_
      rintro ⟨⟨-, hrisky⟩, -, hwords⟩
      exact h'.elim hrisky ((hnone _ _).mpr hwords)
    · next h' =>
      rw [not_or, hnone] at h h'
      exact iff_of_true rfl ⟨⟨h.1, h'.1⟩, h.2, h'.2⟩

/-! ## The chain -/

/-- `RepoFinding`. -/
structure RepoFinding where
  repo : Text
  finding : Text
  kind : Text := lit "gap"
deriving DecidableEq

/-- `TechLeadDecision` of `autopilot/artifacts`. -/
structure TechLeadDecision where
  packetSummary : Text
  decisionClass : Text
  approvalLevel : Text
  signoffBy : Text := lit "tech-lead"
  canExecute : Bool := false
  rationale : Text := []
deriving DecidableEq

/-- `_OWNER_BY_KIND.get(kind, "tech-lead")`. -/
def ownerByKind (kind : Text) : Text :=
  (([(lit "docs", lit "tech-lead"), (lit "test", lit "qa"), (lit "lint", lit "be"),
    (lit "ops", lit "devops"), (lit "discomfort", lit "fe"), (lit "gap", lit "be")] :
    List (Text × Text)).lookup kind).getD (lit "tech-lead")

/-- The class of a level, with the rationale of the signoff. -/
def signoffByLevel (level : Text) : Text × Text :=
  if level = l2InternalApprove then
    (lit "safe", lit "safe class — 내부 승인(PM→gateway→tech-lead)으로 실행 가능, user 승인 불요")
  else if level = l4Restricted then
    (lit "blocked", lit "restricted — deploy/secret/infra, 자동 실행 금지(L4), operator+runbook")
  else (lit "risky", lit "risky — user 승인 필요(L3), autopilot 은 propose 까지만")

/-- `tech_lead_signoff`. -/
def techLeadSignoff (finding : RepoFinding) (riskClass : Text) : TechLeadDecision :=
  let level := classifyLevel finding.finding riskClass
  { packetSummary := finding.finding
    decisionClass := (signoffByLevel level).1
    approvalLevel := level
    canExecute := decide (level = l2InternalApprove)
    rationale := (signoffByLevel level).2 }

/-- `run_internal_chain`: the owner that the gateway routes to, and the signoff. -/
def runInternalChain (finding : RepoFinding) (riskClass : Text) : Text × TechLeadDecision :=
  (ownerByKind finding.kind, techLeadSignoff finding riskClass)

/-- `can_specialist_execute`. -/
def canSpecialistExecute (decision : Option TechLeadDecision) : Bool :=
  decision.any (·.canExecute)

end ForgeKit.Autopilot
