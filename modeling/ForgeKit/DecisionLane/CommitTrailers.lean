import ForgeKit.DecisionLane.Enforcement
import ForgeKit.Lib.Occurrences

/-!
# The trailers of a commit (`decision_lane/enforcement`, `forgekit_config/identity/attribution`)

The commit of an execution carries the executor and the approval of its verdict as trailers. The
check looks for both texts anywhere in the message.

* `commitTrailers`, `githubAppStatus` — the lines, from the registry and the environment
* `validateExecutionTrailers` — the check
* `commit_trailers_bind_iff` — when the trailers of one verdict are no pass for another
-/

namespace ForgeKit.DecisionLane

open Py (Text CodePoint lit newline)
open Occurrences

/-! ## Identities -/

/-- What the trailers read of an `AgentIdentity`. -/
structure TrailerIdentity where
  canonicalId : Text
  roleLabel : Text
  department : Text
  vaultCssclass : Text
  supportsGithubApp : Bool := true
deriving DecidableEq

/-- `_SEED`, as far as the trailers read it. -/
def trailerSeed : List TrailerIdentity :=
  [⟨lit "product-manager", lit "Product (PM)", lit "product", lit "fk-pm", true⟩,
    ⟨lit "gateway", lit "Engineering Gateway", lit "engineering", lit "fk-gateway", true⟩,
    ⟨lit "tech-lead", lit "Tech Lead", lit "engineering", lit "fk-techlead", true⟩,
    ⟨lit "frontend-engineer", lit "Frontend", lit "engineering", lit "fk-fe", true⟩,
    ⟨lit "backend-engineer", lit "Backend", lit "engineering", lit "fk-be", true⟩,
    ⟨lit "devops-engineer", lit "DevOps", lit "engineering", lit "fk-devops", true⟩,
    ⟨lit "qa-engineer", lit "QA", lit "engineering", lit "fk-qa", true⟩,
    ⟨lit "security-engineer", lit "Security", lit "engineering", lit "fk-security", true⟩,
    ⟨lit "ai-engineer", lit "AI Engineer", lit "engineering", lit "fk-ai", true⟩,
    ⟨lit "platform-runtime-engineer", lit "Platform Runtime", lit "engineering",
      lit "fk-platform", true⟩,
    ⟨lit "knowledge-engineer", lit "Knowledge Engineer", lit "engineering", lit "fk-knowledge", true⟩,
    ⟨lit "ops-observer", lit "Ops Observer", lit "ops", lit "fk-ops", true⟩,
    ⟨lit "ux-ui-designer", lit "UX/UI Designer", lit "design", lit "fk-ux", true⟩,
    ⟨lit "design-systems-designer", lit "Design Systems", lit "design", lit "fk-dsys", true⟩,
    ⟨lit "illustration-brand-designer", lit "Illustration/Brand", lit "design", lit "fk-illus", true⟩,
    ⟨lit "design-lead", lit "Design Lead", lit "design", lit "fk-design-lead", true⟩,
    ⟨lit "user-researcher", lit "User Researcher", lit "product", lit "fk-user-research", true⟩,
    ⟨lit "growth-marketer", lit "Growth", lit "marketing", lit "fk-growth", true⟩,
    ⟨lit "growth-analyst", lit "Growth Analyst", lit "marketing", lit "fk-growth-analyst", true⟩,
    ⟨lit "content-strategist", lit "Content", lit "marketing", lit "fk-content", true⟩,
    ⟨lit "brand-manager", lit "Brand Manager", lit "marketing", lit "fk-brand", true⟩,
    ⟨lit "seo-specialist", lit "SEO", lit "marketing", lit "fk-seo", true⟩,
    ⟨lit "budget-analyst", lit "Budget Analyst", lit "finance", lit "fk-budget", true⟩,
    ⟨lit "recruiter", lit "Recruiter", lit "people", lit "fk-recruiter", true⟩,
    ⟨lit "people-ops", lit "People Ops", lit "people", lit "fk-peopleops", true⟩,
    ⟨lit "culture-coach", lit "Culture Coach", lit "people", lit "fk-culture", true⟩,
    ⟨lit "contract-reviewer", lit "Contract Reviewer", lit "legal", lit "fk-contract", true⟩,
    ⟨lit "privacy-officer", lit "Privacy Officer", lit "legal", lit "fk-privacy", true⟩,
    ⟨lit "sales-rep", lit "Sales", lit "sales", lit "fk-sales", true⟩,
    ⟨lit "customer-success", lit "Customer Success", lit "sales", lit "fk-cs", true⟩]

/-- `_FALLBACK`. -/
def fallbackIdentity : TrailerIdentity :=
  ⟨lit "forgekit", lit "forgekit", lit "core", lit "fk-agent", true⟩

/-- The rows are those of the registry. -/
theorem trailerSeed_eq_seed :
    trailerSeed.map (fun i => (i.canonicalId, i.department))
      = seed.map fun i => (i.canonicalId, i.department) := by
  decide

/-- `resolve_identity`. -/
def resolveIdentity (agentId : Text) : TrailerIdentity :=
  (trailerSeed.find? fun i => i.canonicalId = canonicalId agentId).getD fallbackIdentity

/-- The upper case of an ASCII letter. -/
def upperCode (c : CodePoint) : CodePoint :=
  if 0x61 ≤ c.val ∧ c.val ≤ 0x7A then Fin.ofNat _ (c.val - 0x20) else c

/-- `github_app_env_prefix`; the ids of the registry are ASCII. -/
def githubAppEnvPrefix (canonicalId : Text) : Text :=
  lit "YULE_GITHUB_APP_"
    ++ (Py.replaceChar (Py.ofChar '-') (Py.ofChar '_') (Py.strip canonicalId)).map upperCode
    ++ lit "_"

/-- `_REQUIRED_SUFFIXES`. -/
def requiredSuffixes : List Text :=
  [lit "APP_ID", lit "INSTALLATION_ID", lit "PRIVATE_KEY_PEM"]

/-- The environment; a variable that is not set reads as the empty text. -/
abbrev Env := Text → Text

/-- `_present`: how many of the required variables are set. -/
def presentCount (env : Env) (envPrefix : Text) : Nat :=
  requiredSuffixes.countP fun suffix => Py.strip (env (envPrefix ++ suffix)) ≠ []

/-- The `APP_` constants, what `github_app_status` returns. -/
def appStatuses : List Text :=
  [lit "dedicated_configured", lit "partial_credentials", lit "shared_fallback", lit "missing",
    lit "planned"]

/-- `github_app_status`. -/
def githubAppStatus (agentId : Text) (env : Env) : Text :=
  let identity := resolveIdentity agentId
  let own := presentCount env (githubAppEnvPrefix identity.canonicalId)
  if identity.supportsGithubApp = false then lit "planned"
  else if own = requiredSuffixes.length then lit "dedicated_configured"
  else if own > 0 then lit "partial_credentials"
  else if presentCount env (lit "YULE_GITHUB_APP_SHARED_") = requiredSuffixes.length then
    lit "shared_fallback"
  else lit "missing"

/-! ## Trailers -/

/-- A trailer for a value that exists. -/
def optionalTrailer (key value : Text) : List Text := if value ≠ [] then [key ++ value] else []

/-- `commit_trailers`. -/
def commitTrailers (agentId flow mode handoffFrom handoffTo approval : Text) (env : Env) :
    List Text :=
  let identity := resolveIdentity agentId
  [lit "Forgekit-Agent: " ++ identity.canonicalId,
    lit "Forgekit-Role: " ++ identity.roleLabel,
    lit "Forgekit-Dept: " ++ identity.department,
    lit "Forgekit-GitHub-App: " ++ githubAppStatus agentId env,
    lit "Forgekit-Vault-Class: " ++ identity.vaultCssclass]
    ++ optionalTrailer (lit "Forgekit-Flow: ") flow
    ++ optionalTrailer (lit "Forgekit-Mode: ") mode
    ++ optionalTrailer (lit "Forgekit-Handoff-From: ") handoffFrom
    ++ optionalTrailer (lit "Forgekit-Handoff-To: ") handoffTo
    ++ optionalTrailer (lit "Forgekit-Approval: ") approval

/-- `execution_commit_trailers` with its default flow. -/
def executionCommitTrailers (v : ExecutionVerdict) (env : Env) : List Text :=
  if v.allowed = false then []
  else commitTrailers v.executorId (lit "decision-lane") v.actionClass (lit "tech-lead")
    v.executorId v.approvalMetadata env

def agentKey : Text := lit "Forgekit-Agent: "

def approvalKey : Text := lit "Forgekit-Approval: "

/-- `validate_execution_trailers`: what is wrong with the message. -/
def validateExecutionTrailers (message : Text) (v : ExecutionVerdict) : List Text :=
  if v.allowed = false then [lit "commit: 승인되지 않은 실행 — 커밋 금지"]
  else
    (if Py.contains message (agentKey ++ v.executorId) = false then
        [lit "commit: executor 식별 트레일러 누락/불일치 (Forgekit-Agent: " ++ v.executorId ++ lit ")"]
      else [])
      ++ (if Py.contains message (approvalKey ++ v.approvalMetadata) = false then
          [lit "commit: 승인 메타데이터 트레일러 누락/불일치 (Forgekit-Approval)"]
        else [])

/-- The trailers of a verdict as they stand in a message. -/
def trailerText (v : ExecutionVerdict) (env : Env) : Text :=
  Py.joinLines (executionCommitTrailers v env)

/-- A subject and a body, a blank line, and the trailers of a verdict. -/
def messageOf (body : Text) (w : ExecutionVerdict) (env : Env) : Text :=
  body ++ (newline :: newline :: trailerText w env)

/-- The verdicts that the two gates return. -/
inductive Issued : ExecutionVerdict → Prop where
  | lane (decision : Option TechLeadDecision) (handoff : Option EngineerHandoff)
      (request : ActionRequest) (routing : Option GatewayRouting) (op : Option OperatorApproval) :
      Issued (authorizeExecution decision handoff request routing op)
  | runtime (decision : Option AutopilotDecision) (request : ActionRequest) (executorRole : Text)
      (gatewayOk : Bool) (op : Option OperatorApproval) :
      Issued (authorizeRuntimeExecution decision request executorRole gatewayOk op)

/-! ## What an allowed verdict carries -/

/-- What the trailers of a verdict rest on. -/
structure Registered (v : ExecutionVerdict) : Prop where
  allowed : v.allowed = true
  executor : ∃ i ∈ trailerSeed, i.canonicalId = v.executorId
  actionClass : v.actionClass ∈ [safe, risky, destructive]
  metadata : v.approvalMetadata ≠ []

theorem trailerSeed_ids : trailerSeed.map (·.canonicalId) = seed.map (·.canonicalId) := by
  have hfst := congrArg (List.map Prod.fst) trailerSeed_eq_seed
  simpa only [List.map_map, Function.comp_def] using hfst

/-- No id of the registry is the start of another. -/
theorem eq_of_front {i j : TrailerIdentity} (hi : i ∈ trailerSeed) (hj : j ∈ trailerSeed)
    (h : i.canonicalId <+: j.canonicalId) : i = j := by
  have hfree : trailerSeed.Pairwise fun i j => i.canonicalId.isPrefixOf j.canonicalId = false ∧
      j.canonicalId.isPrefixOf i.canonicalId = false := by
    decide
  have hsymm : Std.Symm fun i j : TrailerIdentity =>
      i.canonicalId.isPrefixOf j.canonicalId = false ∧
        j.canonicalId.isPrefixOf i.canonicalId = false := ⟨fun _ _ hboth => hboth.symm⟩
  by_contra hne
  have hpair := hfree.forall hi hj hne
  rw [← List.isPrefixOf_iff_prefix, hpair.1] at h
  cases h

theorem resolveIdentity_of_mem {i : TrailerIdentity} (h : i ∈ trailerSeed) :
    resolveIdentity i.canonicalId = i := by
  have hid : i.canonicalId ∈ seed.map (·.canonicalId) := by
    rw [← trailerSeed_ids]
    exact List.mem_map_of_mem h
  obtain ⟨row, hrow, heq⟩ := List.mem_map.mp hid
  have hentry : (row.canonicalId, row.canonicalId) ∈ aliasTable :=
    List.mem_flatMap.mpr ⟨row, hrow, List.mem_cons_self⟩
  have hself : canonicalId i.canonicalId = i.canonicalId := heq ▸ canonicalId_of_mem hentry
  unfold resolveIdentity
  simp only [hself]
  cases hfind : trailerSeed.find? fun j => j.canonicalId = i.canonicalId with
  | none => simpa using List.find?_eq_none.mp hfind i h
  | some j =>
    have hj : j.canonicalId = i.canonicalId := by simpa using List.find?_some hfind
    exact eq_of_front (List.mem_of_find?_eq_some hfind) h (hj ▸ List.prefix_refl _)

theorem mem_trailerSeed_of_canonicalId {agentId : Text} (h : canonicalId agentId ≠ []) :
    ∃ i ∈ trailerSeed, i.canonicalId = canonicalId agentId := by
  suffices hmem : canonicalId agentId ∈ seed.map (·.canonicalId) by
    rwa [← trailerSeed_ids, List.mem_map] at hmem
  unfold canonicalId at h ⊢
  cases hlookup : aliasTable.lookup (Py.strip agentId) with
  | none => simp [hlookup] at h
  | some cid =>
    obtain ⟨before, after, htable, -⟩ := List.lookup_eq_some_iff.mp hlookup
    have hmem : (Py.strip agentId, cid) ∈ aliasTable := by
      rw [htable]
      exact List.mem_append_right _ List.mem_cons_self
    obtain ⟨i, hi, hentry⟩ := List.mem_flatMap.mp hmem
    have hcid : cid = i.canonicalId := by
      rcases List.mem_cons.mp hentry with heq | halias
      · exact congrArg Prod.snd heq
      · obtain ⟨a, -, heq⟩ := List.mem_map.mp halias
        exact (congrArg Prod.snd heq).symm
    rw [Option.getD_some, hcid]
    exact List.mem_map_of_mem hi

theorem classifyAction_mem (request : ActionRequest) :
    (classifyAction request).1 ∈ [safe, risky, destructive] := by
  rcases classifyAction_cases request with h | h | h <;> simp [h]

/-- **An allowed verdict** names an agent of the registry and an approval. -/
theorem Issued.registered {v : ExecutionVerdict} (h : Issued v) (hallowed : v.allowed = true) :
    Registered v := by
  cases h with
  | lane decision handoff request routing op =>
    obtain ⟨-, hstart, d, rfl, -⟩ := authorizeExecution_allowed_iff.mp hallowed
    obtain ⟨-, -, -, hpass⟩ := canEngineerStart_iff.mp hstart
    obtain ⟨h, rfl, hvalid⟩ := handoffCheck_passes_iff.mp hpass
    refine ⟨hallowed, ?_, classifyAction_mem request, by simp [authorizeExecution, lit]⟩
    refine mem_trailerSeed_of_canonicalId fun hempty => ?_
    have hdept := (valid_handoff hvalid).2.2.1
    rw [hempty] at hdept
    exact absurd hdept (by decide)
  | runtime decision request executorRole gatewayOk op =>
    have hreasons : reasonsOf (runtimeChecks decision request executorRole gatewayOk op) = [] :=
      of_decide_eq_true hallowed
    have hpass := reasonsOf_eq_nil_iff.mp hreasons
    rw [runtimeChecks, List.append_assoc, List.forall_mem_append, List.forall_mem_append,
      List.forall_mem_cons, List.forall_mem_singleton, Check.passes_of_iff] at hpass
    obtain ⟨⟨⟨-, hdecision⟩, hexecutor⟩, -⟩ := hpass
    obtain ⟨d, rfl⟩ := Option.isSome_iff_exists.mp hdecision
    refine ⟨hallowed, ?_, classifyAction_mem request, ?_⟩
    · refine mem_trailerSeed_of_canonicalId fun hempty => ?_
      have hviolation : runtimeExecutorViolation executorRole ≠ [] := by
        rw [runtimeExecutorViolation, if_pos hempty]
        simp [lit]
      rw [if_neg hviolation] at hexecutor
      exact Check.not_passes_missing _ (hexecutor _ List.mem_cons_self)
    · simp [authorizeRuntimeExecution, hreasons, lit]

/-! ## The text of the trailers -/

theorem githubAppStatus_mem (agentId : Text) (env : Env) :
    githubAppStatus agentId env ∈ appStatuses := by
  unfold githubAppStatus appStatuses
  simp only
  split_ifs <;> simp

/-- The lines between the executor and the approval. -/
def middleLines (i : TrailerIdentity) (app mode : Text) : List Text :=
  [lit "Forgekit-Role: " ++ i.roleLabel, lit "Forgekit-Dept: " ++ i.department,
    lit "Forgekit-GitHub-App: " ++ app, lit "Forgekit-Vault-Class: " ++ i.vaultCssclass,
    lit "Forgekit-Flow: decision-lane", lit "Forgekit-Mode: " ++ mode,
    lit "Forgekit-Handoff-From: tech-lead", lit "Forgekit-Handoff-To: " ++ i.canonicalId]

theorem trailerText_eq {v : ExecutionVerdict} (h : Registered v) (env : Env) :
    ∃ i ∈ trailerSeed, ∃ app, i.canonicalId = v.executorId ∧
      app ∈ appStatuses ∧
      trailerText v env = ((agentKey ++ v.executorId) :: middleLines i app v.actionClass).flatMap
        (· ++ [newline]) ++ (approvalKey ++ v.approvalMetadata) := by
  obtain ⟨i, hi, hid⟩ := h.executor
  refine ⟨i, hi, githubAppStatus v.executorId env, hid, githubAppStatus_mem _ _, ?_⟩
  have hmode : v.actionClass ≠ [] := by
    intro hempty
    have hclass := h.actionClass
    rw [hempty] at hclass
    exact absurd hclass (by decide)
  have hexecutor : v.executorId ≠ [] := by
    have hall : (trailerSeed.all fun i => decide (i.canonicalId ≠ [])) = true := by decide
    rw [← hid]
    exact of_decide_eq_true (List.all_eq_true.mp hall i hi)
  have hresolve : resolveIdentity v.executorId = i := hid ▸ resolveIdentity_of_mem hi
  rw [← Py.joinLines_concat, trailerText, executionCommitTrailers,
    if_neg (by rw [h.allowed]; decide), commitTrailers, hresolve]
  simp only [optionalTrailer, ne_eq, hmode, hexecutor, h.metadata, not_false_eq_true, if_true,
    show lit "decision-lane" ≠ [] by decide, show lit "tech-lead" ≠ [] by decide, middleLines, hid]
  rfl

/-! ## Where the texts of a verdict occur in the trailers of another -/

/-- What the keys of the executor and of the approval begin with. -/
def keyStart : Text := lit "Forgekit-A"

/-- A line that does not have the start of the keys in it. -/
theorem apart_of_keyStart {key line : Text} (hkey : key ∈ [agentKey, approvalKey])
    (h : Py.contains line keyStart = false) : apart key (line ++ [newline]) = true := by
  have hstart : ∀ key ∈ [agentKey, approvalKey], keyStart.isPrefixOf key = true ∧ newline ∉ key := by
    decide
  obtain ⟨hbegins, hline⟩ := hstart key hkey
  refine apart_line hline fun hinside => ?_
  have hbad := (List.isPrefixOf_iff_prefix.mp hbegins).isInfix.trans hinside
  rw [← Py.contains_iff, h] at hbad
  cases hbad

theorem apart_rows {i : TrailerIdentity} (hi : i ∈ trailerSeed) {key : Text}
    (hkey : key ∈ [agentKey, approvalKey]) :
    ∀ value ∈ [i.canonicalId, i.roleLabel, i.department, i.vaultCssclass],
      apart key (value ++ [newline]) = true := by
  have hall : (trailerSeed.all fun i =>
      [i.canonicalId, i.roleLabel, i.department, i.vaultCssclass].all fun value =>
        !Py.contains value keyStart) = true := by
    decide
  intro value hvalue
  have hrow := List.all_eq_true.mp (List.all_eq_true.mp hall i hi) value hvalue
  rw [Bool.not_eq_true'] at hrow
  exact apart_of_keyStart hkey hrow

/-- The keys of the other trailers are apart from the two. -/
theorem apart_keys {key : Text} (hkey : key ∈ [agentKey, approvalKey]) :
    ∀ other ∈ [agentKey.tail, lit "Forgekit-Role: ", lit "Forgekit-Dept: ",
      lit "Forgekit-GitHub-App: ", lit "Forgekit-Vault-Class: ", lit "Forgekit-Mode: ",
      lit "Forgekit-Handoff-To: "], apart key other = true := by
  revert key
  decide

/-- No line between the two trailers mentions them. -/
theorem apart_middleLines {i : TrailerIdentity} (hi : i ∈ trailerSeed) {app mode key : Text}
    (happ : app ∈ appStatuses) (hmode : mode ∈ [safe, risky, destructive])
    (hkey : key ∈ [agentKey, approvalKey]) :
    apart key ((middleLines i app mode).flatMap (· ++ [newline])) = true := by
  have hvalue := apart_rows hi hkey
  have hother := apart_keys hkey
  have happs : ∀ app ∈ appStatuses, Py.contains app keyStart = false := by decide
  have hmodes : ∀ mode ∈ [safe, risky, destructive], Py.contains mode keyStart = false := by
    decide
  refine apart_flatMap fun line hline => ?_
  simp only [middleLines, List.mem_cons, List.not_mem_nil, or_false] at hline
  rcases hline with rfl | rfl | rfl | rfl | rfl | rfl | rfl | rfl
  · rw [List.append_assoc]
    exact apart_append (hother _ (by simp)) (hvalue _ (by simp))
  · rw [List.append_assoc]
    exact apart_append (hother _ (by simp)) (hvalue _ (by simp))
  · rw [List.append_assoc]
    exact apart_append (hother _ (by simp)) (apart_of_keyStart hkey (happs app happ))
  · rw [List.append_assoc]
    exact apart_append (hother _ (by simp)) (hvalue _ (by simp))
  · exact apart_of_keyStart hkey (by decide)
  · rw [List.append_assoc]
    exact apart_append (hother _ (by simp)) (apart_of_keyStart hkey (hmodes mode hmode))
  · exact apart_of_keyStart hkey (by decide)
  · rw [List.append_assoc]
    exact apart_append (hother _ (by simp)) (hvalue _ (by simp))

/-- The line of the executor, without its first letter. -/
def agentRest (executorId : Text) : Text := agentKey.tail ++ (executorId ++ [newline])

theorem apart_agentRest {v : ExecutionVerdict} (h : Registered v) {key : Text}
    (hkey : key ∈ [agentKey, approvalKey]) : apart key (agentRest v.executorId) = true := by
  obtain ⟨i, hi, hid⟩ := h.executor
  rw [← hid]
  exact apart_append (apart_keys hkey _ List.mem_cons_self)
    (apart_rows hi hkey _ List.mem_cons_self)

theorem newline_notMem_of_mem {i : TrailerIdentity} (hi : i ∈ trailerSeed) :
    newline ∉ i.canonicalId := by
  have hline : (trailerSeed.all fun i => !i.canonicalId.contains newline) = true := by
    decide
  have hrow := List.all_eq_true.mp hline i hi
  rwa [Bool.not_eq_true', ← Bool.not_eq_true, List.contains_iff_mem] at hrow

section Occurrences

variable {v w : ExecutionVerdict} (hv : Registered v) (hw : Registered w) (env : Env)

include hw

/-- The approval of a verdict stands in the trailers of another one when it is the start of the
other's, or is in it. -/
theorem approval_infix_iff (metadata : Text) :
    approvalKey ++ metadata <:+: trailerText w env ↔
      metadata <+: w.approvalMetadata ∨ approvalKey ++ metadata <:+: w.approvalMetadata := by
  obtain ⟨i, hi, app, hid, happ, htext⟩ := trailerText_eq hw env
  have hmem : approvalKey ∈ [agentKey, approvalKey] := by simp
  have hagent : apart approvalKey (agentKey ++ w.executorId ++ [newline]) = true := by
    rw [List.append_assoc]
    obtain ⟨j, hj, hjd⟩ := hw.executor
    rw [← hjd]
    exact apart_append (by decide) (apart_rows hj hmem _ List.mem_cons_self)
  have hfront : apart approvalKey
      (((agentKey ++ w.executorId) :: middleLines i app w.actionClass).flatMap (· ++ [newline]))
        = true := by
    rw [List.flatMap_cons]
    exact apart_append hagent (apart_middleLines hi happ hw.actionClass hmem)
  rw [htext, infix_append_of_apart hfront]
  have hkey : ∀ rest : Text, approvalKey ++ rest = Py.ofChar 'F' :: (approvalKey.tail ++ rest) :=
    fun _ => rfl
  rw [hkey w.approvalMetadata, List.infix_cons_iff, ← hkey w.approvalMetadata,
    List.prefix_append_right_inj]
  refine or_congr_right ?_
  exact infix_append_of_apart (by decide)

include hv

/-- The executor of a verdict stands in the trailers of another one when it is the same, or the
approval mentions it. -/
theorem agent_infix_iff :
    agentKey ++ v.executorId <:+: trailerText w env ↔
      v.executorId = w.executorId ∨ agentKey ++ v.executorId <:+: w.approvalMetadata := by
  obtain ⟨i, hi, app, hid, happ, htext⟩ := trailerText_eq hw env
  obtain ⟨j, hj, hjd⟩ := hv.executor
  have hmem : agentKey ∈ [agentKey, approvalKey] := by simp
  have hmiddle := apart_middleLines hi happ hw.actionClass hmem
  have hrest : apart agentKey (agentRest w.executorId
      ++ (middleLines i app w.actionClass).flatMap (· ++ [newline]) ++ approvalKey) = true := by
    exact apart_append (apart_append (apart_agentRest hw hmem) hmiddle) (by decide)
  have hsplit : trailerText w env = Py.ofChar 'F' :: (agentRest w.executorId
      ++ (middleLines i app w.actionClass).flatMap (· ++ [newline]) ++ approvalKey
        ++ w.approvalMetadata) := by
    rw [htext, List.flatMap_cons]
    simp [agentRest, agentKey, lit]
  have hfront : trailerText w env = agentKey ++ (w.executorId ++ newline ::
      ((middleLines i app w.actionClass).flatMap (· ++ [newline]) ++ approvalKey
        ++ w.approvalMetadata)) := by
    rw [htext, List.flatMap_cons]
    simp
  have hinside : agentKey ++ v.executorId <:+: trailerText w env ↔
      agentKey ++ v.executorId <+: trailerText w env
        ∨ agentKey ++ v.executorId <:+: w.approvalMetadata := by
    rw [hsplit, List.infix_cons_iff, infix_append_of_apart hrest]
  rw [hinside, hfront, List.prefix_append_right_inj]
  refine or_congr_left ⟨fun hbegins => ?_, fun heq => ?_⟩
  · rw [← hid, ← hjd] at hbegins ⊢
    rw [eq_of_front hj hi (prefix_of_line (newline_notMem_of_mem hj) hbegins)]
  · rw [heq]
    exact List.prefix_append _ _

end Occurrences

/-! ## The check -/

theorem validate_eq_nil_iff {v : ExecutionVerdict} (h : Registered v) {message : Text} :
    validateExecutionTrailers message v = [] ↔
      agentKey ++ v.executorId <:+: message ∧ approvalKey ++ v.approvalMetadata <:+: message := by
  rw [validateExecutionTrailers, if_neg (by rw [h.allowed]; decide), List.append_eq_nil_iff,
    ← Py.contains_iff, ← Py.contains_iff]
  refine and_congr ?_ ?_
  · split
    · next hmissing => simp [hmissing]
    · next hthere => simpa using hthere
  · split
    · next hmissing => simp [hmissing]
    · next hthere => simpa using hthere

/-- The message names the executor of `v` besides the trailers of `w`, or `w` has the same one. -/
def AgentMatches (v w : ExecutionVerdict) (body : Text) : Prop :=
  v.executorId = w.executorId ∨ agentKey ++ v.executorId <:+: body
    ∨ agentKey ++ v.executorId <:+: w.approvalMetadata

/-- The approval of `v` is the start of that of `w`, or it is quoted in it or from the body on. -/
def ApprovalMatches (v w : ExecutionVerdict) (body : Text) (env : Env) : Prop :=
  v.approvalMetadata <+: w.approvalMetadata
    ∨ StartsIn (approvalKey ++ v.approvalMetadata) body (newline :: newline :: trailerText w env)
    ∨ approvalKey ++ v.approvalMetadata <:+: w.approvalMetadata

theorem agent_message_iff {v w : ExecutionVerdict} (hv : Registered v) (hw : Registered w)
    (env : Env) (body : Text) :
    agentKey ++ v.executorId <:+: messageOf body w env ↔ AgentMatches v w body := by
  obtain ⟨j, hj, hjd⟩ := hv.executor
  have hline : newline ∉ agentKey ++ v.executorId := by
    rw [← hjd, List.mem_append, not_or]
    exact ⟨by decide, newline_notMem_of_mem hj⟩
  have hblank : apart agentKey [newline, newline] = true := by decide
  rw [messageOf, infix_append_iff, startsIn_iff_infix (by simp [agentKey, lit]) hline,
    show newline :: newline :: trailerText w env = [newline, newline] ++ trailerText w env from rfl,
    infix_append_of_apart hblank, agent_infix_iff hv hw, AgentMatches, or_left_comm]

theorem approval_message_iff {v w : ExecutionVerdict} (hw : Registered w) (env : Env)
    (body : Text) :
    approvalKey ++ v.approvalMetadata <:+: messageOf body w env ↔ ApprovalMatches v w body env := by
  have hblank : apart approvalKey [newline, newline] = true := by decide
  have hrest : approvalKey ++ v.approvalMetadata <:+: [newline, newline] ++ trailerText w env ↔
      approvalKey ++ v.approvalMetadata <:+: trailerText w env := infix_append_of_apart hblank
  rw [List.cons_append, List.singleton_append] at hrest
  rw [messageOf, infix_append_iff, hrest, approval_infix_iff hw, ApprovalMatches, or_left_comm]

/-- **A message with the trailers of a verdict passes for the verdict.** -/
theorem own_trailers_pass {v : ExecutionVerdict} (hv : Registered v) (env : Env) (head : Text) :
    validateExecutionTrailers (head ++ trailerText v env) v = [] := by
  rw [validate_eq_nil_iff hv]
  constructor
  · exact ((agent_infix_iff hv hv env).mpr (.inl rfl)).trans (List.suffix_append _ _).isInfix
  · exact ((approval_infix_iff hv env _).mpr (.inl (List.prefix_refl _))).trans
      (List.suffix_append _ _).isInfix

/-- The commits of two verdicts are to be told apart. -/
def Differ (v w : ExecutionVerdict) : Prop :=
  v.executorId ≠ w.executorId ∨ v.approvalMetadata ≠ w.approvalMetadata

/--
**The trailers bind a commit to its own approval** exactly when not both the executor and the
approval of the one verdict are found in the other's, or are quoted in the message.
-/
theorem commit_trailers_bind_iff {v w : ExecutionVerdict} (hv : Issued v)
    (hvallowed : v.allowed = true) (hw : Issued w) (hwallowed : w.allowed = true)
    (env : Env) (body : Text) :
    ((∀ head, validateExecutionTrailers (head ++ trailerText v env) v = []) ∧
        (Differ v w → validateExecutionTrailers (messageOf body w env) v ≠ [])) ↔
      (Differ v w → ¬(AgentMatches v w body ∧ ApprovalMatches v w body env)) := by
  have hrv := hv.registered hvallowed
  have hrw := hw.registered hwallowed
  rw [and_iff_right (own_trailers_pass hrv env), ne_eq, validate_eq_nil_iff hrv,
    agent_message_iff hrv hrw, approval_message_iff hrw]

/-! ## Two operators -/

/-- The risky change that the sample lane lets run with the approval of an operator. -/
def approvedBy (approver : Text) : ExecutionVerdict :=
  authorizeExecution (some riskyDecision) (some sampleHandoff) { summary := lit "rewrite" }
    (some ⟨true⟩) (some ⟨approver, lit "d1", true⟩)

theorem approvedBy_issued (approver : Text) : Issued (approvedBy approver) := .lane _ _ _ _ _

/-- The trailers of an approval by one operator are no pass for an approval by another one. -/
theorem commits_of_two_operators :
    validateExecutionTrailers
      (messageOf (lit "fix: x") (approvedBy (lit "kim")) fun _ => []) (approvedBy (lit "lee")) ≠ [] := by
  refine ((commit_trailers_bind_iff (approvedBy_issued (lit "lee")) (by decide)
    (approvedBy_issued (lit "kim")) (by decide) (fun _ => []) (lit "fix: x")).mpr ?_).2
    (.inr (by decide))
  rintro - ⟨-, hbegins | hstarts | hinside⟩
  · exact absurd hbegins (by decide)
  · -- no position of the subject starts like the trailer
    exact not_startsIn_of_apart (by decide) hstarts
  · exact absurd (Py.contains_iff.mpr hinside) (by decide)

/-- **The trailers of `kim2` pass for the approval of `kim`**, whose name is the start of it. -/
theorem longer_operator_passes :
    ¬ ∀ (v w : ExecutionVerdict) (env : Env) (body : Text), Issued v → v.allowed = true →
      Issued w → w.allowed = true → Differ v w →
      validateExecutionTrailers (messageOf body w env) v ≠ [] := by
  intro h
  refine h (approvedBy (lit "kim")) (approvedBy (lit "kim2")) (fun _ => []) (lit "fix: x")
    (approvedBy_issued _) (by decide) (approvedBy_issued _) (by decide)
    (.inr (by decide)) ?_
  decide +kernel

end ForgeKit.DecisionLane
