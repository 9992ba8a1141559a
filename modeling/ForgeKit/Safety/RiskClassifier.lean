import ForgeKit.Lib.Escalation
import ForgeKit.Lib.PyStr

/-!
# The risk of one tool call (`safety/risk_classifier.py`)

A call starts at the class of its tool and climbs with each rule that fires. A push climbs to the
highest class when its target or an argument is, as a whole, the name of a protected branch.

* `critical_iff` — which pushes are critical
* `classifyToolCall_mono` — more arguments never lower the class
-/

namespace ForgeKit.Safety

open Py (Text CodePoint lit strip lower ofChar)

/-! ## Classes, calls and signals -/

inductive RiskClass where
  | safe
  | low
  | medium
  | high
  | critical
deriving DecidableEq, Repr

namespace RiskClass

/-- `_CLASS_ORDER`. -/
def order : RiskClass → Nat
  | safe => 0
  | low => 1
  | medium => 2
  | high => 3
  | critical => 4

/-- The `value` of the class. -/
def value : RiskClass → Text
  | safe => lit "SAFE"
  | low => lit "LOW"
  | medium => lit "MEDIUM"
  | high => lit "HIGH"
  | critical => lit "CRITICAL"

theorem eq_critical_iff {r : RiskClass} : r = critical ↔ critical.order ≤ r.order := by
  cases r <;> decide

end RiskClass

structure ToolCallContext where
  toolId : Text
  target : Text := []
  args : List Text := []
  role : Text := []
  autonomyLevel : Text := []

namespace ToolCallContext

def normalisedToolId (ctx : ToolCallContext) : Text := lower (strip ctx.toolId)

def normalisedTarget (ctx : ToolCallContext) : Text := strip ctx.target

end ToolCallContext

structure RiskSignal where
  name : Text
  weight : RiskClass
  evidence : Text
deriving DecidableEq

/-! ## The catalogue -/

/-- `_PROTECTED_BRANCHES`. -/
def protectedBranches : List Text :=
  [lit "main", lit "master", lit "develop", lit "release", lit "prod", lit "production"]

/-- `_SAFE_TOOL_IDS`. -/
def safeToolIds : List Text :=
  [lit "read_file", lit "glob", lit "grep", lit "git_status", lit "git_log", lit "git_diff", lit "ls"]

/-- `_LOW_TOOL_IDS`. -/
def lowToolIds : List Text := [lit "edit_file", lit "git_add", lit "unittest", lit "pytest"]

/-- `_MEDIUM_TOOL_IDS`. -/
def mediumToolIds : List Text :=
  [lit "git_commit", lit "git_branch_create", lit "new_module_add", lit "subprocess_within_repo"]

/-- `_HIGH_TOOL_IDS`. -/
def highToolIds : List Text :=
  [lit "git_push", lit "external_http_fetch", lit "subprocess_outside_repo", lit "live_llm_call",
    lit "env_local_modify", lit "secret_decode_attempt"]

/-- `_CRITICAL_TOOL_IDS`. -/
def criticalToolIds : List Text :=
  [lit "git_reset_hard", lit "rm_rf", lit "force_push", lit "secret_rotation",
    lit "protected_branch_push", lit "dangerouslydisablesandbox", lit "git_no_verify"]

/-- `_baseline_for_tool`. -/
def baselineForTool (toolId : Text) : RiskClass × Text :=
  if safeToolIds.contains toolId then (.safe, lit "tool_id.catalogue.safe")
  else if lowToolIds.contains toolId then (.low, lit "tool_id.catalogue.low")
  else if mediumToolIds.contains toolId then (.medium, lit "tool_id.catalogue.medium")
  else if highToolIds.contains toolId then (.high, lit "tool_id.catalogue.high")
  else if criticalToolIds.contains toolId then (.critical, lit "tool_id.catalogue.critical")
  else (.medium, lit "tool_id.unknown.default_medium")

/-- `_DANGEROUS_ARG_FLAGS`; the name is the last part of the one in the table. -/
def dangerousArgFlags : List (Text × RiskClass × Text) :=
  [(lit "--force", .critical, lit "force"), (lit "-f", .high, lit "short_force"),
    (lit "--no-verify", .critical, lit "no_verify"), (lit "--hard", .critical, lit "hard_reset"),
    (lit "-rf", .critical, lit "rm_rf"),
    (lit "dangerouslydisablesandbox", .critical, lit "sandbox_disable")]

/-- `_SECRET_KEYWORDS`. -/
def secretKeywords : List Text :=
  [lit "secret", lit "token", lit "credential", lit "api_key", lit "apikey", lit "private_key"]

def slash : CodePoint := ofChar '/'

/-- `_matches_protected_branch`. -/
def matchesProtectedBranch (target : Text) : Bool :=
  let candidate := lower (strip target)
  if protectedBranches.contains candidate then true
  else if Py.startsWith candidate (lit "refs/heads/") then
    protectedBranches.contains (candidate.rtakeWhile (· ≠ slash))
  else if Py.startsWith candidate (lit "origin/") then
    protectedBranches.contains ((candidate.dropWhile (· ≠ slash)).drop 1)
  else false

/-- `_matches_env_local`. -/
def matchesEnvLocal (target : Text) : Bool :=
  let lowered := lower (strip target)
  Py.endsWith lowered (lit ".env.local") || Py.endsWith lowered (lit "/.env")
    || lowered == lit ".env.local"

/-- `_contains_secret_keyword`. -/
def containsSecretKeyword (text : Text) : Bool :=
  secretKeywords.any fun keyword => Py.contains (lower text) keyword

/-! ## The rules -/

variable (ctx : ToolCallContext)

/-- A push to a protected branch. -/
def protectedPush : Option RiskSignal :=
  if [lit "git_push", lit "force_push", lit "protected_branch_push"].contains ctx.normalisedToolId
      && (matchesProtectedBranch ctx.normalisedTarget || ctx.args.any matchesProtectedBranch) then
    some
      { name := lit "rule.protected_branch.push", weight := .critical
        evidence := lit "target="
          ++ if ctx.normalisedTarget = [] then lit "<args>" else ctx.normalisedTarget }
  else none

/-- A change of a local environment file. -/
def envLocalModify : Option RiskSignal :=
  if [lit "edit_file", lit "env_local_modify", lit "write_file"].contains ctx.normalisedToolId
      && matchesEnvLocal ctx.normalisedTarget then
    some
      { name := lit "rule.env_local.modify", weight := .high
        evidence := lit "target=" ++ ctx.normalisedTarget }
  else none

/-- A flag of the table among the arguments. -/
def dangerousFlag (entry : Text × RiskClass × Text) : Option RiskSignal :=
  if (ctx.args.map lower).contains entry.1 then
    some
      { name := lit "rule.dangerous_flag." ++ entry.2.2, weight := entry.2.1
        evidence := lit "flag=" ++ entry.1 }
  else none

/-- A secret that is read, or a word for one. -/
def secretKeyword : Option RiskSignal :=
  if ctx.normalisedToolId = lit "secret_decode_attempt" then
    some
      { name := lit "rule.secret.decode_attempt", weight := .high
        evidence := lit "tool_id=secret_decode_attempt" }
  else if containsSecretKeyword ctx.normalisedTarget || ctx.args.any containsSecretKeyword then
    some
      { name := lit "rule.secret.keyword", weight := .high
        evidence := lit "target_or_args_contains_secret_keyword" }
  else none

/-- A subprocess outside of the repository. -/
def outsideRepo : Option RiskSignal :=
  if ctx.normalisedToolId = lit "subprocess_outside_repo" then
    some
      { name := lit "rule.subprocess.outside_repo", weight := .high
        evidence := lit "target=" ++ ctx.normalisedTarget }
  else none

/-- A rotation of secrets. -/
def secretRotation : Option RiskSignal :=
  if ctx.normalisedToolId = lit "secret_rotation"
      ∨ (ctx.args.map lower).contains (lit "secret_rotation") = true then
    some
      { name := lit "rule.secret.rotation", weight := .critical, evidence := lit "secret_rotation" }
  else none

/-- The rules, in the order in which they fire. -/
def rules : List (Option RiskSignal) :=
  [protectedPush ctx, envLocalModify ctx] ++ dangerousArgFlags.map (dangerousFlag ctx)
    ++ [secretKeyword ctx, outsideRepo ctx, secretRotation ctx]

/-- What the catalogue says of the tool. -/
def baseline : RiskSignal :=
  let (weight, name) := baselineForTool ctx.normalisedToolId
  { name := name, weight := weight
    evidence := lit "tool_id="
      ++ if ctx.normalisedToolId = [] then lit "<empty>" else ctx.normalisedToolId }

/-- `classify_tool_call`. -/
def classifyToolCall : RiskClass × List RiskSignal :=
  Escalation.classify RiskClass.order RiskSignal.weight (baseline ctx) (rules ctx)

/-! ## What the rules say -/

variable {ctx}

theorem mem_rules {s : RiskSignal} : some s ∈ rules ctx ↔
    protectedPush ctx = some s ∨ envLocalModify ctx = some s
      ∨ (∃ entry ∈ dangerousArgFlags, dangerousFlag ctx entry = some s)
      ∨ secretKeyword ctx = some s ∨ outsideRepo ctx = some s ∨ secretRotation ctx = some s := by
  simp only [rules, List.mem_append, List.mem_cons, List.not_mem_nil, or_false, List.mem_map,
    or_assoc, @eq_comm _ (some s)]

/-- An argument that is critical by itself. -/
def CriticalFlag (ctx : ToolCallContext) : Prop :=
  ∃ arg ∈ ctx.args,
    lower arg ∈ [lit "--force", lit "--no-verify", lit "--hard", lit "-rf",
      lit "dangerouslydisablesandbox"] ∨ lower arg = lit "secret_rotation"

/-- A target or an argument that is, as a whole, read as the name of a protected branch. -/
def NamesProtected (ctx : ToolCallContext) : Prop :=
  ∃ token ∈ ctx.normalisedTarget :: ctx.args, matchesProtectedBranch token = true

theorem protectedPush_isSome_iff (htool : ctx.normalisedToolId = lit "git_push") :
    (protectedPush ctx).isSome = true ↔ NamesProtected ctx := by
  unfold protectedPush NamesProtected
  rw [htool, List.exists_mem_cons_iff, ← List.any_eq_true (p := matchesProtectedBranch),
    ← Bool.or_eq_true]
  cases hpush : matchesProtectedBranch ctx.normalisedTarget || ctx.args.any matchesProtectedBranch
  · exact iff_of_false (by simp) (by simp)
  · exact iff_of_true rfl rfl

theorem weight_of_protectedPush {s : RiskSignal} (h : protectedPush ctx = some s) :
    s.weight = .critical := by
  obtain ⟨-, h⟩ := Option.ite_none_right_eq_some.mp h
  cases h
  rfl

/-- The rules whose signals are not critical. -/
theorem weight_of_high {s : RiskSignal} (h : envLocalModify ctx = some s
    ∨ secretKeyword ctx = some s ∨ outsideRepo ctx = some s) : s.weight = .high := by
  rcases h with h | h | h
  · obtain ⟨-, h⟩ := Option.ite_none_right_eq_some.mp h
    cases h
    rfl
  · unfold secretKeyword at h
    split at h
    · cases h
      rfl
    · obtain ⟨-, h⟩ := Option.ite_none_right_eq_some.mp h
      cases h
      rfl
  · obtain ⟨-, h⟩ := Option.ite_none_right_eq_some.mp h
    cases h
    rfl

theorem dangerousFlag_eq_some_iff {entry : Text × RiskClass × Text} {s : RiskSignal} :
    dangerousFlag ctx entry = some s ↔ (∃ arg ∈ ctx.args, lower arg = entry.1)
      ∧ { name := lit "rule.dangerous_flag." ++ entry.2.2, weight := entry.2.1
          evidence := lit "flag=" ++ entry.1 } = s := by
  rw [dangerousFlag, Option.ite_none_right_eq_some, List.contains_iff_mem, List.mem_map,
    Option.some.injEq]

/-- A flag of the table that is critical. -/
theorem mem_criticalFlags {flag : Text} :
    flag ∈ [lit "--force", lit "--no-verify", lit "--hard", lit "-rf",
        lit "dangerouslydisablesandbox"]
      ↔ ∃ name, (flag, RiskClass.critical, name) ∈ dangerousArgFlags := by
  simp [dangerousArgFlags, exists_or]

theorem secretRotation_eq_some_iff (htool : ctx.normalisedToolId = lit "git_push")
    {s : RiskSignal} : secretRotation ctx = some s ↔
      (∃ arg ∈ ctx.args, lower arg = lit "secret_rotation")
      ∧ { name := lit "rule.secret.rotation", weight := .critical
          evidence := lit "secret_rotation" } = s := by
  have hother : lit "git_push" ≠ lit "secret_rotation" := by decide
  rw [secretRotation, Option.ite_none_right_eq_some, htool, or_iff_right hother,
    List.contains_iff_mem, List.mem_map, Option.some.injEq]

/-- **A push is critical when it names a protected branch as a whole, or has a critical flag.** -/
theorem classifyToolCall_critical_iff (htool : ctx.normalisedToolId = lit "git_push") :
    (classifyToolCall ctx).1 = .critical ↔ NamesProtected ctx ∨ CriticalFlag ctx := by
  rw [RiskClass.eq_critical_iff, classifyToolCall, Escalation.le_rank_classify_iff]
  constructor
  · rintro (hbase | ⟨s, hs, hle⟩)
    · rw [baseline, htool] at hbase
      exact absurd hbase (by decide)
    · rcases mem_rules.mp hs with h | h | ⟨⟨flag, weight, name⟩, hentry, h⟩ | h | h | h
      · exact .inl ((protectedPush_isSome_iff htool).mp (Option.isSome_of_eq_some h))
      · rw [weight_of_high (.inl h)] at hle
        exact absurd hle (by decide)
      · obtain ⟨⟨arg, harg, hflag⟩, rfl⟩ := dangerousFlag_eq_some_iff.mp h
        obtain rfl := RiskClass.eq_critical_iff.mpr hle
        exact .inr ⟨arg, harg, .inl (hflag ▸ mem_criticalFlags.mpr ⟨name, hentry⟩)⟩
      · rw [weight_of_high (.inr (.inl h))] at hle
        exact absurd hle (by decide)
      · rw [weight_of_high (.inr (.inr h))] at hle
        exact absurd hle (by decide)
      · obtain ⟨⟨arg, harg, hflag⟩, -⟩ := (secretRotation_eq_some_iff htool).mp h
        exact .inr ⟨arg, harg, .inr hflag⟩
  · rintro (hnames | ⟨arg, harg, hflag | hflag⟩)
    · obtain ⟨s, hs⟩ := Option.isSome_iff_exists.mp ((protectedPush_isSome_iff htool).mpr hnames)
      exact .inr ⟨s, mem_rules.mpr (.inl hs), by rw [weight_of_protectedPush hs]⟩
    · obtain ⟨name, hentry⟩ := mem_criticalFlags.mp hflag
      have hs : dangerousFlag ctx (lower arg, .critical, name) = some _ :=
        dangerousFlag_eq_some_iff.mpr ⟨⟨arg, harg, rfl⟩, rfl⟩
      exact .inr ⟨_, mem_rules.mpr (.inr (.inr (.inl ⟨_, hentry, hs⟩))), Nat.le_refl _⟩
    · have hs := (secretRotation_eq_some_iff htool).mpr ⟨⟨arg, harg, hflag⟩, rfl⟩
      exact .inr ⟨_, mem_rules.mpr (.inr (.inr (.inr (.inr (.inr hs))))), Nat.le_refl _⟩

/-! ## More arguments -/

variable {args args' : List Text}

/-- A rule that fires fires with more arguments as well. -/
theorem rules_subset (h : args ⊆ args') {s : RiskSignal}
    (hs : some s ∈ rules { ctx with args := args }) : some s ∈ rules { ctx with args := args' } := by
  have hany : ∀ p : Text → Bool, args.any p = true → args'.any p = true := by
    intro p hp
    obtain ⟨arg, harg, hp⟩ := List.any_eq_true.mp hp
    exact List.any_eq_true.mpr ⟨arg, h harg, hp⟩
  have hflag : ∀ flag, (args.map lower).contains flag = true →
      (args'.map lower).contains flag = true := by
    intro flag hflag
    rw [List.contains_iff_mem] at hflag ⊢
    exact List.map_subset lower h hflag
  rw [mem_rules] at hs ⊢
  rcases hs with hs | hs | ⟨entry, hentry, hs⟩ | hs | hs | hs
  · refine .inl ?_
    unfold protectedPush at hs ⊢
    rw [Option.ite_none_right_eq_some] at hs ⊢
    refine hs.imp_left fun hpush => ?_
    rw [Bool.and_eq_true, Bool.or_eq_true] at hpush ⊢
    exact hpush.imp_right fun hmatch => hmatch.imp_right (hany _)
  · exact .inr (.inl hs)
  · refine .inr (.inr (.inl ⟨entry, hentry, ?_⟩))
    unfold dangerousFlag at hs ⊢
    rw [Option.ite_none_right_eq_some] at hs ⊢
    exact hs.imp_left (hflag _)
  · refine .inr (.inr (.inr (.inl ?_)))
    unfold secretKeyword at hs ⊢
    by_cases hdecode : ctx.normalisedToolId = lit "secret_decode_attempt"
    · exact (if_pos hdecode).trans ((if_pos hdecode).symm.trans hs)
    · refine (if_neg hdecode).trans (Option.ite_none_right_eq_some.mpr ?_)
      replace hs := Option.ite_none_right_eq_some.mp ((if_neg hdecode).symm.trans hs)
      refine hs.imp_left fun hword => ?_
      rw [Bool.or_eq_true] at hword ⊢
      exact hword.imp_right (hany _)
  · exact .inr (.inr (.inr (.inr (.inl hs))))
  · refine .inr (.inr (.inr (.inr (.inr ?_))))
    unfold secretRotation at hs ⊢
    rw [Option.ite_none_right_eq_some] at hs ⊢
    exact hs.imp_left fun hrotation => hrotation.imp_right (hflag _)

/-- **More arguments never lower the class.** -/
theorem classifyToolCall_mono (h : args ⊆ args') :
    (classifyToolCall { ctx with args := args }).1.order
      ≤ (classifyToolCall { ctx with args := args' }).1.order :=
  Escalation.rank_classify_mono (Nat.le_refl _) fun s hs => ⟨s, rules_subset h hs, Nat.le_refl _⟩

end ForgeKit.Safety
