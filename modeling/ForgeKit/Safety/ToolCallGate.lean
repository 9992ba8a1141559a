import ForgeKit.Safety.RiskClassifier

/-!
# The gate ahead of a tool call (`safety/tool_call_gate.py`)

The class of a call and the autonomy of its caller decide whether it is allowed, has to be approved
or is blocked. What git takes for the destination of a push is a part of a refspec; the classifier
looks at the whole of it.

* `gateToolCall_action` — the action, when the gate is on
* `guardsProtected_iff` — when a push to a protected branch is blocked
* `gateToolCall_allow_of_subset` — more arguments do not open the gate
-/

namespace ForgeKit.Safety

open Py (Text CodePoint lit strip lower ofChar)

/-! ## The environment -/

/-- What the environment says of a variable. -/
abbrev Env := Text → Option Text

/-- `_gate_enabled`. -/
def gateEnabled (env : Env) : Bool :=
  match env (lit "YULE_TOOL_GATE_ENABLED") with
  | none => true
  | some raw =>
    let text := lower (strip raw)
    if text = [] then true
    else [lit "true", lit "1", lit "yes", lit "on"].contains text

/-- `_resolve_autonomy`. -/
def resolveAutonomy (ctxAutonomy : Text) (env : Env) : Text :=
  let explicit := strip ctxAutonomy
  if explicit ≠ [] then explicit
  else
    let configured := strip ((env (lit "YULE_TOOL_GATE_DEFAULT_AUTONOMY")).getD [])
    if configured ≠ [] then configured else lit "L2_autonomous_record"

/-! ## The matrix -/

inductive GateAction where
  | allow
  | requireApproval
  | block
deriving DecidableEq, Repr

/-- `_GATE_MATRIX`. -/
def gateMatrix : List (Text × (RiskClass → GateAction)) :=
  [(lit "l0_manual_only", fun
      | .safe | .low | .medium | .high => .requireApproval
      | .critical => .block),
    (lit "l1_advisory", fun
      | .safe | .low => .allow
      | .medium | .high => .requireApproval
      | .critical => .block),
    (lit "l2_autonomous_record", fun
      | .safe | .low | .medium => .allow
      | .high => .requireApproval
      | .critical => .block),
    (lit "l3_human_approval", fun
      | .safe => .allow
      | .low | .medium | .high => .requireApproval
      | .critical => .block),
    (lit "l4_full_autonomous", fun
      | .safe | .low | .medium | .high => .allow
      | .critical => .block)]

/-- `_AUTONOMY_ALIASES`. -/
def autonomyAliases : List (Text × Text) :=
  [(lit "l0", lit "l0_manual_only"), (lit "l1", lit "l1_advisory"),
    (lit "l2", lit "l2_autonomous_record"), (lit "l3", lit "l3_human_approval"),
    (lit "l4", lit "l4_full_autonomous")]

/-- `_normalise_autonomy_key`. -/
def normaliseAutonomyKey (value : Text) : Text :=
  let text := lower (strip value)
  if text = [] then lit "l2_autonomous_record"
  else if (gateMatrix.map Prod.fst).contains text then text
  else (autonomyAliases.lookup text).getD text

/-- `_resolve_action`. -/
def resolveAction (autonomyKey : Text) (risk : RiskClass) : GateAction × Text :=
  if risk = .critical then (.block, lit "hard_rail.critical_always_blocked")
  else match gateMatrix.lookup autonomyKey with
    | none => (.requireApproval, lit "autonomy.unknown.fallback_l0:" ++ autonomyKey)
    | some row => (row risk, lit "matrix." ++ (autonomyKey ++ (lit "." ++ risk.value)))

/-! ## The gate -/

/-- A call of `record_mistake`; its level is `BLOCK`. -/
structure LedgerCall where
  role : Text
  pattern : Text
  signature : Text
deriving DecidableEq

structure ToolGateVerdict where
  riskClass : RiskClass
  action : GateAction
  reason : Text
  signatures : List Text := []
  evaluatedAt : Text

/-- `_ledger_signature`. -/
def ledgerSignature (risk : RiskClass) : Text :=
  lit "tool_gate." ++ (lower risk.value ++ lit ".blocked")

/-- `_register_block_signature`, where a ledger is there: nothing that it raises comes back. -/
def registerBlockSignature (risk : RiskClass) (ctx : ToolCallContext) : LedgerCall :=
  let role := strip (if ctx.role = [] then lit "engineering-agent" else ctx.role)
  { role := if role = [] then lit "engineering-agent" else role
    pattern := lit "tool_call_gate." ++ lower risk.value
    signature := ledgerSignature risk }

/-- `gate_tool_call`: the verdict, and what is asked of the ledger. -/
def gateToolCall (classifier : ToolCallContext → RiskClass × List RiskSignal) (ledger : Bool)
    (env : Env) (nowIso : Text) (ctx : ToolCallContext) : ToolGateVerdict × Option LedgerCall :=
  if gateEnabled env = false then
    ({ riskClass := .safe, action := .allow, reason := lit "gate disabled", evaluatedAt := nowIso },
      none)
  else
    let risk := (classifier ctx).1
    let key := normaliseAutonomyKey (resolveAutonomy ctx.autonomyLevel env)
    let (action, reason) := resolveAction key risk
    if action = .block then
      ({ riskClass := risk, action := action, reason := reason
         signatures := [ledgerSignature risk], evaluatedAt := nowIso },
        if ledger then some (registerBlockSignature risk ctx) else none)
    else
      ({ riskClass := risk, action := action, reason := reason, evaluatedAt := nowIso }, none)

/-! ## Actions -/

/-- A row blocks what is critical and nothing else. -/
theorem row_eq_block_iff {row : Text × (RiskClass → GateAction)} (h : row ∈ gateMatrix)
    {risk : RiskClass} : row.2 risk = .block ↔ risk = .critical := by
  simp only [gateMatrix, List.mem_cons, List.not_mem_nil, or_false] at h
  rcases h with rfl | rfl | rfl | rfl | rfl <;> cases risk <;> decide

/-- A row that allows a class allows what is less risky. -/
theorem row_allow_of_le {row : Text × (RiskClass → GateAction)} (h : row ∈ gateMatrix)
    {risk risk' : RiskClass} (hle : risk.order ≤ risk'.order) (hallow : row.2 risk' = .allow) :
    row.2 risk = .allow := by
  simp only [gateMatrix, List.mem_cons, List.not_mem_nil, or_false] at h
  rcases h with rfl | rfl | rfl | rfl | rfl <;> cases risk <;> cases risk' <;>
    first | rfl | exact absurd hle (by decide) | exact absurd hallow (by decide)

/-- What the gate resolves for a class and a key allows the less risky classes as well. -/
theorem resolveAction_allow_of_le {key : Text} {risk risk' : RiskClass}
    (hle : risk.order ≤ risk'.order) (hallow : (resolveAction key risk').1 = .allow) :
    (resolveAction key risk).1 = .allow := by
  unfold resolveAction at hallow ⊢
  split at hallow
  · cases hallow
  · next hrisk' =>
    have hrisk : risk ≠ .critical := by
      rintro rfl
      exact hrisk' (RiskClass.eq_critical_iff.mpr hle)
    rw [if_neg hrisk]
    cases hrow : gateMatrix.lookup key with
    | none =>
      rw [hrow] at hallow
      cases hallow
    | some row =>
      rw [hrow] at hallow
      obtain ⟨front, back, heq, -⟩ := List.lookup_eq_some_iff.mp hrow
      have hmem : (key, row) ∈ gateMatrix := heq ▸ List.mem_append_right _ List.mem_cons_self
      exact row_allow_of_le hmem hle hallow

/-- What is resolved is to block when the class is critical. -/
theorem resolveAction_eq_block_iff {key : Text} {risk : RiskClass} :
    (resolveAction key risk).1 = .block ↔ risk = .critical := by
  unfold resolveAction
  split
  · next hrisk => exact iff_of_true rfl hrisk
  · next hrisk =>
    refine iff_of_false (fun h => hrisk ?_) hrisk
    cases hrow : gateMatrix.lookup key with
    | none =>
      rw [hrow] at h
      cases h
    | some row =>
      rw [hrow] at h
      obtain ⟨front, back, heq, -⟩ := List.lookup_eq_some_iff.mp hrow
      have hmem : (key, row) ∈ gateMatrix := heq ▸ List.mem_append_right _ List.mem_cons_self
      exact (row_eq_block_iff hmem).mp h

section Gate

variable {classifier : ToolCallContext → RiskClass × List RiskSignal} {ledger : Bool} {env : Env}
  {nowIso : Text} {ctx : ToolCallContext}

theorem gateToolCall_off (h : gateEnabled env = false) :
    (gateToolCall classifier ledger env nowIso ctx).1.riskClass = .safe
      ∧ (gateToolCall classifier ledger env nowIso ctx).1.action = .allow := by
  rw [gateToolCall, if_pos h]
  exact ⟨rfl, rfl⟩

/-- The class and the action of a gate that is on. -/
theorem gateToolCall_on (h : gateEnabled env = true) :
    (gateToolCall classifier ledger env nowIso ctx).1.riskClass = (classifier ctx).1
      ∧ (gateToolCall classifier ledger env nowIso ctx).1.action
        = (resolveAction (normaliseAutonomyKey (resolveAutonomy ctx.autonomyLevel env))
          (classifier ctx).1).1 := by
  rw [gateToolCall, if_neg (by simp [h])]
  dsimp only
  split <;> exact ⟨rfl, rfl⟩

end Gate

/-! ## Refspecs -/

def colon : CodePoint := ofChar ':'

/-- `[+]src[:dst]`. -/
structure Refspec where
  force : Bool
  src : Text
  dst : Option Text
  src_plain : colon ∉ src
  dst_plain : ∀ d, dst = some d → colon ∉ d

/-- How a refspec is written. -/
def Refspec.text (r : Refspec) : Text :=
  (if r.force then lit "+" else []) ++ (r.src ++ (r.dst.map (colon :: ·)).getD [])

/-- What a refspec pushes to. -/
def Refspec.destination (r : Refspec) : Text := r.dst.getD r.src

/-- A branch in its short form, below `refs/heads/` or below a remote. -/
def NamesBranch (branch ref : Text) : Prop :=
  ref = branch ∨ ref = lit "refs/heads/" ++ branch
    ∨ ∃ remote, remote ≠ [] ∧ slash ∉ remote ∧ ref = remote ++ slash :: branch

/-- A target or an argument is a refspec that pushes to a protected branch. -/
def PushesToProtected (ctx : ToolCallContext) : Prop :=
  ∃ r : Refspec, r.text ∈ ctx.target :: ctx.args
    ∧ ∃ branch ∈ protectedBranches, NamesBranch branch r.destination

/--
**When a push to a protected branch is blocked.** It is if and only if some target or argument is
read as a protected branch as a whole, or an argument is a critical flag. More arguments never lower
the class, and they do not open the gate.
-/
theorem guardsProtected_iff (ctx : ToolCallContext) :
    (∀ ledger env nowIso, gateEnabled env = true → ctx.normalisedToolId = lit "git_push" →
      ((PushesToProtected ctx →
          (gateToolCall classifyToolCall ledger env nowIso ctx).1.action = .block) ↔
        (PushesToProtected ctx → NamesProtected ctx ∨ CriticalFlag ctx))) ∧
    ∀ ledger env nowIso (args args' : List Text), args ⊆ args' →
      (classifyToolCall { ctx with args := args }).1.order
          ≤ (classifyToolCall { ctx with args := args' }).1.order ∧
        ((gateToolCall classifyToolCall ledger env nowIso { ctx with args := args' }).1.action
            = .allow →
          (gateToolCall classifyToolCall ledger env nowIso { ctx with args := args }).1.action
            = .allow) := by
  constructor
  · intro ledger env nowIso hon htool
    rw [(gateToolCall_on hon).2, resolveAction_eq_block_iff, classifyToolCall_critical_iff htool]
  · intro ledger env nowIso args args' hargs
    refine ⟨classifyToolCall_mono hargs, fun hallow => ?_⟩
    cases hon : gateEnabled env with
    | false => exact (gateToolCall_off hon).2
    | true =>
      rw [(gateToolCall_on hon).2] at hallow ⊢
      exact resolveAction_allow_of_le (classifyToolCall_mono hargs) hallow

/-- `git push origin HEAD:main`, by a caller of the highest autonomy. -/
def pushHeadToMain : ToolCallContext where
  toolId := lit "git_push"
  target := lit "origin"
  args := [lit "HEAD:main"]
  autonomyLevel := lit "L4"

theorem pushesToProtected_pushHeadToMain : PushesToProtected pushHeadToMain :=
  ⟨{ force := false, src := lit "HEAD", dst := some (lit "main"), src_plain := by decide
     dst_plain := by rintro _ ⟨⟩; decide },
    .tail _ (.head _), lit "main", .head _, .inl rfl⟩

/-- A push of the head to `main` is blocked when the branch is named as well. -/
theorem pushHeadToMain_named :
    (gateToolCall classifyToolCall false (fun _ => none) []
      { pushHeadToMain with args := [lit "HEAD:main", lit "main"] }).1.action = .block :=
  (((guardsProtected_iff { pushHeadToMain with args := [lit "HEAD:main", lit "main"] }).1
    false (fun _ => none) [] (by decide) (by decide)).mpr
      fun _ => .inl ⟨lit "main", by simp, by decide⟩)
    (by
      obtain ⟨r, hr, hnames⟩ := pushesToProtected_pushHeadToMain
      refine ⟨r, ?_, hnames⟩
      rcases List.mem_cons.mp hr with hr | hr
      · exact hr ▸ List.mem_cons_self
      · exact List.mem_cons_of_mem _ (List.mem_cons.mpr (.inl (List.mem_singleton.mp hr))))

/-- `HEAD:main` is allowed. -/
theorem pushHeadToMain_is_allowed :
    PushesToProtected pushHeadToMain ∧
      (gateToolCall classifyToolCall false (fun _ => none) [] pushHeadToMain).1.action = .allow :=
  ⟨pushesToProtected_pushHeadToMain, by decide⟩

end ForgeKit.Safety
