import ForgeKit.Autopilot.Arbiter
import ForgeKit.Autopilot.BoundedMutator
import ForgeKit.DecisionLane.Enforcement
import ForgeKit.Lib.Machine

/-!
# Autopilot cycles that share the executor slot (`autopilot/orchestrator`, `run_cycle`)

A cycle goes from one use of the slot to the next in steps, so that other cycles and other clients
of the arbiter can come in between. What `risk_of`, the authorizer and the mutator answer, or that
they raise, comes from outside with each step.

* `always_slotKept_iff` — the runs in which the slot is never lost
-/

namespace ForgeKit.Autopilot

open Py (Text lit)
open DecisionLane (ExecutionVerdict)

/-! ## The cycle -/

/-- `AutopilotOrchestrator`: its rails, and which of its callables are set. -/
structure Orchestrator where
  allowlist : List Text := [lit "forgekit", lit "bkurs-fe", lit "bkurs-be"]
  failureThreshold : Int := 3
  killSwitch : Bool := false
  hasMutator : Bool := false
  hasAuthorizer : Bool := false
deriving DecidableEq

/-- An entry of `proposed`. -/
inductive Proposal where
  | notSafe (finding decisionClass approvalLevel : Text)
  | queued (finding queuedFor : Text)
  | laneBlocked (finding executor actionClass : Text) (reasons : List Text)
  | noMutator (finding : Text)
  | refused (finding executor reason : Text)
deriving DecidableEq

/-- An entry of `executed`. -/
structure Execution where
  finding : Text
  executor : Text
  path : Text
  linesChanged : Nat
  approval : Text
deriving DecidableEq

/-- `AutopilotRunResult`. -/
structure RunResult where
  repo : Text
  steps : List Text := []
  executed : List Execution := []
  proposed : List Proposal := []
  executorLog : List Text := []
  blockedRepo : Bool := false
  halted : Bool := false
  haltReason : Text := []
deriving DecidableEq

/-- Where a cycle stands: before its next finding, with the slot before the authorizer, with the
slot before the mutator, returned or raised. -/
inductive Phase where
  | looking
  | granted (finding : RepoFinding) (decision : TechLeadDecision) (executor : Text)
  | authorized (finding : RepoFinding) (executor approvalMeta : Text)
  | returned
  | raised
deriving DecidableEq

/-- A call of `run_cycle`. -/
structure Cycle where
  orchestrator : Orchestrator
  rest : List RepoFinding
  failures : Int := 0
  result : RunResult
  phase : Phase := .looking
deriving DecidableEq

/-- What the callables of a cycle answer in a step; `none` is an exception. -/
structure Answers where
  risk : Option Text := some []
  verdict : Option (Option ExecutionVerdict) := some none
  outcome : Option ExecOutcome := none
deriving DecidableEq

namespace Cycle

/-- The start of `run_cycle`. -/
def begin (orchestrator : Orchestrator) (repo : Text) (findings : List RepoFinding) : Cycle :=
  if Py.strip repo ∉ orchestrator.allowlist then
    { orchestrator, rest := [], phase := .returned
      result := { repo, blockedRepo := true
                  haltReason := lit "repo '" ++ repo ++ lit "' 은 allowlist("
                    ++ commaJoin orchestrator.allowlist ++ lit ") 밖 — 거부" } }
  else if orchestrator.killSwitch then
    { orchestrator, rest := [], phase := .returned
      result := { repo, halted := true, haltReason := lit "kill switch on — 정지" } }
  else { orchestrator, rest := findings, result := { repo } }

def addSteps (c : Cycle) (steps : List Text) : Cycle :=
  { c with result := { c.result with steps := c.result.steps ++ steps } }

/-- `continue` with a proposal. -/
def propose (c : Cycle) (p : Proposal) : Cycle :=
  { c with result := { c.result with proposed := c.result.proposed ++ [p] }, phase := .looking }

def raise (c : Cycle) : Cycle := { c with phase := .raised }

/-- One step before the next finding: the chain, then the slot for what it lets through. -/
def look (c : Cycle) (log : List Text) (answers : Answers) : SlotOp × (Bool → Cycle) :=
  match c.rest with
  | [] =>
    (.idle, fun _ => { c with result := { c.result with executorLog := log }, phase := .returned })
  | finding :: rest =>
    match answers.risk with
    | none => (.idle, fun _ => c.raise)
    | some risk =>
      let (executor, decision) := runInternalChain finding risk
      let c := { c with rest }.addSteps
        [lit "observe:" ++ finding.finding.take 30, lit "classify", lit "pm_structure",
          lit "gateway_route", lit "tech_lead_signoff:" ++ decision.decisionClass]
      if canSpecialistExecute (some decision) then
        (.acquire executor, fun granted =>
          if granted then { c with phase := .granted finding decision executor }
          else c.propose (.queued finding.finding executor))
      else
        (.idle, fun _ =>
          c.propose (.notSafe finding.finding decision.decisionClass decision.approvalLevel))

/-- The authorizer's step, with the slot. -/
def authorize (c : Cycle) (finding : RepoFinding) (executor : Text) (answers : Answers) :
    SlotOp × (Bool → Cycle) :=
  if c.orchestrator.hasAuthorizer then
    let c := c.addSteps [lit "lane_authorize"]
    match answers.risk, answers.verdict with
    | some _, some none => (.idle, fun _ => { c with phase := .authorized finding executor [] })
    | some _, some (some verdict) =>
      if verdict.allowed then
        (.idle, fun _ => { c with phase := .authorized finding executor verdict.approvalMetadata })
      else
        (.release executor, fun _ => c.propose
          (.laneBlocked finding.finding executor verdict.actionClass verdict.blockingReasons))
    | _, _ => (.abandon executor, fun _ => c.raise)
  else (.idle, fun _ => { c with phase := .authorized finding executor [] })

/-- A mutation that was refused or is not verified. -/
def refuse (c : Cycle) (finding : RepoFinding) (executor : Text) (outcome : ExecOutcome) : Cycle :=
  { c with failures := c.failures + 1 }.propose (.refused finding.finding executor
    (if outcome.refusedReason = [] then lit "verify 실패" else outcome.refusedReason))

/-- From the threshold on a failure ends the cycle. -/
def fail (c : Cycle) (finding : RepoFinding) (executor : Text) (outcome : ExecOutcome) : Cycle :=
  let c := c.refuse finding executor outcome
  if c.orchestrator.failureThreshold ≤ c.failures then
    { c with rest := []
             result := { c.result with
               halted := true
               haltReason := lit "verify 실패 반복 — cooldown/정지 (커밋하지 않음)" } }
  else c

/-- The mutator's step, with the slot. -/
def mutate (c : Cycle) (finding : RepoFinding) (executor approvalMeta : Text) (answers : Answers) :
    SlotOp × (Bool → Cycle) :=
  if c.orchestrator.hasMutator then
    match answers.outcome with
    | none => (.abandon executor, fun _ => c.raise)
    | some outcome =>
      let c := c.addSteps [lit "execute:" ++ executor, lit "verify"]
      if outcome.executed && outcome.verified then
        let execution := ⟨finding.finding, executor, outcome.path, outcome.linesChanged, approvalMeta⟩
        (.release executor, fun _ =>
          { c with result := { c.result with executed := c.result.executed ++ [execution] }
                   phase := .looking }.addSteps [lit "record"])
      else (.release executor, fun _ => c.fail finding executor outcome)
  else (.release executor, fun _ => c.propose (.noMutator finding.finding))

/-- One step of a cycle: what it does with the slot, and how it goes on from the answer. -/
def advance (c : Cycle) (log : List Text) (answers : Answers) : SlotOp × (Bool → Cycle) :=
  match c.phase with
  | .looking => c.look log answers
  | .granted finding _ executor => c.authorize finding executor answers
  | .authorized finding executor approvalMeta => c.mutate finding executor approvalMeta answers
  | .returned => (.idle, fun _ => c)
  | .raised => (.idle, fun _ => c)

end Cycle

/-! ## Cycles and other clients -/

/-- A client of the arbiter: a cycle by its number, or another one. -/
inductive Client (κ : Type) where
  | cycle (i : Nat)
  | other (client : κ)
deriving DecidableEq

structure World (κ : Type) where
  slot : Slot (Client κ) := {}
  cycles : List Cycle := []

/-- What happens next: another client uses the arbiter, a cycle is called, or goes on. -/
inductive Event (κ : Type) where
  | acquire (client : κ) (executor : Text)
  | release (client : κ) (executor : Text)
  | runCycle (orchestrator : Orchestrator) (repo : Text) (findings : List RepoFinding)
  | advance (i : Nat) (answers : Answers)

namespace World

variable {κ : Type} [DecidableEq κ]

omit [DecidableEq κ] in
/-- Who uses the slot in an event, and how. -/
def opOf (w : World κ) : Event κ → Client κ × SlotOp
  | .acquire client executor => (.other client, .acquire executor)
  | .release client executor => (.other client, .release executor)
  | .runCycle _ _ _ => (.cycle w.cycles.length, .idle)
  | .advance i answers =>
    (.cycle i, (w.cycles[i]?.map fun c => (c.advance w.slot.arbiter.log answers).1).getD .idle)

/-- The cycles after an event, from what the arbiter answered. -/
def cyclesAfter (w : World κ) (granted : Bool) : Event κ → List Cycle
  | .runCycle orchestrator repo findings => w.cycles ++ [Cycle.begin orchestrator repo findings]
  | .advance i answers =>
    w.cycles.modify i fun c => (c.advance w.slot.arbiter.log answers).2 granted
  | _ => w.cycles

def step (w : World κ) (e : Event κ) : World κ :=
  let (granted, slot) := w.slot.perform (w.opOf e).1 (w.opOf e).2
  ⟨slot, w.cyclesAfter granted e⟩

/-- The event keeps the slot. -/
def Keeps (w : World κ) (e : Event κ) : Prop := w.slot.Keeps (w.opOf e).1 (w.opOf e).2

/-- **The slot is never lost along a run** exactly when each event of the run keeps it. -/
theorem always_slotKept_iff (events : List (Event κ)) :
    Machine.Always step (fun w => w.slot.SlotKept) ({} : World κ) events ↔
      Machine.EachStep step Keeps ({} : World κ) events := by
  have hinitial : ({} : World κ).slot.SlotKept :=
    Slot.slotKept_iff.mpr ⟨fun _ hx => absurd hx List.not_mem_nil, fun _ => rfl⟩
  have hstep : ∀ (w : World κ) (e : Event κ), True → True → w.slot.SlotKept →
      ((w.step e).slot.SlotKept ↔ w.Keeps e) := by
    intro w e _ _ hkept
    exact Slot.slotKept_perform_iff hkept _ _
  exact Machine.always_iff_eachStep (fun _ _ _ _ => trivial) hstep trivial hinitial
    fun _ _ => trivial

/-! ### A lost slot -/

def qaFinding : RepoFinding := { repo := lit "forgekit", finding := lit "x", kind := lit "test" }

/-- A client has the slot as `qa`; a cycle asks for it under the same name and moves on; the client
releases it. -/
def passedOn : List (Event Unit) :=
  [.acquire () (lit "qa"), .runCycle {} (lit "forgekit") [qaFinding], .advance 0 {}, .advance 0 {},
    .release () (lit "qa")]

/-- A cycle with an authorizer, which raises. -/
def raisedUnder : List (Event Unit) :=
  [.runCycle { hasAuthorizer := true } (lit "forgekit") [qaFinding], .advance 0 {},
    .advance 0 { verdict := none }]

/-- **The slot is lost**, to a name whose owner moved on, and to a cycle that raised: no client has
a grant, and the slot is not free. -/
theorem slot_lost :
    ¬Machine.Always step (fun w => w.slot.SlotKept) ({} : World Unit) passedOn ∧
      ¬Machine.Always step (fun w => w.slot.SlotKept) ({} : World Unit) raisedUnder := by
  have hlost : ∀ events : List (Event Unit),
      (Machine.run step ({} : World Unit) events).slot.unreleased = [] →
      (Machine.run step ({} : World Unit) events).slot.arbiter.holder = some (lit "qa") →
      ¬Machine.Always step (fun w => w.slot.SlotKept) ({} : World Unit) events := by
    intro events hnone hholder halways
    have hkept := Machine.always_iff_prefix.mp halways events (List.prefix_refl _)
    rw [hkept.free hnone] at hholder
    cases hholder
  exact ⟨hlost _ (by decide +kernel) (by decide +kernel),
    hlost _ (by decide +kernel) (by decide +kernel)⟩

end World

end ForgeKit.Autopilot
