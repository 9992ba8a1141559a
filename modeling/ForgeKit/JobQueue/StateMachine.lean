import Mathlib.Data.List.Basic

/-!
# The job state machine (`job_queue/state_machine.py`)

The micro lifecycle of one dispatched job. `validateTransition` is the only reader of the
table `stateTransitions`; a same-state transition is rejected as well.
-/

namespace ForgeKit

/-- The 11 lifecycle states, in the order of the happy path. -/
inductive JobState where
  | discovered
  | queued
  | assigned
  | inProgress
  | waitingForRole
  | researching
  | pendingApproval
  | readyForObsidian
  | saved
  | failedRetryable
  | failedTerminal
deriving DecidableEq, Repr, Inhabited

namespace JobState

/-- The text stored in the `state` column. -/
def value : JobState → String
  | discovered => "discovered"
  | queued => "queued"
  | assigned => "assigned"
  | inProgress => "in_progress"
  | waitingForRole => "waiting_for_role"
  | researching => "researching"
  | pendingApproval => "pending_approval"
  | readyForObsidian => "ready_for_obsidian"
  | saved => "saved"
  | failedRetryable => "failed_retryable"
  | failedTerminal => "failed_terminal"

/-- The allowed transitions, `STATE_TRANSITIONS`. -/
def stateTransitions : JobState → List JobState
  | discovered => [queued, failedTerminal]
  | queued => [assigned, waitingForRole, failedTerminal]
  | assigned => [inProgress, queued, failedRetryable]
  | inProgress => [researching, pendingApproval, readyForObsidian, saved, failedRetryable,
      failedTerminal, waitingForRole]
  | waitingForRole => [queued, assigned, failedTerminal]
  | researching => [inProgress, readyForObsidian, failedRetryable, failedTerminal]
  | pendingApproval => [inProgress, readyForObsidian, saved, failedTerminal]
  | readyForObsidian => [assigned, saved, failedRetryable, failedTerminal]
  | failedRetryable => [queued, failedTerminal]
  | saved => []
  | failedTerminal => []

/-- `TERMINAL_STATES`. -/
def terminalStates : List JobState := [saved, failedTerminal]

/-- True for the states the supervisor leaves alone. -/
def isTerminal (state : JobState) : Bool := terminalStates.contains state

/-- Fails with the text of the `ValueError` when the transition is not allowed. -/
def validateTransition (current target : JobState) : Except String Unit :=
  if current = target then
    .error ("job state transition '" ++ current.value ++ "' → '" ++ target.value ++ "' is a no-op")
  else if target ∉ stateTransitions current then
    .error ("job state transition '" ++ current.value ++ "' → '" ++ target.value
      ++ "' is not allowed")
  else .ok ()

/-- An edge of the table. -/
def Edge (current target : JobState) : Prop := target ∈ stateTransitions current

instance (current target : JobState) : Decidable (Edge current target) :=
  inferInstanceAs (Decidable (target ∈ stateTransitions current))

/-! ## What the table says -/

theorem edge_irrefl (s : JobState) : ¬Edge s s := by
  cases s <;> decide

/-- The no-op check is subsumed by the table, which has no loops. -/
theorem validateTransition_ok_iff {current target : JobState} {u : Unit} :
    validateTransition current target = .ok u ↔ Edge current target := by
  unfold validateTransition
  by_cases he : current = target
  · subst he
    simp [edge_irrefl]
  · rw [if_neg he]
    by_cases hm : target ∈ stateTransitions current
    · simp [hm, Edge]
    · simp [hm, Edge]

theorem validateTransition_error_iff {current target : JobState} :
    (∃ msg, validateTransition current target = .error msg) ↔ ¬Edge current target := by
  rw [← validateTransition_ok_iff (u := ())]
  cases validateTransition current target <;> simp

theorem isTerminal_iff {s : JobState} : s.isTerminal = true ↔ s = saved ∨ s = failedTerminal := by
  cases s <;> decide

/-- The terminal states are exactly the ones with no outgoing edge. -/
theorem isTerminal_iff_no_edge {s : JobState} : s.isTerminal = true ↔ ∀ t, ¬Edge s t := by
  constructor
  · intro h t
    rcases isTerminal_iff.mp h with rfl | rfl <;> simp [Edge, stateTransitions]
  · intro h
    cases hs : stateTransitions s with
    | nil => cases s <;> simp_all [stateTransitions, isTerminal, terminalStates]
    | cons t ts => exact absurd (by simp [Edge, hs]) (h t)

/-- `queued` is entered from four states only. -/
theorem edge_queued_iff {s : JobState} :
    Edge s queued ↔ s = discovered ∨ s = assigned ∨ s = waitingForRole ∨ s = failedRetryable := by
  cases s <;> decide

end JobState

end ForgeKit
