import ForgeKit.CodingExecute.CiRetry
import ForgeKit.JobQueue.Fleet

/-!
# The coding loop

The fleet and the sessions together: the dispatcher and the retry orchestrator write both, the
workers write the fleet. The actions are the dispatch of one session, one poll for it, and one
transaction of anybody else, so a run is any interleaving of ticks, polls and workers.

A session is named by its place in the list, which no action changes.
-/

namespace ForgeKit

open JobQueue

/-- The queue with its workers, and the sessions as they are persisted. -/
structure CodingLoop where
  fleet : Fleet
  sessions : List WorkflowSession

/-- The dispatch of one session, one poll for it, or a transaction of anybody else. -/
inductive LoopAction where
  | dispatch (i : Nat) (env : Dispatcher.Env) (jobId : String) (now : Time) (dispatchedAt : String)
  | poll (i : Nat) (a : CiRetry.PollArgs)
  | fleet (a : FleetAction)

/-- The session that a producer works on. -/
def LoopAction.session? : LoopAction → Option Nat
  | .dispatch i _ _ _ _ => some i
  | .poll i _ => some i
  | .fleet _ => none

namespace CodingLoop

/-- No row yet, and the sessions as the gateway left them. -/
def start (sessions : List WorkflowSession) : CodingLoop := ⟨Fleet.empty, sessions⟩

/-- The tables. -/
def queue (s : CodingLoop) : JobQueue := s.fleet.queue

/-- The loop after a producer is done with session `i`. -/
def store (s : CodingLoop) (i : Nat) (q : JobQueue) (session : WorkflowSession) : CodingLoop :=
  { fleet := { s.fleet with queue := q }, sessions := s.sessions.set i session }

/-- One action. -/
def step (s : CodingLoop) : LoopAction → CodingLoop
  | .dispatch i env jobId now dispatchedAt =>
    match s.sessions[i]? with
    | none => s
    | some session =>
      let (_, q, session') := Dispatcher.dispatchSession s.queue session env jobId now dispatchedAt
      s.store i q session'
  | .poll i a =>
    match s.sessions[i]? with
    | none => s
    | some session =>
      match CiRetry.orchestrateCiRetry s.queue session a with
      | none => s
      | some (_, q, session') => s.store i q session'
  | .fleet a => { s with fleet := s.fleet.step a }

/-! ## Sessions -/

theorem sessions_store_self {s : CodingLoop} {i : Nat} {session : WorkflowSession}
    (hi : s.sessions[i]? = some session) (q : JobQueue) (session' : WorkflowSession) :
    (s.store i q session').sessions[i]? = some session' := by
  obtain ⟨hlt, -⟩ := List.getElem?_eq_some_iff.mp hi
  simp [store, hlt]

/-- An action leaves the sessions alone that it is not about. -/
theorem sessions_step_ne (s : CodingLoop) {a : LoopAction} {i : Nat} (h : a.session? ≠ some i) :
    (s.step a).sessions[i]? = s.sessions[i]? := by
  have hstore : ∀ j q session', j ≠ i → (s.store j q session').sessions[i]? = s.sessions[i]? := by
    intro j q session' hj
    simp [store, hj]
  cases a with
  | fleet b => rfl
  | dispatch j env jobId now dispatchedAt =>
    simp only [step]
    split
    · rfl
    · exact hstore _ _ _ fun hj => h (congrArg some hj)
  | poll j a =>
    simp only [step]
    split
    · rfl
    · split
      · rfl
      · exact hstore _ _ _ fun hj => h (congrArg some hj)

end CodingLoop

end ForgeKit
