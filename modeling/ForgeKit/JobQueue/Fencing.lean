import ForgeKit.JobQueue.Fleet

/-!
# Leases do not fence `transition`

`renew_lease` compares `picked_by` with the caller; `transition` compares nothing. A worker
whose lease was reaped keeps calling `transition` on a row that another worker holds by now,
and only the state table can turn the call down.

`noStaleChange_iff` says along every run exactly when the table does: the row must not be in
one of the few states from which the call's target is reachable.
-/

namespace ForgeKit

/-- The part of a row that belongs to its lease holder. -/
def Job.leaseView (r : Job) : JobState × Dict Json × Option String × Option Time :=
  (r.state, r.result, r.pickedBy, r.pickedUntil)

namespace Fleet

open JobQueue

/-- The ticket whose worker issues the action's `transition`. -/
def caller? (s : Fleet) : FleetAction → Option Ticket
  | .start i _ => s.tickets[i]?
  | .finish i _ _ => s.tickets[i]?
  | _ => none

/-- A call by a worker that lost its lease to another worker leaves the row as it is. -/
def NoStaleChange (s : Fleet) (a : FleetAction) : Prop :=
  ∀ t, s.caller? a = some t → t.status = .fenced →
    ((s.step a).queue.get t.jobId).map Job.leaseView = (s.queue.get t.jobId).map Job.leaseView

/-- The states from which a worker's call gets through, by the target of the call. -/
def openStates : JobState → List JobState
  | .inProgress => [.assigned]
  | .saved => [.inProgress]
  | .failedRetryable => [.assigned, .inProgress]
  | .failedTerminal => [.queued, .inProgress, .failedRetryable]
  | _ => []

/-- The row is in no state that lets the call of the fenced worker through. -/
def StaleBlocked (s : Fleet) (a : FleetAction) : Prop :=
  ∀ t c r, s.caller? a = some t → t.status = .fenced → s.call? a = some c →
    s.queue.get t.jobId = some r → r.state ∉ openStates c.target

/-! ## One call of a worker -/

theorem mem_tickets_of_caller? {s : Fleet} {a : FleetAction} {t : Ticket}
    (h : s.caller? a = some t) : t ∈ s.tickets := by
  cases a with
  | start i now => exact List.mem_of_getElem? h
  | finish i o now => exact List.mem_of_getElem? h
  | _ => cases h

/-- A worker calls `transition` on the job of its ticket, for one of four targets. -/
theorem call?_of_caller? {s : Fleet} {a : FleetAction} {t : Ticket} {c : TransitionArgs}
    (ht : s.caller? a = some t) (hc : s.call? a = some c) :
    c.jobId = t.jobId
      ∧ (c.target = .inProgress ∨ c.target = .saved ∨ c.target = .failedRetryable
        ∨ c.target = .failedTerminal) := by
  cases a with
  | start i now =>
    simp only [caller?] at ht
    simp only [call?, ht, Option.bind_some] at hc
    split at hc
    · cases hc; exact ⟨rfl, .inl rfl⟩
    · cases hc
  | finish i o now =>
    simp only [caller?] at ht
    simp only [call?, ht, Option.bind_some] at hc
    split at hc
    · cases hc; exact ⟨rfl, .inr o.target_cases⟩
    · cases hc
  | _ => cases ht

/-- A worker's action does nothing to a row but its `transition` call. -/
theorem rewrite_of_caller? {s : Fleet} {a : FleetAction} {t : Ticket} (ht : s.caller? a = some t)
    (r : Job) : s.rewrite a r = s.callRewrite a r := by
  cases a with
  | start i now => rfl
  | finish i o now => rfl
  | _ => cases ht

/-- On the states that occur, the table and `openStates` agree. -/
theorem edge_iff_mem_openStates {state target : JobState} (hs : state ∈ workerStates)
    (hw : state ≠ .waitingForRole)
    (ht : target = .inProgress ∨ target = .saved ∨ target = .failedRetryable
      ∨ target = .failedTerminal) :
    JobState.Edge state target ↔ state ∈ openStates target := by
  rcases ht with rfl | rfl | rfl | rfl <;> cases state <;> revert hs hw <;> decide

/-- A call of a fenced worker changes the row exactly when the row is in an open state. -/
theorem leaseView_rewrite_eq_iff {c : TransitionArgs} {r : Job} :
    (c.rewrite r).leaseView = r.leaseView ↔ c.moves r = false := by
  constructor
  · intro h
    by_contra hm
    exact TransitionArgs.rewrite_state_ne (by simpa using hm) (congrArg Prod.fst h)
  · intro h
    rw [TransitionArgs.rewrite, if_neg (by simp [h])]

theorem noStaleChange_iff_staleBlocked {s : Fleet} (hinv : Inv s) (a : FleetAction) :
    NoStaleChange s a ↔ StaleBlocked s a := by
  have key : ∀ t, s.caller? a = some t →
      ∃ r, s.queue.get t.jobId = some r ∧
        (((s.step a).queue.get t.jobId).map Job.leaseView
            = (s.queue.get t.jobId).map Job.leaseView
          ↔ ∀ c, s.call? a = some c → r.state ∉ openStates c.target) := by
    intro t ht
    -- a worker has a ticket, so its row is there and does not wait for a parent
    have hpicked : t.jobId ∈ s.picked := List.mem_map_of_mem (mem_tickets_of_caller? ht)
    obtain ⟨r, hr, hw⟩ := hinv.picked _ hpicked
    refine ⟨r, hr, ?_⟩
    rw [get_step_of_some s a hr, hr, rewrite_of_caller? ht, Option.map_some, Option.map_some,
      Option.some_inj, callRewrite]
    cases hc : s.call? a with
    | none => simp
    | some c =>
      obtain ⟨hid, htgt⟩ := call?_of_caller? ht hc
      have hedge := edge_iff_mem_openStates (hinv.states _ r hr) hw htgt
      simp only [Option.some_inj, forall_eq']
      rw [leaseView_rewrite_eq_iff, ← hedge, ← Bool.not_eq_true, TransitionArgs.moves_iff]
      simp [get_jobId hr, hid]
  constructor
  · intro h t c r ht hst hc hr
    obtain ⟨r', hr', hiff⟩ := key t ht
    rw [hr] at hr'
    cases hr'
    exact hiff.mp (h t ht hst) c hc
  · intro h t ht hst
    obtain ⟨r, hr, hiff⟩ := key t ht
    exact hiff.mpr fun c hc => h t c r ht hst hc hr

/-! ## Along a run -/

/--
**When fenced workers leave a row alone.**

In every run from an empty queue: no call of a fenced worker changes the row it is about,
exactly when each such call finds the row outside the open states of its target.
-/
theorem noStaleChange_iff (as : List FleetAction) :
    Machine.EachStep Fleet.step NoStaleChange empty as
      ↔ Machine.EachStep Fleet.step StaleBlocked empty as :=
  Machine.eachStep_congr (A := fun _ => True) (I := Inv) (fun _ a _ h => h.step a)
    (fun _ a _ h => noStaleChange_iff_staleBlocked h a) Inv.empty fun _ _ => trivial

/-- Worker `A` sleeps past its lease; the job is reaped, requeued and picked by `B`. -/
def sleepingWorkerRun : List FleetAction :=
  [.enqueue { jobId := "job", sessionId := "session", jobType := "role_take",
              role := some "tech-lead", now := 0 },
   .pick .roleTake { workerId := "A", jobTypes := ["role_take"], now := 1 },
   .start 0 1,
   .reapExpiredLeases 62,
   .requeueRead "job" 5 62,
   .requeueWrite 0,
   .pick .roleTake { workerId := "B", jobTypes := ["role_take"], now := 68 },
   .start 1 68]

/-- `A` wakes up and saves the job that `B` is working on. -/
theorem not_noStaleChange_sleepingWorker :
    ¬Machine.EachStep Fleet.step NoStaleChange empty
      (sleepingWorkerRun ++ [.finish 0 (.roleTakeSaved true) 70]) := by
  intro h
  have hlast := (Machine.eachStep_append.mp h).2.1
  have hticket : (Machine.run Fleet.step empty sleepingWorkerRun).caller?
      (.finish 0 (.roleTakeSaved true) 70)
      = some { jobId := "job", workerId := "A", kind := .roleTake, phase := .inProgress,
               status := .fenced } := by decide +kernel
  have hsame := congrArg (Option.map Prod.fst) (hlast _ hticket rfl)
  simp only [Option.map_map] at hsame
  revert hsame
  decide +kernel

end Fleet

end ForgeKit
