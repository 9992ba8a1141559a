import Mathlib
import ForgeKit.CodingExecute.CodingLoop

/-!
# The retry budget and what spends it

`max_attempts` is compared with the number of entries in the retry log, and every poll writes an
entry: a pull request that is polled while its checks run uses up its retries. `attempts_run`
says what the log counts, `countsFailures_iff` when that number gives the verdict the number of
failures would give.
-/

namespace ForgeKit

/-- The entry of one pull request is not touched by the record of another. -/
theorem readRetryLog_record_ne {extra recorded : Dict Json} {prNumber other : Int}
    {headSha reason attemptedAt : String} (hne : other ≠ prNumber)
    (hrec : recordRetryAttempt extra prNumber headSha reason attemptedAt = some recorded) :
    readRetryLog recorded other = readRetryLog extra other := by
  obtain ⟨log, -, rfl⟩ := Option.map_eq_some_iff.mp hrec
  have hkey : toString other ≠ toString prNumber := fun h => hne (Int.repr_injective h)
  have hentry : ∀ payload, retryLogEntry (extra.set retryLogKey
      (.obj ((((extra.getJson retryLogKey).obj?).getD []).set (toString prNumber) payload))) other
        = retryLogEntry extra other := by
    intro payload
    simp only [retryLogEntry, Dict.getJson_set_self, Json.obj?, Dict.getJson_set_ne _ _ hkey]
    cases (extra.getJson retryLogKey) <;> rfl
  rw [readRetryLog, hentry]
  rfl

namespace CodingLoop

/-- The polls of pull request `pr` for session `i`. -/
def pollsOf (i : Nat) (pr : Int) (as : List LoopAction) : List CiRetry.PollArgs :=
  as.filterMap fun
    | .poll j a => if j = i ∧ a.prNumber = pr then some a else none
    | _ => none

/-- Those that found a failure. -/
def failuresOf (i : Nat) (pr : Int) (as : List LoopAction) : List CiRetry.PollArgs :=
  (pollsOf i pr as).filter fun a => a.status.conclusion.isFailure

/-- What a poll decides. -/
def decision? (s : CodingLoop) (i : Nat) (a : CiRetry.PollArgs) : Option CiRetry.CIRetryDecision :=
  s.sessions[i]?.bind fun session =>
    (CiRetry.orchestrateCiRetry s.queue session a).map fun r => r.1

/-- Session `i` has `n` attempts in its log of pull request `pr`. -/
def Logged (s : CodingLoop) (i : Nat) (pr : Int) (n : Int) : Prop :=
  ∃ session log, s.sessions[i]? = some session ∧ readRetryLog session.extra pr = some log
    ∧ log.attempts = n

/-- The decision on a failure is `blocked` exactly when the failures have used up the budget. -/
def CountsFailures (as : List LoopAction) (i : Nat) (a : CiRetry.PollArgs)
    (d : CiRetry.CIRetryDecision) : Prop :=
  d.completionStatus = "blocked" ↔ a.policy.maxAttempts ≤ (failuresOf i a.prNumber as).length

/-! ## What the log counts -/

theorem pollsOf_append (i : Nat) (pr : Int) (as bs : List LoopAction) :
    pollsOf i pr (as ++ bs) = pollsOf i pr as ++ pollsOf i pr bs := List.filterMap_append

theorem pollsOf_of_session?_ne {i : Nat} (pr : Int) {a : LoopAction} (h : a.session? ≠ some i) :
    pollsOf i pr [a] = [] := by
  cases a with
  | poll j a =>
    have hj : j ≠ i := fun hj => h (congrArg some hj)
    simp [pollsOf, hj]
  | _ => rfl

/-- A poll of the session adds an attempt if it is about that pull request. -/
theorem logged_poll {s : CodingLoop} {i : Nat} {pr n : Int} (h : s.Logged i pr n)
    (a : CiRetry.PollArgs) :
    (s.step (.poll i a)).Logged i pr (n + (pollsOf i pr [.poll i a]).length) := by
  obtain ⟨session, log, hi, hlog, hn⟩ := h
  cases hread : readRetryLog session.extra a.prNumber with
  | none =>
    -- the poll raises on a broken entry; ours is readable, so it is another one
    have hpr : a.prNumber ≠ pr := by rintro rfl; rw [hlog] at hread; cases hread
    refine ⟨session, log, ?_, hlog, by simpa [pollsOf, hpr] using hn⟩
    simp only [step, hi, CiRetry.orchestrateCiRetry, hread]
    exact hi
  | some read =>
    obtain ⟨d, q, session', recorded, hcall, -, hrec, hkey⟩ :=
      CiRetry.orchestrateCiRetry_of_log (q := s.queue) hread
    have hstep : (s.step (.poll i a)).sessions[i]? = some session' := by
      simp only [step, hi, hcall]
      exact sessions_store_self hi _ _
    by_cases hpr : a.prNumber = pr
    · subst hpr
      rw [hlog] at hread
      cases hread
      obtain ⟨log', hlog', hn'⟩ := readRetryLog_record_self hlog hrec
      refine ⟨session', log', hstep, (readRetryLog_congr _ hkey).trans hlog', ?_⟩
      simp [pollsOf, hn', hn]
    · refine ⟨session', log, hstep, ?_, by simpa [pollsOf, hpr] using hn⟩
      rw [readRetryLog_congr _ hkey, readRetryLog_record_ne (Ne.symm hpr) hrec, hlog]

/-- One action adds an attempt if it is a poll of that pull request, whatever the poll finds. -/
theorem logged_step {s : CodingLoop} {i : Nat} {pr n : Int} (h : s.Logged i pr n)
    (a : LoopAction) : (s.step a).Logged i pr (n + (pollsOf i pr [a]).length) := by
  by_cases ha : a.session? = some i
  · cases a with
    | fleet b => cases ha
    | poll j a =>
      obtain rfl : j = i := Option.some.inj ha
      exact logged_poll h a
    | dispatch j env jobId now dispatchedAt =>
      obtain rfl : j = i := Option.some.inj ha
      obtain ⟨session, log, hi, hlog, hn⟩ := h
      let session' := (Dispatcher.dispatchSession s.queue session env jobId now dispatchedAt).2.2
      have hkey : session'.extra.getJson retryLogKey = session.extra.getJson retryLogKey :=
        Dispatcher.dispatchSession_getJson_ne (by decide) (by decide)
      have hlog' := (readRetryLog_congr pr hkey).trans hlog
      refine ⟨session', log, ?_, hlog', by simpa [pollsOf] using hn⟩
      simp only [step, hi]
      exact sessions_store_self hi _ _
  · rw [pollsOf_of_session?_ne pr ha]
    obtain ⟨session, log, hi, hlog, hn⟩ := h
    exact ⟨session, log, (sessions_step_ne s ha).trans hi, hlog, by simpa using hn⟩

/-- Along a run the log counts the polls. -/
theorem attempts_run {s : CodingLoop} {i : Nat} {pr n : Int} (h : s.Logged i pr n)
    (as : List LoopAction) :
    (Machine.run step s as).Logged i pr (n + (pollsOf i pr as).length) := by
  induction as using List.reverseRecOn with
  | nil => simpa [pollsOf] using h
  | append_singleton as a ih =>
    rw [Machine.run_concat, pollsOf_append]
    simpa [add_assoc] using logged_step ih a

/-! ## The verdict on a failure -/

/--
**When the budget counts failures only.**

Take a session without a log of the pull request, any run of dispatches, polls and workers, and
then a poll that finds a failure. The poll goes through, and it counts failures exactly if there
were less than `max_attempts` earlier polls in all, or that many earlier failures.
-/
theorem countsFailures_iff (sessions : List WorkflowSession) (i : Nat)
    (session : WorkflowSession) (hi : sessions[i]? = some session) (as : List LoopAction)
    (a : CiRetry.PollArgs) (hnew : (retryLogEntry session.extra a.prNumber).truthy = false)
    (hfail : a.status.conclusion.isFailure = true) :
    ∃ d, (Machine.run step (start sessions) as).decision? i a = some d
      ∧ (CountsFailures as i a d
          ↔ (pollsOf i a.prNumber as).length < a.policy.maxAttempts
            ∨ a.policy.maxAttempts ≤ (failuresOf i a.prNumber as).length) := by
  have hstart : (start sessions).Logged i a.prNumber 0 :=
    ⟨session, _, hi, readRetryLog_new hnew, rfl⟩
  obtain ⟨session', log, hi', hlog, hn⟩ := attempts_run hstart as
  obtain ⟨d, q, session'', recorded, hcall, hstatus, -⟩ :=
    CiRetry.orchestrateCiRetry_of_log (q := (Machine.run step (start sessions) as).queue) hlog
  have hle : (failuresOf i a.prNumber as).length ≤ (pollsOf i a.prNumber as).length :=
    List.length_filter_le _ _
  refine ⟨d, by simp [decision?, hi', hcall], ?_⟩
  rw [CountsFailures, hstatus, deriveCompletionStatus_failure hfail, hn]
  omega

/-- One poll of pull request 7. -/
def pollFinding (conclusion : CIConclusion) : CiRetry.PollArgs :=
  { prNumber := 7, headSha := "abc", status := ⟨7, "abc", conclusion, []⟩, jobId := "retry",
    now := 10, polledAt := "2026-01-01T00:00:10+00:00", stamp := ⟨"entry", "decision", "now"⟩ }

/-- Three polls while the checks run. -/
def pendingRun : List LoopAction := List.replicate 3 (.poll 0 (pollFinding .pending))

theorem countsFailures_iff_pendingRun :
    ∃ d, (Machine.run step (start [{ sessionId := "session" }]) pendingRun).decision? 0
        (pollFinding .failure) = some d
      ∧ (CountsFailures pendingRun 0 (pollFinding .failure) d
          ↔ (pollsOf 0 7 pendingRun).length < (3 : Int)
            ∨ (3 : Int) ≤ (failuresOf 0 7 pendingRun).length) :=
  countsFailures_iff [{ sessionId := "session" }] 0 { sessionId := "session" } rfl pendingRun
    (pollFinding .failure) rfl rfl

/-- The first failure of a pull request whose checks were pending three times is blocked. -/
theorem not_countsFailures_pendingRun :
    ∃ d, (Machine.run step (start [{ sessionId := "session" }]) pendingRun).decision? 0
        (pollFinding .failure) = some d
      ∧ ¬CountsFailures pendingRun 0 (pollFinding .failure) d := by
  have hstatus : ((Machine.run step (start [{ sessionId := "session" }]) pendingRun).decision? 0
      (pollFinding .failure)).map (fun d => d.completionStatus) = some "blocked" := by
    decide +kernel
  obtain ⟨d, hd, hblocked⟩ := Option.map_eq_some_iff.mp hstatus
  exact ⟨d, hd, fun h => absurd (h.mp hblocked) (by decide)⟩

end CodingLoop

end ForgeKit
