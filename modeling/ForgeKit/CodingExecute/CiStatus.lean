import ForgeKit.Lib.Json
import Mathlib.Algebra.Order.Ring.Unbundled.Rat

/-!
# CI verdicts and the retry log (`ci_status.py`)

`decideRetry` combines the CI conclusion of a pull request with its `RetryAttemptLog`; the log
lives in `session.extra`, one entry a pull request under `str(pr_number)`.

A stored log that is not a log makes `from_payload` raise; that is the `none` of
`readRetryLog` and `recordRetryAttempt`.
-/

namespace ForgeKit

/-- The normalised conclusions. -/
inductive CIConclusion where
  | success
  | failure
  | cancelled
  | timedOut
  | pending
  | unknown
deriving DecidableEq, Repr

namespace CIConclusion

def value : CIConclusion → String
  | success => "success"
  | failure => "failure"
  | cancelled => "cancelled"
  | timedOut => "timed_out"
  | pending => "pending"
  | unknown => "unknown"

/-- `is_failure`: the failure class. -/
def isFailure (c : CIConclusion) : Bool := [failure, cancelled, timedOut].contains c

end CIConclusion

/-- The aggregate CI result of one head commit. -/
structure CIStatus where
  prNumber : Int
  headSha : String
  conclusion : CIConclusion
  failingRuns : List String := []

/-- `CIRetryPolicy`. -/
structure CIRetryPolicy where
  maxAttempts : Int := 3
  baseBackoffSeconds : ℚ := 60
  backoffMultiplier : ℚ := 2
  maxBackoffSeconds : ℚ := 1800

/-- `backoff_for`. -/
def CIRetryPolicy.backoffFor (p : CIRetryPolicy) (attempt : Int) : ℚ :=
  if attempt ≤ 1 then 0
  else min p.maxBackoffSeconds
    (p.baseBackoffSeconds * p.backoffMultiplier ^ (attempt - 2).toNat)

/-- The attempts so far on one pull request. -/
structure RetryAttemptLog where
  prNumber : Int
  attempts : Int := 0
  lastAttemptAt : Json := .null
  lastFailureReason : Json := .null
  headShaHistory : List String := []

namespace RetryAttemptLog

/-- `to_payload`. -/
def toPayload (log : RetryAttemptLog) : Dict Json :=
  [("pr_number", .int log.prNumber),
   ("attempts", .int log.attempts),
   ("last_attempt_at", log.lastAttemptAt),
   ("last_failure_reason", log.lastFailureReason),
   ("head_sha_history", .arr (log.headShaHistory.map Json.str))]

/-- `int(payload.get(key) or 0)`. -/
def intOr0 (payload : Dict Json) (key : String) : Option Int :=
  ((payload.getJson key).orElse (.int 0)).toInt?

/-- `from_payload`, for a payload that is not empty. -/
def fromPayload (payload : Dict Json) : Option RetryAttemptLog := do
  let history ← (payload.getJson "head_sha_history").items?
  let prNumber ← intOr0 payload "pr_number"
  let attempts ← intOr0 payload "attempts"
  return {
    prNumber, attempts
    lastAttemptAt := payload.getJson "last_attempt_at"
    lastFailureReason := payload.getJson "last_failure_reason"
    headShaHistory := history.map Json.toStr }

/-- `appended`. -/
def appended (log : RetryAttemptLog) (headSha reason attemptedAt : String) : RetryAttemptLog where
  prNumber := log.prNumber
  attempts := log.attempts + 1
  lastAttemptAt := .str attemptedAt
  lastFailureReason := .str reason
  headShaHistory := log.headShaHistory ++ [headSha]

end RetryAttemptLog

/-- `RetryVerdict`. -/
structure RetryVerdict where
  shouldRetry : Bool
  reason : String
  nextAttempt : Int
  waitSeconds : ℚ := 0
  escalationStatus : Option String := none
  completionStatus : Option String := none

/-- Combines the CI verdict and the attempt log. -/
def decideRetry (status : CIStatus) (log : RetryAttemptLog) (pol : CIRetryPolicy) : RetryVerdict :=
  match status.conclusion with
  | .success =>
    { shouldRetry := false, reason := "ci passed — coding_execute terminal done",
      nextAttempt := log.attempts, completionStatus := some "done" }
  | .pending =>
    { shouldRetry := false, reason := "ci still pending — selector defers until run completes",
      nextAttempt := log.attempts }
  | .unknown =>
    { shouldRetry := false
      reason := "ci status unknown (no check runs / api unreachable) — "
        ++ "operator inspection required"
      nextAttempt := log.attempts, escalationStatus := some "blocked"
      completionStatus := some "blocked" }
  | conclusion =>
    if log.attempts ≥ pol.maxAttempts then
      { shouldRetry := false
        reason := "ci " ++ conclusion.value ++ " after " ++ toString log.attempts
          ++ " attempts (>= max " ++ toString pol.maxAttempts ++ ") — escalate to blocked, "
          ++ "operator review required"
        nextAttempt := log.attempts, escalationStatus := some "blocked"
        completionStatus := some "blocked" }
    else
      { shouldRetry := true
        reason := "ci " ++ conclusion.value ++ " on attempt " ++ toString log.attempts ++ "/"
          ++ toString pol.maxAttempts ++ " (" ++ toString status.failingRuns.length
          ++ " failing run(s)) — schedule retry"
        nextAttempt := log.attempts + 1, waitSeconds := pol.backoffFor (log.attempts + 1)
        completionStatus := some "retry_ready" }

/-- `derive_completion_status_from_ci`: a pending run keeps the job alive. -/
def deriveCompletionStatusFromCi (status : CIStatus) (log : RetryAttemptLog)
    (pol : CIRetryPolicy) : String :=
  ((decideRetry status log pol).completionStatus).getD "retry_ready"

/-! ## The log in `session.extra` -/

/-- `_RETRY_LOG_KEY`. -/
def retryLogKey : String := "ci_retry_logs"

/-- The stored entry of a pull request. -/
def retryLogEntry (extra : Dict Json) (prNumber : Int) : Json :=
  match (extra.getJson retryLogKey).obj? with
  | some logs => logs.getJson (toString prNumber)
  | none => .null

/-- `read_retry_log`; an entry that is missing or empty is an empty log. -/
def readRetryLog (extra : Dict Json) (prNumber : Int) : Option RetryAttemptLog :=
  if (retryLogEntry extra prNumber).truthy then
    match (retryLogEntry extra prNumber).obj? with
    | none => none
    | some payload => (RetryAttemptLog.fromPayload payload).map fun log =>
      if log.prNumber = 0 then { log with prNumber } else log
  else some { prNumber }

/-- `record_retry_attempt`. -/
def recordRetryAttempt (extra : Dict Json) (prNumber : Int) (headSha reason attemptedAt : String) :
    Option (Dict Json) :=
  (readRetryLog extra prNumber).map fun current =>
    let logs : Dict Json := ((extra.getJson retryLogKey).obj?).getD []
    extra.set retryLogKey (.obj (logs.set (toString prNumber)
      (.obj (current.appended headSha reason attemptedAt).toPayload)))

/-! ## Reading back what was recorded -/

/-- A log survives its payload. -/
theorem RetryAttemptLog.fromPayload_toPayload (log : RetryAttemptLog) :
    fromPayload log.toPayload = some log := by
  have hint : ∀ n : Int, ((Json.int n).orElse (.int 0)).toInt? = some n := by
    intro n
    by_cases h : n = 0 <;> simp [Json.orElse, Json.truthy, Json.toInt?, h]
  have hshas : (Json.arr (log.headShaHistory.map Json.str)).items?
      = some (log.headShaHistory.map Json.str) := by
    cases log.headShaHistory <;> simp [Json.items?, Json.truthy]
  have hback : (log.headShaHistory.map Json.str).map Json.toStr = log.headShaHistory := by
    simp [Function.comp_def, Json.toStr]
  simp [fromPayload, toPayload, intOr0, Dict.getJson, Dict.get?, hint, hshas, hback]

/-- The log depends on one key of `extra`. -/
theorem readRetryLog_congr {extra extra' : Dict Json} (prNumber : Int)
    (h : extra'.getJson retryLogKey = extra.getJson retryLogKey) :
    readRetryLog extra' prNumber = readRetryLog extra prNumber := by
  have hentry : retryLogEntry extra' prNumber = retryLogEntry extra prNumber := by
    rw [retryLogEntry, h]; rfl
  rw [readRetryLog, hentry]; rfl

/-- A pull request without an entry has an empty log. -/
theorem readRetryLog_new {extra : Dict Json} {prNumber : Int}
    (h : (retryLogEntry extra prNumber).truthy = false) :
    readRetryLog extra prNumber = some { prNumber } := by
  simp [readRetryLog, h]

/-- The entry of the recorded pull request is the log with one attempt more. -/
theorem readRetryLog_record_self {extra recorded : Dict Json} {prNumber : Int}
    {log : RetryAttemptLog} {headSha reason attemptedAt : String}
    (hlog : readRetryLog extra prNumber = some log)
    (hrec : recordRetryAttempt extra prNumber headSha reason attemptedAt = some recorded) :
    ∃ log', readRetryLog recorded prNumber = some log' ∧ log'.attempts = log.attempts + 1 := by
  simp only [recordRetryAttempt, hlog, Option.map_some, Option.some.injEq] at hrec
  subst hrec
  have hentry : ∀ logs : Dict Json, ∀ payload, retryLogEntry
      (extra.set retryLogKey (.obj (logs.set (toString prNumber) payload))) prNumber = payload := by
    intro logs payload
    simp [retryLogEntry, Json.obj?]
  have htruthy : (Json.obj (log.appended headSha reason attemptedAt).toPayload).truthy = true := rfl
  simp only [readRetryLog, hentry, htruthy, if_true, Json.obj?,
    RetryAttemptLog.fromPayload_toPayload, Option.map_some]
  split <;> exact ⟨_, rfl, rfl⟩

/-! ## What the verdict says -/

/-- The verdict on a failure is `blocked` exactly when the log has used up the attempts. -/
theorem deriveCompletionStatus_failure {status : CIStatus} {log : RetryAttemptLog}
    {pol : CIRetryPolicy} (h : status.conclusion.isFailure = true) :
    deriveCompletionStatusFromCi status log pol = "blocked" ↔ pol.maxAttempts ≤ log.attempts := by
  cases hc : status.conclusion with
  | success | pending | unknown => rw [hc] at h; exact absurd h (by decide)
  | failure | cancelled | timedOut =>
    by_cases hlim : pol.maxAttempts ≤ log.attempts
    · simp [deriveCompletionStatusFromCi, decideRetry, hc, hlim]
    · simp [deriveCompletionStatusFromCi, decideRetry, hc, hlim]

end ForgeKit
