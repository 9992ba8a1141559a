import ForgeKit.JobQueue.System

/-!
# One live coding job per key

`find_active` is the only guard against a second row, and it leaks in three places: its list
of active states omits `failed_retryable`, the insert happens in a later transaction, and a
revive does not consult it at all.

`atMostOneLive_iff` — two live rows with one key appear exactly when an insert or a revive
happens while a row with the key is live.
-/

namespace ForgeKit

open JobQueue

/-- Session, executor role and branch hint. -/
def Job.codingKey (r : Job) : String × String × String :=
  (r.sessionId, r.payload.strOr "executor_role" "", r.payload.strOr "branch_hint" "")

/-- A coding job that is not over. -/
def Job.isLiveCoding (r : Job) : Prop :=
  r.jobType = jobTypeCodingExecute ∧ r.state.isTerminal = false

namespace System

/-- No two live coding rows share a key. -/
def AtMostOneLive (s : System) : Prop :=
  ∀ k₁ k₂ r₁ r₂, s.queue.get k₁ = some r₁ → s.queue.get k₂ = some r₂ → r₁.isLiveCoding →
    r₂.isLiveCoding → r₁.codingKey = r₂.codingKey → k₁ = k₂

/-- No row with this key is live. -/
def KeyFree (s : System) (key : String × String × String) : Prop :=
  ∀ k r, s.queue.get k = some r → r.isLiveCoding → r.codingKey ≠ key

/-- A coding row that the step inserts or revives finds its key free. -/
structure FindsKeyFree (s : System) (a : SystemAction) : Prop where
  insert : ∀ args, s.inserts? a = some args → (s.queue.enqueue args).isOk = true →
    args.jobType = jobTypeCodingExecute → s.KeyFree args.job.codingKey
  revive : ∀ jobId note now r, s.revival? a = some (jobId, note, now) →
    s.queue.get jobId = some r → Recovery.revives jobId note now r = true →
    r.jobType = jobTypeCodingExecute → s.KeyFree r.codingKey

/-! ## One row -/

theorem isTerminal_false_of_edge {state target : JobState} (h : JobState.Edge state target) :
    state.isTerminal = false := by
  by_contra ht
  exact JobState.isTerminal_iff_no_edge.mp (by simpa using ht) target h

theorem codingKey_change {s : System} {a : SystemAction} {r r' : Job}
    (hch : SystemChange s a r r') : r'.codingKey = r.codingKey ∧ r'.jobType = r.jobType := by
  obtain ⟨-, hsess, hty, hpay⟩ := hch.identity
  exact ⟨by rw [Job.codingKey, hsess, hpay]; rfl, hty⟩

/-- A row that is live after a step was live before, or the step revives it. -/
theorem live_before {s : System} {a : SystemAction} {k : String} {r r' : Job}
    (hr : s.queue.get k = some r) (hch : SystemChange s a r r') (hl : r'.state.isTerminal = false) :
    r.state.isTerminal = false
      ∨ ∃ jobId note now, s.revival? a = some (jobId, note, now)
        ∧ Recovery.revives jobId note now r = true := by
  have hid := get_jobId hr
  cases hch with
  | same => exact .inl hl
  | fleet hb hch =>
    refine .inl ?_
    cases hch with
    | same => exact hl
    | assigned ha hp => rw [picks_spec (hid ▸ hr) hp]; rfl
    | moved hc hm => exact isTerminal_false_of_edge (TransitionArgs.moves_iff.mp hm).2
    | renewed ha hacc => exact hl
    | reaped ha hre => rcases reapable_state hre with h | h | h | h <;> rw [h] <;> rfl
  | transitioned hc hm => exact .inl (isTerminal_false_of_edge (TransitionArgs.moves_iff.mp hm).2)
  | revived hv hre => exact .inr ⟨_, _, _, hv, hre⟩
  | superseded ha hp hmem => cases hl

theorem rewrite_of_revival? {s : System} {a : SystemAction} {jobId : String} {note : Dict Json}
    {now : Time} (hv : s.revival? a = some (jobId, note, now)) :
    s.rewrite a = Recovery.reviveRewrite jobId note now := by
  cases a with
  | sweepWrite i resolver t => funext r; simp only [rewrite, hv]
  | revive id n t => funext r; simp only [rewrite, hv]
  | _ => cases hv

theorem live_job (args : JobQueue.EnqueueArgs) : args.job.state.isTerminal = false := by
  simp only [EnqueueArgs.job]
  split <;> rfl

/-! ## One step -/

/-- A step that breaks the property inserts or revives a row whose key is taken. -/
theorem findsKeyFree_of_step {s : System} {a : SystemAction} (h : AtMostOneLive (s.step a)) :
    FindsKeyFree s a := by
  refine ⟨?_, ?_⟩
  · intro args hins hok hty k r hr hl hkey
    obtain ⟨hfleet, hrw⟩ := step_of_inserts?_some hins
    have hrow := get_step_of_some s a hr
    rw [hrw] at hrow
    cases he : s.queue.enqueue args with
    | error e => rw [he] at hok; cases hok
    | ok p =>
      obtain ⟨j, q'⟩ := p
      obtain ⟨-, -, -, -, hfree, hget, -⟩ := enqueue_ok he
      have hq : (s.step a).queue = q' := by
        rw [queue, hfleet]
        simp only [Fleet.step]
        exact congrArg s.queue.commit he
      have hnew : (s.step a).queue.get args.jobId = some args.job := by
        rw [hq, hget, if_pos rfl]
      have hk := h _ _ _ _ hrow hnew hl ⟨hty, live_job args⟩ hkey
      rw [hk, hfree] at hr
      cases hr
  · intro jobId note now r₀ hv hr₀ hre hty k r hr hl hkey
    have hrw := rewrite_of_revival? hv
    obtain ⟨-, hst⟩ := revives_state hre
    have hne : r.jobId ≠ jobId := by
      intro he
      rw [get_jobId hr] at he
      rw [he, hr₀] at hr
      cases hr
      rw [Job.isLiveCoding, hst] at hl
      cases hl.2
    have hrow : (s.step a).queue.get k = some r := by
      rw [get_step_of_some s a hr, hrw, Recovery.reviveRewrite, if_neg]
      simp [Recovery.revives, hne]
    have hnew : (s.step a).queue.get jobId
        = some (Recovery.revive now ((Recovery.withRevival now note r₀.result).getD []) r₀) := by
      rw [get_step_of_some s a hr₀, hrw, Recovery.reviveRewrite, if_pos hre]
    have hk := h _ _ _ _ hrow hnew hl ⟨hty, rfl⟩ hkey
    exact hne (by rw [get_jobId hr, hk])

/-- The row `k` is made live by the step: it is the revived row, or the inserted one. -/
inductive Fresh (s : System) (a : SystemAction) (key : String × String × String) :
    String → Prop
  | revived {jobId : String} {note : Dict Json} {now : Time} {r : Job}
      (hv : s.revival? a = some (jobId, note, now)) (hr : s.queue.get jobId = some r)
      (hre : Recovery.revives jobId note now r = true) (hty : r.jobType = jobTypeCodingExecute)
      (hkey : r.codingKey = key) : Fresh s a key jobId
  | inserted {args : EnqueueArgs} (hins : s.inserts? a = some args)
      (hok : (s.queue.enqueue args).isOk = true) (hty : args.jobType = jobTypeCodingExecute)
      (hkey : args.job.codingKey = key) : Fresh s a key args.jobId

/-- The rows of a step: an old live row, or a fresh one. -/
theorem live_after_cases {s : System} {a : SystemAction} {k : String} {r' : Job}
    (hr' : (s.step a).queue.get k = some r') (hl : r'.isLiveCoding) :
    (∃ r, s.queue.get k = some r ∧ r.isLiveCoding ∧ r.codingKey = r'.codingKey)
      ∨ Fresh s a r'.codingKey k := by
  obtain ⟨hty, hlive⟩ := hl
  rcases get_step s a hr' with ⟨r, hr, rfl⟩ | ⟨args, hins, rfl, -, rfl, hok⟩
  · have hch := systemChange s a r
    obtain ⟨hkey, hsame⟩ := codingKey_change hch
    rw [hsame] at hty
    rcases live_before hr hch hlive with hb | ⟨jobId, note, now, hv, hre⟩
    · exact .inl ⟨r, hr, ⟨hty, hb⟩, hkey.symm⟩
    · obtain rfl : k = jobId := by rw [← get_jobId hr, (revives_state hre).1]
      exact .inr (.revived hv hr hre hty hkey.symm)
  · exact .inr (.inserted hins (by rw [hok]; rfl) hty rfl)

theorem inserts?_none_of_revival? {s : System} {a : SystemAction} {p : String × Dict Json × Time}
    (hv : s.revival? a = some p) : s.inserts? a = none := by
  cases a with
  | sweepWrite i resolver t => rfl
  | revive id n t => rfl
  | _ => cases hv

/-- A step makes one row live at most. -/
theorem Fresh.unique {s : System} {a : SystemAction} {key : String × String × String}
    {k₁ k₂ : String} (h₁ : Fresh s a key k₁) (h₂ : Fresh s a key k₂) : k₁ = k₂ := by
  cases h₁ with
  | revived hv₁ =>
    cases h₂ with
    | revived hv₂ =>
      rw [hv₁] at hv₂
      cases hv₂
      rfl
    | inserted hins₂ =>
      rw [inserts?_none_of_revival? hv₁] at hins₂
      cases hins₂
  | inserted hins₁ =>
    cases h₂ with
    | revived hv₂ =>
      rw [inserts?_none_of_revival? hv₂] at hins₁
      cases hins₁
    | inserted hins₂ =>
      rw [hins₁] at hins₂
      cases hins₂
      rfl

/-- Under the guard no old live row has the key of a fresh one. -/
theorem Fresh.alone {s : System} {a : SystemAction} (hg : FindsKeyFree s a)
    {key : String × String × String} {k k' : String} {r : Job} (h : Fresh s a key k)
    (hr : s.queue.get k' = some r) (hl : r.isLiveCoding) : r.codingKey ≠ key := by
  cases h with
  | revived hv hr₀ hre hty hkey =>
    rw [← hkey]
    exact hg.revive _ _ _ _ hv hr₀ hre hty _ _ hr hl
  | inserted hins hok hty hkey =>
    rw [← hkey]
    exact hg.insert _ hins hok hty _ _ hr hl

theorem atMostOneLive_step {s : System} (h : AtMostOneLive s) {a : SystemAction}
    (hg : FindsKeyFree s a) : AtMostOneLive (s.step a) := by
  intro k₁ k₂ r₁ r₂ hr₁ hr₂ hl₁ hl₂ hkey
  rcases live_after_cases hr₁ hl₁ with ⟨o₁, ho₁, hol₁, hk₁⟩ | hfresh₁
  -- two old rows were one before; a fresh row is alone; a step has one fresh row
  · rcases live_after_cases hr₂ hl₂ with ⟨o₂, ho₂, hol₂, hk₂⟩ | hfresh₂
    · exact h _ _ _ _ ho₁ ho₂ hol₁ hol₂ (by rw [hk₁, hk₂, hkey])
    · exact absurd (hk₁.trans hkey) (hfresh₂.alone hg ho₁ hol₁)
  · rcases live_after_cases hr₂ hl₂ with ⟨o₂, ho₂, hol₂, hk₂⟩ | hfresh₂
    · exact absurd (hk₂.trans hkey.symm) (hfresh₁.alone hg ho₂ hol₂)
    · exact hfresh₁.unique (hkey ▸ hfresh₂)

/-! ## Along a run -/

/-- A request, without what the run does not look at. -/
def sampleRequest : CodingExecuteRequest :=
  { sessionId := "session", executorRole := "backend-engineer", userRequest := "task",
    generatedPrompt := "task", writeScope := [], forbiddenScope := [], safetyRules := [],
    branchHint := "agent/backend/issue-7" }

/-- A coding job fails retryably, `find_active` does not see it, and it is enqueued again. -/
def retryableTwinRun : List SystemAction :=
  [.codingRead { request := sampleRequest },
   .codingInsert 0 "first" 1,
   .fleet (.pick .codingExecutor { workerId := "A", jobTypes := ["coding_execute"], now := 2 }),
   .fleet (.start 0 2),
   .fleet (.finish 0 (.codingFail false "edit_failed" none none) 3),
   .codingRead { request := sampleRequest },
   .codingInsert 0 "second" 4]

end System

end ForgeKit
