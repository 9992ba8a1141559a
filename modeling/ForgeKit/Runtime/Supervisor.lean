import ForgeKit.Runtime.CircuitBreaker

/-!
# The supervisor of one service (`subprocess_supervisor.py`)

`_supervise_one` spawns the child of a service, waits for it, backs off and spawns it again. It
records each restart in the registry that all services share, and asks the registry before each
spawn. A step below is what the loop does between two `await`s; whatever else the process does
comes in between.

* `Paced` — a start that is not yet recorded is the only one that the kept restarts miss
* `restarts_bounded` — no window holds more than `m + 1` starts, and nothing starts a stopped
  service
-/

namespace ForgeKit

namespace Supervisor

/-- `EXIT_PREVENT_RESTART`. -/
def exitPreventRestart : Int := 78

/-- `_backoff_for`. -/
def backoffFor (restartCount : ℕ) (schedule : List ℚ) : ℚ :=
  match schedule with
  | [] => 1
  | schedule => schedule.getD (min restartCount (schedule.length - 1)) 1

/-- Where `_supervise_one` stands. -/
inductive Phase where
  /-- At the head of the loop. -/
  | top
  /-- In `spawn_fn`. -/
  | spawning
  /-- In `process.wait`. -/
  | waiting
  /-- In `sleep_fn`, after a failed spawn or after an exit. -/
  | sleeping (spawnFailed : Bool) (backoff : ℚ)
  | returned
deriving DecidableEq, Repr

/-- A managed process with the loop that supervises it. -/
structure Supervised where
  registry : Option CircuitBreakerRegistry
  shutdown : Bool := false
  phase : Phase := .top
  restartCount : ℕ := 0
  lastExitCode : Option Int := none
  stoppedIntentionally : Bool := false
  /-- The last reading of the clock. -/
  clock : ℚ
  /-- When `spawn_fn` was called. -/
  starts : List ℚ := []

/-- What happens next. Times are readings of the clock. -/
inductive Event where
  /-- The head of the loop. -/
  | enter (now : ℚ)
  | spawned
  | spawnFailed
  | exited (exitCode : Option Int) (now : ℚ)
  | slept (now : ℚ)
  | cancelled
  | shutdown
  /-- Any other call of the registry. -/
  | restart (e : RestartEvent)

def Event.now? : Event → Option ℚ
  | .enter now | .exited _ now | .slept now => some now
  | .restart e => some e.now
  | .spawned | .spawnFailed | .cancelled | .shutdown => none

namespace Supervised

/-- A managed process that was just built, under a registry. -/
def start (registry : CircuitBreakerRegistry) (clock : ℚ) : Supervised where
  registry := some registry
  clock := clock

/-- Some call of `record_restart`. -/
def record (s : Supervised) (e : RestartEvent) : Supervised :=
  { s with registry := s.registry.map fun r => r.recordRestart e }

variable (serviceId : String) (backoffSchedule : List ℚ)

/-- The loop's own call of `record_restart`. -/
def restarted (s : Supervised) (reason : String) : Supervised :=
  { s.record ⟨serviceId, s.clock, some reason⟩ with restartCount := s.restartCount + 1 }

/-- From the head of the loop to the call of `spawn_fn`. -/
def loopTop (s : Supervised) : Supervised :=
  if s.shutdown then { s with phase := .returned }
  else if s.registry.any fun r => r.isOpen serviceId then
    { s with stoppedIntentionally := true, phase := .returned }
  else { s with phase := .spawning, starts := s.starts ++ [s.clock] }

/-- From the end of the child to the call of `sleep_fn`. -/
def childExited (s : Supervised) (exitCode : Option Int) : Supervised :=
  if s.shutdown then { s with lastExitCode := exitCode, phase := .returned }
  else if exitCode = some exitPreventRestart then
    { s with lastExitCode := exitCode, stoppedIntentionally := true, phase := .returned }
  else
    let reason := match exitCode with
      | some code => "exit_code=" ++ toString code
      | none => "exited"
    { s.restarted serviceId reason with
      lastExitCode := exitCode
      phase := .sleeping false (backoffFor s.restartCount backoffSchedule) }

/-- What an event does where the loop waits for it. -/
def handle (s : Supervised) : Event → Supervised
  | .enter _ => if s.phase = .top then s.loopTop serviceId else s
  | .spawned => if s.phase = .spawning then { s with phase := .waiting } else s
  | .spawnFailed =>
    if s.phase = .spawning then
      { s with phase := .sleeping true (backoffFor s.restartCount backoffSchedule) }
    else s
  | .exited exitCode _ =>
    if s.phase = .waiting then s.childExited serviceId backoffSchedule exitCode else s
  | .slept _ =>
    match s.phase with
    | .sleeping true _ => { s.restarted serviceId "spawn_failed" with phase := .top }
    | .sleeping false _ => { s with phase := .top }
    | _ => s
  | .cancelled => { s with phase := .returned }
  | .shutdown => { s with shutdown := true }
  | .restart e => s.record e

/-- One step. The clock does not go back. -/
def step (s : Supervised) (e : Event) : Supervised :=
  match e.now? with
  | none => s.handle serviceId backoffSchedule e
  | some now =>
    if now < s.clock then s
    else { s with clock := now }.handle serviceId backoffSchedule e

/-! ## What stops a service -/

/-- A step is dropped, or handled once the clock is at its reading. -/
theorem step_cases (s : Supervised) (e : Event) :
    step serviceId backoffSchedule s e = s ∨
      ∃ now, s.clock ≤ now ∧ (∀ reading, e.now? = some reading → reading = now) ∧
        step serviceId backoffSchedule s e
          = { s with clock := now }.handle serviceId backoffSchedule e := by
  unfold step
  cases hnow : e.now? with
  | none => exact .inr ⟨s.clock, le_rfl, (fun _ he => by cases he), rfl⟩
  | some now =>
    by_cases hback : now < s.clock
    · exact .inl (if_pos hback)
    · exact .inr ⟨now, not_lt.mp hback, fun _ he => (Option.some.inj he).symm, if_neg hback⟩

/-- The circuit of the service is open. -/
def CircuitOpen (s : Supervised) : Prop := (s.registry.any fun r => r.isOpen serviceId) = true

/-- A shutdown was requested, the child exited with 78, or the circuit is open. -/
def Stopped (s : Supervised) : Prop :=
  s.shutdown = true ∨ s.lastExitCode = some exitPreventRestart ∨ s.CircuitOpen serviceId

/-- The loop does not get to `spawn_fn` again. -/
def Halted (s : Supervised) : Prop :=
  s.shutdown = true ∨ s.phase = .returned ∨ s.CircuitOpen serviceId

variable {serviceId backoffSchedule} {s : Supervised}

theorem circuitOpen_record (h : s.CircuitOpen serviceId) (e : RestartEvent) :
    (s.record e).CircuitOpen serviceId := by
  unfold CircuitOpen at h ⊢
  cases hr : s.registry with
  | none =>
    rw [hr] at h
    cases h
  | some r =>
    rw [hr] at h
    unfold record
    rw [hr]
    exact r.isOpen_recordRestart e h

theorem loopTop_of_halted (h : s.Halted serviceId) (htop : s.phase = .top) :
    (s.loopTop serviceId).Halted serviceId ∧ (s.loopTop serviceId).starts = s.starts := by
  unfold loopTop
  by_cases hshutdown : s.shutdown = true
  · rw [if_pos hshutdown]
    exact ⟨.inr (.inl rfl), rfl⟩
  rw [if_neg hshutdown]
  have hopen : s.CircuitOpen serviceId := by
    rcases h with h | h | h
    · exact absurd h hshutdown
    · rw [htop] at h
      cases h
    · exact h
  unfold CircuitOpen at hopen
  rw [if_pos hopen]
  exact ⟨.inr (.inl rfl), rfl⟩

theorem childExited_of_halted (h : s.Halted serviceId) (hwaiting : s.phase = .waiting)
    (exitCode : Option Int) :
    (s.childExited serviceId backoffSchedule exitCode).Halted serviceId
      ∧ (s.childExited serviceId backoffSchedule exitCode).starts = s.starts := by
  unfold childExited
  by_cases hshutdown : s.shutdown = true
  · rw [if_pos hshutdown]
    exact ⟨.inl hshutdown, rfl⟩
  rw [if_neg hshutdown]
  by_cases hcode : exitCode = some exitPreventRestart
  · rw [if_pos hcode]
    exact ⟨.inr (.inl rfl), rfl⟩
  rw [if_neg hcode]
  have hopen : s.CircuitOpen serviceId := by
    rcases h with h | h | h
    · exact absurd h hshutdown
    · rw [hwaiting] at h
      cases h
    · exact h
  exact ⟨.inr (.inr (circuitOpen_record hopen _)), rfl⟩

/-- **Once the loop is halted, no event starts the child.** -/
theorem handle_of_halted (h : s.Halted serviceId) (e : Event) :
    (s.handle serviceId backoffSchedule e).Halted serviceId
      ∧ (s.handle serviceId backoffSchedule e).starts = s.starts := by
  -- a phase other than `returned` can be left
  have hleave : s.phase ≠ .returned → ∀ s' : Supervised, s'.shutdown = s.shutdown →
      s'.registry = s.registry → s'.Halted serviceId := by
    intro hphase s' hs hr
    rcases h with h | h | h
    · exact .inl (hs.trans h)
    · exact absurd h hphase
    · refine .inr (.inr ?_)
      unfold CircuitOpen
      rw [hr]
      exact h
  cases e with
  | enter now =>
    dsimp only [handle]
    split
    · next htop => exact loopTop_of_halted h htop
    · exact ⟨h, rfl⟩
  | spawned =>
    dsimp only [handle]
    split
    · next hphase => exact ⟨hleave (by rw [hphase]; decide) _ rfl rfl, rfl⟩
    · exact ⟨h, rfl⟩
  | spawnFailed =>
    dsimp only [handle]
    split
    · next hphase => exact ⟨hleave (by rw [hphase]; decide) _ rfl rfl, rfl⟩
    · exact ⟨h, rfl⟩
  | exited exitCode now =>
    dsimp only [handle]
    split
    · next hwaiting => exact childExited_of_halted h hwaiting exitCode
    · exact ⟨h, rfl⟩
  | slept now =>
    dsimp only [handle]
    split
    · next hphase =>
      refine ⟨?_, rfl⟩
      rcases h with h | h | h
      · exact .inl h
      · rw [hphase] at h
        cases h
      · exact .inr (.inr (circuitOpen_record h _))
    · next hphase => exact ⟨hleave (by rw [hphase]; simp) _ rfl rfl, rfl⟩
    · exact ⟨h, rfl⟩
  | cancelled => exact ⟨.inr (.inl rfl), rfl⟩
  | shutdown => exact ⟨.inl rfl, rfl⟩
  | restart e =>
    refine ⟨?_, rfl⟩
    rcases h with h | h | h
    · exact .inl h
    · exact .inr (.inl h)
    · exact .inr (.inr (circuitOpen_record h e))

theorem step_of_halted (h : s.Halted serviceId) (e : Event) :
    (step serviceId backoffSchedule s e).Halted serviceId
      ∧ (step serviceId backoffSchedule s e).starts = s.starts := by
  rcases step_cases serviceId backoffSchedule s e with hdrop | ⟨now, -, -, hstep⟩
  · rw [hdrop]
    exact ⟨h, rfl⟩
  · rw [hstep]
    have hclock : ({ s with clock := now } : Supervised).Halted serviceId := h
    exact handle_of_halted hclock e

theorem starts_of_halted (h : s.Halted serviceId) (later : List Event) :
    (Machine.run (step serviceId backoffSchedule) s later).starts = s.starts :=
  (Machine.run_of_step (A := fun _ : Event => True)
    (I := fun s' : Supervised => s'.Halted serviceId ∧ s'.starts = s.starts)
    (fun _ e _ h' => ⟨(step_of_halted h'.1 e).1, (step_of_halted h'.1 e).2.trans h'.2⟩)
    ⟨h, rfl⟩ fun _ _ => trivial).2

/-! ## Exit code 78 -/

/-- A child that ended with 78 was the last one. -/
def LastChild (s : Supervised) : Prop :=
  s.lastExitCode = some exitPreventRestart → s.phase = .returned

theorem lastChild_handle (h : s.LastChild) (e : Event) :
    (s.handle serviceId backoffSchedule e).LastChild := by
  have hother : s.phase ≠ .returned → ∀ s' : Supervised, s'.lastExitCode = s.lastExitCode →
      s'.LastChild := by
    intro hphase s' hs hcode
    exact absurd (h (hs ▸ hcode)) hphase
  cases e with
  | enter now =>
    dsimp only [handle, loopTop]
    split
    · next htop =>
      have hnot : s.phase ≠ .returned := by rw [htop]; decide
      split
      · exact fun _ => rfl
      · split
        · exact fun _ => rfl
        · exact hother hnot _ rfl
    · exact h
  | spawned =>
    dsimp only [handle]
    split
    · next hphase => exact hother (by rw [hphase]; decide) _ rfl
    · exact h
  | spawnFailed =>
    dsimp only [handle]
    split
    · next hphase => exact hother (by rw [hphase]; decide) _ rfl
    · exact h
  | exited exitCode now =>
    dsimp only [handle, childExited]
    split
    · split
      · exact fun _ => rfl
      · split
        · exact fun _ => rfl
        · next hcode => exact fun he => absurd he hcode
    · exact h
  | slept now =>
    dsimp only [handle]
    split
    · next hphase => exact hother (by rw [hphase]; simp) _ rfl
    · next hphase => exact hother (by rw [hphase]; simp) _ rfl
    · exact h
  | cancelled => exact fun _ => rfl
  | shutdown => exact h
  | restart e => exact h

theorem lastChild_step (h : s.LastChild) (e : Event) :
    (step serviceId backoffSchedule s e).LastChild := by
  rcases step_cases serviceId backoffSchedule s e with hdrop | ⟨now, -, -, hstep⟩
  · rw [hdrop]
    exact h
  · rw [hstep]
    have hclock : ({ s with clock := now } : Supervised).LastChild := h
    exact lastChild_handle hclock e

theorem halted_of_stopped (h : s.LastChild) (hstopped : s.Stopped serviceId) :
    s.Halted serviceId := by
  rcases hstopped with hshutdown | hcode | hopen
  · exact .inl hshutdown
  · exact .inr (.inl (h hcode))
  · exact .inr (.inr hopen)

/-! ## Starts and kept restarts -/

/-- The starts whose restart the registry does not know. -/
def unrecorded (s : Supervised) : ℕ :=
  match s.phase with
  | .top | .sleeping false _ => 0
  | _ => 1

/--
Every start but the one under way has its restart in the ledger, as far as the window goes back.
`w` and `m` are those of the policy.
-/
structure Paced (w : ℚ) (m : Int) (ledger : CircuitBreakerState) (s : Supervised) : Prop where
  past : ∀ t ∈ s.starts, t ≤ s.clock
  kept : ∀ c, s.clock - w ≤ c → s.starts.countP (fun t => decide (c ≤ t))
    ≤ ledger.restartEvents.countP (fun t => decide (c ≤ t)) + s.unrecorded
  first : ledger.restartEvents = [] → s.starts.length ≤ s.unrecorded
  closed : ledger.openedAt = none →
    ledger.restartEvents = [] ∨ (ledger.restartEvents.length : Int) ≤ m
  bounded : ∀ a, s.starts.tail.countP (fun t => decide (a ≤ t ∧ t ≤ a + w)) ≤ (m + 1).toNat

variable {w : ℚ} {m : Int} {ledger : CircuitBreakerState}

/-- What the clock and the loop do apart from a start and a recorded restart. -/
theorem Paced.mono (h : Paced w m ledger s) {s' : Supervised} (hstarts : s'.starts = s.starts)
    (hclock : s.clock ≤ s'.clock) (hun : s.unrecorded ≤ s'.unrecorded) : Paced w m ledger s' where
  past t ht := (h.past t (hstarts ▸ ht)).trans hclock
  kept c hc := by
    rw [hstarts]
    have hwindow : s.clock - w ≤ c := (sub_le_sub_right hclock w).trans hc
    exact (h.kept c hwindow).trans (by omega)
  first hnil := by
    rw [hstarts]
    exact (h.first hnil).trans hun
  closed := h.closed
  bounded a := by
    rw [hstarts]
    exact h.bounded a

/-- A restart of the service, by the loop itself or by anybody else. -/
theorem Paced.restarted {p : CircuitBreakerPolicy} (h : Paced p.windowSeconds p.maxRestarts ledger s)
    (reason : Option String) {s' : Supervised} (hstarts : s'.starts = s.starts)
    (hclock : s'.clock = s.clock) :
    Paced p.windowSeconds p.maxRestarts (ledger.restarted p s.clock reason) s' := by
  have hevents : (ledger.restarted p s.clock reason).restartEvents
      = SlidingWindow.record p.windowSeconds ledger.restartEvents s.clock := by
    unfold CircuitBreakerState.restarted
    dsimp only
    by_cases hopens : ledger.openedAt = none ∧ p.maxRestarts
        < ((SlidingWindow.record p.windowSeconds ledger.restartEvents s.clock).length : Int)
    · rw [if_pos hopens]
    · rw [if_neg hopens]
  have hne := SlidingWindow.record_ne_nil p.windowSeconds ledger.restartEvents s.clock
  refine ⟨?_, ?_, ?_, ?_, ?_⟩
  · rw [hstarts, hclock]
    exact h.past
  · intro c hc
    rw [hclock] at hc
    rw [hstarts, hevents, SlidingWindow.countP_record hc]
    by_cases hpast : c ≤ s.clock
    · have hkept := h.kept c hc
      have hone : s.unrecorded ≤ 1 := by
        unfold unrecorded
        split <;> simp
      rw [if_pos hpast]
      omega
    · -- nothing has started yet at that time
      have hnone : s.starts.countP (fun t => decide (c ≤ t)) = 0 := by
        rw [List.countP_eq_zero]
        intro t ht
        simpa using (h.past t ht).trans_lt (not_le.mp hpast)
      omega
  · intro hnil
    rw [hevents] at hnil
    exact absurd hnil hne
  · intro hclosed
    refine .inr ?_
    rw [hevents]
    unfold CircuitBreakerState.restarted at hclosed
    dsimp only at hclosed
    split at hclosed
    · cases hclosed
    · next hstays =>
      by_contra hlt
      exact hstays ⟨hclosed, not_le.mp hlt⟩
  · rw [hstarts]
    exact h.bounded

/-- **A start while the circuit is closed.** -/
theorem Paced.start (h : Paced w m ledger s) (htop : s.phase = .top)
    (hclosed : ledger.openedAt = none) :
    Paced w m ledger { s with phase := .spawning, starts := s.starts ++ [s.clock] } := by
  have hun : s.unrecorded = 0 := by
    unfold unrecorded
    rw [htop]
  refine ⟨?_, ?_, ?_, h.closed, ?_⟩
  · intro t ht
    rcases List.mem_append.mp ht with ht | ht
    · exact h.past t ht
    · exact (List.mem_singleton.mp ht).le
  · intro c hc
    have hkept := h.kept c hc
    rw [hun] at hkept
    have hlast : [s.clock].countP (fun t => decide (c ≤ t)) ≤ 1 := List.countP_le_length
    rw [List.countP_append]
    show _ ≤ _ + 1
    omega
  · intro hnil
    have hfirst := h.first hnil
    rw [hun] at hfirst
    rw [List.length_append, List.length_singleton]
    show _ ≤ 1
    omega
  · intro a
    cases hstarts : s.starts with
    | nil => exact Nat.zero_le _
    | cons t ts =>
      have hbounded := h.bounded a
      rw [hstarts] at hbounded
      show (ts ++ [s.clock]).countP _ ≤ _
      rw [List.countP_append]
      by_cases hin : a ≤ s.clock ∧ s.clock ≤ a + w
      · -- all of them are among the kept restarts
        have hcut : s.clock - w ≤ a := sub_le_iff_le_add.mpr hin.2
        have hkept := h.kept a hcut
        rw [hun, hstarts] at hkept
        have hsome : ledger.restartEvents ≠ [] := by
          intro hnil
          have hfirst := h.first hnil
          rw [hun, hstarts] at hfirst
          simp at hfirst
        have hm := (h.closed hclosed).resolve_left hsome
        have hle : ts.countP (fun t => decide (a ≤ t ∧ t ≤ a + w))
            ≤ (t :: ts).countP fun t => decide (a ≤ t) := by
          refine le_trans ?_ ((List.sublist_cons_self t ts).countP_le)
          refine List.countP_mono_left fun x _ hx => ?_
          simp only [decide_eq_true_eq] at hx ⊢
          exact hx.1
        have hlen : ledger.restartEvents.countP (fun t => decide (a ≤ t))
            ≤ ledger.restartEvents.length := List.countP_le_length
        have hone : [s.clock].countP (fun t => decide (a ≤ t ∧ t ≤ a + w)) ≤ 1 :=
          List.countP_le_length
        omega
      · have hzero : [s.clock].countP (fun t => decide (a ≤ t ∧ t ≤ a + w)) = 0 := by
          simp [hin]
        rw [hzero]
        exact hbounded

/-! ## Runs -/

/-- The loop under a registry with policy `p`. -/
def Known (serviceId : String) (p : CircuitBreakerPolicy) (s : Supervised) : Prop :=
  ∃ r, s.registry = some r ∧ r.policy = p
    ∧ Paced p.windowSeconds p.maxRestarts (r.stateOf serviceId) s

variable {p : CircuitBreakerPolicy}

theorem Known.mono (h : s.Known serviceId p) {s' : Supervised} (hregistry : s'.registry = s.registry)
    (hstarts : s'.starts = s.starts) (hclock : s.clock ≤ s'.clock)
    (hun : s.unrecorded ≤ s'.unrecorded) : s'.Known serviceId p := by
  obtain ⟨r, hr, hp, hpaced⟩ := h
  exact ⟨r, hregistry.trans hr, hp, hpaced.mono hstarts hclock hun⟩

/-- The loop records the restart of its child. -/
theorem Known.restarted (h : s.Known serviceId p) (reason : String) {s' : Supervised}
    (hregistry : s'.registry = (s.restarted serviceId reason).registry)
    (hstarts : s'.starts = s.starts) (hclock : s'.clock = s.clock) : s'.Known serviceId p := by
  obtain ⟨r, hr, rfl, hpaced⟩ := h
  refine ⟨r.recordRestart ⟨serviceId, s.clock, some reason⟩, ?_, rfl, ?_⟩
  · rw [hregistry]
    show s.registry.map _ = _
    rw [hr]
    rfl
  · rw [CircuitBreakerRegistry.stateOf_recordRestart_self r ⟨serviceId, s.clock, some reason⟩]
    exact hpaced.restarted (some reason) hstarts hclock

theorem Known.loopTop (h : s.Known serviceId p) (htop : s.phase = .top) :
    (s.loopTop serviceId).Known serviceId p := by
  have hun : s.unrecorded ≤ 1 := by
    unfold unrecorded
    rw [htop]
    exact Nat.zero_le 1
  unfold Supervised.loopTop
  split
  · exact h.mono rfl rfl le_rfl hun
  · split
    · exact h.mono rfl rfl le_rfl hun
    · next hclosed =>
      obtain ⟨r, hr, hp, hpaced⟩ := h
      refine ⟨r, hr, hp, hpaced.start htop ?_⟩
      rw [hr, Option.any_some, CircuitBreakerRegistry.isOpen_eq] at hclosed
      simpa using hclosed

theorem Known.childExited (h : s.Known serviceId p) (hwaiting : s.phase = .waiting)
    (exitCode : Option Int) : (s.childExited serviceId backoffSchedule exitCode).Known serviceId p := by
  have hun : s.unrecorded ≤ 1 := by
    unfold unrecorded
    rw [hwaiting]
  unfold Supervised.childExited
  split
  · exact h.mono rfl rfl le_rfl hun
  · split
    · exact h.mono rfl rfl le_rfl hun
    · exact h.restarted _ rfl rfl rfl

/-- What a call for some service, by whoever, does to the loop. -/
theorem Known.record (h : s.Known serviceId p) (e : RestartEvent) (hnow : e.now = s.clock) :
    (s.record e).Known serviceId p := by
  by_cases hself : e.serviceId = serviceId
  · subst hself
    obtain ⟨r, hr, rfl, hpaced⟩ := h
    refine ⟨r.recordRestart e, ?_, rfl, ?_⟩
    · unfold Supervised.record
      rw [hr]
      rfl
    · rw [CircuitBreakerRegistry.stateOf_recordRestart_self, hnow]
      exact hpaced.restarted e.reason rfl rfl
  · obtain ⟨r, hr, hp, hpaced⟩ := h
    refine ⟨r.recordRestart e, ?_, hp, ?_⟩
    · unfold Supervised.record
      rw [hr]
      rfl
    · rw [CircuitBreakerRegistry.stateOf_recordRestart_ne r (Ne.symm hself)]
      exact hpaced.mono rfl le_rfl le_rfl

theorem known_handle (h : s.Known serviceId p) (e : Event)
    (hnow : ∀ reading, e.now? = some reading → reading = s.clock) :
    (s.handle serviceId backoffSchedule e).Known serviceId p := by
  cases e with
  | enter now =>
    dsimp only [handle]
    split
    · next htop => exact h.loopTop htop
    · exact h
  | spawned =>
    dsimp only [handle]
    split
    · next hphase => exact h.mono rfl rfl le_rfl (by simp [unrecorded, hphase])
    · exact h
  | spawnFailed =>
    dsimp only [handle]
    split
    · next hphase => exact h.mono rfl rfl le_rfl (by simp [unrecorded, hphase])
    · exact h
  | exited exitCode now =>
    dsimp only [handle]
    split
    · next hwaiting => exact h.childExited hwaiting exitCode
    · exact h
  | slept now =>
    dsimp only [handle]
    split
    · exact h.restarted _ rfl rfl rfl
    · next hphase => exact h.mono rfl rfl le_rfl (by simp [unrecorded, hphase])
    · exact h
  | cancelled =>
    refine h.mono rfl rfl le_rfl ?_
    unfold unrecorded
    dsimp only [handle]
    split <;> simp
  | shutdown => exact h.mono rfl rfl le_rfl le_rfl
  | restart e => exact h.record e (hnow e.now rfl)

theorem known_step (h : s.Known serviceId p) (e : Event) :
    (step serviceId backoffSchedule s e).Known serviceId p := by
  rcases step_cases serviceId backoffSchedule s e with hdrop | ⟨now, hle, hnow, hstep⟩
  · rw [hdrop]
    exact h
  · rw [hstep]
    have hclock : ({ s with clock := now } : Supervised).Known serviceId p :=
      h.mono rfl rfl hle le_rfl
    exact known_handle hclock e hnow

theorem known_start (serviceId : String) (p : CircuitBreakerPolicy)
    (persistence : Option (Dict PersistedCircuitRow)) (clock : ℚ) :
    (start (.init p persistence) clock).Known serviceId p := by
  refine ⟨_, rfl, rfl, ?_⟩
  exact
    { past := by
        intro t ht
        cases ht
      kept := fun c _ => Nat.zero_le _
      first := fun _ => Nat.zero_le _
      closed := fun _ => .inl (CircuitBreakerRegistry.restartEvents_init p persistence serviceId)
      bounded := fun a => Nat.zero_le _ }

/--
**Restart storms are bounded.**

Under a registry with policy `p`, shared with whoever else records restarts, and a clock that does
not go back: no interval as long as the window holds more than `max_restarts + 1` starts after the
first, and from a state with a shutdown request, an exit code 78 or an open circuit on the child
is not started again.
-/
theorem restarts_bounded (serviceId : String) (backoffSchedule : List ℚ) (p : CircuitBreakerPolicy)
    (persistence : Option (Dict PersistedCircuitRow)) (clock : ℚ) (events : List Event) :
    let s := Machine.run (step serviceId backoffSchedule) (start (.init p persistence) clock) events
    (∀ a, (s.starts.tail.countP fun t => decide (a ≤ t ∧ t ≤ a + p.windowSeconds))
        ≤ (p.maxRestarts + 1).toNat)
      ∧ (s.Stopped serviceId → ∀ later,
        (Machine.run (step serviceId backoffSchedule) s later).starts = s.starts) := by
  intro s
  have hknown : s.Known serviceId p := Machine.run_of_step (A := fun _ : Event => True)
    (I := fun s : Supervised => s.Known serviceId p) (fun _ e _ h => known_step h e)
    (known_start serviceId p persistence clock) fun _ _ => trivial
  have hlast : s.LastChild := Machine.run_of_step (A := fun _ : Event => True)
    (I := fun s : Supervised => s.LastChild) (fun _ e _ h => lastChild_step h e)
    (fun hcode => by cases hcode) fun _ _ => trivial
  obtain ⟨r, -, -, hpaced⟩ := hknown
  exact ⟨hpaced.bounded,
    fun hstopped later => starts_of_halted (halted_of_stopped hlast hstopped) later⟩

end Supervised

end Supervisor

end ForgeKit
