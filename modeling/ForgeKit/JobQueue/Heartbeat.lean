import Mathlib.Data.List.Sort
import Mathlib.Data.Rat.Cast.Order
import ForgeKit.JobQueue.Store
import ForgeKit.Lib.Rounding

/-!
# Heartbeats of the services (`heartbeat.py`)

One row a service, with the time of its last beat. `is_alive` compares the age of the beat with the
deadline, `stale_services` compares the beat with now minus the deadline. Both differences are
rounded.

* `stale_iff` — when the two agree about a record
* `stale_services_iff` — when they agree about every service of a table
-/

namespace ForgeKit

namespace Heartbeat

open Rounding (IsNearest)

structure HeartbeatRecord where
  serviceId : String
  lastBeat : Time
  pid : Option Int := none
  metadata : Dict Json := []

/-- `service_heartbeats`. -/
abbrev HeartbeatStore := Table String HeartbeatRecord HeartbeatRecord.serviceId

namespace HeartbeatStore

/-- `record`: the last beat of a service is the only one that is kept. -/
def record (store : HeartbeatStore) (serviceId : String) (pid : Option Int) (metadata : Dict Json)
    (now : Time) : Except QueueError (HeartbeatRecord × HeartbeatStore) :=
  if serviceId = "" then .error (.valueError "service_id is required")
  else
    let row : HeartbeatRecord := { serviceId, lastBeat := now, pid, metadata }
    .ok (row, store.upsert row)

def get (store : HeartbeatStore) (serviceId : String) : Option HeartbeatRecord :=
  store.find? serviceId

def clear (store : HeartbeatStore) (serviceId : String) : HeartbeatStore :=
  store.filterRows fun r => r.serviceId ≠ serviceId

end HeartbeatStore

variable (round : ℚ → ℚ)

/-- `max(1.0, float(deadline_seconds))`. -/
def clamped (deadlineSeconds : ℚ) : ℚ := max 1 deadlineSeconds

/-- `HeartbeatRecord.is_alive`. -/
def HeartbeatRecord.isAlive (r : HeartbeatRecord) (now : Time) (deadlineSeconds : ℚ := 90) : Bool :=
  round (now - r.lastBeat) ≤ clamped deadlineSeconds

/-- `HeartbeatStore.stale_services`. -/
def HeartbeatStore.staleServices (store : HeartbeatStore) (now : Time) (deadlineSeconds : ℚ := 90) :
    List HeartbeatRecord :=
  let cutoff := round (now - clamped deadlineSeconds)
  (store.rows.filter fun r => r.lastBeat ≤ cutoff).insertionSort fun a b => a.lastBeat ≤ b.lastBeat

/-- The beat is on the edge of the deadline: as old as the deadline, or so close to it that a
difference is rounded onto it. -/
def OnEdge (now : Time) (deadlineSeconds : ℚ) (r : HeartbeatRecord) : Prop :=
  (now - r.lastBeat ≤ clamped deadlineSeconds
      ∧ round (now - clamped deadlineSeconds) = r.lastBeat)
    ∨ (clamped deadlineSeconds < now - r.lastBeat
      ∧ round (now - r.lastBeat) = clamped deadlineSeconds)

variable {round} {F : Set ℚ} {store : HeartbeatStore} {now : Time} {deadlineSeconds : ℚ}

theorem mem_staleServices {r : HeartbeatRecord} :
    r ∈ store.staleServices round now deadlineSeconds
      ↔ r ∈ store.rows ∧ r.lastBeat ≤ round (now - clamped deadlineSeconds) := by
  unfold HeartbeatStore.staleServices
  rw [List.mem_insertionSort, List.mem_filter, decide_eq_true_iff]

theorem isAlive_eq_false {r : HeartbeatRecord} :
    r.isAlive round now deadlineSeconds = false
      ↔ clamped deadlineSeconds < round (now - r.lastBeat) := by
  unfold HeartbeatRecord.isAlive
  rw [decide_eq_false_iff_not, not_le]

/-- **When the cutoff and the age agree** about a representable beat and a representable deadline. -/
theorem stale_iff (hround : IsNearest F round) {r : HeartbeatRecord} (hbeat : r.lastBeat ∈ F)
    (hdeadline : clamped deadlineSeconds ∈ F) :
    (r.lastBeat ≤ round (now - clamped deadlineSeconds)
        ↔ clamped deadlineSeconds < round (now - r.lastBeat))
      ↔ ¬OnEdge round now deadlineSeconds r := by
  unfold OnEdge
  rcases le_or_gt (now - r.lastBeat) (clamped deadlineSeconds) with hyoung | hold
  · -- young enough: alive however the age is rounded, and stale only on the cutoff
    have halive : ¬clamped deadlineSeconds < round (now - r.lastBeat) :=
      not_lt.mpr (hround.le_of_le hdeadline hyoung)
    have hcutoff : round (now - clamped deadlineSeconds) ≤ r.lastBeat :=
      hround.le_of_le hbeat (sub_le_comm.mp hyoung)
    simp only [halive, iff_false, hyoung, true_and, not_lt.mpr hyoung, false_and, or_false]
    exact not_congr ⟨fun hle => le_antisymm hcutoff hle, fun heq => heq.ge⟩
  · -- too old: stale however the cutoff is rounded, and dead unless the age is rounded down
    have hstale : r.lastBeat ≤ round (now - clamped deadlineSeconds) :=
      hround.le_of_ge hbeat (lt_sub_comm.mp hold).le
    have hage : clamped deadlineSeconds ≤ round (now - r.lastBeat) :=
      hround.le_of_ge hdeadline hold.le
    simp only [hstale, true_iff, hold, true_and, not_le.mpr hold, false_and, false_or]
    exact ⟨fun hlt => hlt.ne', fun hne => lt_of_le_of_ne hage (Ne.symm hne)⟩

/-- Where the two differences are exact, the edge is the deadline itself. -/
theorem onEdge_iff {r : HeartbeatRecord} (hage : round (now - r.lastBeat) = now - r.lastBeat)
    (hcutoff : round (now - clamped deadlineSeconds) = now - clamped deadlineSeconds) :
    OnEdge round now deadlineSeconds r ↔ now - r.lastBeat = clamped deadlineSeconds := by
  unfold OnEdge
  rw [hage, hcutoff]
  constructor
  · rintro (⟨-, h⟩ | ⟨-, h⟩)
    · rw [← h, sub_sub_cancel]
    · exact h
  · exact fun h => .inl ⟨h.le, by rw [← h, sub_sub_cancel]⟩

/--
**When liveness and staleness agree.** For every table of heartbeats, every time and every deadline of
a number format that rounds to the nearest: a service is returned as stale if and only if its record
is not alive, exactly when no record is on the edge of the deadline.
-/
theorem stale_services_iff (F : Set ℚ) (round : ℚ → ℚ) (hround : IsNearest F round) (hone : 1 ∈ F)
    (store : HeartbeatStore) (hbeats : ∀ r ∈ store.rows, r.lastBeat ∈ F) (now deadlineSeconds : ℚ)
    (hdeadline : deadlineSeconds ∈ F) :
    (∀ serviceId, serviceId ∈ (store.staleServices round now deadlineSeconds).map
          HeartbeatRecord.serviceId
        ↔ ∃ r, store.get serviceId = some r ∧ r.isAlive round now deadlineSeconds = false)
      ↔ ∀ r ∈ store.rows, ¬OnEdge round now deadlineSeconds r := by
  have hclamped : clamped deadlineSeconds ∈ F := by
    unfold clamped
    rcases max_choice 1 deadlineSeconds with h | h
    · rw [h]; exact hone
    · rw [h]; exact hdeadline
  have heach : ∀ r ∈ store.rows,
      ((r ∈ store.staleServices round now deadlineSeconds
        ↔ r.isAlive round now deadlineSeconds = false) ↔ ¬OnEdge round now deadlineSeconds r) := by
    intro r hr
    rw [mem_staleServices, isAlive_eq_false, and_iff_right hr]
    exact stale_iff hround (hbeats r hr) hclamped
  have hone_row : ∀ r ∈ store.rows, ∀ r' ∈ store.rows, r'.serviceId = r.serviceId → r' = r := by
    intro r hr r' hr' hid
    have hfound := Table.find?_of_mem hr'
    rw [hid, Table.find?_of_mem hr] at hfound
    exact (Option.some.inj hfound).symm
  constructor
  · intro h r hr
    refine (heach r hr).mp ⟨fun hstale => ?_, fun hdead => ?_⟩
    · obtain ⟨r', hget, hdead⟩ := (h r.serviceId).mp (List.mem_map_of_mem hstale)
      obtain rfl := hone_row r hr r' (Table.mem_of_find? hget) (Table.find?_key hget)
      exact hdead
    · obtain ⟨r', hstale, hid⟩ := List.mem_map.mp
        ((h r.serviceId).mpr ⟨r, Table.find?_of_mem hr, hdead⟩)
      obtain rfl := hone_row r hr r' (mem_staleServices.mp hstale).1 hid
      exact hstale
  · intro h serviceId
    constructor
    · intro hmem
      obtain ⟨r, hstale, rfl⟩ := List.mem_map.mp hmem
      have hr := (mem_staleServices.mp hstale).1
      exact ⟨r, Table.find?_of_mem hr, ((heach r hr).mpr (h r hr)).mp hstale⟩
    · rintro ⟨r, hget, hdead⟩
      have hr := Table.mem_of_find? hget
      exact List.mem_map.mpr ⟨r, ((heach r hr).mpr (h r hr)).mpr hdead, Table.find?_key hget⟩

/-- A gateway that was last heard of at ten. -/
def gatewayStore : HeartbeatStore := Table.empty.upsert { serviceId := "gateway", lastBeat := 10 }

/-- At a hundred and one the gateway is stale, and dead. -/
theorem gateway_is_stale_and_dead :
    "gateway" ∈ (gatewayStore.staleServices id 101).map HeartbeatRecord.serviceId
      ↔ ∃ r, gatewayStore.get "gateway" = some r ∧ r.isAlive id 101 = false := by
  refine (stale_services_iff Set.univ id Rounding.isNearest_id (Set.mem_univ _) gatewayStore
    (fun _ _ => Set.mem_univ _) 101 90 (Set.mem_univ _)).mpr ?_ "gateway"
  intro r hr
  obtain rfl : r = { serviceId := "gateway", lastBeat := 10 } := List.mem_singleton.mp hr
  rw [onEdge_iff rfl rfl]
  decide +kernel

/-- **At a hundred the gateway is alive and returned as stale.** -/
theorem gateway_is_stale_and_alive :
    (gatewayStore.staleServices id 100).map HeartbeatRecord.serviceId = ["gateway"]
      ∧ ∀ r, gatewayStore.get "gateway" = some r → r.isAlive id 100 = true := by
  refine ⟨by decide +kernel, ?_⟩
  intro r hget
  obtain rfl : ({ serviceId := "gateway", lastBeat := 10 } : HeartbeatRecord) = r :=
    Option.some.inj hget
  decide +kernel

end Heartbeat

end ForgeKit
