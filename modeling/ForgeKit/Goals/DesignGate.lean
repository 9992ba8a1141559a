import ForgeKit.Goals.ExecTick

/-!
# No implementation without design

The gate of a goal is the design chain of its anchor: its parent when that one is marked, and the
goal itself otherwise. The walk is one step long, so a mark further up gates nothing.

* `design_gate_stops` — a goal whose anchor has no ready design reaches the bridge with no packet
* `grandchild_of_design_runs` — a goal two levels under a mark does
-/

namespace ForgeKit.Goals

open GoalStore

/-- The goal whose chain gates another one. -/
inductive GatedBy (byId : String → Option Goal) (g : Goal) : Goal → Prop
  | parent (p : Goal) (h : parentOf g byId = some p) (hmarked : isGovernanceRequired p = true) :
      GatedBy byId g p
  | self (h : ∀ p, parentOf g byId = some p → isGovernanceRequired p = false) : GatedBy byId g g

/-- The anchor is the goal that gates. -/
theorem governanceAnchor_eq_iff {byId : String → Option Goal} {g a : Goal}
    (h : GatedBy byId g a) : governanceAnchor g byId = a := by
  unfold governanceAnchor
  cases h with
  | parent _ hp hmarked => rw [hp]; exact if_pos hmarked
  | self hnone =>
    cases hp : parentOf g byId with
    | none => rfl
    | some p => simp [hnone p hp]

/--
**No implementation without design.** If the goal that gates `g` is marked and its log does not
replay to an executable chain, then a tick hands no packet of `g` to `apply_approved_packet`.
-/
theorem design_gate_stops (t : ExecTick) (rt : GoalRuntime) (k : String) (g a : Goal)
    (hget : get rt.store k = some g) (hgate : GatedBy (ExecTick.loadedById rt.store) g a)
    (hmarked : isGovernanceRequired a = true)
    (hpending : (governanceReadiness rt.logs a.id).executable = false) :
    callsFor (t.execTick rt).applyCalls k = callsFor rt.applyCalls k := by
  refine ExecTick.execTick_applyCalls hget ?_
  rw [Bool.eq_false_iff]
  intro hallowed
  have hready := designGate_allowed_iff.mp hallowed
  rw [governanceAnchor_eq_iff hgate, hpending] at hready
  exact absurd (hready hmarked) (by decide)

/-! ## Two levels -/

/-- A goal that is marked, and has no design yet. -/
def markedRoot : Goal :=
  { id := "goal-root", title := "root", status := .active, children := ["goal-mid"]
    evidence := [⟨"t0", .governance, "design chain required", some "goal-root"⟩] }

/-- Its child, which was decomposed in its turn. -/
def plainChild : Goal :=
  { id := "goal-mid", title := "mid", status := .active, parentId := some "goal-root"
    children := ["goal-leaf"] }

/-- An active goal with a packet that waits. -/
def waitingLeaf (parentId : String) : Goal :=
  { id := "goal-leaf", title := "leaf", status := .active, parentId := some parentId
    packets := ["packet-1"]
    evidence := [⟨"t1", .proposal, "[safe] fix -> safe", some "packet-1"⟩] }

theorem design_gate_stops_child :
    callsFor (({ gate := fun _ => {}, maxGoals := 3 } : ExecTick).execTick
      (.start (saveAll Table.empty [markedRoot, waitingLeaf "goal-root"]) [])).applyCalls "goal-leaf"
      = [] := by
  refine design_gate_stops _ _ "goal-leaf" (waitingLeaf "goal-root") markedRoot ?_
    (.parent markedRoot ?_ ?_) ?_ ?_
  all_goals decide +kernel

/-- A goal and what its `parent_id` links lead to. -/
inductive AncestorOrSelf (byId : String → Option Goal) : Goal → Goal → Prop
  | self (g : Goal) : AncestorOrSelf byId g g
  | parent {g p a : Goal} (h : parentOf g byId = some p) (ha : AncestorOrSelf byId p a) :
      AncestorOrSelf byId g a

/-- A goal two levels under a marked one, whose design is not ready, hands its packet over. -/
theorem grandchild_of_design_runs :
    ¬ ∀ (t : ExecTick) (rt : GoalRuntime) (k : String) (g a : Goal), get rt.store k = some g →
        AncestorOrSelf (ExecTick.loadedById rt.store) g a → isGovernanceRequired a = true →
        (governanceReadiness rt.logs a.id).executable = false →
        callsFor (t.execTick rt).applyCalls k = callsFor rt.applyCalls k := by
  intro h
  have hcall := h { gate := fun _ => {}, maxGoals := 3 }
    (.start (saveAll Table.empty [markedRoot, plainChild, waitingLeaf "goal-mid"]) []) "goal-leaf"
    (waitingLeaf "goal-mid") markedRoot (by decide +kernel)
    (.parent (p := plainChild) (by decide +kernel) (.parent (p := markedRoot) (by decide +kernel)
      (.self markedRoot))) (by decide +kernel) (by decide +kernel)
  exact absurd hcall (by decide +kernel)

end ForgeKit.Goals
