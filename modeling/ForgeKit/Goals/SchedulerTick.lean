import ForgeKit.Goals.Governance
import ForgeKit.Goals.Packets

/-!
# The scheduler tick (`goal_scheduler_tick`)

The tick collects work for active leaf goals that have none. What discovery finds, the clock and
the new goal ids come with the tick. New ids are `uuid4` values, which do not repeat: a tick whose
ids are not fresh does not happen.

* `schedulerTick` — one tick
* `schedulerTick_cases` — what a goal of the store after the tick is
-/

namespace ForgeKit.Goals

open GoalStore

/-- The bounds of a scheduler and what one of its ticks meets. -/
structure SchedulerTick where
  maxGoals : Nat := 2
  bigAreaThreshold : Nat := 2
  /-- What discovery finds when the tick is at the goal with this id. -/
  discover : String → List RepoImprovementPacket
  clock : String → String := fun _ => ""
  /-- The ids that `new_goal_id` returns, in order. -/
  newId : Nat → String

/-- `_needs_packetizing`. -/
def needsPacketizing (g : Goal) : Bool :=
  if g.children ≠ [] then false
  else if g.evidence.any (fun e => e.kind = .proposal) = false then true
  else
    let t := tallyPackets g
    g.evidence.any (fun e => e.kind = .replan) && decide (t.pending = 0) && decide (t.blocked = 0)
      && !isGoalComplete g

/-- The goals a tick looks at. -/
def candidates (store : GoalStore) : List Goal :=
  (loadAll store).filter fun g => g.status = .active && needsPacketizing g

/-- `(p.affected_area, p.finding)` for each packet. -/
def itemsOf (packets : List RepoImprovementPacket) : List (String × String) :=
  packets.map fun p => (p.affectedArea, p.finding)

/-- The children of a plan with the packets of their areas. -/
def routeSteps (packets : List RepoImprovementPacket) (now : String) :
    List (PlanStep × Goal) → Except String (List Goal)
  | [] => .ok []
  | (step, child) :: rest => do
    let r ← linkPackets child (packets.filter fun p => areaKey p.affectedArea = step.title) now
    let routed ← routeSteps packets now rest
    return r.goal :: routed

/-- `_decompose_and_route`. -/
def decomposeAndRoute (g : Goal) (packets : List RepoImprovementPacket) (now : String)
    (newId : Nat → String) (k : Nat) : Except String (Goal × List Goal) := do
  let steps := derivePlanSteps (itemsOf packets)
  let (parent, children) ← decompose g steps now newId k
  let routed ← routeSteps packets now (steps.zip children)
  return (parent, routed)

/-- What the tick does at one goal: the logs, the goals it saves, and whether it raised. -/
structure Scheduled where
  logs : GovernanceLogs
  saves : List Goal := []
  newGoals : Nat := 0
  raised : Bool := false

namespace SchedulerTick

variable (t : SchedulerTick)

/-- The packets for a goal: what discovery found, or the first step of the goal's own intent. -/
def packetsFor (g : Goal) : List RepoImprovementPacket :=
  if t.discover g.id ≠ [] then t.discover g.id else intentPackets g.title

/-- The work for a goal spans enough areas to become a plan. -/
def decomposes (g : Goal) : Bool :=
  isBigGoal (itemsOf (t.packetsFor g))
    && decide (t.bigAreaThreshold ≤ areaCount (itemsOf (t.packetsFor g)))

/-- A brief is recorded first, and the goal is marked, unless it was marked before. -/
def govern (logs : GovernanceLogs) (g : Goal) : GovernanceLogs × Goal :=
  if isGovernanceRequired g then (logs, g)
  else (recordPmBrief logs g,
    markGovernanceRequired g "big goal — design chain required (PM brief recorded first)"
      (t.clock g.id))

/-- The body of the loop over the candidates. -/
def scheduleGoal (logs : GovernanceLogs) (k : Nat) (g : Goal) : Scheduled :=
  let packets := t.packetsFor g
  if packets = [] then { logs }
  else if t.decomposes g then
    let (logs, g) := t.govern logs g
    match decomposeAndRoute g packets (t.clock g.id) t.newId k with
    | .error _ => { logs, raised := true }
    | .ok (parent, made) => { logs, saves := parent :: made, newGoals := made.length }
  else
    match linkPackets g packets (t.clock g.id) with
    | .error _ => { logs, raised := true }
    | .ok r => { logs, saves := [r.goal] }

/-- The loop over the candidates; a goal that raises ends the tick. -/
def schedulerPass : GoalRuntime → Nat → List Goal → GoalRuntime × Nat
  | rt, k, [] => (rt, k)
  | rt, k, g :: goals =>
    let r := t.scheduleGoal rt.logs k g
    let rt := { rt with logs := r.logs, store := saveAll rt.store r.saves }
    if r.raised then (rt, k + r.newGoals) else schedulerPass rt (k + r.newGoals) goals

/-- The first `n` ids are new to the store and different. -/
def freshIds (store : GoalStore) (n : Nat) : Bool :=
  ((List.range n).map t.newId).Nodup
    && (List.range n).all fun i => (get store (t.newId i)).isNone

/-- The candidates of a tick. -/
def batch (store : GoalStore) : List Goal := (candidates store).take t.maxGoals

/-- `GoalSchedulerTicker.tick`. -/
def schedulerTick (rt : GoalRuntime) : GoalRuntime :=
  let r := t.schedulerPass rt 0 (t.batch rt.store)
  if t.freshIds rt.store r.2 then r.1 else rt

end SchedulerTick

theorem mem_candidates {store : GoalStore} {g : Goal} :
    g ∈ candidates store ↔ g ∈ loadAll store ∧ g.status = .active ∧ needsPacketizing g = true := by
  simp [candidates]

/-- A goal that needs packets is a leaf, and none of its packets waits or is refused. -/
theorem needsPacketizing_spec {g : Goal} (h : needsPacketizing g = true) :
    g.children = [] ∧ pendingPacketIds g = [] ∧ blockedPacketIds g = [] := by
  unfold needsPacketizing at h
  split at h
  · cases h
  · next hchildren =>
    refine ⟨not_not.mp hchildren, ?_⟩
    split at h
    · next hnone =>
      have hno : ∀ p, p ∉ packetRefs g .proposal := by
        intro p hp
        obtain ⟨e, he, hk, -⟩ := mem_refsOf.mp hp
        simpa [hk] using (List.any_eq_false.mp hnone) e he
      constructor
      · exact pendingPacketIds_eq_nil.mpr fun p _ hp => absurd hp (hno p)
      · exact blockedPacketIds_eq_nil.mpr fun p _ hp => absurd hp (hno p)
    · simp only [Bool.and_eq_true, decide_eq_true_eq] at h
      exact ⟨tallyPackets_pending_eq_zero.mp h.1.1.2, tallyPackets_blocked_eq_zero.mp h.1.2⟩

/-! ## What is saved at one goal -/

/--
A goal that the tick made: a draft without children, with the proposals of its packets, which are
some of those that were found.
-/
structure ScheduledChild (found : List RepoImprovementPacket) (g : Goal) : Prop where
  status : g.status = .draft
  children : g.children = []
  evidence : ∃ packets now, packets ⊆ found ∧ g.evidence = List.map (proposalOf now) packets
    ∧ g.packets = linkIds [] (packets.map packetId)

/-- A goal that the tick made when it split one of these goals. -/
def SchedulerTick.Made (t : SchedulerTick) (goals : List Goal) (g' : Goal) : Prop :=
  ∃ g ∈ goals, t.decomposes g = true ∧ ScheduledChild (t.packetsFor g) g'

/-- A candidate after the tick: its packets were linked, or it became a plan. -/
inductive ScheduledGoal (t : SchedulerTick) (g : Goal) : Goal → Prop
  | linked (updatedAt : String) (hne : t.packetsFor g ≠ []) (hleaf : t.decomposes g = false) :
      ScheduledGoal t g (linkedGoal g (t.packetsFor g) (t.clock g.id) updatedAt)
  | split (g' : Goal) (added : List EvidenceRecord) (hchildren : g'.children ≠ [])
      (hfields : g' = { g with
        children := g'.children, evidence := g.evidence ++ added, updatedAt := g'.updatedAt })
      (hadded : ∀ e ∈ added, e.kind = .governance ∨ e.kind = .plan) : ScheduledGoal t g g'

theorem ScheduledGoal.id {t : SchedulerTick} {g g' : Goal} (h : ScheduledGoal t g g') :
    g'.id = g.id := by
  cases h with
  | linked updatedAt hne hleaf => rfl
  | split g' added hchildren hfields hadded => rw [hfields]

theorem routeSteps_ok {packets : List RepoImprovementPacket} {now : String}
    {pairs : List (PlanStep × Goal)} {routed : List Goal}
    (h : routeSteps packets now pairs = .ok routed)
    (hdrafts : ∀ pair ∈ pairs, pair.2.status = .draft ∧ pair.2.children = []
      ∧ pair.2.packets = [] ∧ pair.2.evidence = []) :
    routed.map Goal.id = pairs.map (fun pair => pair.2.id) ∧ ∀ c ∈ routed, ScheduledChild packets c := by
  induction pairs generalizing routed with
  | nil => cases h; exact ⟨rfl, by simp⟩
  | cons pair pairs ih =>
    obtain ⟨step, child⟩ := pair
    simp only [routeSteps, bind, Except.bind] at h
    obtain ⟨r, updatedAt, hlink, hgoal⟩ := linkPackets_spec child
      (packets.filter fun p => areaKey p.affectedArea = step.title) now
    simp only [hlink] at h
    cases hrest : routeSteps packets now pairs with
    | error e => rw [hrest] at h; cases h
    | ok rest =>
      simp only [hrest, pure, Except.pure, Except.ok.injEq] at h
      subst h
      obtain ⟨hids, hmade⟩ := ih hrest fun pair hp => hdrafts pair (List.mem_cons_of_mem _ hp)
      obtain ⟨hstatus, hchildren, hpackets, hevidence⟩ := hdrafts (step, child) List.mem_cons_self
      refine ⟨?_, ?_⟩
      · rw [List.map_cons, List.map_cons, hids, hgoal, linkedGoal_id]
      · intro c hc
        rcases List.mem_cons.mp hc with rfl | hc
        · rw [hgoal]
          exact ⟨linkedGoal_status_draft _ _ _ _ hstatus, hchildren, _, now,
            List.filter_subset_self _, by rw [linkedGoal_evidence, hevidence, List.nil_append],
            by rw [linkedGoal_packets, hpackets]⟩
        · exact hmade c hc

/-- The parent and the children of a plan, as the tick saves them. -/
theorem decomposeAndRoute_ok {g parent : Goal} {packets : List RepoImprovementPacket}
    {now : String} {newId : Nat → String} {k : Nat} {made : List Goal}
    (h : decomposeAndRoute g packets now newId k = .ok (parent, made)) :
    (∃ children, Decomposed g newId k parent children)
      ∧ made.map Goal.id = (List.range made.length).map (fun i => newId (k + i))
      ∧ ∀ c ∈ made, ScheduledChild packets c := by
  simp only [decomposeAndRoute, bind, Except.bind] at h
  cases hd : decompose g (derivePlanSteps (itemsOf packets)) now newId k with
  | error e => rw [hd] at h; cases h
  | ok r =>
    obtain ⟨parent', children⟩ := r
    simp only [hd] at h
    cases hr : routeSteps packets now ((derivePlanSteps (itemsOf packets)).zip children) with
    | error e => rw [hr] at h; cases h
    | ok routed =>
      simp only [hr, pure, Except.pure, Except.ok.injEq, Prod.mk.injEq] at h
      obtain ⟨rfl, rfl⟩ := h
      have hdec := decompose_ok hd
      have hdrafts : ∀ pair ∈ (derivePlanSteps (itemsOf packets)).zip children,
          pair.2.status = .draft ∧ pair.2.children = [] ∧ pair.2.packets = []
            ∧ pair.2.evidence = [] := by
        intro pair hp
        obtain ⟨hs, -, hrest⟩ := hdec.drafts pair.2 (List.of_mem_zip hp).2
        exact ⟨hs, hrest⟩
      obtain ⟨hids, hmade⟩ := routeSteps_ok hr hdrafts
      refine ⟨⟨children, hdec⟩, ?_, hmade⟩
      obtain ⟨n, hn⟩ := hdec.ids
      have hpre : routed.map Goal.id <+: children.map Goal.id := by
        rw [hids]
        have hzip : ((derivePlanSteps (itemsOf packets)).zip children).map (fun pair => pair.2.id)
            = (((derivePlanSteps (itemsOf packets)).zip children).map Prod.snd).map Goal.id := by
          rw [List.map_map]; rfl
        rw [hzip]
        refine List.IsPrefix.map _ ?_
        rw [List.zip_eq_zip_take_min, List.map_snd_zip (by simp)]
        exact List.take_prefix _ _
      rw [List.prefix_iff_eq_take.mp hpre, hn, ← List.map_take, List.take_range,
        List.length_map]
      congr 2
      have hle := hpre.length_le
      rw [hn] at hle
      simp only [List.length_map, List.length_range] at hle
      omega

namespace SchedulerTick

variable {t : SchedulerTick}

theorem govern_spec (logs : GovernanceLogs) (g : Goal) :
    (t.govern logs g).2.id = g.id
      ∧ ∃ added updatedAt, (t.govern logs g).2 = { g with
          evidence := g.evidence ++ added, updatedAt }
        ∧ ∀ e ∈ added, e.kind = .governance := by
  unfold govern markGovernanceRequired
  split
  · exact ⟨rfl, [], g.updatedAt, by simp, by simp⟩
  · exact ⟨rfl, _, _, rfl, by simp⟩

/-- What the tick saves at a candidate: nothing, the candidate, or a plan with its children. -/
theorem scheduleGoal_saves (t : SchedulerTick) (logs : GovernanceLogs) (k : Nat) (g : Goal) :
    (t.scheduleGoal logs k g).saves = []
      ∨ ∃ g' made, (t.scheduleGoal logs k g).saves = g' :: made
        ∧ ScheduledGoal t g g'
        ∧ (∀ c ∈ made, t.decomposes g = true ∧ ScheduledChild (t.packetsFor g) c)
        ∧ made.map Goal.id
            = (List.range (t.scheduleGoal logs k g).newGoals).map (fun i => t.newId (k + i)) := by
  unfold scheduleGoal
  simp only
  by_cases hp : t.packetsFor g = []
  · rw [if_pos hp]; exact .inl rfl
  · rw [if_neg hp]
    by_cases hbig : t.decomposes g = true
    · rw [if_pos hbig]
      obtain ⟨hid, added, updatedAt, hgov, hadded⟩ := govern_spec (t := t) logs g
      cases hd : decomposeAndRoute (t.govern logs g).2 (t.packetsFor g)
          (t.clock (t.govern logs g).2.id) t.newId k with
      | error e => exact .inl rfl
      | ok r =>
        obtain ⟨parent, made⟩ := r
        obtain ⟨⟨children, hdec⟩, hids, hmade⟩ := decomposeAndRoute_ok hd
        obtain ⟨summary, ts, hgrown⟩ := hdec.grown
        refine .inr ⟨parent, made, rfl, ?_, fun c hc => ⟨hbig, hmade c hc⟩, hids⟩
        refine .split parent (added ++ [⟨ts, .plan, summary, none⟩]) hdec.nonempty ?_ ?_
        · have hfields := hdec.fields
          rw [hgrown, hgov] at hfields
          rw [hfields]
          simp
        · intro e he
          rcases List.mem_append.mp he with he | he
          · exact .inl (hadded e he)
          · rw [List.mem_singleton.mp he]; exact .inr rfl
    · rw [if_neg hbig]
      obtain ⟨r, updatedAt, hlink, hgoal⟩ := linkPackets_spec g (t.packetsFor g) (t.clock g.id)
      rw [hlink]
      refine .inr ⟨r.goal, [], rfl, ?_, by simp, by simp⟩
      rw [hgoal]
      exact .linked updatedAt hp (by simpa using hbig)

/-! ## What a goal is after the tick -/

/-- What a goal of the store is after the tick was at some goals of the store `store`. -/
inductive SchedulerChange (t : SchedulerTick) (store : GoalStore) (goals : List Goal) (k : String)
    (g' : Goal) : Prop
  | same (h : get store k = some g')
  | scheduled (g : Goal) (hmem : g ∈ goals) (h : get store k = some g)
      (hchange : ScheduledGoal t g g')
  | made (h : get store k = none) (hmade : t.Made goals g')

theorem schedulerPass_le (rt : GoalRuntime) (k : Nat) (goals : List Goal) :
    k ≤ (t.schedulerPass rt k goals).2 := by
  induction goals generalizing rt k with
  | nil => exact Nat.le_refl k
  | cons g goals ih =>
    simp only [schedulerPass]
    split
    · exact Nat.le_add_right _ _
    · exact Nat.le_trans (Nat.le_add_right _ _) (ih _ _)

/-- The ids of what is saved at a candidate: its own, and the next of the new ids. -/
theorem scheduleGoal_save_ids {logs : GovernanceLogs} {k : Nat} {g : Goal} {id : String}
    (h : id ∈ (t.scheduleGoal logs k g).saves.map Goal.id) :
    id = g.id ∨ ∃ i < (t.scheduleGoal logs k g).newGoals, id = t.newId (k + i) := by
  rcases scheduleGoal_saves t logs k g with hnil | ⟨g', made, hsaves, hg', -, hids⟩
  · rw [hnil] at h; cases h
  · rw [hsaves, List.map_cons, List.mem_cons] at h
    rcases h with rfl | h
    · exact .inl hg'.id
    · rw [hids] at h
      obtain ⟨i, hi, rfl⟩ := List.mem_map.mp h
      exact .inr ⟨i, List.mem_range.mp hi, rfl⟩

/-- What is saved at a candidate touches its own id and the new ones. -/
theorem get_saves_of_ne {store : GoalStore} {logs : GovernanceLogs} {k : Nat} {g : Goal}
    {id : String} (hne : id ≠ g.id)
    (hnew : ∀ i < (t.scheduleGoal logs k g).newGoals, id ≠ t.newId (k + i)) :
    get (saveAll store (t.scheduleGoal logs k g).saves) id = get store id := by
  refine get_saveAll_of_notMem fun hmem => ?_
  rcases scheduleGoal_save_ids hmem with he | ⟨i, hi, he⟩
  · exact hne he
  · exact hnew i hi he

/-- What a goal of the store is when the tick was at one candidate. -/
theorem get_saves {store : GoalStore} {logs : GovernanceLogs} {k : Nat} {g g' : Goal} {id : String}
    (goals : List Goal) (hcur : get store g.id = some g)
    (hfresh : ∀ i < (t.scheduleGoal logs k g).newGoals, get store (t.newId (k + i)) = none)
    (h : get (saveAll store (t.scheduleGoal logs k g).saves) id = some g') :
    SchedulerChange t store (g :: goals) id g' := by
  rcases get_saveAll h with hmem | ⟨-, hget⟩
  · rcases scheduleGoal_saves t logs k g with hnil | ⟨g1, made, hsaves, hg1, hmade, hids⟩
    · rw [hnil] at hmem; cases hmem
    · rw [hsaves, List.mem_cons] at hmem
      rcases hmem with rfl | hmem
      · have hid : id = g.id := (get_id h).symm.trans hg1.id
        exact .scheduled g List.mem_cons_self (hid ▸ hcur) hg1
      · have hidmem := List.mem_map_of_mem (f := Goal.id) hmem
        rw [hids] at hidmem
        obtain ⟨i, hi, hnewid⟩ := List.mem_map.mp hidmem
        rw [← get_id h, ← hnewid]
        exact .made (hfresh i (List.mem_range.mp hi)) ⟨g, List.mem_cons_self, hmade g' hmem⟩
  · exact .same hget

/--
The loop over the candidates. The induction needs that the goals still to come are in the store as
they were loaded: their ids are not the id of the goal at hand, nor a new id.
-/
theorem schedulerPass_cases (rt : GoalRuntime) {k : Nat} {goals : List Goal}
    (hcur : ∀ g ∈ goals, get rt.store g.id = some g) (hnodup : (goals.map Goal.id).Nodup)
    (hfresh : ∀ i, k ≤ i → i < (t.schedulerPass rt k goals).2 → get rt.store (t.newId i) = none)
    (hinj : ∀ i j, k ≤ i → i < j → j < (t.schedulerPass rt k goals).2 → t.newId i ≠ t.newId j)
    {id : String} {g' : Goal} (h : get (t.schedulerPass rt k goals).1.store id = some g') :
    SchedulerChange t rt.store goals id g' := by
  induction goals generalizing rt k with
  | nil => exact .same h
  | cons g goals ih =>
    have hgcur : get rt.store g.id = some g := hcur g List.mem_cons_self
    have hhere := @get_saves t rt.store rt.logs k g
    have hkeep := @get_saves_of_ne t rt.store rt.logs k g
    have hle := schedulerPass_le (t := t) { rt with
      logs := (t.scheduleGoal rt.logs k g).logs
      store := saveAll rt.store (t.scheduleGoal rt.logs k g).saves }
      (k + (t.scheduleGoal rt.logs k g).newGoals) goals
    simp only [schedulerPass] at h hfresh hinj
    generalize t.scheduleGoal rt.logs k g = r at h hfresh hinj hhere hkeep hle
    cases hraised : r.raised with
    | true =>
      rw [hraised, if_pos rfl] at h hfresh
      exact hhere goals hgcur (fun i hi => hfresh (k + i) (by omega) (by omega)) h
    | false =>
      simp only [hraised, Bool.false_eq_true, if_false] at h hfresh hinj
      have hnew : ∀ i < r.newGoals, get rt.store (t.newId (k + i)) = none :=
        fun i hi => hfresh (k + i) (by omega) (by omega)
      rw [List.map_cons, List.nodup_cons] at hnodup
      have hrest := ih { rt with logs := r.logs, store := saveAll rt.store r.saves }
        (k := k + r.newGoals) ?_ hnodup.2 ?_ ?_ h
      · cases hrest with
        | same hget => exact hhere goals hgcur hnew hget
        | scheduled g2 hmem hget hchange =>
          have hid2 : g2.id = id := get_id hget
          have hget2 := hcur g2 (List.mem_cons_of_mem _ hmem)
          rw [hid2] at hget2
          exact .scheduled g2 (List.mem_cons_of_mem _ hmem) hget2 hchange
        | made hget hmade =>
          obtain ⟨g2, hmem, hchild⟩ := hmade
          refine .made ?_ ⟨g2, List.mem_cons_of_mem _ hmem, hchild⟩
          by_contra hsome
          have hstill := get_saveAll_isSome r.saves (Option.ne_none_iff_isSome.mp hsome)
          rw [hget] at hstill
          cases hstill
      · intro g2 hg2
        have hget2 := hcur g2 (List.mem_cons_of_mem _ hg2)
        refine (hkeep ?_ ?_).trans hget2
        · exact fun he => hnodup.1 (he ▸ List.mem_map_of_mem (f := Goal.id) hg2)
        · intro i hi he
          rw [he, hnew i hi] at hget2
          cases hget2
      · intro i hki hi
        have hnone := hfresh i (by omega) hi
        refine (hkeep ?_ ?_).trans hnone
        · intro he
          rw [he, hgcur] at hnone
          cases hnone
        · exact fun j hj he => hinj (k + j) i (by omega) (by omega) hi he.symm
      · exact fun i j hi hij hj => hinj i j (by omega) hij hj

theorem mem_batch {store : GoalStore} {g : Goal} (h : g ∈ t.batch store) :
    g ∈ loadAll store ∧ g.status = .active ∧ needsPacketizing g = true :=
  mem_candidates.mp (List.mem_of_mem_take h)

theorem batch_nodup (t : SchedulerTick) (store : GoalStore) :
    ((t.batch store).map Goal.id).Nodup :=
  (loadAll_nodup store).sublist (((List.take_sublist _ _).trans List.filter_sublist).map Goal.id)

/-- **What a goal of the store is after a scheduler tick.** -/
theorem schedulerTick_cases {rt : GoalRuntime} {id : String} {g' : Goal}
    (h : get (t.schedulerTick rt).store id = some g') :
    SchedulerChange t rt.store (t.batch rt.store) id g' := by
  simp only [schedulerTick] at h
  by_cases hfresh : t.freshIds rt.store (t.schedulerPass rt 0 (t.batch rt.store)).2 = true
  · rw [if_pos hfresh] at h
    simp only [freshIds, Bool.and_eq_true, decide_eq_true_eq, List.all_eq_true, List.mem_range,
      Option.isNone_iff_eq_none] at hfresh
    refine schedulerPass_cases rt (fun g hg => get_of_mem_loadAll (mem_batch hg).1)
      (t.batch_nodup rt.store) (fun i _ hi => hfresh.2 i hi) ?_ h
    intro i j _ hij hj he
    have hinj := List.inj_on_of_nodup_map hfresh.1 (List.mem_range.mpr (hij.trans hj))
      (List.mem_range.mpr hj) he
    omega
  · rw [if_neg hfresh] at h
    exact .same h

/-- A tick removes no goal. -/
theorem schedulerTick_isSome {rt : GoalRuntime} {id : String} (h : (get rt.store id).isSome) :
    (get (t.schedulerTick rt).store id).isSome := by
  have hpass : ∀ goals rt k, (get rt.store id).isSome →
      (get (t.schedulerPass rt k goals).1.store id).isSome := by
    intro goals
    induction goals with
    | nil => exact fun rt k h => h
    | cons g goals ih =>
      intro rt k h
      simp only [schedulerPass]
      split
      · exact get_saveAll_isSome _ h
      · exact ih _ _ (get_saveAll_isSome _ h)
  simp only [schedulerTick]
  split
  · exact hpass _ _ _ h
  · exact h

/-- The scheduler executes nothing. -/
theorem schedulerTick_calls (rt : GoalRuntime) :
    (t.schedulerTick rt).applyCalls = rt.applyCalls
      ∧ (t.schedulerTick rt).mutatorCalls = rt.mutatorCalls := by
  have hpass : ∀ goals rt k, (t.schedulerPass rt k goals).1.applyCalls = rt.applyCalls
      ∧ (t.schedulerPass rt k goals).1.mutatorCalls = rt.mutatorCalls := by
    intro goals
    induction goals with
    | nil => exact fun rt k => ⟨rfl, rfl⟩
    | cons g goals ih =>
      intro rt k
      simp only [schedulerPass]
      split
      · exact ⟨rfl, rfl⟩
      · exact ih _ _
  simp only [schedulerTick]
  split
  · exact hpass _ _ _
  · exact ⟨rfl, rfl⟩

end SchedulerTick

end ForgeKit.Goals
