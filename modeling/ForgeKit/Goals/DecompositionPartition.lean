import ForgeKit.Goals.GoalLoop

/-!
# A plan and its packets (`goal_scheduler_tick`, `planning`, `goal_tick`)

Three passes normalise the area of a packet, each for itself: the steps, the children, the routes.

* `linkIds_eq` — the links of a goal are the first occurrences of the ids
* `decompose_eq`, `routeSteps_spec` — the plan and the children with their packets
* `decomposition_is_partition_iff` — the goals whose packets are split by area, each to one child
-/

namespace ForgeKit.Goals

/-! ## First occurrences -/

theorem nodup_eraseDups : ∀ l : List String, l.eraseDups.Nodup
  | [] => by simp
  | a :: l => by
    rw [List.eraseDups_cons, List.nodup_cons]
    exact ⟨by simp, nodup_eraseDups _⟩
termination_by l => l.length
decreasing_by exact Nat.lt_succ_of_le (List.length_filter_le _ _)

/-- Linking ids in order appends the first occurrence of each that is new. -/
theorem linkIds_eq (linked ids : List String) :
    linkIds linked ids = linked ++ (ids.filter (· ∉ linked)).eraseDups := by
  induction ids generalizing linked with
  | nil => simp [linkIds]
  | cons p ids ih =>
    rw [linkIds, List.foldl_cons, ← linkIds, ih]
    by_cases hp : p ∈ linked
    · rw [if_pos hp, List.filter_cons_of_neg (by simpa using hp)]
    · rw [if_neg hp, List.filter_cons_of_pos (by simpa using hp), List.eraseDups_cons,
        List.filter_filter, List.append_assoc, List.singleton_append]
      congr 3
      refine List.filter_congr fun q _ => ?_
      by_cases hq : q = p <;> simp [hq]

/-! ## Areas -/

theorem strip_areaKey (area : String) : PyText.strip (areaKey area) = areaKey area := by
  unfold areaKey
  split
  · decide
  · exact PyText.strip_strip area

theorem areaKey_ne_empty (area : String) : areaKey area ≠ "" := by
  unfold areaKey
  split
  · decide
  · assumption

/-- The areas of the packets, each where it is first seen. -/
def areasOf (packets : List RepoImprovementPacket) : List String :=
  (packets.map fun p => areaKey p.affectedArea).eraseDups

theorem derivePlanSteps_titles (packets : List RepoImprovementPacket) :
    (derivePlanSteps (itemsOf packets)).map PlanStep.title = areasOf packets := by
  simp [derivePlanSteps, itemsOf, areasOf, Function.comp_def]

theorem derivePlanSteps_title {packets : List RepoImprovementPacket} {s : PlanStep}
    (h : s ∈ derivePlanSteps (itemsOf packets)) : PyText.strip s.title = s.title ∧ s.title ≠ "" := by
  have htitle : s.title ∈ areasOf packets := by
    rw [← derivePlanSteps_titles]
    exact List.mem_map_of_mem h
  obtain ⟨p, -, hp⟩ := List.mem_map.mp (List.mem_eraseDups.mp htitle)
  rw [← hp]
  exact ⟨strip_areaKey _, areaKey_ne_empty _⟩

/-! ## The plan -/

/-- A mode that `Goal.create` takes. -/
def KnownMode (mode : Option String) : Prop := ∀ m, mode = some m → m ∈ knownModes

/-- The ids that the plan takes are new to the goal and different. -/
def FreshChildIds (g : Goal) (newId : Nat → String) (k n : Nat) : Prop :=
  ((List.range n).map fun i => newId (k + i)).Nodup
    ∧ ∀ i < n, PyText.strip (newId (k + i)) = newId (k + i) ∧ newId (k + i) ≠ ""
      ∧ newId (k + i) ≠ g.id ∧ newId (k + i) ∉ g.children

/-- The child of a step. -/
def stepGoal (parent : Goal) (now childId : String) (s : PlanStep) : Goal :=
  { id := childId, title := PyText.strip s.title, intent := PyText.strip s.intent
    mode := parent.mode, parentId := some parent.id, createdAt := now, updatedAt := now }

theorem create_stepGoal {parent : Goal} {now childId : String} {s : PlanStep}
    (hmode : KnownMode parent.mode) (htitle : PyText.strip s.title ≠ "") :
    Goal.create s.title s.intent parent.mode (some parent.id) childId now
      = .ok (stepGoal parent now childId s) := by
  simp only [Goal.create, if_neg htitle, stepGoal]
  cases hm : parent.mode with
  | none => rfl
  | some m => simp [hmode m hm]

/-- An unknown mode is an error at the first step. -/
theorem create_unknownMode {parent : Goal} (now childId : String) {s : PlanStep} {m : String}
    (hm : parent.mode = some m) (hunknown : m ∉ knownModes) (htitle : PyText.strip s.title ≠ "") :
    ∃ e, Goal.create s.title s.intent parent.mode (some parent.id) childId now = .error e := by
  simp only [Goal.create, if_neg htitle, hm, if_neg hunknown]
  exact ⟨_, rfl⟩

theorem addChild_fresh {g : Goal} {childId now : String} (hstrip : PyText.strip childId = childId)
    (hne : childId ≠ "") (hself : childId ≠ g.id) (hnew : childId ∉ g.children) :
    g.addChild childId now
      = .ok { g with children := g.children ++ [childId], updatedAt := now } := by
  simp [Goal.addChild, hstrip, hne, hself, hnew]

theorem FreshChildIds.tail {g : Goal} {newId : Nat → String} {k n : Nat} (now : String)
    (h : FreshChildIds g newId k (n + 1)) :
    FreshChildIds { g with children := g.children ++ [newId k], updatedAt := now } newId (k + 1) n := by
  obtain ⟨hnodup, hids⟩ := h
  rw [List.range_succ_eq_map, List.map_cons, List.map_map, List.nodup_cons] at hnodup
  have hshift : ((fun i => newId (k + i)) ∘ Nat.succ) = fun i => newId (k + 1 + i) := by
    funext i
    simp only [Function.comp_apply, Nat.succ_eq_add_one, Nat.add_assoc, Nat.add_comm 1]
  rw [hshift] at hnodup
  refine ⟨hnodup.2, fun i hi => ?_⟩
  have hid := hids (i + 1) (Nat.succ_lt_succ hi)
  rw [← Nat.add_assoc, Nat.add_right_comm] at hid
  refine ⟨hid.1, hid.2.1, hid.2.2.1, ?_⟩
  rw [List.mem_append, not_or, List.mem_singleton]
  refine ⟨hid.2.2.2, fun he => hnodup.1 (List.mem_map.mpr ⟨i, List.mem_range.mpr hi, he⟩)⟩

/-- The children of the steps, in order, and the goal with their ids. -/
theorem decomposeSteps_eq {parent : Goal} (now : String) {newId : Nat → String} {k : Nat}
    {g : Goal} {steps : List PlanStep} (hmode : KnownMode parent.mode)
    (htitles : ∀ s ∈ steps, PyText.strip s.title ≠ "")
    (hfresh : FreshChildIds g newId k steps.length) :
    ∃ updatedAt, decomposeSteps parent now newId k g steps
      = .ok ({ g with
          children := g.children ++ (List.range steps.length).map (fun i => newId (k + i)),
          updatedAt },
        steps.mapIdx fun i s => stepGoal parent now (newId (k + i)) s) := by
  induction steps generalizing k g with
  | nil => exact ⟨g.updatedAt, by simp [decomposeSteps]⟩
  | cons s steps ih =>
    obtain ⟨hstrip, hne, hself, hnew⟩ := hfresh.2 0 (Nat.succ_pos _)
    rw [Nat.add_zero] at hstrip hne hself hnew
    obtain ⟨updatedAt, hrest⟩ := ih (fun s hs => htitles s (List.mem_cons_of_mem _ hs))
      (hfresh.tail now)
    refine ⟨updatedAt, ?_⟩
    simp only [decomposeSteps, bind, Except.bind,
      create_stepGoal hmode (htitles s List.mem_cons_self)]
    rw [show (stepGoal parent now (newId k) s).id = newId k from rfl,
      addChild_fresh hstrip hne hself hnew]
    simp only [hrest, pure, Except.pure, List.length_cons, List.range_succ_eq_map, List.map_cons,
      List.map_map, List.mapIdx_cons, Nat.add_zero, List.append_assoc, List.singleton_append,
      Function.comp_def, Nat.succ_eq_add_one, Nat.add_assoc, Nat.add_comm 1]

/-- An unknown mode is an error of the whole plan. -/
theorem decomposeSteps_unknownMode {parent : Goal} (now : String) (newId : Nat → String) (k : Nat)
    (g : Goal) {s : PlanStep} (steps : List PlanStep) {m : String} (hm : parent.mode = some m)
    (hunknown : m ∉ knownModes) (htitle : PyText.strip s.title ≠ "") :
    ∃ e, decomposeSteps parent now newId k g (s :: steps) = .error e := by
  obtain ⟨e, he⟩ := create_unknownMode now (newId k) hm hunknown htitle
  exact ⟨e, by simp only [decomposeSteps, bind, Except.bind, he]⟩

/-- No step of the areas is dropped. -/
theorem filter_steps {packets : List RepoImprovementPacket} :
    ((derivePlanSteps (itemsOf packets)).filter fun s => PyText.strip s.title ≠ "")
      = derivePlanSteps (itemsOf packets) := by
  refine List.filter_eq_self.mpr fun s hs => ?_
  obtain ⟨hstrip, hne⟩ := derivePlanSteps_title hs
  simpa [hstrip] using hne

theorem derivePlanSteps_ne_nil {packets : List RepoImprovementPacket} (h : packets ≠ []) :
    derivePlanSteps (itemsOf packets) ≠ [] := by
  obtain ⟨p, rest, rfl⟩ := List.exists_cons_of_ne_nil h
  have hmem : areaKey p.affectedArea ∈ areasOf (p :: rest) := by simp [areasOf]
  intro hnil
  rw [← derivePlanSteps_titles, hnil] at hmem
  cases hmem

/-- What `decompose` adds to the parent after its steps. -/
def planned (parent : Goal) (children : List Goal) (now : String) : Goal :=
  parent.addEvidence .plan ("decomposed into " ++ toString children.length ++ " step(s): "
    ++ ", ".intercalate (children.map Goal.title)) none now

theorem decompose_areas (g : Goal) {packets : List RepoImprovementPacket} (now : String)
    (newId : Nat → String) (k : Nat) (hne : packets ≠ []) :
    decompose g (derivePlanSteps (itemsOf packets)) now newId k
      = (decomposeSteps g now newId k g (derivePlanSteps (itemsOf packets))).map fun r =>
          (planned r.1 r.2 now, r.2) := by
  simp only [decompose, filter_steps, if_neg (derivePlanSteps_ne_nil hne), bind, Except.bind, pure,
    Except.pure]
  cases decomposeSteps g now newId k g (derivePlanSteps (itemsOf packets)) <;> rfl

/-! ## The routes -/

/-- Each child gets the packets of its step's area. -/
theorem routeSteps_spec (packets : List RepoImprovementPacket) (now : String)
    (pairs : List (PlanStep × Goal)) :
    ∃ routed, routeSteps packets now pairs = .ok routed
      ∧ List.Forall₂ (fun pair c => ∃ updatedAt, c = linkedGoal pair.2
          (packets.filter fun p => areaKey p.affectedArea = pair.1.title) now updatedAt)
        pairs routed := by
  induction pairs with
  | nil => exact ⟨[], rfl, .nil⟩
  | cons pair pairs ih =>
    obtain ⟨routed, hrouted, hall⟩ := ih
    obtain ⟨r, updatedAt, hlink, hgoal⟩ := linkPackets_spec pair.2
      (packets.filter fun p => areaKey p.affectedArea = pair.1.title) now
    refine ⟨r.goal :: routed, ?_, .cons ⟨updatedAt, hgoal⟩ hall⟩
    simp only [routeSteps, bind, Except.bind, hlink, hrouted, pure, Except.pure]

theorem map_eq_of_forall₂ {α β γ : Type*} {R : α → β → Prop} (f : α → γ) (f' : β → γ)
    {as : List α} {bs : List β} (h : List.Forall₂ R as bs) (hR : ∀ a b, R a b → f a = f' b) :
    as.map f = bs.map f' := by
  induction h with
  | nil => rfl
  | cons hab _ ih => rw [List.map_cons, List.map_cons, hR _ _ hab, ih]

theorem exists_of_forall₂ {α β : Type*} {R : α → β → Prop} {as : List α} {bs : List β} {b : β}
    (h : List.Forall₂ R as bs) (hb : b ∈ bs) : ∃ a ∈ as, R a b := by
  induction h with
  | nil => cases hb
  | @cons a b' as bs hab hrest ih =>
    rcases List.mem_cons.mp hb with rfl | hb
    · exact ⟨a, List.mem_cons_self, hab⟩
    · obtain ⟨a', ha', hR⟩ := ih hb
      exact ⟨a', List.mem_cons_of_mem _ ha', hR⟩

/-- A step and its child stand at the same place. -/
theorem mem_zip_stepGoal {parent : Goal} {now : String} {newId : Nat → String} {k : Nat}
    {steps : List PlanStep} {pair : PlanStep × Goal}
    (h : pair ∈ steps.zip (steps.mapIdx fun i s => stepGoal parent now (newId (k + i)) s)) :
    pair.1 ∈ steps ∧ ∃ i, pair.2 = stepGoal parent now (newId (k + i)) pair.1 := by
  obtain ⟨i, hi, rfl⟩ := List.mem_iff_getElem.mp h
  exact ⟨by simp, i, by simp⟩

/-! ## The partition -/

/-- The packets are split by area, each to one child. -/
structure IsPartition (g : Goal) (packets : List RepoImprovementPacket) (parent : Goal)
    (children : List Goal) : Prop where
  areas : children.map Goal.title = areasOf packets
  ids : parent.children = g.children ++ children.map Goal.id
  linked : ∀ c ∈ children, c.packets
    = ((packets.filter fun p => areaKey p.affectedArea = c.title).map packetId).eraseDups
  once : ∀ p ∈ packets, ∃ c ∈ children, c.title = areaKey p.affectedArea
    ∧ ∀ c' ∈ children, packetId p ∈ c'.packets ↔ c' = c

/-- The tick turns the goal into such a plan. -/
def DecomposesAsPartition (g : Goal) (packets : List RepoImprovementPacket) (now : String)
    (newId : Nat → String) (k : Nat) : Prop :=
  ∃ parent children, decomposeAndRoute g packets now newId k = .ok (parent, children)
    ∧ IsPartition g packets parent children

/-- Children with different areas, each with the packets of its area, have each packet once. -/
theorem linked_once {packets : List RepoImprovementPacket} {children : List Goal}
    (hinj : Set.InjOn packetId {p | p ∈ packets})
    (hareas : children.map Goal.title = areasOf packets)
    (hlinked : ∀ c ∈ children, c.packets
      = ((packets.filter fun p => areaKey p.affectedArea = c.title).map packetId).eraseDups)
    {p : RepoImprovementPacket} (hp : p ∈ packets) :
    ∃ c ∈ children, c.title = areaKey p.affectedArea
      ∧ ∀ c' ∈ children, packetId p ∈ c'.packets ↔ c' = c := by
  have harea : areaKey p.affectedArea ∈ children.map Goal.title := by
    rw [hareas]
    exact List.mem_eraseDups.mpr (List.mem_map.mpr ⟨p, hp, rfl⟩)
  obtain ⟨c, hc, htitle⟩ := List.mem_map.mp harea
  refine ⟨c, hc, htitle, fun c' hc' => ?_⟩
  have hnodup : (children.map Goal.title).Nodup := by
    rw [hareas]
    exact nodup_eraseDups _
  have hmem : packetId p ∈ c'.packets ↔ c'.title = c.title := by
    rw [hlinked c' hc', List.mem_eraseDups, List.mem_map]
    constructor
    · rintro ⟨q, hq, hid⟩
      obtain ⟨hqmem, hqarea⟩ := List.mem_filter.mp hq
      obtain rfl := hinj hqmem hp hid
      rw [htitle]
      exact (of_decide_eq_true hqarea).symm
    · intro h
      exact ⟨p, List.mem_filter.mpr ⟨hp, by simp [h, htitle]⟩, rfl⟩
  rw [hmem]
  exact ⟨List.inj_on_of_nodup_map hnodup hc' hc, fun h => by rw [h]⟩

theorem areasOf_length (packets : List RepoImprovementPacket) :
    (derivePlanSteps (itemsOf packets)).length = (areasOf packets).length := by
  rw [← derivePlanSteps_titles, List.length_map]

/-- The children that the routes make of the steps. -/
theorem routed_isPartition {g parent : Goal} {packets : List RepoImprovementPacket} {now : String}
    {newId : Nat → String} {k : Nat} {routed : List Goal}
    (hinj : Set.InjOn packetId {p | p ∈ packets})
    (hparent : parent.children = g.children
      ++ (List.range (derivePlanSteps (itemsOf packets)).length).map (fun i => newId (k + i)))
    (hall : List.Forall₂ (fun pair c => ∃ updatedAt, c = linkedGoal pair.2
        (packets.filter fun p => areaKey p.affectedArea = pair.1.title) now updatedAt)
      ((derivePlanSteps (itemsOf packets)).zip ((derivePlanSteps (itemsOf packets)).mapIdx
        fun i s => stepGoal g now (newId (k + i)) s)) routed) :
    IsPartition g packets parent routed := by
  set steps := derivePlanSteps (itemsOf packets) with hsteps
  set pairs := steps.zip (steps.mapIdx fun i s => stepGoal g now (newId (k + i)) s) with hpairs
  -- a child keeps the title and the id of its step
  have htitles : routed.map Goal.title = areasOf packets := by
    have hroute := map_eq_of_forall₂ (fun pair : PlanStep × Goal => pair.2.title) Goal.title hall
      (by rintro pair c ⟨updatedAt, rfl⟩; rfl)
    rw [← hroute, ← derivePlanSteps_titles, ← hsteps]
    calc pairs.map (fun pair => pair.2.title)
        = pairs.map (fun pair => pair.1.title) := by
          refine List.map_congr_left fun pair hpair => ?_
          obtain ⟨hs, i, hchild⟩ := mem_zip_stepGoal hpair
          rw [hchild]
          exact (derivePlanSteps_title hs).1
      _ = (pairs.map Prod.fst).map PlanStep.title := by rw [List.map_map]; rfl
      _ = steps.map PlanStep.title := by rw [hpairs, List.map_fst_zip (by simp)]
  have hids : routed.map Goal.id = (List.range steps.length).map fun i => newId (k + i) := by
    have hroute := map_eq_of_forall₂ (fun pair : PlanStep × Goal => pair.2.id) Goal.id hall
      (by rintro pair c ⟨updatedAt, rfl⟩; rfl)
    rw [← hroute]
    exact List.ext_getElem (by simp [hpairs]) (by simp [hpairs, stepGoal])
  have hlinked : ∀ c ∈ routed, c.packets
      = ((packets.filter fun p => areaKey p.affectedArea = c.title).map packetId).eraseDups := by
    intro c hc
    obtain ⟨pair, hpair, updatedAt, rfl⟩ := exists_of_forall₂ hall hc
    obtain ⟨hs, i, hchild⟩ := mem_zip_stepGoal hpair
    have htitle : pair.2.title = pair.1.title := by
      rw [hchild]
      exact (derivePlanSteps_title hs).1
    have hpackets : pair.2.packets = [] := by rw [hchild]; rfl
    rw [linkedGoal_packets, linkIds_eq, hpackets, show (linkedGoal pair.2 _ now updatedAt).title
      = pair.1.title from htitle]
    simp
  exact ⟨htitles, by rw [hids]; exact hparent, hlinked,
    fun p hp => linked_once hinj htitles hlinked hp⟩

/--
**A decomposition is a partition, for the goals whose mode is known.** The ids of packets are
taken to be different for different packets of the list.
-/
theorem decomposition_is_partition_iff (g : Goal) (packets : List RepoImprovementPacket)
    (now : String) (newId : Nat → String) (k : Nat) (hne : packets ≠ [])
    (hinj : Set.InjOn packetId {p | p ∈ packets})
    (hfresh : FreshChildIds g newId k (areasOf packets).length) :
    DecomposesAsPartition g packets now newId k ↔ KnownMode g.mode := by
  have hsteps := derivePlanSteps_ne_nil hne
  constructor
  · rintro ⟨parent, children, h, -⟩ m hm
    by_contra hunknown
    obtain ⟨s, rest, hcons⟩ := List.exists_cons_of_ne_nil hsteps
    have hs : s ∈ derivePlanSteps (itemsOf packets) := hcons ▸ List.mem_cons_self
    obtain ⟨hstrip, htitle⟩ := derivePlanSteps_title hs
    obtain ⟨e, he⟩ := decomposeSteps_unknownMode now newId k g rest hm hunknown
      (by rwa [hstrip])
    have hdec := decompose_areas g now newId k hne
    rw [hcons, he, ← hcons] at hdec
    simp only [decomposeAndRoute, hdec, bind, Except.bind, Except.map] at h
    cases h
  · intro hmode
    obtain ⟨updatedAt, hdec⟩ := decomposeSteps_eq now hmode
      (fun s hs => by
        obtain ⟨hstrip, htitle⟩ := derivePlanSteps_title hs
        rwa [hstrip])
      (areasOf_length packets ▸ hfresh)
    obtain ⟨routed, hrouted, hall⟩ := routeSteps_spec packets now
      ((derivePlanSteps (itemsOf packets)).zip
        ((derivePlanSteps (itemsOf packets)).mapIdx fun i s => stepGoal g now (newId (k + i)) s))
    obtain ⟨parent, hplan, hparent⟩ : ∃ parent, decompose g (derivePlanSteps (itemsOf packets)) now
        newId k = .ok (parent, (derivePlanSteps (itemsOf packets)).mapIdx
          fun i s => stepGoal g now (newId (k + i)) s)
        ∧ parent.children = g.children
          ++ (List.range (derivePlanSteps (itemsOf packets)).length).map fun i => newId (k + i) := by
      rw [decompose_areas g now newId k hne, hdec]
      exact ⟨_, rfl, rfl⟩
    refine ⟨parent, routed, ?_, routed_isPartition hinj hparent hall⟩
    simp only [decomposeAndRoute, hplan, bind, Except.bind, hrouted, pure, Except.pure]

/-- Two areas, one of them written with blanks around it, and a packet without an area. -/
def mixedPackets : List RepoImprovementPacket :=
  [todoPacket, { finding := "no tests for cli", affectedArea := " tests " },
    { finding := "unused import" }, { finding := "no tests for api", affectedArea := "tests" }]

theorem mixed_decomposition :
    DecomposesAsPartition openGoal mixedPackets "t1" (fun i => "goal-step-" ++ toString i) 0 := by
  have hnodup : (mixedPackets.map packetId).Nodup := by decide +kernel
  exact (decomposition_is_partition_iff openGoal mixedPackets "t1" _ 0 (List.cons_ne_nil _ _)
    (fun p hp q hq => List.inj_on_of_nodup_map hnodup hp hq)
    ⟨by decide, by decide⟩).mpr nofun

/-- A goal whose mode no `create` takes, as a newer version may have saved it. -/
def newerGoal : Goal := { openGoal with mode := some "autonomous" }

/-- The mode of the goal is handed to its children, and the first of them raises. -/
theorem unknown_mode_never_decomposes :
    ¬ ∀ (g : Goal) (packets : List RepoImprovementPacket) (now : String) (newId : Nat → String)
        (k : Nat), packets ≠ [] → Set.InjOn packetId {p | p ∈ packets} →
        FreshChildIds g newId k (areasOf packets).length →
        DecomposesAsPartition g packets now newId k := by
  intro h
  obtain ⟨parent, children, hrun, -⟩ := h newerGoal [todoPacket] "t1"
    (fun i => "goal-step-" ++ toString i) 0 (List.cons_ne_nil _ _) (by simp)
    ⟨by decide, by decide⟩
  have herror : (decomposeAndRoute newerGoal [todoPacket] "t1"
      (fun i => "goal-step-" ++ toString i) 0).isOk = false := by decide
  rw [hrun] at herror
  cases herror

end ForgeKit.Goals
