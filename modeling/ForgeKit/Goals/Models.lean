import Mathlib.Data.List.Sort
import ForgeKit.Lib.Json
import ForgeKit.Lib.Table

/-!
# Goals (`forgekit_goal.models`, `transitions`, `store`)

A goal is a value: every change returns a new one. A change takes the clock's reading as an
argument; the calls one tick makes on a goal all get the same reading.

* `Goal.addEvidence`, `Goal.linkPacket`, `Goal.unlinkPacket`, `Goal.addChild` — the changes
* `Transitions.apply` — the only sanctioned change of a status
* `loadAll` — the goals of a store in the order the tickers see them
-/

namespace ForgeKit.Goals

/-! ## The record -/

/-- `GoalStatus`. -/
inductive GoalStatus where
  | draft
  | active
  | blocked
  | awaitingApproval
  | done
  | abandoned
deriving DecidableEq, Repr

def GoalStatus.value : GoalStatus → String
  | .draft => "draft"
  | .active => "active"
  | .blocked => "blocked"
  | .awaitingApproval => "awaiting_approval"
  | .done => "done"
  | .abandoned => "abandoned"

/-- The tags of evidence. A tag that nothing reads is an `other`. -/
inductive EvidenceKind where
  | proposal
  | execution
  | verification
  | decision
  | plan
  | replan
  | blocked
  | governance
  | other (tag : String)
deriving DecidableEq, Repr

/-- `EvidenceRecord`. -/
structure EvidenceRecord where
  ts : String
  kind : EvidenceKind
  summary : String
  ref : Option String := none
deriving DecidableEq, Repr

/-- `Goal`. -/
structure Goal where
  id : String
  title : String
  intent : String := ""
  status : GoalStatus := .draft
  mode : Option String := none
  parentId : Option String := none
  children : List String := []
  packets : List String := []
  evidence : List EvidenceRecord := []
  createdAt : String := ""
  updatedAt : String := ""
deriving DecidableEq, Repr

/-- `KNOWN_MODES`. -/
def knownModes : List String := ["manual", "assisted", "auto"]

/-- `repr` of a list of texts without quotes in them. -/
def reprTexts (texts : List String) : String :=
  "[" ++ ", ".intercalate (texts.map fun t => "'" ++ t ++ "'") ++ "]"

namespace Goal

/-- `Goal.create` under a given id; an error is the text of its `ValueError`. -/
def create (title : String) (intent : String) (mode parentId : Option String) (goalId : String)
    (now : String) : Except String Goal :=
  let title := PyText.strip title
  if title = "" then .error "goal title must be non-empty"
  else match mode with
    | some m =>
      if m ∈ knownModes then
        .ok { id := goalId, title, intent := PyText.strip intent, mode, parentId,
              createdAt := now, updatedAt := now }
      else .error ("unknown mode '" ++ m
        ++ "'; expected one of ('manual', 'assisted', 'auto')")
    | none =>
      .ok { id := goalId, title, intent := PyText.strip intent, mode, parentId,
            createdAt := now, updatedAt := now }

/-- `Goal.with_status`. -/
def withStatus (g : Goal) (status : GoalStatus) (now : String) : Goal :=
  { g with status, updatedAt := now }

/-- `Goal.add_evidence`. -/
def addEvidence (g : Goal) (kind : EvidenceKind) (summary : String) (ref : Option String)
    (now : String) : Goal :=
  { g with evidence := g.evidence ++ [⟨now, kind, summary, ref⟩], updatedAt := now }

/-- `Goal.link_packet`. -/
def linkPacket (g : Goal) (packetId now : String) : Except String Goal :=
  let packetId := PyText.strip packetId
  if packetId = "" then .error "packet_id must be non-empty"
  else if packetId ∈ g.packets then .ok g
  else .ok { g with packets := g.packets ++ [packetId], updatedAt := now }

/-- `Goal.unlink_packet`. -/
def unlinkPacket (g : Goal) (packetId now : String) : Goal :=
  if packetId ∈ g.packets then
    { g with packets := g.packets.filter (· ≠ packetId), updatedAt := now }
  else g

/-- `Goal.add_child`. -/
def addChild (g : Goal) (childId now : String) : Except String Goal :=
  let childId := PyText.strip childId
  if childId = "" then .error "child_id must be non-empty"
  else if childId = g.id then .error "a goal cannot be its own child"
  else if childId ∈ g.children then .ok g
  else .ok { g with children := g.children ++ [childId], updatedAt := now }

/-! ### Fields after a change -/

@[simp] theorem withStatus_id (g : Goal) (st : GoalStatus) (now : String) :
    (g.withStatus st now).id = g.id := rfl

@[simp] theorem withStatus_status (g : Goal) (st : GoalStatus) (now : String) :
    (g.withStatus st now).status = st := rfl

@[simp] theorem withStatus_children (g : Goal) (st : GoalStatus) (now : String) :
    (g.withStatus st now).children = g.children := rfl

@[simp] theorem withStatus_packets (g : Goal) (st : GoalStatus) (now : String) :
    (g.withStatus st now).packets = g.packets := rfl

@[simp] theorem withStatus_evidence (g : Goal) (st : GoalStatus) (now : String) :
    (g.withStatus st now).evidence = g.evidence := rfl

section

variable (g : Goal) (kind : EvidenceKind) (summary : String) (ref : Option String) (now : String)

@[simp] theorem addEvidence_id : (g.addEvidence kind summary ref now).id = g.id := rfl

@[simp] theorem addEvidence_status :
    (g.addEvidence kind summary ref now).status = g.status := rfl

@[simp] theorem addEvidence_mode : (g.addEvidence kind summary ref now).mode = g.mode := rfl

@[simp] theorem addEvidence_children :
    (g.addEvidence kind summary ref now).children = g.children := rfl

@[simp] theorem addEvidence_packets :
    (g.addEvidence kind summary ref now).packets = g.packets := rfl

@[simp] theorem addEvidence_evidence :
    (g.addEvidence kind summary ref now).evidence
      = g.evidence ++ [⟨now, kind, summary, ref⟩] := rfl

end

/-- What `linkPacket` does to a goal when the id is one that needs no stripping. -/
theorem linkPacket_eq (g : Goal) {packetId : String} (now : String)
    (hstrip : PyText.strip packetId = packetId) (hne : packetId ≠ "") :
    g.linkPacket packetId now = .ok (if packetId ∈ g.packets then g
      else { g with packets := g.packets ++ [packetId], updatedAt := now }) := by
  simp only [linkPacket, hstrip, if_neg hne]
  split <;> rfl

theorem unlinkPacket_packets (g : Goal) (p now : String) :
    (g.unlinkPacket p now).packets = g.packets.filter (· ≠ p) := by
  unfold unlinkPacket
  split
  · rfl
  · next h =>
    refine (List.filter_eq_self.mpr fun q hq => ?_).symm
    simpa using fun he : q = p => h (he ▸ hq)

/-- A child that is added keeps everything but the children and the time of the update. -/
theorem addChild_ok {g g' : Goal} {childId now : String} (h : g.addChild childId now = .ok g') :
    g' = { g with children := g'.children, updatedAt := g'.updatedAt }
      ∧ g'.children = g.children ++ (if PyText.strip childId ∈ g.children then []
          else [PyText.strip childId]) := by
  simp only [addChild] at h
  split at h
  · cases h
  · split at h
    · cases h
    · split at h
      · next hmem => cases h; exact ⟨rfl, by rw [if_pos hmem, List.append_nil]⟩
      · next hmem => cases h; exact ⟨rfl, by rw [if_neg hmem]⟩

/-- A goal that is created is a draft with nothing on it. -/
theorem create_ok {title intent : String} {mode parentId : Option String} {goalId now : String}
    {g : Goal} (h : create title intent mode parentId goalId now = .ok g) :
    g.id = goalId ∧ g.status = .draft ∧ g.parentId = parentId ∧ g.children = [] ∧ g.packets = []
      ∧ g.evidence = [] := by
  simp only [create] at h
  split at h
  · cases h
  · split at h
    · split at h
      · cases h; exact ⟨rfl, rfl, rfl, rfl, rfl, rfl⟩
      · cases h
    · cases h; exact ⟨rfl, rfl, rfl, rfl, rfl, rfl⟩

end Goal

/-! ## Transitions -/

namespace Transitions

/-- `_ALLOWED`. -/
def allowedTargets : GoalStatus → List GoalStatus
  | .draft => [.active, .abandoned]
  | .active => [.blocked, .awaitingApproval, .done, .abandoned]
  | .blocked => [.active, .abandoned]
  | .awaitingApproval => [.active, .blocked, .done, .abandoned]
  | .done => [.active]
  | .abandoned => [.active]

/-- `can_transition`. -/
def canTransition (src dst : GoalStatus) : Bool := dst ∈ allowedTargets src

/-- `transitions.apply`; an error is the text of its `InvalidTransition`. -/
def apply (g : Goal) (dst : GoalStatus) (now : String) : Except String Goal :=
  if dst = g.status then .ok g
  else if canTransition g.status dst = false then
    .error ("cannot move goal " ++ g.id ++ " from " ++ g.status.value ++ " to " ++ dst.value
      ++ "; allowed: "
      ++ reprTexts (((allowedTargets g.status).map GoalStatus.value).insertionSort (· ≤ ·)))
  else if dst = .done ∧ g.evidence = [] then
    .error ("goal " ++ g.id ++ " cannot be marked done with no evidence (no fake-green)")
  else .ok (g.withStatus dst now)

/-- A goal that is moved has the new status and keeps everything else. -/
theorem apply_ok {g g' : Goal} {dst : GoalStatus} {now : String} (h : apply g dst now = .ok g') :
    g' = { g with status := dst, updatedAt := g'.updatedAt } := by
  unfold apply at h
  split at h
  · next hs => cases h; rw [hs]
  · split at h
    · cases h
    · split at h
      · cases h
      · cases h; rfl

theorem apply_of_canTransition {g : Goal} {dst : GoalStatus} (now : String)
    (hcan : canTransition g.status dst = true) (hne : dst ≠ g.status)
    (hev : dst = .done → g.evidence ≠ []) : apply g dst now = .ok (g.withStatus dst now) := by
  unfold apply
  rw [if_neg hne, if_neg (by simp [hcan]), if_neg fun h => hev h.1 h.2]

end Transitions

/-! ## The store -/

/-- One file per goal, named after its id. -/
abbrev GoalStore := Table String Goal Goal.id

namespace GoalStore

/-- `GoalStore.save`. -/
def save (store : GoalStore) (g : Goal) : GoalStore := store.upsert g

/-- `GoalStore.get`. -/
def get (store : GoalStore) (goalId : String) : Option Goal := store.find? goalId

/-- The files `load_all` does not skip. -/
def isLoaded (g : Goal) : Bool := !PyText.startsWith (g.id ++ ".json") "."

/-- `GoalStore.load_all`: by file name, then newest update first. -/
def loadAll (store : GoalStore) : List Goal :=
  ((store.rows.filter isLoaded).insertionSort fun g h => g.id ++ ".json" ≤ h.id ++ ".json")
    |>.insertionSort fun g h => h.updatedAt ≤ g.updatedAt

theorem loadAll_perm (store : GoalStore) :
    (loadAll store).Perm (store.rows.filter isLoaded) :=
  (List.perm_insertionSort _ _).trans (List.perm_insertionSort _ _)

theorem mem_loadAll {store : GoalStore} {g : Goal} :
    g ∈ loadAll store ↔ g ∈ store.rows ∧ isLoaded g = true := by
  rw [(loadAll_perm store).mem_iff, List.mem_filter]

theorem get_of_mem_loadAll {store : GoalStore} {g : Goal} (h : g ∈ loadAll store) :
    get store g.id = some g := Table.find?_of_mem (mem_loadAll.mp h).1

theorem loadAll_nodup (store : GoalStore) : ((loadAll store).map Goal.id).Nodup := by
  rw [((loadAll_perm store).map Goal.id).nodup_iff]
  exact store.nodup.sublist (List.filter_sublist.map Goal.id)

theorem get_save (store : GoalStore) (g : Goal) (k : String) :
    get (save store g) k = if g.id = k then some g else get store k := store.find?_upsert g k

theorem get_save_self (store : GoalStore) (g : Goal) : get (save store g) g.id = some g :=
  store.find?_upsert_self g

theorem get_save_ne (store : GoalStore) {g : Goal} {k : String} (h : g.id ≠ k) :
    get (save store g) k = get store k := store.find?_upsert_ne h

/-- Several goals saved one after the other. -/
def saveAll (store : GoalStore) (goals : List Goal) : GoalStore := goals.foldl save store

theorem get_saveAll_of_notMem {store : GoalStore} {goals : List Goal} {k : String}
    (h : k ∉ goals.map Goal.id) : get (saveAll store goals) k = get store k := by
  induction goals generalizing store with
  | nil => rfl
  | cons g goals ih =>
    rw [List.map_cons, List.mem_cons, not_or] at h
    exact (ih h.2).trans (get_save_ne store (Ne.symm h.1))

/-- What is read after several saves is one of them, or it was there before. -/
theorem get_saveAll {store : GoalStore} {goals : List Goal} {k : String} {g : Goal}
    (h : get (saveAll store goals) k = some g) :
    g ∈ goals ∨ k ∉ goals.map Goal.id ∧ get store k = some g := by
  induction goals generalizing store with
  | nil => exact .inr ⟨by simp, h⟩
  | cons g' goals ih =>
    rcases ih h with hmem | ⟨hnot, hget⟩
    · exact .inl (List.mem_cons_of_mem _ hmem)
    · rw [get_save] at hget
      split at hget
      · cases hget; exact .inl List.mem_cons_self
      · next hne =>
        refine .inr ⟨?_, hget⟩
        rw [List.map_cons, List.mem_cons, not_or]
        exact ⟨Ne.symm hne, hnot⟩

/-- Saving removes nothing. -/
theorem get_saveAll_isSome {store : GoalStore} (goals : List Goal) {k : String}
    (h : (get store k).isSome) : (get (saveAll store goals) k).isSome := by
  induction goals generalizing store with
  | nil => exact h
  | cons g goals ih =>
    refine ih ?_
    rw [get_save]
    split
    · rfl
    · exact h

theorem get_id {store : GoalStore} {k : String} {g : Goal} (h : get store k = some g) : g.id = k :=
  Table.find?_key h

end GoalStore

end ForgeKit.Goals
