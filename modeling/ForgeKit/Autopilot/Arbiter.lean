import ForgeKit.Lib.PyStr

/-!
# The executor slot (`autopilot/orchestrator`, `ExecutorArbiter`)

One slot, held under a role name. Who is refused is put in a queue by name, and a release hands the
slot to the first name of the queue. Beside the arbiter stands what its clients were told: the
grants that were not released yet.

* `Slot.SlotKept` — one client at a time has a grant, and without one the slot is free
* `Slot.slotKept_perform_iff` — which operations keep that
-/

namespace ForgeKit.Autopilot

open Py (Text lit)

/-- `ExecutorArbiter`. -/
structure ExecutorArbiter where
  holder : Option Text := none
  queue : List Text := []
  log : List Text := []
deriving DecidableEq

namespace ExecutorArbiter

/-- `acquire`: the answer, and the arbiter after it. -/
def acquire (arb : ExecutorArbiter) (executor : Text) : Bool × ExecutorArbiter :=
  match arb.holder with
  | none => (true, { arb with holder := some executor, log := arb.log ++ [lit "grant:" ++ executor] })
  | some _ =>
    (false, { arb with queue := if executor ∈ arb.queue then arb.queue else arb.queue ++ [executor] })

/-- `release`; an empty name is handed the slot without a line in the log. -/
def release (arb : ExecutorArbiter) (executor : Text) : ExecutorArbiter :=
  if arb.holder = some executor then
    { holder := arb.queue.head?
      queue := arb.queue.tail
      log := arb.log ++ [lit "release:" ++ executor]
        ++ ((arb.queue.head?.filter (· ≠ [])).map (lit "grant:" ++ ·)).toList }
  else arb

/-- An executor is granted the slot exactly when nobody holds it. -/
theorem acquire_granted_iff {arb : ExecutorArbiter} {executor : Text} :
    (arb.acquire executor).1 = true ↔ arb.holder = none := by
  unfold acquire
  cases arb.holder <;> simp

theorem holder_release {arb : ExecutorArbiter} {executor : Text} :
    (arb.release executor).holder =
      if arb.holder = some executor then arb.queue.head? else arb.holder := by
  unfold release
  split <;> rfl

end ExecutorArbiter

/-! ## The slot and its clients -/

/-- What a client does with the slot. -/
inductive SlotOp where
  | idle
  | acquire (executor : Text)
  | release (executor : Text)
  /-- The client is gone, with the slot it was granted under this name. -/
  | abandon (executor : Text)
deriving DecidableEq

/-- The arbiter, with the grants that were not released. -/
structure Slot (κ : Type) where
  arbiter : ExecutorArbiter := {}
  unreleased : List (κ × Text) := []
deriving DecidableEq

namespace Slot

variable {κ : Type} [DecidableEq κ]

/-- A client uses the slot; the answer is the one of `acquire`. -/
def perform (s : Slot κ) (client : κ) : SlotOp → Bool × Slot κ
  | .idle => (false, s)
  | .acquire executor =>
    let (granted, arbiter) := s.arbiter.acquire executor
    (granted, ⟨arbiter, if granted = true then (client, executor) :: s.unreleased else s.unreleased⟩)
  | .release executor =>
    (false, ⟨s.arbiter.release executor, s.unreleased.erase (client, executor)⟩)
  | .abandon executor => (false, { s with unreleased := s.unreleased.erase (client, executor) })

/-- **The slot is kept**: at most one client has an unreleased grant, and when none has, nobody holds
the slot and the next to ask for it is granted. -/
structure SlotKept (s : Slot κ) : Prop where
  one : ∀ x ∈ s.unreleased, ∀ y ∈ s.unreleased, x.1 = y.1
  free : s.unreleased = [] → s.arbiter.holder = none
  next : s.unreleased = [] → ∀ executor, (s.arbiter.acquire executor).1 = true

/-- Who may do what: a free slot is asked for while no other client has a grant; the last grant is
given back under the name that holds the slot, with no name in the queue; and it is not
abandoned. -/
def Keeps (s : Slot κ) (client : κ) : SlotOp → Prop
  | .idle => True
  | .acquire _ => s.arbiter.holder = none → ∀ x ∈ s.unreleased, x.1 = client
  | .release executor => s.unreleased.erase (client, executor) = [] →
      (s.arbiter.holder = some executor ∧ s.arbiter.queue = []) ∨ s.arbiter.holder = none
  | .abandon executor => s.unreleased.erase (client, executor) = [] → s.arbiter.holder = none

omit [DecidableEq κ] in
theorem slotKept_iff {s : Slot κ} : s.SlotKept ↔
    (∀ x ∈ s.unreleased, ∀ y ∈ s.unreleased, x.1 = y.1) ∧
      (s.unreleased = [] → s.arbiter.holder = none) := by
  constructor
  · intro h
    exact ⟨h.one, h.free⟩
  · rintro ⟨hone, hfree⟩
    exact ⟨hone, hfree, fun hnone _ => ExecutorArbiter.acquire_granted_iff.mpr (hfree hnone)⟩

theorem perform_acquire_free {s : Slot κ} (h : s.arbiter.holder = none) (client : κ)
    (executor : Text) :
    (s.perform client (.acquire executor)).1 = true ∧
      (s.perform client (.acquire executor)).2.unreleased = (client, executor) :: s.unreleased ∧
      (s.perform client (.acquire executor)).2.arbiter.holder = some executor := by
  simp [perform, ExecutorArbiter.acquire, h]

theorem perform_acquire_held {s : Slot κ} (h : s.arbiter.holder ≠ none) (client : κ)
    (executor : Text) :
    (s.perform client (.acquire executor)).1 = false ∧
      (s.perform client (.acquire executor)).2.unreleased = s.unreleased ∧
      (s.perform client (.acquire executor)).2.arbiter.holder = s.arbiter.holder := by
  obtain ⟨holder, hholder⟩ := Option.ne_none_iff_exists'.mp h
  simp [perform, ExecutorArbiter.acquire, hholder]

/-- A grant that goes away leaves one client at most. -/
theorem one_erase {s : Slot κ} (h : s.SlotKept) (g : κ × Text) :
    ∀ x ∈ s.unreleased.erase g, ∀ y ∈ s.unreleased.erase g, x.1 = y.1 := by
  intro x hx y hy
  exact h.one x (List.mem_of_mem_erase hx) y (List.mem_of_mem_erase hy)

theorem slotKept_acquire_iff {s : Slot κ} (h : s.SlotKept) (client : κ) (executor : Text) :
    (s.perform client (.acquire executor)).2.SlotKept ↔ s.Keeps client (.acquire executor) := by
  rw [slotKept_iff]
  by_cases hholder : s.arbiter.holder = none
  · obtain ⟨-, hunreleased, -⟩ := perform_acquire_free hholder client executor
    rw [hunreleased]
    constructor
    · rintro ⟨hone, -⟩ - x hx
      exact hone x (List.mem_cons_of_mem _ hx) (client, executor) List.mem_cons_self
    · intro hkeeps
      have hclient : ∀ x ∈ (client, executor) :: s.unreleased, x.1 = client :=
        List.forall_mem_cons.mpr ⟨rfl, hkeeps hholder⟩
      exact ⟨fun x hx y hy => (hclient x hx).trans (hclient y hy).symm,
        fun hnil => absurd hnil (List.cons_ne_nil _ _)⟩
  · obtain ⟨-, hunreleased, hsame⟩ := perform_acquire_held hholder client executor
    rw [hunreleased, hsame]
    exact iff_of_true ⟨h.one, h.free⟩ fun hnone => absurd hnone hholder

theorem slotKept_release_iff {s : Slot κ} (h : s.SlotKept) (client : κ) (executor : Text) :
    (s.perform client (.release executor)).2.SlotKept ↔ s.Keeps client (.release executor) := by
  refine slotKept_iff.trans ((and_iff_right (one_erase h _)).trans (imp_congr_right fun _ => ?_))
  show (s.arbiter.release executor).holder = none ↔ _
  rw [ExecutorArbiter.holder_release]
  split
  · next hholder => simp [hholder]
  · next hholder => simp [hholder]

/-- **The operations that keep the slot.** -/
theorem slotKept_perform_iff {s : Slot κ} (h : s.SlotKept) (client : κ) (op : SlotOp) :
    (s.perform client op).2.SlotKept ↔ s.Keeps client op := by
  cases op with
  | idle => exact iff_of_true h trivial
  | acquire executor => exact slotKept_acquire_iff h client executor
  | release executor => exact slotKept_release_iff h client executor
  | abandon executor => exact slotKept_iff.trans (and_iff_right (one_erase h _))

end Slot

end ForgeKit.Autopilot
