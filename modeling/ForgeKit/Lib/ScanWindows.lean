import Mathlib.Algebra.BigOperators.Group.List.Basic
import Mathlib.Algebra.Order.Group.Int
import Mathlib.Algebra.Ring.Nat
import Mathlib.Data.List.Nodup
import Mathlib.Order.Basic

/-!
# Half-open windows between scans

A scanner remembers when it last looked and looks at what lies after that, up to now. The windows of
an increasing sequence of scans do not overlap and leave nothing out. A turn is a scan with the time
of the one before it.

* `exists_turn`, `exists_window` — every time between the first and the last scan lies in a window
* `sum_turns`, `sum_windows` — what depends on the window of one time is counted once
* `daysBetween` — the days that a scan looks at
-/

namespace ScanWindows

variable {α β : Type*}

/-- The scans of a run, each with the time of the one before it. -/
def turns (time : β → α) : α → List β → List (α × β)
  | _, [] => []
  | a, b :: bs => (a, b) :: turns time (time b) bs

/-- The windows between consecutive scans. -/
def windows (a : α) (ts : List α) : List (α × α) := turns id a ts

/-- The time of the last scan. -/
def last : α → List α → α
  | a, [] => a
  | _, b :: ts => last b ts

@[simp] theorem turns_nil (time : β → α) (a : α) : turns time a [] = [] := rfl

@[simp] theorem turns_cons (time : β → α) (a : α) (b : β) (bs : List β) :
    turns time a (b :: bs) = (a, b) :: turns time (time b) bs := rfl

@[simp] theorem windows_nil (a : α) : windows a [] = [] := rfl

@[simp] theorem windows_cons (a b : α) (ts : List α) :
    windows a (b :: ts) = (a, b) :: windows b ts := rfl

theorem mem_of_mem_turns {time : β → α} {a : α} {bs : List β} {w : α × β}
    (hw : w ∈ turns time a bs) : w.2 ∈ bs := by
  induction bs generalizing a with
  | nil => cases hw
  | cons b bs ih =>
    rcases List.mem_cons.mp hw with rfl | hw
    · exact List.mem_cons_self
    · exact List.mem_cons_of_mem b (ih hw)

section Order

variable [LinearOrder α]

/-- A time in a half-open window. -/
def InWindow (w : α × α) (t : α) : Prop := w.1 < t ∧ t ≤ w.2

instance (w : α × α) (t : α) : Decidable (InWindow w t) :=
  inferInstanceAs (Decidable (_ ∧ _))

variable {time : β → α}

/-- **Nothing is left out.** -/
theorem exists_turn {a t : α} {bs : List β} (ha : a < t) (ht : t ≤ last a (bs.map time)) :
    ∃ w ∈ turns time a bs, InWindow (w.1, time w.2) t := by
  induction bs generalizing a with
  | nil => exact absurd ht (not_le.mpr ha)
  | cons b bs ih =>
    by_cases hb : t ≤ time b
    · exact ⟨(a, b), List.mem_cons_self, ha, hb⟩
    · obtain ⟨w, hw, hin⟩ := ih (not_le.mp hb) ht
      exact ⟨w, List.mem_cons_of_mem _ hw, hin⟩

theorem le_of_mem_turns {a : α} {bs : List β} (h : (a :: bs.map time).Pairwise (· < ·)) {w : α × β}
    (hw : w ∈ turns time a bs) : a ≤ w.1 := by
  induction bs generalizing a with
  | nil => cases hw
  | cons b bs ih =>
    obtain ⟨hfirst, hrest⟩ := List.pairwise_cons.mp h
    rcases List.mem_cons.mp hw with rfl | hw
    · exact le_rfl
    · exact (hfirst (time b) List.mem_cons_self).le.trans (ih hrest hw)

theorem lt_of_mem_turns {a : α} {bs : List β} (h : (a :: bs.map time).Pairwise (· < ·)) {w : α × β}
    (hw : w ∈ turns time a bs) : w.1 < time w.2 := by
  induction bs generalizing a with
  | nil => cases hw
  | cons b bs ih =>
    obtain ⟨hfirst, hrest⟩ := List.pairwise_cons.mp h
    rcases List.mem_cons.mp hw with rfl | hw
    · exact hfirst (time b) List.mem_cons_self
    · exact ih hrest hw

/-- Later scans do not see a time again. -/
theorem not_inWindow_later {t : α} {b : β} {bs : List β}
    (h : (time b :: bs.map time).Pairwise (· < ·)) (hle : t ≤ time b) {w : α × β}
    (hw : w ∈ turns time (time b) bs) : ¬InWindow (w.1, time w.2) t :=
  fun hin => absurd (hle.trans (le_of_mem_turns h hw)) (not_le.mpr hin.1)

/-- **What depends on the window of one time is counted once.** -/
theorem sum_turns {a t : α} {bs : List β} (h : (a :: bs.map time).Pairwise (· < ·)) {f : α × β → ℕ}
    (hf : ∀ w ∈ turns time a bs, ¬InWindow (w.1, time w.2) t → f w = 0) {w : α × β}
    (hw : w ∈ turns time a bs) (hin : InWindow (w.1, time w.2) t) :
    ((turns time a bs).map f).sum = f w := by
  induction bs generalizing a with
  | nil => cases hw
  | cons b bs ih =>
    obtain ⟨hfirst, hrest⟩ := List.pairwise_cons.mp h
    rw [turns_cons, List.map_cons, List.sum_cons]
    rcases List.mem_cons.mp hw with rfl | hw
    · have hzero : ((turns time (time b) bs).map f).sum = 0 := by
        refine List.sum_eq_zero fun n hn => ?_
        obtain ⟨w', hw', rfl⟩ := List.mem_map.mp hn
        exact hf w' (List.mem_cons_of_mem _ hw') (not_inWindow_later hrest hin.2 hw')
      rw [hzero, Nat.add_zero]
    · have hzero : f (a, b) = 0 := by
        refine hf _ List.mem_cons_self fun hin' => ?_
        have hle := le_of_mem_turns hrest hw
        exact absurd (hin'.2.trans hle) (not_le.mpr hin.1)
      rw [hzero, Nat.zero_add]
      exact ih hrest (fun w' hw' => hf w' (List.mem_cons_of_mem _ hw')) hw

theorem exists_window {a t : α} {ts : List α} (ha : a < t) (ht : t ≤ last a ts) :
    ∃ w ∈ windows a ts, InWindow w t :=
  exists_turn ha (by rwa [List.map_id])

theorem sum_windows {a t : α} {ts : List α} (h : (a :: ts).Pairwise (· < ·)) {f : α × α → ℕ}
    (hf : ∀ w ∈ windows a ts, ¬InWindow w t → f w = 0) {w : α × α} (hw : w ∈ windows a ts)
    (hin : InWindow w t) : ((windows a ts).map f).sum = f w :=
  sum_turns (by rwa [List.map_id]) hf hw hin

end Order

/-- The days from one to another. -/
def daysBetween (first final : ℤ) : List ℤ :=
  (List.range (final - first + 1).toNat).map fun n : ℕ => first + (n : ℤ)

theorem mem_daysBetween {first final d : ℤ} : d ∈ daysBetween first final ↔ first ≤ d ∧ d ≤ final := by
  unfold daysBetween
  rw [List.mem_map]
  constructor
  · rintro ⟨n, hn, rfl⟩
    have hlt := List.mem_range.mp hn
    omega
  · rintro ⟨hle, hge⟩
    exact ⟨(d - first).toNat, List.mem_range.mpr (by omega), by omega⟩

theorem nodup_daysBetween (first final : ℤ) : (daysBetween first final).Nodup := by
  refine List.Nodup.map (fun n n' h => ?_) List.nodup_range
  have hsame : first + (n : ℤ) = first + (n' : ℤ) := h
  omega

end ScanWindows
