import Mathlib.Algebra.Order.Group.Defs
import Mathlib.Algebra.Order.Sub.Basic
import Mathlib.Data.List.Induction

/-!
# A sliding window over a non-decreasing stream

`record` is the usual implementation of "how many events lie in the last `w` seconds": on each
event it drops what is too old and appends the event. What was dropped is never looked at again,
so a count over the kept events could miss a burst.

* `ledger_concat` — on a non-decreasing stream nothing that a later window needs is dropped
* `exists_lt_ledger_iff_burst` — some window held more than `m` events exactly when some `m + 1`
  consecutive events of the stream lie within `w`
-/

namespace SlidingWindow

/-! ## Cutoffs -/

section Cutoffs

variable {α : Type*} [LinearOrder α]

/-- Two cutoffs in a row are the later one. -/
theorem filter_filter_of_le {c d : α} (hcd : c ≤ d) (ts : List α) :
    (ts.filter fun s => decide (c ≤ s)).filter (fun s => decide (d ≤ s))
      = ts.filter fun s => decide (d ≤ s) := by
  rw [List.filter_filter]
  refine List.filter_congr fun s _ => ?_
  by_cases hd : d ≤ s
  · simp [hd, hcd.trans hd]
  · simp [hd]

/-- On a non-increasing list, "more than `m` entries from `c` on" is a question about one entry. -/
theorem lt_length_filter_iff {c : α} {d : List α} (h : d.Pairwise fun a b => b ≤ a) (m : ℕ) :
    m < (d.filter fun s => decide (c ≤ s)).length ↔ ∃ x, d[m]? = some x ∧ c ≤ x := by
  induction d generalizing m with
  | nil => simp
  | cons a d ih =>
    obtain ⟨hhead, htail⟩ := List.pairwise_cons.mp h
    by_cases ha : c ≤ a
    · rw [List.filter_cons_of_pos (by simpa using ha)]
      cases m with
      | zero => simp [ha]
      | succ m => simpa using ih htail m
    -- from the first entry that is too old, all are
    · have hnone : ∀ s ∈ a :: d, ¬c ≤ s := by
        intro s hs hcs
        rcases List.mem_cons.mp hs with rfl | hs
        · exact ha hcs
        · exact ha (hcs.trans (hhead s hs))
      rw [List.filter_eq_nil_iff.mpr (by simpa using hnone)]
      refine iff_of_false (by simp) ?_
      rintro ⟨x, hx, hcx⟩
      exact hnone x (List.mem_of_getElem? hx) hcx

end Cutoffs

/-! ## The window -/

variable {α : Type*} [AddCommGroup α] [LinearOrder α]

/-- One event: what is older than `w` is dropped, the event is appended. -/
def record (w : α) (kept : List α) (t : α) : List α :=
  kept.filter (fun s => decide (t - w ≤ s)) ++ [t]

/-- What is kept after a stream of events. -/
def ledger (w : α) (ts : List α) : List α := ts.foldl (record w) []

/-- Some `m + 1` consecutive events lie within `w`. -/
def Burst (w : α) (m : ℕ) (ts : List α) : Prop :=
  ∃ i a b, ts[i]? = some a ∧ ts[i + m]? = some b ∧ b - a ≤ w

@[simp] theorem ledger_nil (w : α) : ledger w [] = [] := rfl

theorem ledger_append_singleton (w : α) (ts : List α) (t : α) :
    ledger w (ts ++ [t]) = record w (ledger w ts) t := by
  simp [ledger]

theorem record_ne_nil (w : α) (kept : List α) (t : α) : record w kept t ≠ [] := by
  simp [record]

/-- What an event drops is older than its window. -/
theorem countP_record {w c t : α} (hc : t - w ≤ c) (kept : List α) :
    (record w kept t).countP (fun s => decide (c ≤ s))
      = kept.countP (fun s => decide (c ≤ s)) + if c ≤ t then 1 else 0 := by
  have hkept : (kept.filter fun s => decide (t - w ≤ s)).countP (fun s => decide (c ≤ s))
      = kept.countP fun s => decide (c ≤ s) := by
    rw [List.countP_eq_length_filter, filter_filter_of_le hc, List.countP_eq_length_filter]
  rw [record, List.countP_append, hkept]
  simp

variable [IsOrderedAddMonoid α]

/-- **The window is computed from the stream alone.** -/
theorem ledger_concat {w : α} (hw : 0 ≤ w) {ts : List α} {t : α}
    (h : (ts ++ [t]).Pairwise (· ≤ ·)) :
    ledger w (ts ++ [t]) = (ts ++ [t]).filter fun s => decide (t - w ≤ s) := by
  induction ts using List.reverseRecOn generalizing t with
  | nil => simp [ledger, record, hw]
  | append_singleton ts u ih =>
    obtain ⟨hsorted, -, hle⟩ := List.pairwise_append.mp h
    have hut : u ≤ t := hle u (by simp) t (by simp)
    have hcut : u - w ≤ t - w := sub_le_sub_right hut w
    rw [ledger_append_singleton, ih hsorted, record, filter_filter_of_le hcut,
      List.filter_append (ts ++ [u])]
    simp [hw]

/-! ## Bursts -/

/-- The window after the last event of `ts ++ [t]` holds more than `m` events. -/
theorem lt_length_ledger_iff {w : α} (hw : 0 ≤ w) {ts : List α} {t : α}
    (h : (ts ++ [t]).Pairwise (· ≤ ·)) (m : ℕ) :
    m < (ledger w (ts ++ [t])).length
      ↔ ∃ i a, i + m = ts.length ∧ (ts ++ [t])[i]? = some a ∧ t - a ≤ w := by
  have hrev : (ts ++ [t]).reverse.Pairwise fun a b => b ≤ a := List.pairwise_reverse.mpr h
  rw [ledger_concat hw h, ← List.length_reverse, ← List.filter_reverse,
    lt_length_filter_iff hrev]
  constructor
  · rintro ⟨a, ha, hle⟩
    have hlt : m < (ts ++ [t]).length := by
      simpa using (List.getElem?_eq_some_iff.mp ha).choose
    rw [List.getElem?_reverse hlt] at ha
    simp only [List.length_append, List.length_singleton] at ha hlt
    refine ⟨ts.length + 1 - 1 - m, a, by omega, ha, ?_⟩
    exact sub_le_comm.mp hle
  · rintro ⟨i, a, hi, ha, hle⟩
    have hlt : m < (ts ++ [t]).length := by simp; omega
    refine ⟨a, ?_, sub_le_comm.mp hle⟩
    rw [List.getElem?_reverse hlt, ← ha]
    congr 1
    simp
    omega

/-- **Counting the kept events finds exactly the bursts of the stream.** -/
theorem exists_lt_ledger_iff_burst {w : α} (hw : 0 ≤ w) {ts : List α}
    (h : ts.Pairwise (· ≤ ·)) (m : ℕ) :
    (∃ pre, pre <+: ts ∧ m < (ledger w pre).length) ↔ Burst w m ts := by
  constructor
  · rintro ⟨pre, ⟨post, rfl⟩, hlt⟩
    rcases List.eq_nil_or_concat pre with rfl | ⟨pre, t, rfl⟩
    · simp at hlt
    · rw [List.concat_eq_append] at h hlt ⊢
      have hpre := (List.pairwise_append.mp h).1
      obtain ⟨i, a, hi, ha, hle⟩ := (lt_length_ledger_iff hw hpre m).mp hlt
      refine ⟨i, a, t, ?_, ?_, hle⟩
      · rw [List.getElem?_append_left (List.getElem?_eq_some_iff.mp ha).choose]
        exact ha
      · rw [hi]; simp
  · rintro ⟨i, a, b, ha, hb, hle⟩
    have hlt := (List.getElem?_eq_some_iff.mp hb).choose
    -- the window that ends at `b` is the one of the prefix up to `b`
    have hsplit : ts.take (i + m) ++ [b] = ts.take (i + m + 1) := by
      rw [List.take_add_one, hb]; rfl
    have hpre : ts.take (i + m) ++ [b] <+: ts := hsplit ▸ List.take_prefix _ _
    refine ⟨_, hpre, (lt_length_ledger_iff hw (h.sublist hpre.sublist) m).mpr ⟨i, a, ?_, ?_, hle⟩⟩
    · rw [List.length_take]; omega
    · rw [hsplit, List.getElem?_take_of_lt (by omega)]
      exact ha

end SlidingWindow
