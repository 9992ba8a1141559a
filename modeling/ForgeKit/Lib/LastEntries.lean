import Mathlib.Data.List.Sort

/-!
# A log that keeps its last entries

An entry is appended, and what is more than `n` entries old is dropped.

* `lastEntries_concat` — dropping early does not change what is kept
* `mem_lastEntries_iff` — an entry that is not written again is kept until `n` others follow it
* `perm_greatest_iff` — when the greatest entries are the last ones
-/

namespace LastEntries

variable {α : Type*}

/-- The last `n` entries. -/
def lastEntries (n : Nat) (l : List α) : List α := l.drop (l.length - n)

theorem lastEntries_of_length_le {n : Nat} {l : List α} (h : l.length ≤ n) : lastEntries n l = l := by
  rw [lastEntries, Nat.sub_eq_zero_of_le h, List.drop_zero]

theorem map_lastEntries {β : Type*} (f : α → β) (n : Nat) (l : List α) :
    (lastEntries n l).map f = lastEntries n (l.map f) := by
  rw [lastEntries, lastEntries, List.map_drop, List.length_map]

theorem length_lastEntries (n : Nat) (l : List α) :
    (lastEntries n l).length = min n l.length := by
  rw [lastEntries, List.length_drop]
  omega

/-- **Dropping before an entry is appended does not change what is kept.** -/
theorem lastEntries_concat (n : Nat) (l : List α) (x : α) :
    lastEntries n (lastEntries n l ++ [x]) = lastEntries n (l ++ [x]) := by
  by_cases h : l.length ≤ n
  · rw [lastEntries_of_length_le h]
  · have hlen : (lastEntries n l).length = n := by rw [length_lastEntries]; omega
    have hdrop : lastEntries n l ++ [x] = (l ++ [x]).drop (l.length - n) := by
      rw [lastEntries, List.drop_append_of_le_length (by omega)]
    rw [lastEntries, List.length_append, hlen, hdrop, List.drop_drop, lastEntries,
      List.length_append, List.length_singleton]
    congr 1
    omega

/-- **An entry that does not come again is kept until `n` others follow it.** -/
theorem mem_lastEntries_iff {n : Nat} {before after : List α} {x : α} (h : x ∉ after) :
    x ∈ lastEntries n (before ++ x :: after) ↔ after.length < n := by
  have hlen : (before ++ x :: after).length = before.length + after.length + 1 := by
    rw [List.length_append, List.length_cons]
    omega
  rw [lastEntries, hlen]
  by_cases hlt : after.length < n
  · refine iff_of_true ?_ hlt
    rw [List.drop_append_of_le_length (by omega)]
    exact List.mem_append_right _ List.mem_cons_self
  · refine iff_of_false (fun hmem => h ?_) hlt
    have hskip : before.length + after.length + 1 - n
        = before.length + 1 + (after.length - n) := by omega
    rw [hskip, ← List.drop_drop] at hmem
    have hafter : (before ++ x :: after).drop (before.length + 1) = after := by
      rw [List.drop_append]
      simp
    rw [hafter] at hmem
    exact List.mem_of_mem_drop hmem

/-- **The greatest `n` entries are the last `n`** exactly when every earlier entry is less than every
one of the last. -/
theorem perm_greatest_iff [LinearOrder α] {l : List α} (hnodup : l.Nodup) (n : Nat) :
    (lastEntries n (l.insertionSort (· ≤ ·))).Perm (lastEntries n l)
      ↔ ∀ a ∈ l.take (l.length - n), ∀ b ∈ lastEntries n l, a < b := by
  have hperm := List.perm_insertionSort (· ≤ ·) l
  have hsorted := List.pairwise_insertionSort (· ≤ ·) l
  unfold lastEntries
  rw [List.length_insertionSort]
  have hle : l.length - n ≤ l.length := Nat.sub_le _ _
  generalize l.length - n = m at hle ⊢
  constructor
  · intro hlast a ha b hb
    have hsplit : ((l.insertionSort (· ≤ ·)).take m ++ (l.insertionSort (· ≤ ·)).drop m).Perm
        (l.take m ++ l.drop m) := by
      rw [List.take_append_drop, List.take_append_drop]
      exact hperm
    have hfirst := (List.perm_append_right_iff _).mp
      (hsplit.trans (List.Perm.append_left _ hlast.symm))
    rw [← List.take_append_drop m (l.insertionSort (· ≤ ·)), List.pairwise_append] at hsorted
    have hab : a ≤ b := hsorted.2.2 a (hfirst.mem_iff.mpr ha) b (hlast.mem_iff.mpr hb)
    refine lt_of_le_of_ne hab ?_
    rintro rfl
    rw [← List.take_append_drop m l, List.nodup_append] at hnodup
    exact hnodup.2.2 a ha a hb rfl
  · intro hlt
    have hboth : ((l.take m).insertionSort (· ≤ ·) ++ (l.drop m).insertionSort (· ≤ ·)).Pairwise
        (· ≤ ·) := by
      refine List.pairwise_append.mpr ⟨List.pairwise_insertionSort _ _,
        List.pairwise_insertionSort _ _, ?_⟩
      intro a ha b hb
      rw [List.mem_insertionSort] at ha hb
      exact (hlt a ha b hb).le
    have heq : l.insertionSort (· ≤ ·)
        = (l.take m).insertionSort (· ≤ ·) ++ (l.drop m).insertionSort (· ≤ ·) := by
      refine List.Perm.eq_of_pairwise' hsorted hboth (hperm.trans ?_)
      calc l = l.take m ++ l.drop m := (List.take_append_drop m l).symm
        List.Perm _ _ := ((List.perm_insertionSort _ _).append (List.perm_insertionSort _ _)).symm
    have hlen : ((l.take m).insertionSort (· ≤ ·)).length = m := by
      rw [List.length_insertionSort, List.length_take, Nat.min_eq_left hle]
    rw [heq, List.drop_append_of_le_length hlen.ge, List.drop_eq_nil_of_le hlen.le, List.nil_append]
    exact List.perm_insertionSort _ _

end LastEntries
