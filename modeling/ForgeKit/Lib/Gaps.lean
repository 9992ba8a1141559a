import Mathlib.Order.CompletePartialOrder
import Mathlib.Order.Defs.Unbundled
import Mathlib.Order.Interval.Set.Disjoint
import Mathlib.Order.Interval.Set.LinearOrder

/-!
# Gaps between half-open intervals

A pair of points of a linear order stands for the interval from the first on and before the second.
A gap of a list of blocks is a largest interval that meets none of them.

* `mem_gaps_iff` — a sweep over blocks in order finds exactly the gaps
* `pairwise_gaps` — it finds them in order, apart from each other
* `isGap_clip` — blocks may be clipped to where the gaps are looked for
-/

namespace Gaps

variable {α : Type*} [LinearOrder α] {lo hi cursor : α} {b v w : α × α} {blocks : List (α × α)}

/-- The points of an interval. -/
def points (w : α × α) : Set α := Set.Ico w.1 w.2

/-- An interval of `[lo, hi)` that has a point, and none of a block. -/
structure Free (lo hi : α) (blocks : List (α × α)) (w : α × α) : Prop where
  lt : w.1 < w.2
  lo_le : lo ≤ w.1
  le_hi : w.2 ≤ hi
  apart : ∀ b ∈ blocks, Disjoint (points w) (points b)

/-- A free interval that lies in no larger one. -/
def IsGap (lo hi : α) (blocks : List (α × α)) : α × α → Prop :=
  MaximalFor (Free lo hi blocks) points

/-- The gaps of blocks in order, from the cursor on. -/
def gaps (hi : α) : List (α × α) → α → List (α × α)
  | [], cursor => if cursor < hi then [(cursor, hi)] else []
  | b :: bs, cursor => (if cursor < b.1 then [(cursor, b.1)] else []) ++ gaps hi bs (max cursor b.2)

/-- The part of a block in `[lo, hi)`. -/
def clip (lo hi : α) (b : α × α) : Option (α × α) :=
  if b.2 ≤ lo ∨ hi ≤ b.1 then none else some (max b.1 lo, min b.2 hi)

/-! ## Intervals -/

theorem points_subset_iff (h : w.1 < w.2) : points w ⊆ points v ↔ v.1 ≤ w.1 ∧ w.2 ≤ v.2 :=
  Set.Ico_subset_Ico_iff h

/-- Two intervals with points are apart when one ends before the other starts. -/
theorem disjoint_points_iff (hw : w.1 < w.2) (hb : b.1 < b.2) :
    Disjoint (points w) (points b) ↔ w.2 ≤ b.1 ∨ b.2 ≤ w.1 := by
  unfold points
  rw [Set.Ico_disjoint_Ico, min_le_iff, le_max_iff, le_max_iff]
  constructor
  · rintro ((h | h) | (h | h))
    · exact absurd h hw.not_ge
    · exact .inl h
    · exact .inr h
    · exact absurd h hb.not_ge
  · rintro (h | h)
    · exact .inl (.inr h)
    · exact .inr (.inl h)

theorem disjoint_points_of_le (h : w.2 ≤ b.1) : Disjoint (points w) (points b) :=
  Set.Ico_disjoint_Ico.mpr ((min_le_left _ _).trans (h.trans (le_max_right _ _)))

/-- The largest of two families of intervals, none of which lies in one of the other family. -/
theorem maximalFor_or_iff {P Q : α × α → Prop}
    (hPQ : ∀ v w, P v → Q w → ¬points v ⊆ points w ∧ ¬points w ⊆ points v) :
    MaximalFor (fun v => P v ∨ Q v) points w ↔ MaximalFor P points w ∨ MaximalFor Q points w := by
  constructor
  · rintro ⟨hp | hq, hmax⟩
    · exact .inl ⟨hp, fun v hv => hmax (.inl hv)⟩
    · exact .inr ⟨hq, fun v hv => hmax (.inr hv)⟩
  · rintro (⟨hp, hmax⟩ | ⟨hq, hmax⟩)
    · refine ⟨.inl hp, fun v hv hle => ?_⟩
      rcases hv with hv | hv
      · exact hmax hv hle
      · exact absurd hle (hPQ w v hp hv).1
    · refine ⟨.inr hq, fun v hv hle => ?_⟩
      rcases hv with hv | hv
      · exact absurd hle (hPQ v w hv hq).2
      · exact hmax hv hle

/-! ## The sweep -/

/-- Where there is no block, the gap is the whole. -/
theorem isGap_nil_iff : IsGap lo hi [] w ↔ lo < hi ∧ w = (lo, hi) := by
  constructor
  · rintro ⟨hw, hmax⟩
    have hlt : lo < hi := hw.lo_le.trans_lt (hw.lt.trans_le hw.le_hi)
    have hfree : Free lo hi [] (lo, hi) := ⟨hlt, le_refl _, le_refl _, fun _ h => nomatch h⟩
    have hle : points (lo, hi) ⊆ points w :=
      hmax hfree ((points_subset_iff hw.lt).mpr ⟨hw.lo_le, hw.le_hi⟩)
    obtain ⟨hlo, hhi⟩ := (points_subset_iff hlt).mp hle
    exact ⟨hlt, Prod.ext (hlo.antisymm hw.lo_le) (hw.le_hi.antisymm hhi)⟩
  · rintro ⟨hlt, rfl⟩
    refine ⟨⟨hlt, le_refl _, le_refl _, fun _ h => nomatch h⟩, fun v hv _ => ?_⟩
    exact (points_subset_iff hv.lt).mpr ⟨hv.lo_le, hv.le_hi⟩

/-- A free interval lies before the first block, or behind it. -/
theorem free_cons_iff (hb : b.1 < b.2) (hhi : b.2 ≤ hi) (hfirst : ∀ c ∈ blocks, b.1 ≤ c.1) :
    Free cursor hi (b :: blocks) w ↔
      Free cursor b.1 [] w ∨ Free (max cursor b.2) hi blocks w := by
  constructor
  · rintro ⟨hlt, hlo, hle, hapart⟩
    obtain ⟨hfree, hrest⟩ := List.forall_mem_cons.mp hapart
    rcases (disjoint_points_iff hlt hb).mp hfree with h | h
    · exact .inl ⟨hlt, hlo, h, fun _ h => nomatch h⟩
    · exact .inr ⟨hlt, max_le hlo h, hle, hrest⟩
  · rintro (⟨hlt, hlo, hle, -⟩ | ⟨hlt, hlo, hle, hapart⟩)
    · refine ⟨hlt, hlo, hle.trans (hb.le.trans hhi), List.forall_mem_cons.mpr ⟨?_, fun c hc => ?_⟩⟩
      · exact disjoint_points_of_le hle
      · exact disjoint_points_of_le (hle.trans (hfirst c hc))
    · refine ⟨hlt, (le_max_left _ _).trans hlo, hle, List.forall_mem_cons.mpr ⟨?_, hapart⟩⟩
      exact (disjoint_points_of_le ((le_max_right _ _).trans hlo)).symm

/-- **The gaps of blocks in order** are what is before the first one, and the gaps behind it. -/
theorem isGap_cons_iff (hb : b.1 < b.2) (hhi : b.2 ≤ hi) (hfirst : ∀ c ∈ blocks, b.1 ≤ c.1) :
    IsGap cursor hi (b :: blocks) w ↔
      IsGap cursor b.1 [] w ∨ IsGap (max cursor b.2) hi blocks w := by
  have hfree : Free cursor hi (b :: blocks)
      = fun w => Free cursor b.1 [] w ∨ Free (max cursor b.2) hi blocks w :=
    funext fun w => propext (free_cons_iff hb hhi hfirst)
  unfold IsGap
  rw [hfree]
  -- an interval before the block and one behind it have no point in common
  refine maximalFor_or_iff fun v w hv hw => ?_
  have hvw : v.2 ≤ w.1 :=
    hv.le_hi.trans (hb.le.trans ((le_max_right _ _).trans hw.lo_le))
  rw [points_subset_iff hv.lt, points_subset_iff hw.lt]
  constructor
  · rintro ⟨h, -⟩
    exact absurd (hvw.trans h) hv.lt.not_ge
  · rintro ⟨-, h⟩
    exact absurd (h.trans hvw) hw.lt.not_ge

/-- **The sweep finds exactly the gaps.** -/
theorem mem_gaps_iff (hsorted : blocks.Pairwise fun b c => b.1 ≤ c.1)
    (hblocks : ∀ b ∈ blocks, b.1 < b.2 ∧ b.2 ≤ hi) :
    w ∈ gaps hi blocks cursor ↔ IsGap cursor hi blocks w := by
  induction blocks generalizing cursor with
  | nil =>
    rw [gaps, isGap_nil_iff]
    split
    · next h => rw [List.mem_singleton, and_iff_right h]
    · next h => exact iff_of_false List.not_mem_nil fun h' => h h'.1
  | cons b bs ih =>
    obtain ⟨hfirst, hbs⟩ := List.pairwise_cons.mp hsorted
    obtain ⟨⟨hb, hhi⟩, hrest⟩ := List.forall_mem_cons.mp hblocks
    rw [gaps, List.mem_append, ih hbs hrest, isGap_cons_iff hb hhi hfirst, isGap_nil_iff]
    refine or_congr_left ?_
    split
    · next h => rw [List.mem_singleton, and_iff_right h]
    · next h => exact iff_of_false List.not_mem_nil fun h' => h h'.1

theorem le_of_mem_gaps (h : w ∈ gaps hi blocks cursor) : cursor ≤ w.1 := by
  induction blocks generalizing cursor with
  | nil =>
    rw [gaps] at h
    split at h
    · rw [List.mem_singleton] at h
      exact h ▸ le_refl _
    · cases h
  | cons b bs ih =>
    rw [gaps] at h
    rcases List.mem_append.mp h with h | h
    · split at h
      · rw [List.mem_singleton] at h
        exact h ▸ le_refl _
      · cases h
    · exact (le_max_left _ _).trans (ih h)

/-- **The sweep finds the gaps in order**, each behind the end of the one before. -/
theorem pairwise_gaps (hblocks : ∀ b ∈ blocks, b.1 < b.2) :
    (gaps hi blocks cursor).Pairwise fun v w => v.2 < w.1 := by
  induction blocks generalizing cursor with
  | nil =>
    rw [gaps]
    split
    · exact List.pairwise_singleton _ _
    · exact .nil
  | cons b bs ih =>
    obtain ⟨hb, hrest⟩ := List.forall_mem_cons.mp hblocks
    rw [gaps]
    refine List.pairwise_append.mpr ⟨?_, ih hrest, fun v hv w hw => ?_⟩
    · split
      · exact List.pairwise_singleton _ _
      · exact .nil
    · split at hv
      · rw [List.mem_singleton] at hv
        subst hv
        exact hb.trans_le ((le_max_right _ _).trans (le_of_mem_gaps hw))
      · cases hv

/-! ## Clipping -/

/-- What lies in `[lo, hi)` is apart from a block when it is apart from its part in `[lo, hi)`. -/
theorem disjoint_clip_iff (hw : w.1 < w.2) (hlo : lo ≤ w.1) (hhi : w.2 ≤ hi) (hb : b.1 < b.2) :
    Disjoint (points w) (points b) ↔ ∀ c ∈ clip lo hi b, Disjoint (points w) (points c) := by
  unfold clip
  split
  · next hout =>
    refine iff_of_true ?_ fun c hc => nomatch hc
    rw [disjoint_points_iff hw hb]
    rcases hout with h | h
    · exact .inr (h.trans hlo)
    · exact .inl (hhi.trans h)
  · next hin =>
    rw [not_or, not_le, not_le] at hin
    have hclip : max b.1 lo < min b.2 hi :=
      max_lt (lt_min hb hin.2) (lt_min hin.1 (hlo.trans_lt (hw.trans_le hhi)))
    simp only [Option.mem_some_iff, forall_eq']
    rw [disjoint_points_iff hw hb, disjoint_points_iff hw hclip]
    simp only [le_max_iff, min_le_iff]
    constructor
    · rintro (h | h)
      · exact .inl (.inl h)
      · exact .inr (.inl h)
    · rintro ((h | h) | (h | h))
      · exact .inl h
      · exact absurd (h.trans hlo) hw.not_ge
      · exact .inr h
      · exact absurd (hhi.trans h) hw.not_ge

/-- **Blocks may be clipped** to where the gaps are looked for. -/
theorem isGap_clip (hblocks : ∀ b ∈ blocks, b.1 < b.2) :
    IsGap lo hi (blocks.filterMap (clip lo hi)) = IsGap lo hi blocks := by
  have hfree : Free lo hi (blocks.filterMap (clip lo hi)) = Free lo hi blocks := by
    funext w
    refine propext ⟨fun ⟨hlt, hlo, hhi, hapart⟩ => ⟨hlt, hlo, hhi, fun b hb => ?_⟩,
      fun ⟨hlt, hlo, hhi, hapart⟩ => ⟨hlt, hlo, hhi, fun c hc => ?_⟩⟩
    · exact (disjoint_clip_iff hlt hlo hhi (hblocks b hb)).mpr fun c hc =>
        hapart c (List.mem_filterMap.mpr ⟨b, hb, hc⟩)
    · obtain ⟨b, hb, hc⟩ := List.mem_filterMap.mp hc
      exact (disjoint_clip_iff hlt hlo hhi (hblocks b hb)).mp (hapart b hb) c hc
  unfold IsGap
  rw [hfree]

/-- The order of the blocks does not matter. -/
theorem isGap_of_perm {blocks' : List (α × α)} (h : blocks.Perm blocks') :
    IsGap lo hi blocks = IsGap lo hi blocks' := by
  have hfree : Free lo hi blocks = Free lo hi blocks' := by
    funext w
    refine propext ⟨fun ⟨hlt, hlo, hhi, hapart⟩ => ⟨hlt, hlo, hhi, fun b hb => ?_⟩,
      fun ⟨hlt, hlo, hhi, hapart⟩ => ⟨hlt, hlo, hhi, fun b hb => ?_⟩⟩
    · exact hapart b (h.mem_iff.mpr hb)
    · exact hapart b (h.mem_iff.mp hb)
  unfold IsGap
  rw [hfree]

/-- Clipped blocks end in `[lo, hi]`, and stay in order. -/
theorem clip_spec (hlt : lo < hi) (hb : b.1 < b.2) {c : α × α} (hc : clip lo hi b = some c) :
    c.1 < c.2 ∧ c.2 ≤ hi := by
  unfold clip at hc
  split at hc
  · cases hc
  · next hin =>
    cases hc
    rw [not_or, not_le, not_le] at hin
    exact ⟨max_lt (lt_min hb hin.2) (lt_min hin.1 hlt), min_le_right _ _⟩

theorem pairwise_clip (hsorted : blocks.Pairwise fun b c => b.1 ≤ c.1) :
    (blocks.filterMap (clip lo hi)).Pairwise fun b c => b.1 ≤ c.1 := by
  refine List.pairwise_filterMap.mpr (hsorted.imp fun {b c} hbc b' hb' c' hc' => ?_)
  unfold clip at hb' hc'
  split at hb' <;> cases hb'
  split at hc' <;> cases hc'
  exact max_le_max_right lo hbc

end Gaps
