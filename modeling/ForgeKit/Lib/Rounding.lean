import Mathlib.Algebra.Order.Field.Basic
import Mathlib.Data.Set.Basic

/-!
# Rounding to the nearest representable number

A number format is a set of numbers of an ordered field, and its arithmetic rounds every exact result
to a nearest one. How ties are broken does not matter.

* `IsNearest.le_of_le`, `IsNearest.le_of_ge` — rounding does not cross a representable number
-/

namespace Rounding

variable {K : Type*} [Field K] [LinearOrder K] [IsStrictOrderedRing K]

/-- Every number is rounded to an element of the set that is nearest to it. -/
structure IsNearest (F : Set K) (round : K → K) : Prop where
  mem : ∀ x, round x ∈ F
  nearest : ∀ x, ∀ y ∈ F, |round x - x| ≤ |y - x|

variable {F : Set K} {round : K → K}

/-- **A result below a representable number is not rounded above it.** -/
theorem IsNearest.le_of_le (h : IsNearest F round) {x y : K} (hy : y ∈ F) (hle : x ≤ y) :
    round x ≤ y := by
  have hnear : |round x - x| ≤ y - x := by
    calc |round x - x| ≤ |y - x| := h.nearest x y hy
      _ = y - x := abs_of_nonneg (sub_nonneg.mpr hle)
  have hup : round x - x ≤ y - x := (le_abs_self _).trans hnear
  exact (sub_le_sub_iff_right x).mp hup

/-- **A result above a representable number is not rounded below it.** -/
theorem IsNearest.le_of_ge (h : IsNearest F round) {x y : K} (hy : y ∈ F) (hge : y ≤ x) :
    y ≤ round x := by
  have hnear : |round x - x| ≤ x - y := by
    calc |round x - x| ≤ |y - x| := h.nearest x y hy
      _ = x - y := by rw [abs_sub_comm, abs_of_nonneg (sub_nonneg.mpr hge)]
  have hdown : x - round x ≤ x - y := by
    calc x - round x ≤ |x - round x| := le_abs_self _
      _ = |round x - x| := abs_sub_comm _ _
      _ ≤ x - y := hnear
  exact (sub_le_sub_iff_left x).mp hdown

/-- Exact arithmetic. -/
theorem isNearest_id : IsNearest (Set.univ : Set K) id where
  mem _ := Set.mem_univ _
  nearest x y _ := by
    calc |id x - x| = 0 := by rw [id, sub_self, abs_zero]
      _ ≤ |y - x| := abs_nonneg _

end Rounding
