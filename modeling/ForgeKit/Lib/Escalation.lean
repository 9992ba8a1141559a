import Mathlib.Data.List.Basic

/-!
# Escalation by rules

A classification starts at a base signal. Each rule that fires adds its signal and may raise the
class, never lower it.

* `rank_classify` — the rank of the class is at most a bound when that of each signal is
* `le_rank_classify_iff` — a rank is reached when one signal reaches it
* `rank_classify_mono` — rules that fire with no less weight give no lower class
-/

namespace Escalation

variable {κ σ : Type*} (rank : κ → Nat) (weight : σ → κ)

/-- The higher of two classes; the first of two that are equally high. -/
def higher (a b : κ) : κ := if rank b ≤ rank a then a else b

/-- A rule that fires adds its signal and raises the class. -/
def fire (v : κ × List σ) : Option σ → κ × List σ
  | none => v
  | some s => (higher rank v.1 (weight s), v.2 ++ [s])

/-- The class and the signals that speak for it. -/
def classify (base : σ) (rules : List (Option σ)) : κ × List σ :=
  rules.foldl (fire rank weight) (weight base, [base])

variable {rank weight}

theorem le_rank_higher_iff {n : Nat} {a b : κ} :
    n ≤ rank (higher rank a b) ↔ n ≤ rank a ∨ n ≤ rank b := by
  unfold higher
  split <;> omega

theorem le_rank_foldl_iff {n : Nat} {rules : List (Option σ)} {v : κ × List σ} :
    n ≤ rank (rules.foldl (fire rank weight) v).1 ↔
      n ≤ rank v.1 ∨ ∃ s, some s ∈ rules ∧ n ≤ rank (weight s) := by
  induction rules generalizing v with
  | nil => simp
  | cons r rules ih =>
    rw [List.foldl_cons, ih]
    cases r with
    | none => simp [fire]
    | some s =>
      simp only [fire, le_rank_higher_iff, List.mem_cons, Option.some.injEq, or_and_right,
        exists_or, exists_eq_left, or_assoc]

/-- **A rank is reached when one signal reaches it.** -/
theorem le_rank_classify_iff {n : Nat} {base : σ} {rules : List (Option σ)} :
    n ≤ rank (classify rank weight base rules).1 ↔
      n ≤ rank (weight base) ∨ ∃ s, some s ∈ rules ∧ n ≤ rank (weight s) :=
  le_rank_foldl_iff

/-- **Rules that fire with no less weight give no lower class.** -/
theorem rank_classify_mono {base base' : σ} {rules rules' : List (Option σ)}
    (hbase : rank (weight base) ≤ rank (weight base'))
    (hrules : ∀ s, some s ∈ rules → ∃ s', some s' ∈ rules' ∧ rank (weight s) ≤ rank (weight s')) :
    rank (classify rank weight base rules).1 ≤ rank (classify rank weight base' rules').1 := by
  rw [le_rank_classify_iff]
  rcases le_rank_classify_iff.mp (Nat.le_refl (rank (classify rank weight base rules).1)) with
    h | ⟨s, hs, h⟩
  · exact .inl (Nat.le_trans h hbase)
  · obtain ⟨s', hs', hle⟩ := hrules s hs
    exact .inr ⟨s', hs', Nat.le_trans h hle⟩

end Escalation
