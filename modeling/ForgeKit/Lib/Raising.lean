import Mathlib.Data.List.Basic

/-!
# Computations that may raise

What a computation in `Except` returns, through binds, through a loop that maps and through one that
filters.

* `bind_eq_ok_iff` — a bind returns when both parts do
* `exists_mapM_iff`, `exists_filterOk_iff` — a loop returns when every step does
-/

namespace Raising

variable {α β ε : Type}

theorem bind_eq_ok_iff {x : Except ε α} {f : α → Except ε β} {b : β} :
    x >>= f = .ok b ↔ ∃ a, x = .ok a ∧ f a = .ok b := by
  cases x with
  | ok a => exact ⟨fun h => ⟨a, rfl, h⟩, fun ⟨_, ha, h⟩ => by cases ha; exact h⟩
  | error e => exact ⟨(nomatch ·), fun ⟨_, ha, _⟩ => (nomatch ha)⟩

theorem bind_ok (a : α) (f : α → Except ε β) : Except.ok a >>= f = f a := rfl

theorem exists_bind_iff {x : Except ε α} {f : α → Except ε β} :
    (∃ b, x >>= f = .ok b) ↔ ∃ a, x = .ok a ∧ ∃ b, f a = .ok b := by
  simp only [bind_eq_ok_iff]
  exact ⟨fun ⟨b, a, ha, hb⟩ => ⟨a, ha, b, hb⟩, fun ⟨a, ha, b, hb⟩ => ⟨b, a, ha, hb⟩⟩

/-! ## Loops -/

/-- **A loop returns when every step does.** -/
theorem exists_mapM_iff {f : α → Except ε β} {l : List α} :
    (∃ bs, l.mapM f = .ok bs) ↔ ∀ a ∈ l, ∃ b, f a = .ok b := by
  induction l with
  | nil => exact iff_of_true ⟨[], rfl⟩ fun _ h => nomatch h
  | cons a l ih =>
    rw [List.mapM_cons, exists_bind_iff, List.forall_mem_cons, ← ih]
    constructor
    · rintro ⟨b, hb, h⟩
      obtain ⟨rest, hrest, -⟩ := exists_bind_iff.mp h
      exact ⟨⟨b, hb⟩, rest, hrest⟩
    · rintro ⟨⟨b, hb⟩, rest, hrest⟩
      exact ⟨b, hb, exists_bind_iff.mpr ⟨rest, hrest, _, rfl⟩⟩

/-- What a loop returns comes from its steps. -/
theorem mem_mapM {f : α → Except ε β} {l : List α} {bs : List β} (h : l.mapM f = .ok bs) {b : β} :
    b ∈ bs ↔ ∃ a ∈ l, f a = .ok b := by
  induction l generalizing bs with
  | nil =>
    cases h
    simp
  | cons a l ih =>
    rw [List.mapM_cons] at h
    obtain ⟨b', hb, h⟩ := bind_eq_ok_iff.mp h
    obtain ⟨rest, hrest, h⟩ := bind_eq_ok_iff.mp h
    cases h
    rw [List.mem_cons, ih hrest]
    simp only [List.mem_cons, exists_eq_or_imp, hb, Except.ok.injEq]
    exact or_congr_left eq_comm

/-- `[a for a in l if p(a)]`. -/
def filterOk (p : α → Except ε Bool) : List α → Except ε (List α)
  | [] => .ok []
  | a :: l => do
    let keep ← p a
    let rest ← filterOk p l
    .ok (if keep then a :: rest else rest)

theorem exists_filterOk_iff {p : α → Except ε Bool} {l : List α} :
    (∃ as, filterOk p l = .ok as) ↔ ∀ a ∈ l, ∃ keep, p a = .ok keep := by
  induction l with
  | nil => exact iff_of_true ⟨[], rfl⟩ fun _ h => nomatch h
  | cons a l ih =>
    rw [filterOk, exists_bind_iff, List.forall_mem_cons, ← ih]
    constructor
    · rintro ⟨keep, hkeep, h⟩
      obtain ⟨rest, hrest, -⟩ := exists_bind_iff.mp h
      exact ⟨⟨keep, hkeep⟩, rest, hrest⟩
    · rintro ⟨⟨keep, hkeep⟩, rest, hrest⟩
      exact ⟨keep, hkeep, exists_bind_iff.mpr ⟨rest, hrest, _, rfl⟩⟩

/-- What a filter keeps. -/
theorem mem_filterOk {p : α → Except ε Bool} {l as : List α} (h : filterOk p l = .ok as) {a : α} :
    a ∈ as ↔ a ∈ l ∧ p a = .ok true := by
  induction l generalizing as with
  | nil =>
    cases h
    simp
  | cons b l ih =>
    obtain ⟨keep, hkeep, h⟩ := bind_eq_ok_iff.mp h
    obtain ⟨rest, hrest, h⟩ := bind_eq_ok_iff.mp h
    cases h
    cases keep with
    | true =>
      rw [if_pos rfl, List.mem_cons, List.mem_cons, ih hrest]
      constructor
      · rintro (rfl | ⟨ha, hp⟩)
        · exact ⟨.inl rfl, hkeep⟩
        · exact ⟨.inr ha, hp⟩
      · rintro ⟨rfl | ha, hp⟩
        · exact .inl rfl
        · exact .inr ⟨ha, hp⟩
    | false =>
      rw [if_neg Bool.false_ne_true, List.mem_cons, ih hrest]
      constructor
      · exact fun ⟨ha, hp⟩ => ⟨.inr ha, hp⟩
      · rintro ⟨rfl | ha, hp⟩
        · rw [hkeep] at hp
          cases hp
        · exact ⟨ha, hp⟩

end Raising
