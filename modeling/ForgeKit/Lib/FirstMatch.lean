import Mathlib.Data.List.Nodup

/-!
# The first match of a test that may fail

`findM?` over `Except`: the test either answers or stops the search with an error. What the search
returns is read from what the test says of the elements before the match.
-/

namespace FirstMatch

variable {ε α : Type} {p : α → Except ε Bool} {l : List α} {x y : α}

theorem findM?_cons (p : α → Except ε Bool) (x : α) (l : List α) :
    (x :: l).findM? p = match p x with
      | .error e => .error e
      | .ok true => .ok (some x)
      | .ok false => l.findM? p := by
  rw [List.findM?]
  cases p x with
  | error e => rfl
  | ok b => cases b <;> rfl

/-- Nothing is found when the test refuses every element. -/
theorem findM?_eq_none_iff : l.findM? p = .ok none ↔ ∀ x ∈ l, p x = .ok false := by
  induction l with
  | nil => simp [List.findM?, pure, Except.pure]
  | cons x l ih =>
    rw [findM?_cons]
    rcases hx : p x with e | b
    · simp [hx]
    · cases b <;> simp [hx, ih]

/-- A match is found behind elements that the test refuses. -/
theorem findM?_eq_some_iff :
    l.findM? p = .ok (some x)
      ↔ ∃ l₁ l₂, l = l₁ ++ x :: l₂ ∧ (∀ y ∈ l₁, p y = .ok false) ∧ p x = .ok true := by
  induction l with
  | nil => simp [List.findM?, pure, Except.pure]
  | cons z l ih =>
    rw [findM?_cons]
    constructor
    · intro h
      rcases hz : p z with e | b
      · rw [hz] at h; cases h
      · cases b with
        | true =>
          rw [hz] at h
          cases h
          exact ⟨[], l, rfl, by simp, hz⟩
        | false =>
          rw [hz] at h
          obtain ⟨l₁, l₂, rfl, hpre, hx⟩ := ih.mp h
          refine ⟨z :: l₁, l₂, rfl, ?_, hx⟩
          intro y hy
          rcases List.mem_cons.mp hy with rfl | hy
          · exact hz
          · exact hpre y hy
    · rintro ⟨l₁, l₂, hl, hpre, hx⟩
      cases l₁ with
      | nil =>
        obtain ⟨rfl, rfl⟩ := List.cons.inj hl
        rw [hx]
      | cons w l₁ =>
        obtain ⟨rfl, rfl⟩ := List.cons.inj hl
        rw [hpre z List.mem_cons_self]
        exact ih.mpr ⟨l₁, l₂, rfl, fun y hy => hpre y (List.mem_cons_of_mem _ hy), hx⟩

theorem mem_of_findM? (h : l.findM? p = .ok (some x)) : x ∈ l ∧ p x = .ok true := by
  obtain ⟨l₁, l₂, rfl, -, hx⟩ := findM?_eq_some_iff.mp h
  exact ⟨by simp, hx⟩

/-- A test that answers everywhere never stops the search. -/
theorem findM?_isOk (h : ∀ x ∈ l, ∃ b, p x = .ok b) : ∃ found, l.findM? p = .ok found := by
  induction l with
  | nil => exact ⟨none, rfl⟩
  | cons x l ih =>
    obtain ⟨b, hb⟩ := h x List.mem_cons_self
    rw [findM?_cons, hb]
    cases b with
    | true => exact ⟨some x, rfl⟩
    | false => exact ih fun y hy => h y (List.mem_cons_of_mem _ hy)

/-- Where every other element is refused, the search comes down to one element. -/
theorem findM?_of_single (hx : x ∈ l) (hothers : ∀ y ∈ l, y ≠ x → p y = .ok false) :
    l.findM? p = [x].findM? p := by
  induction l with
  | nil => cases hx
  | cons z l ih =>
    by_cases hz : z = x
    · subst hz
      rcases hpz : p z with e | b
      · rw [findM?_cons, findM?_cons, hpz]
      · cases b with
        | true => rw [findM?_cons, findM?_cons, hpz]
        | false =>
          have hnone : (z :: l).findM? p = .ok none := by
            refine findM?_eq_none_iff.mpr fun y hy => ?_
            by_cases hyz : y = z
            · rw [hyz, hpz]
            · exact hothers y hy hyz
          rw [hnone, findM?_eq_none_iff.mpr (by simpa using hpz)]
    · have hxl : x ∈ l := (List.mem_cons.mp hx).resolve_left fun h => hz h.symm
      rw [findM?_cons, hothers z List.mem_cons_self hz]
      exact ih hxl fun y hy => hothers y (List.mem_cons_of_mem _ hy)

theorem findM?_singleton : [x].findM? p = .ok (some y) ↔ x = y ∧ p x = .ok true := by
  rw [findM?_cons]
  rcases p x with e | b
  · simp
  · cases b <;> simp [List.findM?, pure, Except.pure]

/-- An element behind a matching one is not the match. -/
theorem findM?_ne_of_before (hnodup : l.Nodup) (hbefore : [x, y].Sublist l) (hx : p x = .ok true) :
    l.findM? p ≠ .ok (some y) := by
  intro h
  obtain ⟨l₁, l₂, rfl, hpre, -⟩ := findM?_eq_some_iff.mp h
  have hnotMem : y ∉ l₁ := fun hy =>
    (List.nodup_append.mp hnodup).2.2 y hy y List.mem_cons_self rfl
  obtain ⟨s₁, s₂, hs, h₁, h₂⟩ := List.sublist_append_iff.mp hbefore
  have hmem : x ∈ l₁ := by
    cases s₁ with
    | nil =>
      rw [List.nil_append] at hs
      rw [← hs] at h₂
      have htail : [y].Sublist l₂ := by
        cases h₂ with
        | cons _ h => exact (List.sublist_cons_self x [y]).trans h
        | cons_cons _ h => exact h
      have hy₂ : y ∈ l₂ := List.singleton_sublist.mp htail
      exact absurd hy₂ (List.nodup_cons.mp (List.nodup_append.mp hnodup).2.1).1
    | cons z s₁ =>
      obtain ⟨rfl, -⟩ := List.cons.inj hs
      exact h₁.subset List.mem_cons_self
  rw [hpre x hmem] at hx
  cases hx

end FirstMatch
