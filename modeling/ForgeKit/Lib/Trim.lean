import Mathlib.Data.List.DropRight

/-!
# Trimming a list

What `str.strip` does with white space: the longest run of elements that satisfy a test is dropped
at either end.

* `trim_trim` — a second trim changes nothing
* `rdropWhile_append` — a front that ends in another element is kept
-/

namespace Trim

variable {α : Type*} (p : α → Bool)

/-- The elements that satisfy the test are dropped at both ends. -/
def trim (l : List α) : List α := (l.dropWhile p).rdropWhile p

variable {p}

theorem not_of_head?_trim {l : List α} {a : α} (h : (trim p l).head? = some a) : p a = false := by
  obtain ⟨rest, hrest⟩ := List.head?_eq_some_iff.mp h
  obtain ⟨more, hmore⟩ : trim p l <+: l.dropWhile p := List.rdropWhile_prefix _ _
  rw [hrest, List.cons_append] at hmore
  have hnot := List.head?_dropWhile_not p l
  rwa [← hmore, List.head?_cons] at hnot

theorem not_of_getLast?_trim {l : List α} {a : α} (h : (trim p l).getLast? = some a) :
    p a = false := by
  have hne : trim p l ≠ [] := fun hnil => by rw [hnil] at h; cases h
  have hnot := List.rdropWhile_last_not p (l.dropWhile p) hne
  rw [List.getLast?_eq_some_getLast hne] at h
  rw [← Option.some.inj h]
  exact Bool.eq_false_iff.mpr hnot

theorem dropWhile_trim (l : List α) : (trim p l).dropWhile p = trim p l := by
  cases htrim : trim p l with
  | nil => rfl
  | cons a rest =>
    have hnot : p a = false := not_of_head?_trim (l := l) (by rw [htrim]; rfl)
    exact List.dropWhile_cons_of_neg (by simp [hnot])

/-- **A second trim changes nothing.** -/
theorem trim_trim (l : List α) : trim p (trim p l) = trim p l := by
  have hhead := dropWhile_trim (p := p) l
  rw [trim, hhead]
  exact List.rdropWhile_idempotent _ _

/-- **A front that ends in an element to keep is kept.** -/
theorem rdropWhile_append {front : List α} {last : α} (hlast : front.getLast? = some last)
    (hp : p last = false) (l : List α) : (front ++ l).rdropWhile p = front ++ l.rdropWhile p := by
  induction l using List.reverseRecOn with
  | nil =>
    obtain ⟨init, rfl⟩ := List.getLast?_eq_some_iff.mp hlast
    rw [List.append_nil, List.rdropWhile_concat_neg _ _ _ (by simp [hp])]
    simp
  | append_singleton l a ih =>
    rw [← List.append_assoc]
    by_cases ha : p a = true
    · rw [List.rdropWhile_concat_pos _ _ _ ha, List.rdropWhile_concat_pos _ _ _ ha, ih]
    · rw [List.rdropWhile_concat_neg _ _ _ ha, List.rdropWhile_concat_neg _ _ _ ha,
        List.append_assoc]

/-- A list that ends in an element to keep is kept. -/
theorem rdropWhile_eq_self {l : List α} {a : α} (hlast : l.getLast? = some a)
    (hp : p a = false) : l.rdropWhile p = l := by
  have h := rdropWhile_append hlast hp []
  rwa [List.append_nil, List.rdropWhile_nil, List.append_nil] at h

/-- What a wider test drops is not changed by a narrower one before. -/
theorem rdropWhile_rdropWhile {q : α → Bool} (h : ∀ a, p a = true → q a = true) (l : List α) :
    (l.rdropWhile p).rdropWhile q = l.rdropWhile q := by
  induction l using List.reverseRecOn with
  | nil => rfl
  | append_singleton l a ih =>
    by_cases hp : p a = true
    · rw [List.rdropWhile_concat_pos _ _ _ hp, List.rdropWhile_concat_pos _ _ _ (h a hp), ih]
    · rw [List.rdropWhile_concat_neg _ _ _ hp]

end Trim
