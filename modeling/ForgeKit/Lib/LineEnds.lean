import Mathlib.Data.List.DropRight
import Mathlib.Data.List.Forall2

/-!
# Blanks ahead of line ends

A text loses blanks at the ends of its lines. A transducer, a machine that reads a list and may
refuse an element, is followed through both texts.

* `run` — a transducer on a list
* `Trims` — what is left of a list, and how many elements are not
* `Trims.run` — what a transducer does on both, from what it does on one element and one line end
* `trims_lines` — trimming every line
-/

namespace LineEnds

/-! ## Transducers -/

section Transducer

variable {σ α β : Type*} (step : σ → α → Option (σ × List β))

/-- The state after a list, and what was put out on the way. -/
def run (s : σ) : List α → Option (σ × List β)
  | [] => some (s, [])
  | a :: as =>
    match step s a with
    | none => none
    | some (t, out) => (run t as).map fun r => (r.1, out ++ r.2)

variable {step}

theorem run_cons {s t : σ} {a : α} {out : List β} (h : step s a = some (t, out)) (as : List α) :
    run step s (a :: as) = (run step t as).map fun r => (r.1, out ++ r.2) := by
  simp only [run, h]

theorem run_singleton (s : σ) (a : α) : run step s [a] = step s a := by
  simp only [run]
  cases step s a with
  | none => rfl
  | some r => simp

theorem run_append {s t : σ} {as : List α} {out : List β} (h : run step s as = some (t, out))
    (bs : List α) : run step s (as ++ bs) = (run step t bs).map fun r => (r.1, out ++ r.2) := by
  induction as generalizing s out with
  | nil =>
    simp only [run, Option.some.injEq, Prod.mk.injEq] at h
    obtain ⟨rfl, rfl⟩ := h
    simp
  | cons a as ih =>
    simp only [run] at h
    rw [List.cons_append]
    cases hstep : step s a with
    | none => simp [hstep] at h
    | some r =>
      simp only [hstep, Option.map_eq_some_iff, Prod.mk.injEq] at h
      obtain ⟨⟨u, rest⟩, hrun, rfl, rfl⟩ := h
      rw [run_cons hstep, ih hrun, Option.map_map]
      simp [Function.comp_def]

theorem run_append_some {s u : σ} {as bs : List α} {out : List β}
    (h : run step s (as ++ bs) = some (u, out)) :
    ∃ t front back, run step s as = some (t, front) ∧ run step t bs = some (u, back)
      ∧ out = front ++ back := by
  induction as generalizing s out with
  | nil => exact ⟨s, [], out, rfl, h, rfl⟩
  | cons a as ih =>
    rw [List.cons_append] at h
    cases hstep : step s a with
    | none => simp [run, hstep] at h
    | some r =>
      rw [run_cons hstep, Option.map_eq_some_iff] at h
      obtain ⟨⟨v, rest⟩, hrun, heq⟩ := h
      rw [Prod.mk.injEq] at heq
      obtain ⟨rfl, rfl⟩ := heq
      obtain ⟨t, front, back, hfront, hback, rfl⟩ := ih hrun
      refine ⟨t, r.2 ++ front, back, ?_, hback, (List.append_assoc _ _ _).symm⟩
      rw [run_cons hstep, hfront, Option.map_some]

end Transducer

/-! ## Trimmed lists -/

section Trims

variable {α : Type*} (nl : α) (blank : α → Bool)

/-- The second list is the first one without so many blanks, all of them ahead of line ends. -/
inductive Trims : List α → List α → Nat → Prop where
  | nil : Trims [] [] 0
  | keep {l l' : List α} {n : Nat} (a : α) (h : Trims l l' n) : Trims (l ++ [a]) (l' ++ [a]) n
  | line {l l' ws : List α} {n : Nat} (hws : ∀ a ∈ ws, blank a = true ∧ a ≠ nl) (h : Trims l l' n) :
      Trims (l ++ ws ++ [nl]) (l' ++ [nl]) (n + ws.length)

/-- A line of the list ends in a blank. -/
def BlankAtEnd (l : List α) : Prop :=
  ∃ u a v, l = u ++ a :: nl :: v ∧ blank a = true ∧ a ≠ nl

variable {nl blank}

theorem blankAtEnd_cons {a b : α} {l : List α} : BlankAtEnd nl blank (a :: b :: l)
    ↔ (blank a = true ∧ a ≠ nl ∧ b = nl) ∨ BlankAtEnd nl blank (b :: l) := by
  constructor
  · rintro ⟨u, c, v, heq, hblank, hne⟩
    cases u with
    | nil =>
      simp only [List.nil_append, List.cons.injEq] at heq
      obtain ⟨rfl, rfl, -⟩ := heq
      exact .inl ⟨hblank, hne, rfl⟩
    | cons d u =>
      simp only [List.cons_append, List.cons.injEq] at heq
      exact .inr ⟨u, c, v, heq.2, hblank, hne⟩
  · rintro (⟨hblank, hne, rfl⟩ | ⟨u, c, v, heq, hblank, hne⟩)
    · exact ⟨[], a, l, rfl, hblank, hne⟩
    · exact ⟨a :: u, c, v, by rw [heq, List.cons_append], hblank, hne⟩

theorem not_blankAtEnd_of_length {l : List α} (h : l.length ≤ 1) : ¬ BlankAtEnd nl blank l := by
  rintro ⟨u, a, v, rfl, -⟩
  simp only [List.length_append, List.length_cons] at h
  omega

instance decidableBlankAtEnd [DecidableEq α] : ∀ l, Decidable (BlankAtEnd nl blank l)
  | [] => .isFalse (not_blankAtEnd_of_length (by simp))
  | [_] => .isFalse (not_blankAtEnd_of_length (by simp))
  | _ :: b :: l =>
    have := decidableBlankAtEnd (b :: l)
    decidable_of_iff _ blankAtEnd_cons.symm

theorem BlankAtEnd.of_part {l l' : List α} (h : BlankAtEnd nl blank l) (hpart : l <:+: l') :
    BlankAtEnd nl blank l' := by
  obtain ⟨u, a, v, rfl, ha⟩ := h
  obtain ⟨front, back, rfl⟩ := hpart
  exact ⟨front ++ u, a, v ++ back, by simp, ha⟩

namespace Trims

theorem refl (l : List α) : Trims nl blank l l 0 := by
  induction l using List.reverseRecOn with
  | nil => exact .nil
  | append_singleton l a ih => exact .keep a ih

theorem append {l l' : List α} {n : Nat} (h : Trims nl blank l l' n) (m : List α) :
    Trims nl blank (l ++ m) (l' ++ m) n := by
  induction m using List.reverseRecOn with
  | nil => simpa using h
  | append_singleton m a ih =>
    rw [← List.append_assoc, ← List.append_assoc]
    exact .keep a ih

theorem length {l l' : List α} {n : Nat} (h : Trims nl blank l l' n) :
    l'.length + n = l.length := by
  induction h with
  | nil => rfl
  | keep a h ih =>
    simp only [List.length_append, List.length_singleton]
    omega
  | line hws h ih =>
    simp only [List.length_append, List.length_singleton]
    omega

theorem subset {l l' : List α} {n : Nat} (h : Trims nl blank l l' n) : l' ⊆ l := by
  induction h with
  | nil => exact List.Subset.refl _
  | keep a h ih =>
    exact List.append_subset.mpr
      ⟨List.Subset.trans ih (List.subset_append_left _ _), List.subset_append_right _ _⟩
  | line hws h ih =>
    rw [List.append_assoc]
    refine List.append_subset.mpr ⟨List.Subset.trans ih (List.subset_append_left _ _), ?_⟩
    exact List.Subset.trans (List.subset_append_right _ _) (List.subset_append_right _ _)

theorem eq_of_zero {l l' : List α} (h : Trims nl blank l l' 0) : l = l' := by
  generalize hn : 0 = n at h
  induction h with
  | nil => rfl
  | keep a h ih => rw [ih hn]
  | @line l l' ws n hws h ih =>
    have hnil : ws = [] := List.eq_nil_of_length_eq_zero (by omega)
    rw [ih (by omega), hnil, List.append_nil]

/-- Nothing is dropped from a list none of whose lines ends in a blank. -/
theorem zero_of_clean {l l' : List α} {n : Nat} (h : Trims nl blank l l' n)
    (hclean : ¬ BlankAtEnd nl blank l) : n = 0 := by
  induction h with
  | nil => rfl
  | keep a h ih => exact ih fun hbad => hclean (hbad.of_part (List.prefix_append _ _).isInfix)
  | @line l l' ws n hws h ih =>
    have hfront : n = 0 := ih fun hbad => hclean <| hbad.of_part <| by
      rw [List.append_assoc]
      exact (List.prefix_append _ _).isInfix
    rcases List.eq_nil_or_concat ws with rfl | ⟨init, a, rfl⟩
    · simpa using hfront
    · have ha := hws a (by simp)
      exact absurd ⟨l ++ init, a, [], by simp, ha⟩ hclean

/-- What the two runs have in common is kept by one element, and by blanks ahead of a line end. -/
theorem run {σ β : Type*} {step : σ → α → Option (σ × List β)}
    {R : Nat → σ × List β → σ × List β → Prop}
    (hkeep : ∀ {n s s' o o' a t p}, R n (s, o) (s', o') → step s a = some (t, p) →
      ∃ t' p', step s' a = some (t', p') ∧ R n (t, o ++ p) (t', o' ++ p'))
    (hline : ∀ {n s s' o o' ws t p}, R n (s, o) (s', o') →
      (∀ a ∈ ws, blank a = true ∧ a ≠ nl) → LineEnds.run step s (ws ++ [nl]) = some (t, p) →
      ∃ t' p', step s' nl = some (t', p') ∧ R (n + ws.length) (t, o ++ p) (t', o' ++ p'))
    {l l' : List α} {n : Nat} (h : Trims nl blank l l' n) {s s' : σ} (hstart : R 0 (s, []) (s', []))
    {r : σ × List β} (hrun : LineEnds.run step s l = some r) :
    ∃ r', LineEnds.run step s' l' = some r' ∧ R n r r' := by
  induction h generalizing r with
  | nil =>
    simp only [LineEnds.run, Option.some.injEq] at hrun
    subst hrun
    exact ⟨(s', []), rfl, hstart⟩
  | keep a h ih =>
    obtain ⟨t, front, back, hfront, hback, hr⟩ := run_append_some hrun
    obtain ⟨⟨t', front'⟩, hfront', hR⟩ := ih hfront
    rw [run_singleton] at hback
    obtain ⟨u', back', hback', hR⟩ := hkeep hR hback
    refine ⟨(u', front' ++ back'), ?_, ?_⟩
    · rw [run_append hfront', run_singleton, hback', Option.map_some]
    · rwa [← hr] at hR
  | line hws h ih =>
    rw [List.append_assoc] at hrun
    obtain ⟨t, front, back, hfront, hback, hr⟩ := run_append_some hrun
    obtain ⟨⟨t', front'⟩, hfront', hR⟩ := ih hfront
    obtain ⟨u', back', hback', hR⟩ := hline hR hws hback
    refine ⟨(u', front' ++ back'), ?_, ?_⟩
    · rw [run_append hfront', run_singleton, hback', Option.map_some]
    · rwa [← hr] at hR

end Trims

/-! ## Trimming every line -/

/-- Trimming the lines drops blanks ahead of line ends. -/
theorem trims_lines {lines : List (List α)} (hlines : ∀ l ∈ lines, nl ∉ l) :
    ∃ n, Trims nl blank (lines.flatMap (· ++ [nl]))
      ((lines.map (·.rdropWhile blank)).flatMap (· ++ [nl])) n := by
  induction lines using List.reverseRecOn with
  | nil => exact ⟨0, .nil⟩
  | append_singleton lines l ih =>
    obtain ⟨n, hn⟩ := ih fun l hl => hlines l (List.mem_append_left _ hl)
    have hl : nl ∉ l := hlines l (by simp)
    have hdropped : ∀ a ∈ l.rtakeWhile blank, blank a = true ∧ a ≠ nl := by
      intro a ha
      refine ⟨List.mem_rtakeWhile_imp ha, fun hnl => hl (hnl ▸ ?_)⟩
      exact (List.rtakeWhile_suffix _ _).subset ha
    refine ⟨n + (l.rtakeWhile blank).length, ?_⟩
    have hline := Trims.line hdropped (hn.append (l.rdropWhile blank))
    have hsplit : l.rdropWhile blank ++ l.rtakeWhile blank = l :=
      List.rdropWhile_append_rtakeWhile
    simpa [List.flatMap_append, ← List.append_assoc, List.append_assoc _ _ (l.rtakeWhile blank),
      hsplit] using hline

theorem blankAtEnd_line {l rest : List α} (hl : nl ∉ l)
    (h : BlankAtEnd nl blank (l ++ nl :: rest)) :
    (∃ a, l.getLast? = some a ∧ blank a = true) ∨ BlankAtEnd nl blank rest := by
  obtain ⟨u, a, v, heq, hblank, hne⟩ := h
  rcases List.append_eq_append_iff.mp heq with ⟨m, rfl, hm⟩ | ⟨m, rfl, hm⟩
  · -- the blank is after the end of this line
    cases m with
    | nil =>
      rw [List.nil_append, List.cons.injEq] at hm
      exact absurd hm.1.symm hne
    | cons b m =>
      rw [List.cons_append, List.cons.injEq] at hm
      exact .inr ⟨m, a, v, hm.2, hblank, hne⟩
  · cases m with
    | nil =>
      rw [List.nil_append, List.cons.injEq] at hm
      exact absurd hm.1 hne
    | cons b m =>
      rw [List.cons_append, List.cons.injEq] at hm
      obtain ⟨rfl, hm⟩ := hm
      cases m with
      | nil => exact .inl ⟨a, by simp, hblank⟩
      | cons c m =>
        rw [List.cons_append, List.cons.injEq] at hm
        exact absurd (by simp [hm.1]) hl

/-- No trimmed line ends in a blank. -/
theorem not_blankAtEnd_lines {lines : List (List α)} (hlines : ∀ l ∈ lines, nl ∉ l) :
    ¬ BlankAtEnd nl blank ((lines.map (·.rdropWhile blank)).flatMap (· ++ [nl])) := by
  induction lines with
  | nil =>
    rintro ⟨u, a, v, heq, -⟩
    simp at heq
  | cons l lines ih =>
    intro h
    simp only [List.map_cons, List.flatMap_cons, List.append_assoc, List.singleton_append] at h
    have hl : nl ∉ l.rdropWhile blank := fun hmem =>
      hlines l List.mem_cons_self ((List.rdropWhile_prefix _ _).subset hmem)
    rcases blankAtEnd_line hl h with ⟨a, hlast, hblank⟩ | hrest
    · have hne : l.rdropWhile blank ≠ [] := fun hnil => by rw [hnil] at hlast; cases hlast
      have hnot := List.rdropWhile_last_not blank l hne
      rw [List.getLast?_eq_some_getLast hne, Option.some.injEq] at hlast
      exact hnot (hlast ▸ hblank)
    · exact ih (fun l hl => hlines l (List.mem_cons_of_mem _ hl)) hrest

end Trims

end LineEnds
