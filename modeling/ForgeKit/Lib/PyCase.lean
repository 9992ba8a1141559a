import ForgeKit.Lib.PyStr

/-!
# Upper and lower case of code points

`upper` is exact where an ASCII character is in it, as `lower` is: the code points beyond ASCII whose
upper case holds an ASCII letter are listed.

* `lower_lower` — a second `lower` changes nothing
* `strip_eq_self`, `isSpace_lower` — a text without white space, and its lower case
-/

namespace Py

/-- The code points beyond ASCII with an ASCII letter in their upper case. -/
def upperSpecials : List (Nat × List Nat) :=
  [(0xDF, [0x53, 0x53]), (0x131, [0x49]), (0x149, [0x2BC, 0x4E]), (0x17F, [0x53]),
    (0x1F0, [0x4A, 0x30C]), (0x1E96, [0x48, 0x331]), (0x1E97, [0x54, 0x308]),
    (0x1E98, [0x57, 0x30A]), (0x1E99, [0x59, 0x30A]), (0x1E9A, [0x41, 0x2BE]),
    (0xFB00, [0x46, 0x46]), (0xFB01, [0x46, 0x49]), (0xFB02, [0x46, 0x4C]),
    (0xFB03, [0x46, 0x46, 0x49]), (0xFB04, [0x46, 0x46, 0x4C]), (0xFB05, [0x53, 0x54]),
    (0xFB06, [0x53, 0x54])]

/-- The upper case of one code point. -/
def upperCode (c : CodePoint) : Text :=
  if 0x61 ≤ c.val ∧ c.val ≤ 0x7A then [Fin.ofNat _ (c.val - 0x20)]
  else match upperSpecials.lookup c.val with
    | some codes => codes.map (Fin.ofNat _)
    | none => [c]

/-- `s.upper()`, as far as ASCII text is looked for in it. -/
def upper (t : Text) : Text := t.flatMap upperCode

/-! ## Lower case -/

theorem lowerCode_cases (c : CodePoint) :
    (c.val = 0x130 ∧ lowerCode c = [ofChar 'i', Fin.ofNat _ 0x307])
      ∨ (c.val = 0x212A ∧ lowerCode c = [ofChar 'k'])
      ∨ (0x41 ≤ c.val ∧ c.val ≤ 0x5A ∧ lowerCode c = [Fin.ofNat _ (c.val + 0x20)])
      ∨ (c.val ≠ 0x130 ∧ c.val ≠ 0x212A ∧ ¬(0x41 ≤ c.val ∧ c.val ≤ 0x5A) ∧ lowerCode c = [c]) := by
  unfold lowerCode
  split
  · next h => exact .inl ⟨h, rfl⟩
  · next h =>
    split
    · next h' => exact .inr (.inl ⟨h', rfl⟩)
    · next h' =>
      split
      · next hu => exact .inr (.inr (.inl ⟨hu.1, hu.2, rfl⟩))
      · next hu => exact .inr (.inr (.inr ⟨h, h', hu, rfl⟩))

theorem val_ofNat {n : Nat} (h : n < 1114112) : (Fin.ofNat 1114112 n).val = n := Nat.mod_eq_of_lt h

/-- What a lower case is made of is its own lower case. -/
theorem lowerCode_of_mem {c d : CodePoint} (h : d ∈ lowerCode c) : lowerCode d = [d] := by
  rcases lowerCode_cases c with ⟨-, hc⟩ | ⟨-, hc⟩ | ⟨hlow, hhigh, hc⟩ | ⟨hi, hk, hu, hc⟩
  · rw [hc] at h
    simp only [List.mem_cons, List.not_mem_nil, or_false] at h
    rcases h with rfl | rfl <;> rfl
  · rw [hc] at h
    obtain rfl := List.mem_singleton.mp h
    rfl
  · rw [hc] at h
    obtain rfl := List.mem_singleton.mp h
    have hval := val_ofNat (show c.val + 0x20 < 1114112 by omega)
    rcases lowerCode_cases (Fin.ofNat _ (c.val + 0x20)) with ⟨h, -⟩ | ⟨h, -⟩ | ⟨-, h, -⟩ | ⟨-, -, -, h⟩
    · omega
    · omega
    · omega
    · exact h
  · rw [hc] at h
    obtain rfl := List.mem_singleton.mp h
    exact hc

/-- **A second `lower` changes nothing.** -/
theorem lower_lower (t : Text) : lower (lower t) = lower t := by
  have hself : ∀ u : Text, (∀ d ∈ u, lowerCode d = [d]) → lower u = u := by
    intro u hu
    induction u with
    | nil => rfl
    | cons d u ih =>
      have hrest : lower u = u := ih fun e he => hu e (List.mem_cons_of_mem _ he)
      rw [lower, List.flatMap_cons, hu d List.mem_cons_self]
      exact congrArg (d :: ·) hrest
  refine hself _ fun d hd => ?_
  obtain ⟨c, -, hc⟩ := List.mem_flatMap.mp hd
  exact lowerCode_of_mem hc

/-! ## White space -/

theorem strip_eq_self {t : Text} (h : ∀ c ∈ t, isSpace c = false) : strip t = t := by
  have hleft : lstrip t = t := by
    have hall := lstrip_append (a := []) (t := t) fun c hc => h c (List.mem_of_head? hc)
    exact hall
  have hright := rstrip_append (a := []) (t := t) fun c hc => h c (List.mem_of_getLast? hc)
  rw [List.append_nil] at hright
  rw [strip, hleft, hright]
  exact List.append_nil t

/-- A lower case has no white space that was not there. -/
theorem isSpace_lower {t : Text} (h : ∀ c ∈ t, isSpace c = false) :
    ∀ c ∈ lower t, isSpace c = false := by
  intro d hd
  obtain ⟨c, hc, hd⟩ := List.mem_flatMap.mp hd
  rcases lowerCode_cases c with ⟨-, heq⟩ | ⟨-, heq⟩ | ⟨hlow, hhigh, heq⟩ | ⟨-, -, -, heq⟩
  · rw [heq] at hd
    simp only [List.mem_cons, List.not_mem_nil, or_false] at hd
    rcases hd with rfl | rfl <;> rfl
  · rw [heq] at hd
    obtain rfl := List.mem_singleton.mp hd
    rfl
  · rw [heq] at hd
    obtain rfl := List.mem_singleton.mp hd
    have hval := val_ofNat (show c.val + 0x20 < 1114112 by omega)
    simp only [isSpace, hval]
    simp
    omega
  · rw [heq] at hd
    obtain rfl := List.mem_singleton.mp hd
    exact h d hc

end Py
