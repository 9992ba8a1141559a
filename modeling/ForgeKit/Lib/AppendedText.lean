import ForgeKit.Lib.JsonLines

/-!
# Text at the end of a file

What is read of a file once bytes were appended to it. A line that was not finished goes on with
what was appended; the lines before it stay.

* `readText_append` — what is read goes on with `addedText`
* `pieces_append` — the finished lines stay
* `forall_splitlines` — what holds of the lines
-/

namespace Py

/-! ## Bytes -/

theorem decode_append {old new : ByteArray} {t : Text} (h : decode old = some t) :
    decode (old ++ new) = (decode new).map (t ++ ·) := by
  obtain ⟨chars, hchars, rfl⟩ := Option.map_eq_some_iff.mp h
  have hsome : old.utf8Decode?.isSome = true := by rw [hchars]; rfl
  have hold : old = chars.toList.utf8Encode := by
    have hget := ByteArray.utf8Encode_get_utf8Decode? (h := hsome)
    simp only [hchars, Option.get_some] at hget
    exact hget.symm
  subst hold
  clear h hchars hsome
  generalize chars.toList = cs
  have hdec : (cs.utf8Encode ++ new).utf8Decode? = new.utf8Decode?.map (cs.toArray ++ ·) := by
    induction cs with
    | nil => cases h : new.utf8Decode? <;> simp [h]
    | cons c cs ih =>
      rw [← List.singleton_append, List.utf8Encode_append, ByteArray.append_assoc,
        ByteArray.utf8Decode?_utf8Encode_singleton_append, ih, Option.map_map]
      congr 1
      funext rest
      exact Array.toList_inj.mp (by simp)
  rw [decode, hdec, decode, Option.map_map, Option.map_map]
  congr 1
  funext rest
  simp

/-! ## Newlines -/

/-- Whether a `\r` comes last, in a text or before an empty one. -/
def returnAfter (afterReturn : Bool) (t : Text) : Bool :=
  match t.getLast? with
  | some c => c = carriageReturn
  | none => afterReturn

theorem returnAfter_cons (afterReturn : Bool) (c : CodePoint) (t : Text) :
    returnAfter afterReturn (c :: t) = returnAfter (c = carriageReturn) t := by
  cases t with
  | nil => rfl
  | cons d t =>
    rw [returnAfter, returnAfter, List.getLast?_cons_cons]
    cases h : (d :: t).getLast? with
    | none => simp at h
    | some e => rfl

theorem universalNewlines_two (afterReturn : Bool) (t u : Text) :
    universalNewlines afterReturn (t ++ u) =
      universalNewlines afterReturn t ++ universalNewlines (returnAfter afterReturn t) u := by
  induction t generalizing afterReturn with
  | nil => rfl
  | cons c t ih =>
    rw [List.cons_append, universalNewlines, universalNewlines, returnAfter_cons]
    split
    · next h => rw [ih, h.1, decide_eq_false (by decide)]
    · split
      · next h => rw [ih, decide_eq_true h, List.cons_append]
      · next h => rw [ih, decide_eq_false h, List.cons_append]

/-- What is read of `new` after `old`; `none` is the `UnicodeDecodeError`. -/
def addedText (old new : ByteArray) : Option Text :=
  (decode old).bind fun t => (decode new).map (universalNewlines (returnAfter false t))

/-- **What is read goes on with what was appended.** -/
theorem readText_append {old : ByteArray} {t : Text} (h : readText old = some t) (new : ByteArray) :
    readText (old ++ new) = (addedText old new).map (t ++ ·) := by
  obtain ⟨u, hu, rfl⟩ := Option.map_eq_some_iff.mp h
  rw [readText, decode_append hu, addedText, hu, Option.bind_some, Option.map_map, Option.map_map]
  congr 1
  funext v
  exact universalNewlines_two false u v

end Py

namespace JsonText

open Py (Text CodePoint)

/-! ## Lines -/

theorem pieces_ne_nil (t : Text) : pieces t ≠ [] := List.splitOnP_ne_nil _ _

/-- What comes after the last break. -/
def unfinished (t : Text) : Text := (pieces t).getLast (pieces_ne_nil t)

/-- The pieces that end in a break. -/
def finished (t : Text) : List Text := (pieces t).dropLast

theorem pieces_eq (t : Text) : pieces t = finished t ++ [unfinished t] :=
  (List.dropLast_append_getLast (pieces_ne_nil t)).symm

/-- **The finished lines stay**, and the unfinished one goes on. -/
theorem pieces_append (t u : Text) : pieces (t ++ u) = finished t ++ pieces (unfinished t ++ u) := by
  induction t with
  | nil => rfl
  | cons c t ih =>
    rw [List.cons_append, pieces_cons, ih]
    have hcons := pieces_cons c t
    by_cases hc : isLineBreak c = true
    · rw [if_pos hc] at hcons ⊢
      have hparts := hcons.symm.trans (pieces_eq (c :: t))
      rw [pieces_eq t, ← List.cons_append] at hparts
      obtain ⟨hfinished, hlast⟩ := List.append_inj' hparts rfl
      rw [← hfinished, ← List.singleton_inj.mp hlast, List.cons_append]
    · rw [if_neg hc] at hcons ⊢
      have hparts := hcons.symm.trans (pieces_eq (c :: t))
      rw [pieces_eq t] at hparts
      cases hfirst : finished t with
      | nil =>
        rw [hfirst] at hparts
        obtain ⟨hfinished, hlast⟩ := List.append_inj' ((List.nil_append _).trans hparts) rfl
        rw [← hfinished, ← List.singleton_inj.mp hlast, List.nil_append, List.nil_append,
          List.cons_append, pieces_cons, if_neg hc]
      | cons line rest =>
        rw [hfirst] at hparts
        obtain ⟨hfinished, hlast⟩ :=
          @List.append_inj' _ ((c :: line) :: rest) _ _ _ hparts rfl
        rw [← hfinished, ← List.singleton_inj.mp hlast]
        rfl

/-- What holds of an empty line holds of the lines if it does of the pieces. -/
theorem forall_splitlines {p : Text → Prop} (hp : p []) (t : Text) :
    (∀ line ∈ splitlines t, p line) ↔ ∀ line ∈ pieces t, p line := by
  classical
  let f : Text → Option Unit := fun line => if p line then none else some ()
  have hf : ∀ line, f line = none ↔ p line := fun line => by
    by_cases h : p line <;> simp [f, h]
  have hall : ∀ lines : List Text, (∀ line ∈ lines, p line) ↔ lines.filterMap f = [] := fun lines => by
    rw [List.filterMap_eq_nil_iff]
    exact forall₂_congr fun line _ => (hf line).symm
  rw [hall, hall, filterMap_splitlines ((hf []).mpr hp)]

end JsonText
