import ForgeKit.Lib.PyStr

/-!
# POSIX paths without symbolic links

A path is a text; a location is the list of names from the root of the tree down. An empty name
or a lone dot between two slashes names nothing, and `..` leads to the parent.

* `names` — the names a path is made of
* `join` — the location a path leads to from a directory
* `join_of_plain` — a path without `..` leads below the directory by its names
* `dotdot_mem_names_strip` — stripping a path hides no `..`
-/

namespace PosixPath

open Py (Text CodePoint)

abbrev Location := List Text

def slash : CodePoint := Py.ofChar '/'

def dotdot : Text := Py.lit ".."

/-- A component of a path that names something. -/
def isName (n : Text) : Bool := n != [] && n != Py.lit "."

/-- The names of a path: `Path(s).parts` without the root. -/
def names (s : Text) : List Text := (s.splitOn slash).filter isName

def isAbsolute (s : Text) : Bool := Py.startsWith s [slash]

/-- Where names lead from a location. -/
def walk : Location → List Text → Location
  | loc, [] => loc
  | loc, n :: ns => if n = dotdot then walk loc.dropLast ns else walk (loc ++ [n]) ns

/-- `dir / s`. -/
def join (dir : Location) (s : Text) : Location :=
  if isAbsolute s = true then walk [] (names s) else walk dir (names s)

def StrictlyBelow (dir loc : Location) : Prop := dir <+: loc ∧ dir ≠ loc

instance (dir loc : Location) : Decidable (StrictlyBelow dir loc) :=
  inferInstanceAs (Decidable (_ ∧ _))

theorem walk_of_plain {ns : List Text} (h : dotdot ∉ ns) (loc : Location) :
    walk loc ns = loc ++ ns := by
  induction ns generalizing loc with
  | nil => exact (List.append_nil loc).symm
  | cons n ns ih =>
    rw [List.mem_cons, not_or] at h
    rw [walk, if_neg (Ne.symm h.1), ih h.2, List.append_assoc, List.singleton_append]

/-- **A relative path without `..`** leads below the directory by its names. -/
theorem join_of_plain {dir : Location} {s : Text} (hrel : isAbsolute s = false)
    (hplain : dotdot ∉ names s) : join dir s = dir ++ names s := by
  rw [join, if_neg (by simp [hrel]), walk_of_plain hplain]

theorem strictlyBelow_append {dir : Location} {ns ms : List Text} :
    StrictlyBelow (dir ++ ns) (dir ++ ms) ↔ ns <+: ms ∧ ns ≠ ms := by
  unfold StrictlyBelow
  rw [List.prefix_append_right_inj, ne_eq, List.append_cancel_left_eq]

/-! ## The components of a text -/

theorem splitOn_append_slash (a b : Text) :
    (a ++ slash :: b).splitOn slash = a.splitOn slash ++ b.splitOn slash := by
  rw [List.splitOn_eq_splitOnP, List.splitOn_eq_splitOnP, List.splitOn_eq_splitOnP,
    List.splitOnP_append_cons a b (by simp)]

theorem names_append_slash (a b : Text) : names (a ++ slash :: b) = names a ++ names b := by
  rw [names, splitOn_append_slash, List.filter_append]; rfl

theorem splitOn_of_no_slash {a : Text} (h : slash ∉ a) : a.splitOn slash = [a] := by
  rw [List.splitOn_eq_splitOnP]
  refine List.splitOnP_eq_singleton fun c hc => ?_
  simpa using fun he : c = slash => h (he ▸ hc)

theorem names_of_no_slash {a : Text} (h : slash ∉ a) (hname : isName a = true) :
    names a = [a] := by
  rw [names, splitOn_of_no_slash h, List.filter_cons_of_pos hname, List.filter_nil]

/-- A text up to its first slash, if there is one. -/
theorem exists_first_component (s : Text) :
    slash ∉ s ∨ ∃ c d, s = c ++ slash :: d ∧ slash ∉ c := by
  by_cases h : slash ∈ s
  · exact .inr (List.eq_append_cons_of_mem h)
  · exact .inl h

/-- The name that a long enough start of a text without slashes belongs to. -/
theorem names_head {a : Text} (ha : slash ∉ a) (hlen : 2 ≤ a.length) (b : Text) :
    ∃ n ns, names (a ++ b) = (a ++ n) :: ns := by
  have hname : ∀ n, isName (a ++ n) = true := by
    intro n
    match a, hlen with
    | x :: y :: a, _ => simp [isName, Py.lit]
  rcases exists_first_component b with hb | ⟨c, d, rfl, hc⟩
  · refine ⟨b, [], names_of_no_slash ?_ (hname b)⟩
    rw [List.mem_append, not_or]
    exact ⟨ha, hb⟩
  · refine ⟨c, names d, ?_⟩
    rw [← List.append_assoc, names_append_slash, names_of_no_slash ?_ (hname c)]
    · rfl
    · rw [List.mem_append, not_or]
      exact ⟨ha, hc⟩

/-- What a path starts with, up to a slash, is part of its first name. -/
theorem subset_of_names_cons {a b n : Text} {ns : List Text} (ha : slash ∉ a) (hlen : 2 ≤ a.length)
    (h : names (a ++ b) = n :: ns) : a ⊆ n := by
  obtain ⟨m, ms, hm⟩ := names_head ha hlen b
  rw [h, List.cons.injEq] at hm
  rw [hm.1]
  exact List.subset_append_left a m

theorem isName_append {c : CodePoint} (hc : c ≠ Py.ofChar '.') (d : Text) :
    isName (d ++ [c]) = true := by
  cases d with
  | nil => simpa [isName, Py.lit] using hc
  | cons x d => cases d <;> simp [isName, Py.lit]

/-- What a path ends in, from a slash on, is the end of its last name. -/
theorem names_last {a : Text} {c : CodePoint} (ha : slash ∉ a ++ [c]) (hc : c ≠ Py.ofChar '.')
    (b : Text) : ∃ ns n, names (b ++ (a ++ [c])) = ns ++ [n ++ (a ++ [c])] := by
  have hsingle : ∀ d, slash ∉ d → names (d ++ (a ++ [c])) = [d ++ (a ++ [c])] := by
    intro d hd
    refine names_of_no_slash ?_ ?_
    · rw [List.mem_append, not_or]
      exact ⟨hd, ha⟩
    · rw [← List.append_assoc]
      exact isName_append hc (d ++ a)
  induction hn : b.length using Nat.strong_induction_on generalizing b with
  | _ k ih =>
    subst hn
    rcases exists_first_component b with hb | ⟨d, e, rfl, hd⟩
    · exact ⟨[], b, hsingle b hb⟩
    · obtain ⟨ns, n, hns⟩ := ih e.length (by simp; omega) e rfl
      refine ⟨names d ++ ns, n, ?_⟩
      rw [show d ++ slash :: e ++ (a ++ [c]) = d ++ slash :: (e ++ (a ++ [c])) by simp,
        names_append_slash, hns, List.append_assoc]

/-- A component stands at an end of the text or at a slash on each side. -/
theorem mem_splitOn_iff {n s : Text} :
    n ∈ s.splitOn slash ↔ slash ∉ n ∧ ∃ a b, s = a ++ n ++ b
      ∧ (a = [] ∨ ∃ a', a = a' ++ [slash]) ∧ (b = [] ∨ ∃ b', b = slash :: b') := by
  constructor
  · intro h
    induction hn : s.length using Nat.strong_induction_on generalizing s with
    | _ k ih =>
      subst hn
      rcases exists_first_component s with hs | ⟨c, d, rfl, hc⟩
      · rw [splitOn_of_no_slash hs, List.mem_singleton] at h
        subst h
        exact ⟨hs, [], [], by simp, .inl rfl, .inl rfl⟩
      · rw [splitOn_append_slash, splitOn_of_no_slash hc] at h
        rcases List.mem_cons.mp h with rfl | h
        · exact ⟨hc, [], slash :: d, by simp, .inl rfl, .inr ⟨d, rfl⟩⟩
        · obtain ⟨hn, a, b, hd, ha, hb⟩ := ih d.length (by simp; omega) h rfl
          refine ⟨hn, c ++ slash :: a, b, by rw [hd]; simp, .inr ?_, hb⟩
          rcases ha with rfl | ⟨a', rfl⟩
          · exact ⟨c, rfl⟩
          · exact ⟨c ++ slash :: a', by simp⟩
  · rintro ⟨hn, a, b, rfl, ha, hb⟩
    have hmid : ∀ b, (b = [] ∨ ∃ b', b = slash :: b') → n ∈ (n ++ b).splitOn slash := by
      rintro b (rfl | ⟨b', rfl⟩)
      · rw [List.append_nil, splitOn_of_no_slash hn]; exact List.mem_singleton_self n
      · rw [splitOn_append_slash, splitOn_of_no_slash hn]; exact List.mem_cons_self
    rcases ha with rfl | ⟨a', rfl⟩
    · exact hmid b hb
    · rw [show a' ++ [slash] ++ n ++ b = a' ++ slash :: (n ++ b) by simp, splitOn_append_slash]
      exact List.mem_append_right _ (hmid b hb)

/-- Stripping a path hides no `..`: neither a slash nor a dot is white space. -/
theorem dotdot_mem_names_strip {s : Text} (h : dotdot ∈ names s) :
    dotdot ∈ names (Py.strip s) := by
  obtain ⟨hmem, hname⟩ := List.mem_filter.mp h
  refine List.mem_filter.mpr ⟨?_, hname⟩
  obtain ⟨hn, a, b, rfl, ha, hb⟩ := mem_splitOn_iff.mp hmem
  have hleft : Py.lstrip (a ++ dotdot ++ b) = Py.lstrip a ++ dotdot ++ b := by
    rw [List.append_assoc, Py.lstrip_append, List.append_assoc]
    rintro c ⟨⟩
    decide
  have hright : Py.rstrip (Py.lstrip a ++ dotdot ++ b) = Py.lstrip a ++ dotdot ++ Py.rstrip b := by
    refine Py.rstrip_append fun c hc => ?_
    rw [show dotdot = [Py.ofChar '.'] ++ [Py.ofChar '.'] from rfl, ← List.append_assoc,
      List.getLast?_concat, Option.some.injEq] at hc
    subst hc
    decide
  rw [Py.strip, hleft, hright]
  refine mem_splitOn_iff.mpr ⟨hn, _, _, rfl, ?_, ?_⟩
  · rcases ha with rfl | ⟨a', rfl⟩
    · exact .inl rfl
    · refine .inr ⟨Py.lstrip a', Py.lstrip_append ?_⟩
      rintro c ⟨⟩
      decide
  · rcases hb with rfl | ⟨b', rfl⟩
    · exact .inl rfl
    · refine .inr ⟨Py.rstrip b', ?_⟩
      refine (Py.rstrip_append (a := b') (t := [slash]) ?_).trans rfl
      rintro c ⟨⟩
      decide

end PosixPath
