import ForgeKit.Lib.Backtrack
import ForgeKit.Lib.Trim

/-!
# Headings and sections of a text

A heading stands alone on a line, up to blanks, and a section is what follows it up to the next
heading. Both are searched for by patterns whose loops of blanks run over line ends as well, since a
line end is a blank, and which backtrack.

* `isSome_searchLines_heading` — a heading is found when a line is one
* `section_spec` — what stands under the first heading that a line end follows
-/

namespace LineSections

open Backtrack (greedily lazily)
open Trim (trim)

variable {α β : Type*} [DecidableEq α]

section Patterns

variable (blank : α → Bool) (nl : α)

/-- The end of the text, or the place ahead of a line end. -/
def atLineEnd : List α → Bool
  | [] => true
  | c :: _ => c == nl

/-- The first match at the start of a line; `start` says that a line starts here. -/
def searchLines (first : List α → Option β) (start : Bool) : List α → Option β
  | [] => if start then first [] else none
  | c :: t => (if start then first (c :: t) else none).or (searchLines first (c == nl) t)

/-- As many blanks as lead to the end of a line, and on from there. -/
def toLineEnd (next : List α → Option β) (t : List α) : Option β :=
  (greedily blank t).findSome? fun w => if atLineEnd nl w.2 then next w.2 else none

/-- A name between blanks, up to the end of a line, and on from there. -/
def heading (name : List α) (next : List α → Option β) (t : List α) : Option β :=
  (greedily blank t).findSome? fun w =>
    if name.isPrefixOf w.2 then toLineEnd blank nl next (w.2.drop name.length) else none

/-- One of the names is a heading here. -/
def headingAhead (names : List (List α)) (t : List α) : Bool :=
  names.any fun name => (heading blank nl name some t).isSome

/-- What stands ahead of the next heading, or of the end of the text. -/
def block (names : List (List α)) (t : List α) : Option (List α) :=
  (lazily (fun _ => true) t).findSome? fun w =>
    if w.2.isEmpty || (w.1.getLast?.all (· == nl) && headingAhead blank nl names w.2) then some w.1
    else none

/-- The block behind a line end. -/
def blockBehind (names : List (List α)) : List α → Option (List α)
  | [] => none
  | c :: t => if c = nl then block blank nl names t else none

/-- What stands under the first heading of the name that a line end follows. -/
def sectionOf (names : List (List α)) (name t : List α) : Option (List α) :=
  searchLines nl (heading blank nl name (blockBehind blank nl names)) true t

/-- Some line ahead of the next heading is not blank. -/
def Followed (names : List (List α)) (after : List (List α)) : Prop :=
  ∃ before line rest, after = before ++ line :: rest ∧ line.all blank = false
    ∧ ∀ l ∈ before ++ [line], trim blank l ∉ names

end Patterns

/-! ## Line by line -/

section Lines

variable {nl : α} {line : List α}

/-- A text is its last line, or a line and the text behind it. -/
theorem byLines (nl : α) {motive : List α → Prop} (last : ∀ line, nl ∉ line → motive line)
    (cons : ∀ line rest, nl ∉ line → motive rest → motive (line ++ nl :: rest)) (t : List α) :
    motive t := by
  suffices h : ∀ line, nl ∉ line → motive (line ++ t) from h [] List.not_mem_nil
  induction t with
  | nil =>
    intro line hline
    rw [List.append_nil]
    exact last line hline
  | cons c t ih =>
    intro line hline
    by_cases hc : c = nl
    · subst hc
      exact cons line t hline (ih [] List.not_mem_nil)
    · have hmore := ih (line ++ [c]) (by simp [hline, Ne.symm hc])
      rwa [List.append_assoc, List.singleton_append] at hmore

variable {first : List α → Option β}

theorem searchLines_false (h : nl ∉ line) (rest : List α) :
    searchLines nl first false (line ++ nl :: rest) = searchLines nl first true rest := by
  induction line with
  | nil =>
    rw [List.nil_append, searchLines, beq_self_eq_true]
    rfl
  | cons c line ih =>
    rw [List.mem_cons, not_or] at h
    rw [List.cons_append, searchLines, beq_eq_false_iff_ne.mpr (Ne.symm h.1), ih h.2]
    rfl

theorem searchLines_false_last (h : nl ∉ line) : searchLines nl first false line = none := by
  induction line with
  | nil => rfl
  | cons c line ih =>
    rw [List.mem_cons, not_or] at h
    rw [searchLines, beq_eq_false_iff_ne.mpr (Ne.symm h.1), ih h.2]
    rfl

/-- A search tries a line, and goes on behind it. -/
theorem searchLines_line (h : nl ∉ line) (rest : List α) :
    searchLines nl first true (line ++ nl :: rest)
      = (first (line ++ nl :: rest)).or (searchLines nl first true rest) := by
  cases line with
  | nil =>
    rw [List.nil_append, searchLines, beq_self_eq_true]
    rfl
  | cons c line =>
    rw [List.mem_cons, not_or] at h
    rw [List.cons_append, searchLines, beq_eq_false_iff_ne.mpr (Ne.symm h.1),
      searchLines_false h.2]
    rfl

theorem searchLines_last (h : nl ∉ line) : searchLines nl first true line = first line := by
  cases line with
  | nil => rfl
  | cons c line =>
    rw [List.mem_cons, not_or] at h
    rw [searchLines, beq_eq_false_iff_ne.mpr (Ne.symm h.1), searchLines_false_last h.2]
    exact Option.or_none

/-- What starts here is the first match. -/
theorem or_searchLines (t : List α) :
    (first t).or (searchLines nl first true t) = searchLines nl first true t := by
  cases t with
  | nil =>
    show (first []).or (first []) = first []
    cases first [] <;> rfl
  | cons c t =>
    show (first (c :: t)).or ((first (c :: t)).or (searchLines nl first (c == nl) t))
      = (first (c :: t)).or (searchLines nl first (c == nl) t)
    cases first (c :: t) <;> rfl

end Lines

/-! ## A heading on a line -/

section Headings

variable {blank : α → Bool} {nl : α} {line : List α} {next : List α → Option β}

theorem toLineEnd_cons (c : α) (t : List α) :
    toLineEnd blank nl next (c :: t)
      = (if blank c then toLineEnd blank nl next t else none).or
          (if c = nl then next (c :: t) else none) := by
  rw [toLineEnd, Backtrack.findSome?_greedily_cons]
  by_cases hc : c = nl
  · subst hc
    rw [if_pos rfl]
    simp only [atLineEnd, beq_self_eq_true, if_true]
    rfl
  · rw [if_neg hc]
    simp only [atLineEnd, beq_eq_false_iff_ne.mpr hc, Bool.false_eq_true, if_false]
    rfl

/-- A line of blanks is run through, and the line end behind it. -/
theorem toLineEnd_line (hnl : blank nl = true) (h : nl ∉ line) (rest : List α) :
    toLineEnd blank nl next (line ++ nl :: rest)
      = if line.all blank then (toLineEnd blank nl next rest).or (next (nl :: rest)) else none := by
  induction line with
  | nil => rw [List.nil_append, toLineEnd_cons, if_pos hnl, if_pos rfl, List.all_nil, if_pos rfl]
  | cons c line ih =>
    rw [List.mem_cons, not_or] at h
    rw [List.cons_append, toLineEnd_cons, if_neg (Ne.symm h.1), Option.or_none, ih h.2, List.all_cons]
    cases blank c <;> simp

theorem toLineEnd_last (h : nl ∉ line) :
    toLineEnd blank nl next line = if line.all blank then next [] else none := by
  induction line with
  | nil =>
    rw [List.all_nil, if_pos rfl]
    simp [toLineEnd, atLineEnd]
  | cons c line ih =>
    rw [List.mem_cons, not_or] at h
    rw [toLineEnd_cons, if_neg (Ne.symm h.1), Option.or_none, ih h.2, List.all_cons]
    cases blank c <;> simp

variable {name : List α}

/-- A name that starts and ends in no blank, and that is on one line. -/
structure Name (blank : α → Bool) (nl : α) (name : List α) : Prop where
  start : ∃ c, name.head? = some c ∧ blank c = false
  last : ∃ c, name.getLast? = some c ∧ blank c = false
  oneLine : nl ∉ name

namespace Name

variable (hname : Name blank nl name)

include hname

omit [DecidableEq α] in
theorem ne_nil : name ≠ [] := by
  obtain ⟨c, hc, -⟩ := hname.start
  rintro rfl
  cases hc

/-- A blank is not where the name starts. -/
theorem not_isPrefixOf {c : α} (hc : blank c = true) (t : List α) :
    name.isPrefixOf (c :: t) = false := by
  obtain ⟨d, hd, hblank⟩ := hname.start
  obtain ⟨rest, rfl⟩ := List.head?_eq_some_iff.mp hd
  rw [List.isPrefixOf, Bool.and_eq_false_iff]
  left
  rw [beq_eq_false_iff_ne]
  rintro rfl
  rw [hc] at hblank
  cases hblank

/-- The blanks ahead of the name are those ahead of anything else. -/
theorem heading_eq (t : List α) :
    heading blank nl name next t
      = if name.isPrefixOf (t.dropWhile blank) then
          toLineEnd blank nl next ((t.dropWhile blank).drop name.length)
        else none := by
  unfold heading
  induction t with
  | nil =>
    simp
  | cons c t ih =>
    rw [Backtrack.findSome?_greedily_cons]
    by_cases hc : blank c = true
    · rw [if_pos hc, List.dropWhile_cons_of_pos hc, hname.not_isPrefixOf hc, if_neg Bool.false_ne_true,
        Option.or_none]
      exact ih
    · rw [if_neg hc, List.dropWhile_cons_of_neg hc, Option.none_or]

omit [DecidableEq α] in
/-- The name stands alone on a line. -/
theorem trim_eq_iff : trim blank line = name ↔
    ∃ after, line.dropWhile blank = name ++ after ∧ after.all blank = true := by
  obtain ⟨c, hlast, hc⟩ := hname.last
  constructor
  · intro h
    refine ⟨(line.dropWhile blank).rtakeWhile blank, ?_, ?_⟩
    · rw [← h]
      exact List.rdropWhile_append_rtakeWhile.symm
    · exact List.all_eq_true.mpr fun a ha => List.mem_rtakeWhile_imp ha
  · rintro ⟨after, heq, hafter⟩
    rw [trim, heq, Trim.rdropWhile_append hlast hc,
      List.rdropWhile_eq_nil_iff.mpr (List.all_eq_true.mp hafter), List.append_nil]

omit [DecidableEq α] in
/-- What stands behind the name on its line decides whether it stands alone. -/
theorem trim_eq_iff_of_append {after : List α} (heq : line.dropWhile blank = name ++ after) :
    trim blank line = name ↔ after.all blank = true := by
  rw [hname.trim_eq_iff]
  constructor
  · rintro ⟨after', heq', hafter'⟩
    rw [heq] at heq'
    rwa [List.append_cancel_left heq']
  · exact fun hafter => ⟨after, heq, hafter⟩

/-- The name is not found across a line end. -/
theorem isPrefixOf_append (t rest : List α) :
    name.isPrefixOf (t ++ nl :: rest) = name.isPrefixOf t := by
  rw [Bool.eq_iff_iff, List.isPrefixOf_iff_prefix, List.isPrefixOf_iff_prefix]
  refine ⟨fun h => ?_, fun h => h.trans (List.prefix_append _ _)⟩
  rcases List.prefix_or_prefix_of_prefix h (List.prefix_append t (nl :: rest)) with h' | ⟨more, rfl⟩
  · exact h'
  · rw [List.prefix_append_right_inj] at h
    cases more with
    | nil => exact ⟨[], by simp only [List.append_nil]⟩
    | cons c more =>
      obtain ⟨rfl, -⟩ := List.cons_prefix_cons.mp h
      exact absurd (List.mem_append_right t List.mem_cons_self) hname.oneLine

omit [DecidableEq α] hname in
theorem notMem_after {after : List α} (h : nl ∉ line) (heq : line.dropWhile blank = name ++ after) :
    nl ∉ after := by
  intro hmem
  have hdrop : nl ∈ line.dropWhile blank := by
    rw [heq]
    exact List.mem_append_right _ hmem
  exact h ((List.dropWhile_suffix blank).subset hdrop)

omit [DecidableEq α] in
theorem trim_ne_of_blank (hblank : line.all blank = true) : trim blank line ≠ name := by
  have hnil : line.dropWhile blank = [] :=
    List.dropWhile_eq_nil_iff.mpr (List.all_eq_true.mp hblank)
  rw [trim, hnil]
  exact hname.ne_nil.symm

/-- A heading on a line, or behind a line of blanks. -/
theorem heading_line (hnl : blank nl = true) (h : nl ∉ line) (rest : List α) :
    heading blank nl name next (line ++ nl :: rest)
      = if trim blank line = name then (toLineEnd blank nl next rest).or (next (nl :: rest))
        else if line.all blank then heading blank nl name next rest else none := by
  rw [hname.heading_eq, List.dropWhile_append]
  by_cases hblank : line.all blank = true
  · have hnil : line.dropWhile blank = [] :=
      List.dropWhile_eq_nil_iff.mpr (List.all_eq_true.mp hblank)
    rw [hnil, if_neg (hname.trim_ne_of_blank hblank), if_pos hblank, hname.heading_eq,
      List.dropWhile_cons_of_pos hnl]
    rfl
  · have hne : (line.dropWhile blank).isEmpty = false := by
      rw [List.isEmpty_eq_false_iff, Ne, List.dropWhile_eq_nil_iff]
      exact fun hall => hblank (List.all_eq_true.mpr hall)
    rw [if_neg hblank, hne, if_neg Bool.false_ne_true, hname.isPrefixOf_append]
    by_cases hprefix : name.isPrefixOf (line.dropWhile blank) = true
    · obtain ⟨after, heq⟩ := List.isPrefixOf_iff_prefix.mp hprefix
      rw [if_pos hprefix, ← heq, List.append_assoc, List.drop_left,
        toLineEnd_line hnl (notMem_after h heq.symm)]
      simp only [hname.trim_eq_iff_of_append heq.symm]
    · have hnot : trim blank line ≠ name := by
        intro htrim
        obtain ⟨after, heq, -⟩ := hname.trim_eq_iff.mp htrim
        exact hprefix (List.isPrefixOf_iff_prefix.mpr ⟨after, heq.symm⟩)
      rw [if_neg hprefix, if_neg hnot]

theorem heading_last (h : nl ∉ line) :
    heading blank nl name next line = if trim blank line = name then next [] else none := by
  rw [hname.heading_eq]
  by_cases hprefix : name.isPrefixOf (line.dropWhile blank) = true
  · obtain ⟨after, heq⟩ := List.isPrefixOf_iff_prefix.mp hprefix
    rw [if_pos hprefix, ← heq, List.drop_left, toLineEnd_last (notMem_after h heq.symm)]
    simp only [hname.trim_eq_iff_of_append heq.symm]
  · have hnot : trim blank line ≠ name := by
      intro htrim
      obtain ⟨after, heq, -⟩ := hname.trim_eq_iff.mp htrim
      exact hprefix (List.isPrefixOf_iff_prefix.mpr ⟨after, heq.symm⟩)
    rw [if_neg hprefix, if_neg hnot]

end Name

/-- **A heading is found when a line is one.** -/
theorem isSome_searchLines_heading (hnl : blank nl = true) (hname : Name blank nl name)
    (t : List α) :
    (searchLines nl (heading blank nl name some) true t).isSome = true
      ↔ ∃ line ∈ t.splitOn nl, trim blank line = name := by
  induction t using byLines nl with
  | last line h =>
    rw [searchLines_last h, hname.heading_last h, List.splitOn_eq_singleton h]
    by_cases htrim : trim blank line = name
    · rw [if_pos htrim]
      exact iff_of_true rfl ⟨line, List.mem_singleton_self _, htrim⟩
    · rw [if_neg htrim]
      refine iff_of_false (fun h => Bool.noConfusion h) ?_
      rintro ⟨line', hline', htrim'⟩
      rw [List.mem_singleton.mp hline'] at htrim'
      exact htrim htrim'
  | cons line rest h ih =>
    rw [searchLines_line h, hname.heading_line hnl h, List.splitOn_append_cons_self_of_not_mem h,
      List.exists_mem_cons_iff, ← ih]
    by_cases htrim : trim blank line = name
    · rw [if_pos htrim]
      refine iff_of_true ?_ (.inl htrim)
      cases toLineEnd blank nl some rest <;> rfl
    · rw [if_neg htrim, or_iff_right htrim]
      by_cases hblank : line.all blank = true
      · rw [if_pos hblank, or_searchLines]
      · rw [if_neg hblank, Option.none_or]

end Headings

/-! ## What stands under a heading -/

section Blocks

variable {blank : α → Bool} {nl : α} {line : List α} {names : List (List α)}

omit [DecidableEq α] in
theorem not_followed_nil : ¬Followed blank names [] := by
  rintro ⟨before, line, rest, h, -⟩
  cases before <;> cases h

omit [DecidableEq α] in
theorem followed_cons (after : List (List α)) :
    Followed blank names (line :: after)
      ↔ trim blank line ∉ names ∧ (line.all blank = false ∨ Followed blank names after) := by
  constructor
  · rintro ⟨before, l, rest, heq, hl, hnames⟩
    cases before with
    | nil =>
      obtain ⟨rfl, -⟩ := List.cons.inj heq
      exact ⟨hnames line (List.mem_singleton_self _), .inl hl⟩
    | cons first before =>
      obtain ⟨rfl, hafter⟩ := List.cons.inj heq
      refine ⟨hnames line List.mem_cons_self, .inr ⟨before, l, rest, hafter, hl, ?_⟩⟩
      exact fun l' hl' => hnames l' (List.mem_cons_of_mem _ hl')
  · rintro ⟨hline, hl | ⟨before, l, rest, rfl, hl, hnames⟩⟩
    · refine ⟨[], line, after, rfl, hl, fun l' hl' => ?_⟩
      rw [List.mem_singleton.mp hl']
      exact hline
    · refine ⟨line :: before, l, rest, rfl, hl, ?_⟩
      exact List.forall_mem_cons.mpr ⟨hline, hnames⟩

theorem headingAhead_line (hnl : blank nl = true) (hnames : ∀ name ∈ names, Name blank nl name)
    (h : nl ∉ line) (rest : List α) :
    headingAhead blank nl names (line ++ nl :: rest) = true
      ↔ trim blank line ∈ names ∨ (line.all blank = true ∧ headingAhead blank nl names rest = true) := by
  unfold headingAhead
  rw [List.any_eq_true, List.any_eq_true]
  constructor
  · rintro ⟨name, hname, hsome⟩
    rw [(hnames name hname).heading_line hnl h] at hsome
    split at hsome
    · next htrim => exact .inl (htrim ▸ hname)
    · split at hsome
      · next hblank => exact .inr ⟨hblank, name, hname, hsome⟩
      · cases hsome
  · rintro (hmem | ⟨hblank, name, hname, hsome⟩)
    · refine ⟨_, hmem, ?_⟩
      rw [(hnames _ hmem).heading_line hnl h, if_pos rfl]
      cases toLineEnd blank nl some rest <;> rfl
    · refine ⟨name, hname, ?_⟩
      rw [(hnames name hname).heading_line hnl h,
        if_neg ((hnames name hname).trim_ne_of_blank hblank), if_pos hblank]
      exact hsome

theorem headingAhead_last (hnames : ∀ name ∈ names, Name blank nl name) (h : nl ∉ line) :
    headingAhead blank nl names line = true ↔ trim blank line ∈ names := by
  unfold headingAhead
  rw [List.any_eq_true]
  constructor
  · rintro ⟨name, hname, hsome⟩
    rw [(hnames name hname).heading_last h] at hsome
    split at hsome
    · next htrim => exact htrim ▸ hname
    · cases hsome
  · intro hmem
    refine ⟨_, hmem, ?_⟩
    rw [(hnames _ hmem).heading_last h, if_pos rfl]
    rfl

variable (blank nl names) in
/-- The text ahead of the next heading, element by element. -/
def upToHeading : Bool → List α → List α
  | _, [] => []
  | start, c :: t =>
    if start && headingAhead blank nl names (c :: t) then [] else c :: upToHeading (c == nl) t

/-- The lazy loop stops at the next heading, or at the end. -/
theorem block_eq (t : List α) : block blank nl names t = some (upToHeading blank nl names true t) := by
  have hloop : ∀ (t : List α) (start : Bool),
      ((lazily (fun _ => true) t).findSome? fun w =>
        if w.2.isEmpty || (w.1.getLast?.elim start (· == nl) && headingAhead blank nl names w.2) then
          some w.1
        else none) = some (upToHeading blank nl names start t) := by
    intro t
    induction t with
    | nil => exact fun start => rfl
    | cons c t ih =>
      intro start
      have hrest : ∀ w : List α × List α,
          (if w.2.isEmpty || ((c :: w.1).getLast?.elim start (· == nl)
              && headingAhead blank nl names w.2) then some (c :: w.1) else none)
            = (if w.2.isEmpty || (w.1.getLast?.elim (c == nl) (· == nl)
              && headingAhead blank nl names w.2) then some w.1 else none).map (c :: ·) := by
        intro w
        have hlast : (c :: w.1).getLast?.elim start (· == nl)
            = w.1.getLast?.elim (c == nl) (· == nl) := by
          rw [List.getLast?_cons]
          cases w.1.getLast? <;> rfl
        rw [hlast]
        split <;> rfl
      have hmore := congrArg (Option.map (c :: ·)) (ih (c == nl))
      rw [List.map_findSome?] at hmore
      rw [Backtrack.findSome?_lazily_cons, if_pos rfl, upToHeading]
      simp only [hrest]
      cases hstop : start && headingAhead blank nl names (c :: t) with
      | true =>
        rw [if_pos rfl, if_pos (by simpa using hstop)]
        rfl
      | false =>
        rw [if_neg Bool.false_ne_true, if_neg (by simpa using hstop), Option.none_or]
        exact hmore
  have helim : ∀ last : Option α, last.all (· == nl) = last.elim true (· == nl) := by
    rintro (_ | c) <;> rfl
  rw [← hloop t true, block]
  simp only [helim]

theorem upToHeading_false (h : nl ∉ line) (rest : List α) :
    upToHeading blank nl names false (line ++ nl :: rest)
      = line ++ nl :: upToHeading blank nl names true rest := by
  induction line with
  | nil =>
    rw [List.nil_append, upToHeading, Bool.false_and, if_neg Bool.false_ne_true, beq_self_eq_true]
    rfl
  | cons c line ih =>
    rw [List.mem_cons, not_or] at h
    rw [List.cons_append, upToHeading, Bool.false_and, if_neg Bool.false_ne_true,
      beq_eq_false_iff_ne.mpr (Ne.symm h.1), ih h.2]
    rfl

theorem upToHeading_false_last (h : nl ∉ line) : upToHeading blank nl names false line = line := by
  induction line with
  | nil => rfl
  | cons c line ih =>
    rw [List.mem_cons, not_or] at h
    rw [upToHeading, Bool.false_and, if_neg Bool.false_ne_true,
      beq_eq_false_iff_ne.mpr (Ne.symm h.1), ih h.2]

/-- No heading starts at this line: the line is in the block. -/
theorem upToHeading_line (h : nl ∉ line) (rest : List α) :
    upToHeading blank nl names true (line ++ nl :: rest)
      = if headingAhead blank nl names (line ++ nl :: rest) then []
        else line ++ nl :: upToHeading blank nl names true rest := by
  cases line with
  | nil =>
    rw [List.nil_append, upToHeading, Bool.true_and, beq_self_eq_true]
    rfl
  | cons c line =>
    rw [List.mem_cons, not_or] at h
    rw [List.cons_append, upToHeading, Bool.true_and, beq_eq_false_iff_ne.mpr (Ne.symm h.1),
      upToHeading_false h.2]
    rfl

theorem upToHeading_last (h : nl ∉ line) :
    upToHeading blank nl names true line = if headingAhead blank nl names line then [] else line := by
  cases line with
  | nil => exact (ite_self _).symm
  | cons c line =>
    rw [List.mem_cons, not_or] at h
    rw [upToHeading, Bool.true_and, beq_eq_false_iff_ne.mpr (Ne.symm h.1), upToHeading_false_last h.2]

theorem upToHeading_of_ahead {t : List α} (h : headingAhead blank nl names t = true) :
    upToHeading blank nl names true t = [] := by
  cases t with
  | nil => rfl
  | cons c t => rw [upToHeading, h, Bool.true_and, if_pos rfl]

/-- **A block is blank when no line ahead of the next heading is more than blank.** -/
theorem upToHeading_blank_iff (hnl : blank nl = true) (hnames : ∀ name ∈ names, Name blank nl name)
    (t : List α) :
    (upToHeading blank nl names true t).all blank = true
      ↔ ¬Followed blank names (t.splitOn nl) := by
  induction t using byLines nl with
  | last line h =>
    rw [List.splitOn_eq_singleton h, upToHeading_last h, followed_cons,
      or_iff_left not_followed_nil, not_and', ← headingAhead_last hnames h]
    by_cases hahead : headingAhead blank nl names line = true
    · rw [if_pos hahead]
      exact iff_of_true rfl fun _ hnot => hnot hahead
    · rw [if_neg hahead]
      constructor
      · intro hblank hline
        rw [hblank] at hline
        cases hline
      · intro hno
        by_contra hline
        exact hno (Bool.not_eq_true _ ▸ hline) hahead
  | cons line rest h ih =>
    rw [List.splitOn_append_cons_self_of_not_mem h, followed_cons, upToHeading_line h]
    have hahead := headingAhead_line hnl hnames h rest
    by_cases hmem : trim blank line ∈ names
    · rw [if_pos (hahead.mpr (.inl hmem))]
      exact iff_of_true rfl fun hfollowed => hfollowed.1 hmem
    · rw [and_iff_right hmem]
      by_cases hblank : line.all blank = true
      · rw [hblank, or_iff_right (by simp), ← ih]
        by_cases hrest : headingAhead blank nl names rest = true
        · rw [if_pos (hahead.mpr (.inr ⟨hblank, hrest⟩)), upToHeading_of_ahead hrest]
        · rw [if_neg fun h => hrest ((hahead.mp h).resolve_left hmem).2, List.all_append, hblank,
            List.all_cons, hnl, Bool.true_and, Bool.true_and]
      · rw [if_neg fun h => hblank ((hahead.mp h).resolve_left hmem).1, List.all_append]
        rw [Bool.not_eq_true] at hblank
        rw [hblank, Bool.false_and]
        exact iff_of_false Bool.false_ne_true fun hno => hno (.inl rfl)

/-! ## The section of a name -/

variable {name : List α}

theorem blockBehind_cons (rest : List α) :
    blockBehind blank nl names (nl :: rest) = some (upToHeading blank nl names true rest) := by
  rw [blockBehind, if_pos rfl, block_eq]

/-- Behind the blanks that follow a heading the block is no less blank than at once. -/
theorem toLineEnd_blockBehind (hnl : blank nl = true) (hnames : ∀ name ∈ names, Name blank nl name)
    (t : List α) {b : List α}
    (hb : toLineEnd blank nl (blockBehind blank nl names) t = some b) :
    b.all blank = true ↔ ¬Followed blank names (t.splitOn nl) := by
  induction t using byLines nl with
  | last line h =>
    rw [toLineEnd_last h] at hb
    split at hb <;> cases hb
  | cons line rest h ih =>
    rw [toLineEnd_line hnl h] at hb
    split at hb
    · next hblank =>
      have hmem : trim blank line ∉ names := fun hmem =>
        (hnames _ hmem).trim_ne_of_blank hblank rfl
      have hrest : b.all blank = true ↔ ¬Followed blank names (rest.splitOn nl) := by
        rcases Option.or_eq_some_iff.mp hb with hb | ⟨-, hb⟩
        · exact ih hb
        · rw [blockBehind_cons] at hb
          rw [← Option.some.inj hb]
          exact upToHeading_blank_iff hnl hnames rest
      rw [List.splitOn_append_cons_self_of_not_mem h, followed_cons, hblank, hrest,
        and_iff_right hmem, or_iff_right (by simp)]
    · cases hb

/--
**The section of a name.** None is found when no line end follows a heading of the name; otherwise
what is found is blank when nothing but blank lines stands between the first heading of the name and
the next heading.
-/
theorem section_spec (hnl : blank nl = true) (hnames : ∀ name ∈ names, Name blank nl name)
    (hname : Name blank nl name) (t : List α) :
    (sectionOf blank nl names name t = none
        ∧ ∀ before line after, t.splitOn nl = before ++ line :: after → trim blank line = name →
          after = [])
      ∨ ∃ b before line after, sectionOf blank nl names name t = some b
        ∧ t.splitOn nl = before ++ line :: after ∧ trim blank line = name
        ∧ (∀ l ∈ before, trim blank l ≠ name) ∧ after ≠ []
        ∧ (b.all blank = true ↔ ¬Followed blank names after) := by
  unfold sectionOf
  induction t using byLines nl with
  | last line h =>
    rw [searchLines_last h, hname.heading_last h, List.splitOn_eq_singleton h]
    refine .inl ⟨ite_self _, fun before l after heq _ => ?_⟩
    cases before with
    | nil => exact (List.cons.inj heq).2.symm
    | cons first before =>
      have hnil := (List.cons.inj heq).2
      exact absurd hnil.symm (by simp)
  | cons line rest h ih =>
    rw [searchLines_line h, hname.heading_line hnl h, List.splitOn_append_cons_self_of_not_mem h]
    by_cases htrim : trim blank line = name
    · rw [if_pos htrim, blockBehind_cons]
      have hfirst : ∀ l ∈ ([] : List (List α)), trim blank l ≠ name := fun l hl => nomatch hl
      have hrest : rest.splitOn nl ≠ [] := List.splitOn_ne_nil nl rest
      cases hend : toLineEnd blank nl (blockBehind blank nl names) rest with
      | none =>
        exact .inr ⟨_, [], line, _, rfl, rfl, htrim, hfirst, hrest,
          upToHeading_blank_iff hnl hnames rest⟩
      | some b =>
        exact .inr ⟨b, [], line, _, rfl, rfl, htrim, hfirst, hrest,
          toLineEnd_blockBehind hnl hnames rest hend⟩
    · have hsearch : (if trim blank line = name then
            (toLineEnd blank nl (blockBehind blank nl names) rest).or
              (blockBehind blank nl names (nl :: rest))
          else if line.all blank = true then
            heading blank nl name (blockBehind blank nl names) rest else none).or
            (searchLines nl (heading blank nl name (blockBehind blank nl names)) true rest)
          = searchLines nl (heading blank nl name (blockBehind blank nl names)) true rest := by
        rw [if_neg htrim]
        split
        · exact or_searchLines rest
        · exact Option.none_or
      rw [hsearch]
      rcases ih with ⟨hnone, hlast⟩ | ⟨b, before, l, after, hb, heq, hl, hbefore, hafter, hfollowed⟩
      · refine .inl ⟨hnone, fun before l after heq hl => ?_⟩
        cases before with
        | nil =>
          obtain ⟨rfl, -⟩ := List.cons.inj heq
          exact absurd hl htrim
        | cons first before => exact hlast before l after (List.cons.inj heq).2 hl
      · refine .inr ⟨b, line :: before, l, after, hb, by rw [heq]; rfl, hl, ?_, hafter, hfollowed⟩
        exact List.forall_mem_cons.mpr ⟨htrim, hbefore⟩

end Blocks

/-! ## The first line with a property -/

section First

variable {γ : Type*} {p : γ → Prop} {before before' after after' ls : List γ} {line line' : γ}

theorem exists_first (h : ∃ line ∈ ls, p line) :
    ∃ before line after, ls = before ++ line :: after ∧ p line ∧ ∀ l ∈ before, ¬p l := by
  classical
  induction ls with
  | nil => exact absurd h (by simp)
  | cons first ls ih =>
    by_cases hfirst : p first
    · exact ⟨[], first, ls, rfl, hfirst, fun l hl => nomatch hl⟩
    · obtain ⟨line, hline, hp⟩ := h
      rcases List.mem_cons.mp hline with rfl | hmem
      · exact absurd hp hfirst
      · obtain ⟨before, line, after, rfl, hp, hbefore⟩ := ih ⟨line, hmem, hp⟩
        exact ⟨first :: before, line, after, rfl, hp, List.forall_mem_cons.mpr ⟨hfirst, hbefore⟩⟩

/-- One list follows the first line. -/
theorem after_unique (heq : before ++ line :: after = before' ++ line' :: after') (hline : p line)
    (hline' : p line') (hbefore : ∀ l ∈ before, ¬p l) (hbefore' : ∀ l ∈ before', ¬p l) :
    after = after' := by
  induction before generalizing before' with
  | nil =>
    cases before' with
    | nil => exact (List.cons.inj heq).2
    | cons first before' =>
      obtain ⟨rfl, -⟩ := List.cons.inj heq
      exact absurd hline (hbefore' _ List.mem_cons_self)
  | cons first before ih =>
    cases before' with
    | nil =>
      obtain ⟨rfl, -⟩ := List.cons.inj heq
      exact absurd hline' (hbefore _ List.mem_cons_self)
    | cons first' before' =>
      exact ih (List.cons.inj heq).2 (fun l hl => hbefore l (List.mem_cons_of_mem _ hl))
        fun l hl => hbefore' l (List.mem_cons_of_mem _ hl)

end First

end LineSections
