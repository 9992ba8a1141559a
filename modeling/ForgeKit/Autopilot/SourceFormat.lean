import ForgeKit.Autopilot.HonestWrite
import ForgeKit.Lib.PyLiterals

/-!
# What formatting a source changes

`_whitespace_normalize` works on lines, and its guard compares what is no white space. A literal
that spans lines may have white space ahead of a line end, where both are blind.

* `whitespaceNormalize_idem` — normalizing twice is normalizing once
* `literals_whitespaceNormalize` — the literals afterwards
* `source_format_preserves_iff` — when every literal keeps its value
-/

namespace ForgeKit.Autopilot

open Py (Text CodePoint lit newline)
open PyLiterals

/-! ## Lines -/

theorem newline_notMem_of_splitLines {t line : Text} (h : line ∈ Py.splitLines t) :
    newline ∉ line := by
  induction t generalizing line with
  | nil =>
    rw [Py.splitLines, List.splitOn_nil, List.mem_singleton] at h
    simp [h]
  | cons c t ih =>
    rw [Py.splitLines, List.splitOn_cons_eq_if_modifyHead] at h
    split at h
    · rcases List.mem_cons.mp h with rfl | h
      · simp
      · exact ih h
    · next hc =>
      cases hlines : t.splitOn newline with
      | nil => exact absurd hlines (List.splitOn_ne_nil _ _)
      | cons first rest =>
        rw [hlines, List.modifyHead_cons] at h
        rcases List.mem_cons.mp h with rfl | h
        · have hfirst : newline ∉ first := ih (by rw [Py.splitLines, hlines]; simp)
          simp only [beq_iff_eq] at hc
          simpa using ⟨Ne.symm hc, hfirst⟩
        · exact ih (by rw [Py.splitLines, hlines]; exact List.mem_cons_of_mem _ h)

theorem joinLines_end {lines : List Text} (h : lines ≠ []) :
    Py.joinLines lines ++ [newline] = lines.flatMap (· ++ [newline]) := by
  obtain ⟨init, last, rfl⟩ := lines.eq_nil_or_concat'.resolve_left h
  rw [Py.joinLines_concat, List.flatMap_append, List.flatMap_singleton, List.append_assoc]

theorem text_end (t : Text) : t ++ [newline] = (Py.splitLines t).flatMap (· ++ [newline]) := by
  have hne : Py.splitLines t ≠ [] := List.splitOn_ne_nil _ _
  rw [← joinLines_end hne, Py.joinLines_splitLines]

theorem stripLines_end (t : Text) :
    stripLines t ++ [newline] = ((Py.splitLines t).map Py.rstrip).flatMap (· ++ [newline]) :=
  joinLines_end (by simp [Py.splitLines, List.splitOn_ne_nil])

/-- Stripping the lines drops white space ahead of line ends. -/
theorem trims_stripLines (t : Text) :
    ∃ n, Trims (t ++ [newline]) (stripLines t ++ [newline]) n := by
  rw [text_end, stripLines_end]
  exact LineEnds.trims_lines fun line => newline_notMem_of_splitLines

/-- A normalized text and the stripped one differ in the line ends that they end in. -/
theorem exists_newlines (t : Text) : ∃ u k j, stripLines t = u ++ List.replicate k newline
    ∧ whitespaceNormalize t = u ++ List.replicate j newline := by
  unfold whitespaceNormalize
  simp only
  split
  · have hends : ∀ c ∈ (stripLines t).rtakeWhile (· = newline), c = newline :=
      fun c hc => by simpa using List.mem_rtakeWhile_imp hc
    refine ⟨(stripLines t).rdropWhile (· = newline),
      ((stripLines t).rtakeWhile (· = newline)).length, 1, ?_, rfl⟩
    rw [← List.eq_replicate_of_mem hends]
    exact List.rdropWhile_append_rtakeWhile.symm
  · exact ⟨stripLines t, 0, 0, (List.append_nil _).symm, (List.append_nil _).symm⟩

/-! ## Normalizing twice -/

/-- No line ends in white space. -/
def Clean (t : Text) : Prop := ∀ line ∈ Py.splitLines t, Py.rstrip line = line

theorem Clean.stripLines {t : Text} (h : Clean t) : stripLines t = t := by
  have hmap : (Py.splitLines t).map Py.rstrip = Py.splitLines t := by
    rw [List.map_congr_left h, List.map_id']
  rw [Autopilot.stripLines, hmap, Py.joinLines_splitLines]

theorem clean_stripLines (t : Text) : Clean (stripLines t) := by
  intro line hline
  have hsplit : Py.splitLines (stripLines t) = (Py.splitLines t).map Py.rstrip := by
    refine List.splitOn_intercalate newline ?_ (by simp [Py.splitLines, List.splitOn_ne_nil])
    intro l hl hmem
    obtain ⟨line, hline, rfl⟩ := List.mem_map.mp hl
    exact newline_notMem_of_splitLines hline ((List.rdropWhile_prefix _ _).subset hmem)
  rw [hsplit] at hline
  obtain ⟨l, -, rfl⟩ := List.mem_map.mp hline
  exact List.rdropWhile_idempotent _ _

theorem clean_newlines {t : Text} (k : Nat) : Clean (t ++ List.replicate k newline) ↔ Clean t := by
  induction k with
  | zero => rw [List.replicate_zero, List.append_nil]
  | succ k ih =>
    have hsplit : Py.splitLines (t ++ List.replicate (k + 1) newline)
        = Py.splitLines (t ++ List.replicate k newline) ++ [[]] := by
      rw [List.replicate_succ', ← List.append_assoc]
      exact List.splitOn_append_cons_self _ _
    rw [← ih, Clean, Clean, hsplit]
    simp only [List.mem_append, List.mem_singleton, or_imp, forall_and, forall_eq]
    exact and_iff_left rfl

/-- **Normalizing twice is normalizing once.** -/
theorem whitespaceNormalize_idem (t : Text) :
    whitespaceNormalize (whitespaceNormalize t) = whitespaceNormalize t := by
  have hclean : Clean (whitespaceNormalize t) := by
    obtain ⟨u, k, j, hstrip, hnorm⟩ := exists_newlines t
    have hu := clean_stripLines t
    rw [hstrip, clean_newlines] at hu
    rw [hnorm, clean_newlines]
    exact hu
  have hdrop : whitespaceNormalize (whitespaceNormalize t)
      = if Py.strip (whitespaceNormalize t) ≠ [] then
          (whitespaceNormalize t).rdropWhile (· = newline) ++ [newline]
        else whitespaceNormalize t := by
    rw [whitespaceNormalize, hclean.stripLines]
  rw [hdrop]
  by_cases hblank : Py.strip (stripLines t) ≠ []
  · have hnorm : whitespaceNormalize t
        = (stripLines t).rdropWhile (· = newline) ++ [newline] := if_pos hblank
    -- one line end was put at the end, and it is the one that is dropped and put back
    rw [hnorm, List.rdropWhile_concat_pos _ _ _ (by simp), List.rdropWhile_idempotent]
    split <;> rfl
  · have hnorm : whitespaceNormalize t = stripLines t := if_neg hblank
    rw [hnorm, if_neg hblank]

/-! ## Literals -/

/-- White space ahead of a line end is not at the end of the text. -/
theorem blankAtEnd_newlines {u : Text} {j : Nat}
    (h : LineEnds.BlankAtEnd newline Py.isSpace (u ++ List.replicate (j + 1) newline)) :
    LineEnds.BlankAtEnd newline Py.isSpace (u ++ [newline]) := by
  induction j with
  | zero => exact h
  | succ j ih =>
    refine ih ?_
    obtain ⟨front, c, back, heq, hc, hne⟩ := h
    rw [List.replicate_succ', ← List.append_assoc] at heq
    rcases List.eq_nil_or_concat back with rfl | ⟨init, d, rfl⟩
    · have hsame : u ++ List.replicate (j + 1) newline = front ++ [c] := by
        have hconcat : u ++ List.replicate (j + 1) newline ++ [newline]
            = front ++ [c] ++ [newline] := by simpa using heq
        exact List.append_inj_left' hconcat rfl
      rw [List.replicate_succ', ← List.append_assoc] at hsame
      have hlast := List.append_inj_right' hsame rfl
      exact absurd (List.singleton_inj.mp hlast).symm hne
    · refine ⟨front, c, init, ?_, hc, hne⟩
      have hconcat : u ++ List.replicate (j + 1) newline ++ [newline]
          = front ++ c :: newline :: init ++ [d] := by simpa using heq
      exact List.append_inj_left' hconcat rfl

theorem not_blankAtEnd_whitespaceNormalize (t : Text) :
    ¬ LineEnds.BlankAtEnd newline Py.isSpace (whitespaceNormalize t ++ [newline]) := by
  intro h
  obtain ⟨u, k, j, hstrip, hnorm⟩ := exists_newlines t
  rw [hnorm, List.append_assoc, ← List.replicate_succ'] at h
  have hpart : u ++ [newline] <+: stripLines t ++ [newline] := by
    rw [hstrip, List.append_assoc, ← List.replicate_succ', List.replicate_succ]
    exact (List.prefix_append_right_inj u).mpr ⟨_, rfl⟩
  have hbad := (blankAtEnd_newlines h).of_part hpart.isInfix
  rw [stripLines_end] at hbad
  exact LineEnds.not_blankAtEnd_lines (fun line => newline_notMem_of_splitLines) hbad

/-- **The literals of a normalized source** are the literals of the source, trimmed. -/
theorem literals_whitespaceNormalize {t : Text} (hreturn : Py.carriageReturn ∉ t)
    {ls : List Literal} (h : literals t = some ls) :
    ∃ ls', literals (whitespaceNormalize t) = some ls' ∧ List.Forall₂ Trimmed ls ls'
      ∧ ∀ l' ∈ ls', ¬ l'.BlankAtEnd := by
  have hreturn' : Py.carriageReturn ∉ whitespaceNormalize t := by
    intro hmem
    rcases mem_whitespaceNormalize hmem with hmem | heq
    · exact hreturn hmem
    · exact absurd heq (by decide)
  rw [literals, Py.universalNewlines_eq_self_iff.mpr hreturn] at h
  rw [literals, Py.universalNewlines_eq_self_iff.mpr hreturn']
  obtain ⟨n, htrims⟩ := trims_stripLines t
  obtain ⟨ls', hscan, hls⟩ := scan_trims htrims h
  obtain ⟨u, k, j, hstrip, hnorm⟩ := exists_newlines t
  rw [hstrip, List.append_assoc, ← List.replicate_succ'] at hscan
  have hscan' : scan (whitespaceNormalize t ++ [newline]) = some ls' := by
    rw [hnorm, List.append_assoc, ← List.replicate_succ']
    exact scan_newlines hscan j
  refine ⟨ls', hscan', hls, fun l' hl' hbad => ?_⟩
  exact not_blankAtEnd_whitespaceNormalize t (hbad.of_part (infix_of_scan hscan' l' hl'))

/--
**Formatting a source** is idempotent and moves white space only; every string literal keeps its
value exactly when none of them has white space ahead of a line end.
-/
theorem source_format_preserves_iff (names : Text → Option CodePoint) (t : Text) :
    whitespaceNormalize (whitespaceNormalize t) = whitespaceNormalize t
      ∧ Py.nonspace (whitespaceNormalize t) = Py.nonspace t
      ∧ ∀ ls vs, Py.carriageReturn ∉ t → literals t = some ls → literalValues names t = some vs →
        (literalValues names (whitespaceNormalize t) = some vs ↔ ∀ l ∈ ls, ¬ l.BlankAtEnd) := by
  refine ⟨whitespaceNormalize_idem t, nonspace_whitespaceNormalize t, ?_⟩
  intro ls vs hreturn hls hvs
  obtain ⟨ls', hls', htrimmed, hclean⟩ := literals_whitespaceNormalize hreturn hls
  rw [literalValues, hls, Option.bind_some] at hvs
  obtain ⟨vs', hvs', hiff⟩ := values_trims htrimmed hclean hvs
  rw [literalValues, hls', Option.bind_some, hvs', Option.some.injEq]
  exact hiff

/-- A source with a blank at the end of a line, outside its literals. -/
def tidySource : Text := lit "x = 1 \ny = \"\"\"a\nb\"\"\"\n\n"

theorem tidySource_keeps_values :
    literalValues (fun _ => none) (whitespaceNormalize tidySource)
      = some [.text (lit "a\nb")] := by
  have hiff := (source_format_preserves_iff (fun _ => none) tidySource).2.2
    [⟨⟨.text, false⟩, lit "a\nb"⟩] [.text (lit "a\nb")] (by decide) (by decide)
    (by decide)
  exact hiff.mpr (by decide)

/-- `x = """a \nb"""`: the value of the literal loses its blank. -/
theorem blank_in_docstring_is_lost :
    ¬ ∀ (names : Text → Option CodePoint) (t : Text) (vs : List Value), Py.carriageReturn ∉ t →
      literalValues names t = some vs → literalValues names (whitespaceNormalize t) = some vs := by
  intro h
  have hkeeps := h (fun _ => none) (lit "x = \"\"\"a \nb\"\"\"\n") [.text (lit "a \nb")]
    (by decide) (by decide)
  revert hkeeps
  decide

end ForgeKit.Autopilot
