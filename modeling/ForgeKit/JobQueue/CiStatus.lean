import Mathlib.Data.List.Perm.Basic
import ForgeKit.Lib.Json

/-!
# The result of the check runs of a commit (`ci_status.py`)

The runs of a commit are read one after the other into four flags, and the flags decide the
conclusion. A run that is neither pending nor failed sets no flag, whatever else it says.

* `fromCheckRuns_success_iff` — the lists of runs that end in success
* `success_is_known_iff` — the lists of runs for which a success is one of known runs
-/

namespace ForgeKit

namespace Ci

inductive Conclusion where
  | success
  | failure
  | cancelled
  | timedOut
  | pending
  | unknown
deriving DecidableEq, Repr

/-- `_CONCLUSION_MAP.get(conclusion)`. -/
def conclusionMap (conclusion : String) : Option Conclusion :=
  if conclusion ∈ ["success", "neutral", "skipped"] then some .success
  else if conclusion ∈ ["failure", "action_required"] then some .failure
  else if conclusion = "cancelled" then some .cancelled
  else if conclusion = "timed_out" then some .timedOut
  else if conclusion = "stale" then some .unknown
  else none

structure CIStatus where
  prNumber : Int
  headSha : String
  conclusion : Conclusion
  fetchedAt : String := ""
  failingRuns : List String := []
  pendingRuns : List String := []
deriving DecidableEq

/-- `(run.get(key) or "").lower()`; `none` is the `AttributeError` of a value that is no text. -/
def lowerOf (run : Dict Json) (key : String) : Option String :=
  match run.getJson key with
  | .str s => some (PyText.lower s)
  | v => if v.truthy then none else some ""

/-- `str(run.get("name") or run.get("check_run_name") or "(unnamed)")`. -/
def nameOf (run : Dict Json) : String :=
  ((run.getJson "name").orElse ((run.getJson "check_run_name").orElse (.str "(unnamed)"))).toStr

/-- What the loop of `from_check_runs` has seen. -/
structure Seen where
  hasPending : Bool := false
  hasFailure : Bool := false
  hasCancelled : Bool := false
  hasTimedOut : Bool := false
  failing : List String := []
  pending : List String := []

/-- The body of the loop. -/
def see (seen : Seen) (run : Dict Json) : Option Seen :=
  let name := nameOf run
  match lowerOf run "status", lowerOf run "conclusion" with
  | some status, some conclusion =>
    if status ≠ "" ∧ status ≠ "completed" then
      some { seen with hasPending := true, pending := seen.pending ++ [name] }
    else
      match (conclusionMap conclusion).getD .unknown with
      | .failure => some { seen with hasFailure := true, failing := seen.failing ++ [name] }
      | .cancelled => some { seen with hasCancelled := true, failing := seen.failing ++ [name] }
      | .timedOut => some { seen with hasTimedOut := true, failing := seen.failing ++ [name] }
      | _ => some seen
  | _, _ => none

/-- The branches behind the loop. -/
def Seen.overall (seen : Seen) : Conclusion :=
  if seen.hasPending && !(seen.hasFailure || seen.hasCancelled || seen.hasTimedOut) then .pending
  else if seen.hasFailure then .failure
  else if seen.hasTimedOut then .timedOut
  else if seen.hasCancelled then .cancelled
  else if seen.hasPending then .pending
  else .success

/-- `from_check_runs`; `none` is the `AttributeError` of a run whose status or conclusion is no text. -/
def fromCheckRuns (prNumber : Int) (headSha : String) (runs : List (Dict Json))
    (fetchedAt : String) : Option CIStatus :=
  if runs = [] then some { prNumber, headSha, conclusion := .unknown, fetchedAt }
  else
    (runs.foldlM see {}).map fun seen =>
      { prNumber, headSha, conclusion := seen.overall, fetchedAt,
        failingRuns := seen.failing, pendingRuns := seen.pending }

/-! ## What one run says -/

/-- What the loop makes of a run. -/
inductive RunKind where
  /-- A status or conclusion that is no text. -/
  | malformed
  | pending
  | failure
  | cancelled
  | timedOut
  /-- No flag is set. -/
  | silent
deriving DecidableEq

def kindOf (run : Dict Json) : RunKind :=
  match lowerOf run "status", lowerOf run "conclusion" with
  | some status, some conclusion =>
    if status ≠ "" ∧ status ≠ "completed" then .pending
    else
      match (conclusionMap conclusion).getD .unknown with
      | .failure => .failure
      | .cancelled => .cancelled
      | .timedOut => .timedOut
      | _ => .silent
  | _, _ => .malformed

/-- A run that has completed with a conclusion that counts as success. -/
def Green (run : Dict Json) : Prop :=
  lowerOf run "status" = some "completed"
    ∧ ∃ conclusion ∈ ["success", "neutral", "skipped"], lowerOf run "conclusion" = some conclusion

/-- What the flags become, by the kind of the run and its name. -/
def Seen.mark (seen : Seen) (name : String) : RunKind → Option Seen
  | .malformed => none
  | .pending => some { seen with hasPending := true, pending := seen.pending ++ [name] }
  | .failure => some { seen with hasFailure := true, failing := seen.failing ++ [name] }
  | .cancelled => some { seen with hasCancelled := true, failing := seen.failing ++ [name] }
  | .timedOut => some { seen with hasTimedOut := true, failing := seen.failing ++ [name] }
  | .silent => some seen

theorem see_eq_mark (seen : Seen) (run : Dict Json) :
    see seen run = seen.mark (nameOf run) (kindOf run) := by
  unfold see kindOf
  cases lowerOf run "status" with
  | none => rfl
  | some status =>
    cases lowerOf run "conclusion" with
    | none => rfl
    | some conclusion =>
      dsimp only
      split
      · rfl
      · cases (conclusionMap conclusion).getD .unknown <;> rfl

theorem see_eq_none_iff {seen : Seen} {run : Dict Json} :
    see seen run = none ↔ kindOf run = .malformed := by
  rw [see_eq_mark]
  cases kindOf run <;> simp [Seen.mark]

/-- The flags after a run: one more of them is set, by what the run says alone. -/
theorem see_flags {seen seen' : Seen} {run : Dict Json} (h : see seen run = some seen') :
    seen'.hasPending = (seen.hasPending || decide (kindOf run = .pending))
      ∧ seen'.hasFailure = (seen.hasFailure || decide (kindOf run = .failure))
      ∧ seen'.hasCancelled = (seen.hasCancelled || decide (kindOf run = .cancelled))
      ∧ seen'.hasTimedOut = (seen.hasTimedOut || decide (kindOf run = .timedOut)) := by
  rw [see_eq_mark] at h
  cases hkind : kindOf run <;> rw [hkind] at h
  · cases h
  all_goals
    obtain rfl := Option.some.inj h
    simp

/-! ## The whole list -/

/-- The flags after the list, if no run is malformed. -/
theorem foldlM_see_flags {runs : List (Dict Json)} {seen seen' : Seen}
    (h : runs.foldlM see seen = some seen') :
    seen'.hasPending = (seen.hasPending || decide (.pending ∈ runs.map kindOf))
      ∧ seen'.hasFailure = (seen.hasFailure || decide (.failure ∈ runs.map kindOf))
      ∧ seen'.hasCancelled = (seen.hasCancelled || decide (.cancelled ∈ runs.map kindOf))
      ∧ seen'.hasTimedOut = (seen.hasTimedOut || decide (.timedOut ∈ runs.map kindOf)) := by
  induction runs generalizing seen with
  | nil =>
    obtain rfl := Option.some.inj h
    simp
  | cons run runs ih =>
    rw [List.foldlM_cons] at h
    obtain ⟨seen1, hsee, hrest⟩ := Option.bind_eq_some_iff.mp h
    obtain ⟨h1, h2, h3, h4⟩ := see_flags hsee
    obtain ⟨i1, i2, i3, i4⟩ := ih hrest
    simp only [List.map_cons, List.mem_cons, Bool.decide_or, eq_comm (b := kindOf run)]
    refine ⟨?_, ?_, ?_, ?_⟩
    · rw [i1, h1, Bool.or_assoc]
    · rw [i2, h2, Bool.or_assoc]
    · rw [i3, h3, Bool.or_assoc]
    · rw [i4, h4, Bool.or_assoc]

theorem foldlM_see_eq_none_iff {runs : List (Dict Json)} {seen : Seen} :
    runs.foldlM see seen = none ↔ .malformed ∈ runs.map kindOf := by
  induction runs generalizing seen with
  | nil => simp
  | cons run runs ih =>
    rw [List.foldlM_cons, List.map_cons, List.mem_cons]
    cases hsee : see seen run with
    | none => simp [see_eq_none_iff.mp hsee]
    | some seen' =>
      have hkind : RunKind.malformed ≠ kindOf run := by
        intro h
        rw [see_eq_none_iff.mpr h.symm] at hsee
        cases hsee
      simp only [Option.bind_eq_bind, Option.bind_some, hkind, false_or]
      exact ih

/-- The conclusion of a list of runs, from the kinds that are in it. -/
def conclusionOfKinds (kinds : List RunKind) : Option Conclusion :=
  if .malformed ∈ kinds then none
  else if .failure ∈ kinds then some .failure
  else if .timedOut ∈ kinds then some .timedOut
  else if .cancelled ∈ kinds then some .cancelled
  else if .pending ∈ kinds then some .pending
  else some .success

/-- **The conclusion depends on the kinds of the runs alone.** -/
theorem fromCheckRuns_conclusion {prNumber : Int} {headSha fetchedAt : String}
    {runs : List (Dict Json)} (hne : runs ≠ []) :
    (fromCheckRuns prNumber headSha runs fetchedAt).map CIStatus.conclusion
      = conclusionOfKinds (runs.map kindOf) := by
  unfold fromCheckRuns conclusionOfKinds
  rw [if_neg hne, Option.map_map]
  cases hfold : runs.foldlM see {} with
  | none => rw [if_pos (foldlM_see_eq_none_iff.mp hfold), Option.map_none]
  | some seen =>
    have hformed : RunKind.malformed ∉ runs.map kindOf := by
      intro h
      rw [foldlM_see_eq_none_iff.mpr h] at hfold
      cases hfold
    obtain ⟨h1, h2, h3, h4⟩ := foldlM_see_flags hfold
    rw [if_neg hformed, Option.map_some]
    simp only [Function.comp_apply, Seen.overall, h1, h2, h3, h4, Bool.false_or]
    by_cases hfailure : RunKind.failure ∈ runs.map kindOf
    · simp [hfailure]
    · by_cases htimed : RunKind.timedOut ∈ runs.map kindOf
      · simp [hfailure, htimed]
      · by_cases hcancelled : RunKind.cancelled ∈ runs.map kindOf
        · simp [hfailure, htimed, hcancelled]
        · by_cases hpending : RunKind.pending ∈ runs.map kindOf
          · simp [hfailure, htimed, hcancelled, hpending]
          · simp [hfailure, htimed, hcancelled, hpending]

theorem conclusionOfKinds_success_iff {kinds : List RunKind} :
    conclusionOfKinds kinds = some .success ↔ ∀ kind ∈ kinds, kind = .silent := by
  unfold conclusionOfKinds
  constructor
  · intro h kind hkind
    split at h
    · cases h
    · next hmalformed =>
      split at h
      · cases h
      · next hfailure =>
        split at h
        · cases h
        · next htimed =>
          split at h
          · cases h
          · next hcancelled =>
            split at h
            · cases h
            · next hpending =>
              cases kind with
              | malformed => exact absurd hkind hmalformed
              | pending => exact absurd hkind hpending
              | failure => exact absurd hkind hfailure
              | cancelled => exact absurd hkind hcancelled
              | timedOut => exact absurd hkind htimed
              | silent => rfl
  · intro h
    have hnot : ∀ kind, kind ≠ RunKind.silent → kind ∉ kinds := fun kind hne hmem => hne (h kind hmem)
    rw [if_neg (hnot _ (by decide)), if_neg (hnot _ (by decide)), if_neg (hnot _ (by decide)),
      if_neg (hnot _ (by decide)), if_neg (hnot _ (by decide))]

theorem conclusionOfKinds_perm {kinds kinds' : List RunKind} (h : kinds'.Perm kinds) :
    conclusionOfKinds kinds' = conclusionOfKinds kinds := by
  unfold conclusionOfKinds
  simp only [h.mem_iff]

/-- **The lists of runs that end in success**: the non-empty ones that set no flag. -/
theorem fromCheckRuns_success_iff {prNumber : Int} {headSha fetchedAt : String}
    {runs : List (Dict Json)} :
    (fromCheckRuns prNumber headSha runs fetchedAt).map CIStatus.conclusion = some .success
      ↔ runs ≠ [] ∧ ∀ run ∈ runs, kindOf run = .silent := by
  by_cases hne : runs = []
  · rw [hne]
    simp [fromCheckRuns]
  · rw [fromCheckRuns_conclusion hne, conclusionOfKinds_success_iff, List.forall_mem_map]
    simp [hne]

/-- The order of the runs does not matter to the conclusion. -/
theorem fromCheckRuns_perm {prNumber : Int} {headSha fetchedAt : String}
    {runs runs' : List (Dict Json)} (h : runs'.Perm runs) :
    (fromCheckRuns prNumber headSha runs' fetchedAt).map CIStatus.conclusion
      = (fromCheckRuns prNumber headSha runs fetchedAt).map CIStatus.conclusion := by
  by_cases hne : runs = []
  · obtain rfl : runs' = [] := List.perm_nil.mp (hne ▸ h)
    rw [hne]
  · have hne' : runs' ≠ [] := fun hnil => hne (List.nil_perm.mp (hnil ▸ h))
    rw [fromCheckRuns_conclusion hne, fromCheckRuns_conclusion hne',
      conclusionOfKinds_perm (h.map kindOf)]

/--
**When a success is one of known runs.** For every list of check runs: a returned success says that
every run has completed with `success`, `neutral` or `skipped`, and no order of the runs changes the
conclusion, exactly when some run is pending, failed or malformed, or every run has completed with
one of the three.
-/
theorem success_is_known_iff (prNumber : Int) (headSha fetchedAt : String)
    (runs : List (Dict Json)) :
    ((∀ s, fromCheckRuns prNumber headSha runs fetchedAt = some s → s.conclusion = .success →
        ∀ run ∈ runs, Green run)
      ∧ ∀ runs', runs'.Perm runs →
        (fromCheckRuns prNumber headSha runs' fetchedAt).map CIStatus.conclusion
          = (fromCheckRuns prNumber headSha runs fetchedAt).map CIStatus.conclusion)
      ↔ (∃ run ∈ runs, kindOf run ≠ .silent) ∨ ∀ run ∈ runs, Green run := by
  constructor
  · rintro ⟨hgreen, -⟩
    by_cases hsilent : ∀ run ∈ runs, kindOf run = .silent
    · refine .inr fun run hrun => ?_
      have hsuccess : (fromCheckRuns prNumber headSha runs fetchedAt).map CIStatus.conclusion
          = some .success := fromCheckRuns_success_iff.mpr ⟨List.ne_nil_of_mem hrun, hsilent⟩
      obtain ⟨s, hs, hconclusion⟩ := Option.map_eq_some_iff.mp hsuccess
      exact hgreen s hs hconclusion run hrun
    · push Not at hsilent
      exact .inl hsilent
  · intro h
    refine ⟨?_, fun runs' hperm => fromCheckRuns_perm hperm⟩
    intro s hs hconclusion
    have hsuccess : (fromCheckRuns prNumber headSha runs fetchedAt).map CIStatus.conclusion
        = some .success := by rw [hs, Option.map_some, hconclusion]
    obtain ⟨run, hrun, hkind⟩ | hgreen := h
    · exact absurd ((fromCheckRuns_success_iff.mp hsuccess).2 run hrun) hkind
    · exact hgreen

/-- A run that has gone stale. -/
def staleRun : Dict Json :=
  [("name", .str "build"), ("status", .str "completed"), ("conclusion", .str "stale")]

/-- **A stale run alone ends in success.** -/
theorem stale_run_is_success :
    fromCheckRuns 7 "c0ffee" [staleRun] "2025-01-01T00:00:00+00:00"
        = some { prNumber := 7, headSha := "c0ffee", conclusion := .success,
                 fetchedAt := "2025-01-01T00:00:00+00:00" }
      ∧ ¬∀ run ∈ [staleRun], Green run := by
  refine ⟨by decide +kernel, ?_⟩
  intro hgreen
  obtain ⟨-, conclusion, hmem, hconclusion⟩ := hgreen staleRun List.mem_cons_self
  have hstale : lowerOf staleRun "conclusion" = some "stale" := by decide +kernel
  rw [hstale] at hconclusion
  obtain rfl := Option.some.inj hconclusion
  revert hmem
  decide

end Ci

end ForgeKit
