import Mathlib.Data.List.DropRight
import ForgeKit.Lib.Json

/-!
# The three branch guards

The GitHub writer refuses `PROTECTED_BRANCHES` (`github_workos/branching.py`). The coding executor
asks two guards of its own: the shorter list of `coding_executor_reason.py` and the branch policy of
`governance/runtime_policy.py`. Each of the three keeps its own list and its own reading of a
qualified name.

* `writerRefuses`, `executorRefuses`, `validateBranchName` — the guards as the code has them
* `writerRefuses_iff` — the writer refuses by the last segment of the name
* `executorStops_iff` — what the executor's two guards stop of the names that the writer refuses
-/

namespace PyText

/-! ## Segments of a text -/

/-- `s.endswith(p)`. -/
def endsWith (s p : String) : Bool := p.toList.isSuffixOf s.toList

/-- `s.split("/")[-1]`. -/
def lastSegment (s : String) : String := String.ofList (s.toList.rtakeWhile (· ≠ '/'))

/-- `s.split("/", 1)[0]`, for any separator of one character. -/
def firstSegment (s : String) (sep : Char) : String := String.ofList (s.toList.takeWhile (· ≠ sep))

/-- A word without a slash is the last segment of what it is, or of what ends in it after a slash. -/
theorem lastSegment_eq_iff {s p : String} (h : '/' ∉ p.toList) :
    lastSegment s = p ↔ s = p ∨ endsWith s ("/" ++ p) = true := by
  have hp : ∀ c ∈ p.toList, decide (c ≠ '/') = true := fun c hc =>
    decide_eq_true fun heq => h (heq ▸ hc)
  have hsuffix : endsWith s ("/" ++ p) = true ↔ '/' :: p.toList <:+ s.toList := by
    rw [endsWith, List.isSuffixOf_iff_suffix, String.toList_append]
    rfl
  rw [hsuffix, ← String.toList_inj, ← String.toList_inj, lastSegment, String.toList_ofList]
  constructor
  · intro heq
    have hsplit := List.rdropWhile_append_rtakeWhile (p := fun c => decide (c ≠ '/')) (l := s.toList)
    rw [heq] at hsplit
    by_cases hne : s.toList.rdropWhile (fun c => decide (c ≠ '/')) = []
    · exact .inl (by rw [← hsplit, hne, List.nil_append])
    · -- What is left of the segment ends in the slash that stopped the walk.
      have hslash : (s.toList.rdropWhile fun c => decide (c ≠ '/')).getLast hne = '/' :=
        not_not.mp fun hn => List.rdropWhile_last_not _ _ hne (decide_eq_true hn)
      have hlast := List.dropLast_append_getLast hne
      rw [hslash] at hlast
      rw [← hlast] at hsplit
      exact .inr ⟨_, (List.append_assoc _ ['/'] p.toList).symm.trans hsplit⟩
  · rintro (heq | ⟨before, heq⟩)
    · rw [heq, List.rtakeWhile_eq_self_iff.mpr hp]
    · rw [← heq, ← List.singleton_append, ← List.append_assoc, List.rtakeWhile, List.reverse_append,
        List.takeWhile_append_of_pos fun c hc => hp c (List.mem_reverse.mp hc)]
      simp

end PyText

namespace ForgeKit

/-! ## The guard of the writer -/

namespace Branching

/-- `PROTECTED_BRANCHES`. -/
def protectedBranches : List String :=
  ["main", "master", "develop", "development", "production", "prod", "release", "staging", "trunk",
    "default"]

/-- `branching.is_protected_branch`. -/
def isProtectedBranch (name : Option String) : Bool :=
  match name with
  | none => false
  | some name =>
    if name = "" then false
    else
      let candidate := PyText.lower (PyText.strip name)
      protectedBranches.contains candidate
        || protectedBranches.any fun branch => PyText.endsWith candidate ("/" ++ branch)

end Branching

/-! ## The guards of the executor -/

/-- `_PROTECTED_BRANCH_NAMES`. -/
def protectedBranchNames : List String := ["main", "master", "develop", "dev", "prod", "release"]

/-- `coding_executor_reason.is_protected_branch`. -/
def isProtectedBranch (name : String) : Bool :=
  if name = "" then true
  else
    let candidate := PyText.lower (PyText.strip name)
    protectedBranchNames.contains candidate || PyText.startsWith candidate "release/"
      || PyText.startsWith candidate "hotfix/"

/-- `BRANCH_PREFIXES`. -/
def branchPrefixes : List String := ["feat", "fix", "chore", "refactor", "docs", "test", "perf"]

/-- `BranchPolicyResult`. -/
structure BranchPolicyResult where
  allowed : Bool
  name : String
  reason : String := ""
  warnings : List String := []
  suggestedPrefix : Option String := none

namespace RuntimePolicy

/-- `_PROTECTED_BRANCHES`. A frozenset: which of two matching names a refusal gives is open. -/
def protectedBranches : List String :=
  ["main", "master", "develop", "release", "hotfix", "production", "prod"]

/-- What a name may start with. -/
def isAlnum (c : Char) : Bool := ('a' ≤ c && c ≤ 'z') || ('0' ≤ c && c ≤ '9')

/-- What may follow. -/
def isBranchChar (c : Char) : Bool := isAlnum c || c == '.' || c == '_' || c == '-' || c == '/'

/-- `_BRANCH_NAME_RE` on a stripped text, which does not end in a newline. -/
def matchesBranchName (s : String) : Bool :=
  match s.toList with
  | [] => false
  | c :: cs => isAlnum c && cs.all isBranchChar

/-- The qualified-ref check of `validate_branch_name` for one protected name. -/
def refersTo (fullLower branch : String) : Bool :=
  fullLower == branch || PyText.endsWith fullLower ("/" ++ branch)
    || PyText.startsWith fullLower ("refs/heads/" ++ branch)
    || PyText.startsWith fullLower ("origin/" ++ branch)

/-- The warning for a name without the issue's number in it. -/
def anchorWarnings (candidate : String) (issueNumber : Option Int) : List String :=
  match issueNumber with
  | none => []
  | some n =>
    if 0 < n then
      let text := PyText.lower candidate
      if !PyText.contains text ("issue-" ++ toString n)
          && !PyText.contains text ("-" ++ toString n ++ "-")
          && !PyText.endsWith text ("-" ++ toString n) then
        ["missing_issue_anchor:#" ++ toString n]
      else []
    else []

/-- `validate_branch_name`. -/
def validateBranchName (name : Option String) (issueNumber : Option Int := none)
    (requireStandardPrefix : Bool := false) : BranchPolicyResult :=
  let candidate := PyText.strip (name.getD "")
  if candidate = "" then { allowed := false, name := "", reason := "empty_branch_name" }
  else
    let last := PyText.lower (PyText.lastSegment candidate)
    if protectedBranches.contains last then
      { allowed := false, name := candidate, reason := "protected_branch:" ++ last }
    else
      match protectedBranches.find? (refersTo (PyText.lower candidate)) with
      | some branch => { allowed := false, name := candidate, reason := "protected_branch:" ++ branch }
      | none =>
        if !matchesBranchName candidate then
          { allowed := false, name := candidate, reason := "invalid_branch_chars" }
        else
          let first := PyText.lower (PyText.firstSegment candidate '/')
          let standard := branchPrefixes.contains first || first == "agent"
          let prefixWarnings := if standard then [] else
            ["non_standard_prefix:" ++ first ++ " (권장: " ++ ", ".intercalate branchPrefixes ++ ")"]
          let suggested := if standard then none else some "feat"
          if !standard && requireStandardPrefix then
            ⟨false, candidate, "non_standard_prefix:" ++ first, prefixWarnings, suggested⟩
          else
            ⟨true, candidate, "", prefixWarnings ++ anchorWarnings candidate issueNumber, suggested⟩

end RuntimePolicy

/-! ## What the guards compare -/

/-- The writer refuses by the last segment of the lower-cased name. -/
theorem writerRefuses_iff {b : String} :
    Branching.isProtectedBranch (some b) = true ↔
      PyText.lastSegment (PyText.lower (PyText.strip b)) ∈ Branching.protectedBranches := by
  unfold Branching.isProtectedBranch
  have hslash : ∀ p ∈ Branching.protectedBranches, '/' ∉ p.toList := by decide
  by_cases hb : b = ""
  · subst hb
    decide
  · dsimp only
    rw [if_neg hb]
    simp only [Bool.or_eq_true, List.contains_iff_mem, List.any_eq_true]
    constructor
    · rintro (hmem | ⟨p, hp, hend⟩)
      · exact ((PyText.lastSegment_eq_iff (hslash _ hmem)).mpr (.inl rfl)).symm ▸ hmem
      · exact ((PyText.lastSegment_eq_iff (hslash _ hp)).mpr (.inr hend)).symm ▸ hp
    · intro hmem
      rcases (PyText.lastSegment_eq_iff (hslash _ hmem)).mp rfl with heq | hend
      · exact .inl (heq ▸ hmem)
      · exact .inr ⟨_, hmem, hend⟩

open RuntimePolicy in
theorem validateBranchName_allowed_iff {b : String} {issueNumber : Option Int} :
    (validateBranchName (some b) issueNumber).allowed = true ↔
      PyText.strip b ≠ "" ∧ PyText.lower (PyText.lastSegment (PyText.strip b)) ∉ protectedBranches ∧
        (∀ p ∈ protectedBranches, refersTo (PyText.lower (PyText.strip b)) p = false) ∧
        matchesBranchName (PyText.strip b) = true := by
  simp only [validateBranchName, Option.getD_some]
  by_cases hempty : PyText.strip b = ""
  · simp [hempty]
  · rw [if_neg hempty]
    by_cases hlast : PyText.lower (PyText.lastSegment (PyText.strip b)) ∈ protectedBranches
    · simp [hlast]
    · rw [if_neg (by simpa using hlast)]
      rcases hfind : protectedBranches.find? (refersTo (PyText.lower (PyText.strip b))) with _ | p
      · have hnone := List.find?_eq_none.mp hfind
        simp only [Bool.not_eq_true] at hnone
        by_cases hchars : matchesBranchName (PyText.strip b) = true
        · simp [hchars, hempty, hlast]
          exact hnone
        · simp [hchars]
      · have hmem := List.mem_of_find?_eq_some hfind
        have hrefers := List.find?_some hfind
        simp only [Bool.false_eq_true, false_iff, not_and]
        intro _ _ hall
        rw [hall p hmem] at hrefers
        cases hrefers

theorem lowerChar_of_isBranchChar {c : Char} (h : RuntimePolicy.isBranchChar c = true) :
    PyText.lowerChar c = [c] := by
  have hrange : c.toNat ≤ 57 ∨ c.toNat = 95 ∨ (97 ≤ c.toNat ∧ c.toNat ≤ 122) := by
    simp only [RuntimePolicy.isBranchChar, RuntimePolicy.isAlnum, Bool.or_eq_true, Bool.and_eq_true,
      decide_eq_true_eq, beq_iff_eq, Char.le_def, UInt32.le_iff_toNat_le] at h
    rcases h with ((((⟨h1, h2⟩ | ⟨h1, h2⟩) | rfl) | rfl) | rfl) | rfl
    · exact .inr (.inr ⟨h1, h2⟩)
    · exact .inl h2
    all_goals decide
  have hlower : c.toLower = c := by
    unfold Char.toLower
    rw [dif_neg]
    simp only [ge_iff_le, UInt32.le_iff_toNat_le]
    show ¬ (65 ≤ c.toNat ∧ c.toNat ≤ 90)
    omega
  unfold PyText.lowerChar
  rw [if_neg (by simp; omega), if_neg (by simp; omega), hlower]

theorem isBranchChar_of_matchesBranchName {s : String}
    (h : RuntimePolicy.matchesBranchName s = true) :
    ∀ c ∈ s.toList, RuntimePolicy.isBranchChar c = true := by
  unfold RuntimePolicy.matchesBranchName at h
  cases hs : s.toList with
  | nil => simp
  | cons c cs =>
    rw [hs, Bool.and_eq_true] at h
    intro d hd
    rcases List.mem_cons.mp hd with rfl | hd
    · simp [RuntimePolicy.isBranchChar, h.1]
    · exact List.all_eq_true.mp h.2 d hd

/-- A text of branch characters is its own lower case. -/
theorem lower_of_isBranchChar {s : String}
    (h : ∀ c ∈ s.toList, RuntimePolicy.isBranchChar c = true) : PyText.lower s = s := by
  have hself : s.toList.flatMap PyText.lowerChar = s.toList := by
    rw [List.flatMap_congr fun c hc => lowerChar_of_isBranchChar (h c hc), List.flatMap_singleton']
  rw [PyText.lower, hself, String.ofList_toList]

/-- Both guards of the executor let the branch through. -/
def ExecutorAccepts (b : String) : Prop :=
  isProtectedBranch b = false ∧ (RuntimePolicy.validateBranchName (some b)).allowed = true

/-- The protected names of the writer that no guard of the executor knows. -/
def unknownBranches : List String := ["development", "staging", "trunk", "default"]

/-- What makes a guard of the executor stop a name that the writer refuses. -/
def ExecutorCovers (b : String) : Prop :=
  let name := PyText.strip b
  PyText.lastSegment name ∉ unknownBranches
    ∨ RuntimePolicy.matchesBranchName name = false
    ∨ PyText.startsWith name "release/" = true ∨ PyText.startsWith name "hotfix/" = true
    ∨ ∃ p ∈ RuntimePolicy.protectedBranches, PyText.startsWith name ("refs/heads/" ++ p) = true
      ∨ PyText.startsWith name ("origin/" ++ p) = true

theorem refersTo_eq_false_iff {s p : String} (hp : '/' ∉ p.toList) :
    RuntimePolicy.refersTo s p = false ↔ PyText.lastSegment s ≠ p
      ∧ PyText.startsWith s ("refs/heads/" ++ p) = false
      ∧ PyText.startsWith s ("origin/" ++ p) = false := by
  rw [ne_eq, PyText.lastSegment_eq_iff hp]
  simp [RuntimePolicy.refersTo, and_assoc]

theorem isProtectedBranch_eq_false_iff {b : String} : isProtectedBranch b = false ↔
    b ≠ "" ∧ PyText.lower (PyText.strip b) ∉ protectedBranchNames
      ∧ PyText.startsWith (PyText.lower (PyText.strip b)) "release/" = false
      ∧ PyText.startsWith (PyText.lower (PyText.strip b)) "hotfix/" = false := by
  unfold isProtectedBranch
  by_cases hb : b = ""
  · simp [hb]
  · rw [if_neg hb]
    simp [hb, and_assoc]

/-- Of the names that the writer refuses, the executor's guards stop those and no others. -/
theorem executorAccepts_iff {b : String} (h : Branching.isProtectedBranch (some b) = true) :
    ExecutorAccepts b ↔ ¬ExecutorCovers b := by
  have hb : b ≠ "" := by
    rintro rfl
    exact absurd h (by decide)
  rw [writerRefuses_iff] at h
  unfold ExecutorAccepts ExecutorCovers
  dsimp only
  rw [validateBranchName_allowed_iff, isProtectedBranch_eq_false_iff]
  by_cases hchars : RuntimePolicy.matchesBranchName (PyText.strip b) = true
  · have hall := isBranchChar_of_matchesBranchName hchars
    have hlast : PyText.lower (PyText.lastSegment (PyText.strip b))
        = PyText.lastSegment (PyText.strip b) := by
      refine lower_of_isBranchChar fun c hc => hall c ?_
      rw [PyText.lastSegment, String.toList_ofList] at hc
      exact (List.rtakeWhile_suffix _ _).mem hc
    have hslash : ∀ p ∈ RuntimePolicy.protectedBranches, '/' ∉ p.toList := by decide
    rw [lower_of_isBranchChar hall] at h ⊢
    rw [hlast]
    generalize PyText.strip b = s at h hall hchars
    -- The writer's names are those of the policy and the unknown ones.
    have hsplit : PyText.lastSegment s ∉ RuntimePolicy.protectedBranches
        ↔ PyText.lastSegment s ∈ unknownBranches := by
      revert h
      generalize PyText.lastSegment s = last
      revert last
      decide
    have hnames : ∀ p ∈ protectedBranchNames, p ∉ unknownBranches ∧ '/' ∉ p.toList := by decide
    push Not
    constructor
    · rintro ⟨⟨-, -, hrelease, hhotfix⟩, -, hmem, hrefers, -⟩
      refine ⟨hsplit.mp hmem, by simp [hchars], by simp [hrelease], by simp [hhotfix], ?_⟩
      intro p hp
      have := (refersTo_eq_false_iff (hslash p hp)).mp (hrefers p hp)
      simp [this.2]
    · rintro ⟨hmem, -, hrelease, hhotfix, hqualified⟩
      refine ⟨⟨hb, ?_, by simpa using hrelease, by simpa using hhotfix⟩, ?_, hsplit.mpr hmem, ?_,
        hchars⟩
      · intro hname
        obtain ⟨hunknown, hno⟩ := hnames s hname
        rw [(PyText.lastSegment_eq_iff hno).mpr (.inl rfl)] at hmem
        exact hunknown hmem
      · rintro rfl
        exact absurd hchars (by decide)
      · intro p hp
        refine (refersTo_eq_false_iff (hslash p hp)).mpr ⟨?_, ?_, ?_⟩
        · rintro rfl
          exact hsplit.mpr hmem hp
        · simpa using (hqualified p hp).1
        · simpa using (hqualified p hp).2
  · simp [hchars]

end ForgeKit
