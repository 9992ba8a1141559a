import ForgeKit.Lib.PyCase
import ForgeKit.Lib.Trim

/-!
# The minimal contract of a repository (`github_work_order_recovery.py`, `github_workos_adapter.py`)

Where nothing is known of a repository but its name, a contract is made of `owner/name`. The recovery
of a work order and the Discord adapter each have their own copy of the parser.

* `minimalRepoContractFromRepo_eq` — the copies differ in the reason they give
* `repo_of_suffix` — a name is kept, with or without the suffix of a clone URL
* `minimalContract_agree` — the two together
-/

namespace ForgeKit.GithubWorkos

open Py (Text CodePoint lit strip ofChar isSpace)

/-- `RepoContract`. -/
structure RepoContract where
  owner : Text
  repo : Text
  primaryBranch : Option Text := none
  issueTemplates : List Text := []
  prTemplates : List Text := []
  contributing : Option Text := none
  readme : Option Text := none
  codeowners : Option Text := none
  workflows : List Text := []
  branchProtectionHint : Option Text := none
  branchStrategy : Option Text := none
  commitConvention : Option Text := none
  ssotPaths : List Text := []
  fallback : Bool := false
  failureMode : Option Text := none
  backend : Option Text := none
  changelog : Option Text := none
  versionFiles : List Text := []
  releaseWorkflows : List Text := []
  tagPolicy : Option Text := none
deriving DecidableEq

def slash : CodePoint := ofChar '/'

def gitSuffix : Text := lit ".git"

/-- `text.partition("/")`, without the separator. -/
def partitionSlash (text : Text) : Text × Text :=
  (text.takeWhile (· ≠ slash), (text.dropWhile (· ≠ slash)).drop 1)

/-- `name.rstrip(".git")`: every trailing `.`, `g`, `i` and `t`. -/
def rstripGit (name : Text) : Text := name.rdropWhile (gitSuffix.contains ·)

/-- `_minimal_repo_contract`. -/
def minimalRepoContract (repo : Option Text) : Option RepoContract :=
  let text := strip (repo.getD [])
  if text = [] ∨ slash ∉ text then none
  else
    let owner := strip (partitionSlash text).1
    let name := rstripGit (strip (partitionSlash text).2)
    if owner = [] ∨ name = [] then none
    else
      some
        { owner := owner, repo := name, fallback := true
          failureMode := some (lit "executor_recovered_minimal_contract"), backend := none }

/-- `_minimal_repo_contract_from_repo`. -/
def minimalRepoContractFromRepo (repo : Option Text) : Option RepoContract :=
  match repo with
  | none => none
  | some repo =>
    if repo = [] then none
    else
      let text := strip repo
      if text = [] ∨ slash ∉ text then none
      else
        let owner := strip (partitionSlash text).1
        let name := rstripGit (strip (partitionSlash text).2)
        if owner = [] ∨ name = [] then none
        else
          some
            { owner := owner, repo := name, fallback := true
              failureMode := some (lit "no_repo_contract_supplied_by_caller"), backend := none }

/-! ## The two copies -/

/-- **The copies differ in the reason they give.** -/
theorem minimalRepoContractFromRepo_eq (repo : Option Text) :
    minimalRepoContractFromRepo repo = (minimalRepoContract repo).map fun contract =>
      { contract with failureMode := some (lit "no_repo_contract_supplied_by_caller") } := by
  cases repo with
  | none => rfl
  | some repo =>
    unfold minimalRepoContractFromRepo minimalRepoContract
    dsimp only [Option.getD_some]
    by_cases hrepo : repo = []
    · rw [if_pos hrepo, hrepo]
      rfl
    · rw [if_neg hrepo]
      split
      · rfl
      · split <;> rfl

theorem failureMode_of_minimalRepoContract {repo : Option Text} {contract : RepoContract}
    (h : minimalRepoContract repo = some contract) :
    contract.failureMode = some (lit "executor_recovered_minimal_contract") := by
  unfold minimalRepoContract at h
  dsimp only at h
  split at h
  · cases h
  · split at h
    · cases h
    · cases h
      rfl

/-! ## Names of GitHub -/

/-- A character of an owner or of a repository: a letter, a digit, `-`, `_` or `.`. -/
def isGithubChar (c : CodePoint) : Bool :=
  (0x41 ≤ c.val && c.val ≤ 0x5A) || (0x61 ≤ c.val && c.val ≤ 0x7A) || (0x30 ≤ c.val && c.val ≤ 0x39)
    || c = ofChar '-' || c = ofChar '_' || c = ofChar '.'

/-- A name made of such characters. -/
structure GithubName where
  text : Text
  nonempty : text ≠ []
  chars : ∀ c ∈ text, isGithubChar c = true

theorem isSpace_of_githubChar {c : CodePoint} (h : isGithubChar c = true) : isSpace c = false := by
  have hmarks : ∀ d : CodePoint, d = ofChar '-' ∨ d = ofChar '_' ∨ d = ofChar '.' →
      isSpace d = false := by
    rintro d (rfl | rfl | rfl) <;> rfl
  simp only [isGithubChar, Bool.or_eq_true, Bool.and_eq_true, decide_eq_true_eq] at h
  rcases h with ((h | h) | h) | h
  · simp only [isSpace]
    simp
    omega
  · exact hmarks c (.inl h)
  · exact hmarks c (.inr (.inl h))
  · exact hmarks c (.inr (.inr h))

theorem ne_slash_of_githubChar {c : CodePoint} (h : isGithubChar c = true) : c ≠ slash := by
  rintro rfl
  exact absurd h (by decide)

/-- What stands before the first slash is the first part. -/
theorem partitionSlash_append {owner name : Text} (howner : slash ∉ owner) :
    partitionSlash (owner ++ slash :: name) = (owner, name) := by
  have hall : ∀ c ∈ owner, decide (c ≠ slash) = true := fun c hc =>
    decide_eq_true fun heq => howner (heq ▸ hc)
  unfold partitionSlash
  rw [List.takeWhile_append_of_pos hall, List.dropWhile_append_of_pos hall,
    List.takeWhile_cons_of_neg (by simp), List.dropWhile_cons_of_neg (by simp), List.append_nil]
  rfl

/-- A stem that ends in none of the stripped characters is kept, with the suffix and without it. -/
theorem rstripGit_append {stem suffix : Text} {last : CodePoint} (hlast : stem.getLast? = some last)
    (hkeep : last ∉ gitSuffix) (hsuffix : ∀ c ∈ suffix, c ∈ gitSuffix) :
    rstripGit (stem ++ suffix) = stem := by
  have hstops : gitSuffix.contains last = false := by
    rw [← Bool.not_eq_true, List.contains_iff_mem]
    exact hkeep
  have hnil : suffix.rdropWhile (gitSuffix.contains ·) = [] :=
    List.rdropWhile_eq_nil_iff.mpr fun c hc => List.contains_iff_mem.mpr (hsuffix c hc)
  unfold rstripGit
  rw [Trim.rdropWhile_append hlast hstops, hnil, List.append_nil]

/-- **A name is kept**, with or without the suffix, when it ends in none of the stripped characters. -/
theorem repo_of_suffix (owner stem : GithubName) {suffix : Text} (hsuffix : suffix ∈ [[], gitSuffix])
    (hends : ∀ c, stem.text.getLast? = some c → c ∉ gitSuffix) :
    minimalRepoContract (some (owner.text ++ slash :: (stem.text ++ suffix)))
      = some
          { owner := owner.text, repo := stem.text, fallback := true
            failureMode := some (lit "executor_recovered_minimal_contract") } := by
  have hchars : ∀ c ∈ suffix, c ∈ gitSuffix ∧ isSpace c = false := by
    have hgit : (gitSuffix.all fun c => !isSpace c) = true := by decide
    intro c hc
    simp only [List.mem_cons, List.not_mem_nil, or_false] at hsuffix
    rcases hsuffix with rfl | rfl
    · cases hc
    · exact ⟨hc, by simpa using List.all_eq_true.mp hgit c hc⟩
  have howner : ∀ c ∈ owner.text, isSpace c = false := fun c hc =>
    isSpace_of_githubChar (owner.chars c hc)
  have hname : ∀ c ∈ stem.text ++ suffix, isSpace c = false := by
    intro c hc
    rcases List.mem_append.mp hc with hc | hc
    · exact isSpace_of_githubChar (stem.chars c hc)
    · exact (hchars c hc).2
  have htext : ∀ c ∈ owner.text ++ slash :: (stem.text ++ suffix), isSpace c = false := by
    intro c hc
    rcases List.mem_append.mp hc with hc | hc
    · exact howner c hc
    · rcases List.mem_cons.mp hc with rfl | hc
      · decide
      · exact hname c hc
  have hslash : slash ∉ owner.text := fun h => ne_slash_of_githubChar (owner.chars _ h) rfl
  have hkept : rstripGit (stem.text ++ suffix) = stem.text :=
    rstripGit_append (List.getLast?_eq_some_getLast stem.nonempty)
      (hends _ (List.getLast?_eq_some_getLast stem.nonempty)) fun c hc => (hchars c hc).1
  unfold minimalRepoContract
  dsimp only [Option.getD_some]
  rw [Py.strip_eq_self htext, partitionSlash_append hslash, Py.strip_eq_self howner,
    Py.strip_eq_self hname, hkept, if_neg (by simp), if_neg (by simp [owner.nonempty, stem.nonempty])]

/-! ## Both copies on every name -/

/-- **The two parsers**: they return nothing for the same texts and differ in the reason they give
elsewhere; a name that ends in none of the stripped characters is kept by both. -/
theorem minimalContract_agree :
    (∀ repo : Option Text,
      minimalRepoContractFromRepo repo = (minimalRepoContract repo).map fun contract =>
        { contract with failureMode := some (lit "no_repo_contract_supplied_by_caller") })
      ∧ (∀ (repo : Option Text) (contract : RepoContract), minimalRepoContract repo = some contract →
        contract.failureMode = some (lit "executor_recovered_minimal_contract"))
      ∧ ∀ (owner stem : GithubName) (suffix : Text), suffix ∈ [[], gitSuffix] →
        (∀ c, stem.text.getLast? = some c → c ∉ gitSuffix) →
          let text := some (owner.text ++ slash :: (stem.text ++ suffix))
          ∃ recovered adapted, minimalRepoContract text = some recovered
            ∧ minimalRepoContractFromRepo text = some adapted
            ∧ recovered.owner = owner.text ∧ recovered.repo = stem.text
            ∧ adapted.owner = owner.text ∧ adapted.repo = stem.text := by
  refine ⟨minimalRepoContractFromRepo_eq, fun _ _ => failureMode_of_minimalRepoContract,
    fun owner stem suffix hsuffix hends => ?_⟩
  have hrecovered := repo_of_suffix owner stem hsuffix hends
  have hadapted := minimalRepoContractFromRepo_eq
    (some (owner.text ++ slash :: (stem.text ++ suffix)))
  rw [hrecovered, Option.map_some] at hadapted
  exact ⟨_, _, hrecovered, hadapted, rfl, rfl, rfl, rfl⟩

def studio : GithubName where
  text := lit "yule-studio"
  nonempty := by simp [lit]
  chars := by
    have hall : (lit "yule-studio").all isGithubChar = true := by decide
    exact List.all_eq_true.mp hall

def searchClone : GithubName where
  text := lit "naver-search-clone"
  nonempty := by simp [lit]
  chars := by
    have hall : (lit "naver-search-clone").all isGithubChar = true := by decide
    exact List.all_eq_true.mp hall

/-- The suffix of a clone URL is left out of the name. -/
theorem searchClone_kept : ∃ recovered,
    minimalRepoContract (some (lit "yule-studio/naver-search-clone.git")) = some recovered
      ∧ recovered.repo = lit "naver-search-clone" := by
  obtain ⟨-, -, hkept⟩ := minimalContract_agree
  obtain ⟨recovered, -, hrecovered, -, -, hrepo, -⟩ := hkept studio searchClone gitSuffix
    (by simp) (by
      intro c hc
      obtain rfl : ofChar 'e' = c := Option.some.inj hc
      decide)
  exact ⟨recovered, hrecovered, hrepo⟩

/-- **The contracts of `yule-studio/forgekit` are not equal**, and neither names the repository. -/
theorem forgekit_contracts_differ :
    minimalRepoContract (some (lit "yule-studio/forgekit"))
        ≠ minimalRepoContractFromRepo (some (lit "yule-studio/forgekit"))
      ∧ (minimalRepoContract (some (lit "yule-studio/forgekit"))).map (·.repo) ≠ some (lit "forgekit")
      ∧ (minimalRepoContractFromRepo (some (lit "yule-studio/forgekit"))).map (·.repo)
        ≠ some (lit "forgekit") := by
  refine ⟨?_, ?_, ?_⟩ <;> decide

end ForgeKit.GithubWorkos
